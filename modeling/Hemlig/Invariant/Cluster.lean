import Hemlig.Concurrent.RelyGuarantee
import Hemlig.Controller.Passes

/-!
# What a stored cursor promises

A consumer's cursor says that everything published up to it has been applied.  The invariant makes
this precise for each import whose status records a version: the site still holds that version, or
has published another one after the cursor, so that the next cycle reports it (`Covers`).

A publication takes a number beyond every cursor that is stored (`Bounds`), so that what is covered
stays covered whatever the sites publish.  `Later` is what everything but a status written by a pass
does to the cluster; the assertions of a pass are those that it keeps.
-/

namespace Hemlig.Kubernetes

open Concurrent Controller Store

/-! ## Cursors and recorded versions -/

/-- The cursor that the status of a consumer stores, and for whom. -/
def ReconciliationStatus.cursor (status : ReconciliationStatus) :
    Option (SyncIdentity × Checkpoint) :=
  status.syncIdentity.bind fun identity => status.syncCursor.map fun checkpoint =>
    (identity, checkpoint)

/-- The version that the status of an import records, and the generation it is recorded for. -/
structure RecordedVersion where
  secretUid : String
  controlVersionId : String
  observedGeneration : ℕ
  deriving DecidableEq, Repr

def ReconciliationStatus.recorded (status : ReconciliationStatus) : Option RecordedVersion :=
  status.secretUid.bind fun secretUid => status.controlVersionId.bind fun controlVersionId =>
    status.observedGeneration.map fun generation => ⟨secretUid, controlVersionId, generation⟩

/-- The consumer that an import refers to. -/
def Stored.reference (stored : Stored ImportSpec) (key : NamespacedName) : NamespacedName :=
  consumerReferenceKey key.inNamespace stored.spec.consumerRef stored.spec.consumerNamespace

/-- A recorded version concerns the consumer that the import refers to.  A status of a later
generation than the import has was written for one that was deleted and created again meanwhile; it
may come to concern any consumer. -/
def Stored.Concerns (stored : Stored ImportSpec) (key consumerKey : NamespacedName)
    (version : RecordedVersion) : Prop :=
  stored.generation ≤ version.observedGeneration ∧
    (version.observedGeneration = stored.generation → stored.reference key = consumerKey)

namespace Cluster

/-- The site holds the version, or what it holds instead was published after the cursor. -/
def Covers (s : Cluster) (identity : SyncIdentity) (checkpoint : Checkpoint)
    (secretUid controlVersionId : String) : Prop :=
  ∀ published, s.sites.index.get secretUid = some published → published.site = identity.apiUrl →
    published.environment = checkpoint.environment →
    s.sites.versions controlVersionId = some secretUid →
    published.record.controlVersionId = controlVersionId ∨ checkpoint.through < published.sequence

/-- Whatever is published comes after the cursor. -/
def Bounds (s : Cluster) (identity : SyncIdentity) (checkpoint : Checkpoint) : Prop :=
  checkpoint.through ≤ s.sites.counter identity.apiUrl checkpoint.environment

/-- The cursor of a consumer covers what an import records. -/
def CoversImport (s : Cluster) (consumerKey : NamespacedName) (identity : SyncIdentity)
    (checkpoint : Checkpoint) (key : NamespacedName) : Prop :=
  ∀ stored version, s.imports.get key = some stored →
    stored.status.bind ReconciliationStatus.recorded = some version →
    stored.Concerns key consumerKey version →
    s.Covers identity checkpoint version.secretUid version.controlVersionId

/-- The cursor of a consumer covers what every import records. -/
def Synced (s : Cluster) (consumerKey : NamespacedName) (identity : SyncIdentity)
    (checkpoint : Checkpoint) : Prop :=
  s.Bounds identity checkpoint ∧ ∀ key, s.CoversImport consumerKey identity checkpoint key

end Cluster

/-! ## The invariant -/

structure Sites.Sound (sites : Sites) : Prop where
  sequence : ∀ {secretUid published}, sites.index.get secretUid = some published →
    published.sequence ≤ sites.counter published.site published.environment
  named : ∀ {secretUid published}, sites.index.get secretUid = some published →
    published.record.secretUid = secretUid
  version : ∀ {secretUid published}, sites.index.get secretUid = some published →
    sites.versions published.record.controlVersionId = some secretUid
  payload : ∀ {secretUid published}, sites.index.get secretUid = some published →
    sites.payloads published.record.controlVersionId = some published.payload
  payloads : ∀ {version}, sites.versions version = none → sites.payloads version = none
  grants : ∀ {identity grant}, sites.agents identity = some grant →
    ∀ entry ∈ grant.secretGrants, ∃ published, sites.index.get entry.secretUid = some published ∧
      published.site = identity.apiUrl ∧ published.environment = grant.environment ∧
      published.record.secretId = entry.secretId

structure Cluster.Sound (s : Cluster) : Prop where
  sites : s.sites.Sound
  revision : ∀ {key secret}, s.secrets key = some secret → secret.resourceVersion ≤ s.revision
  synced : ∀ {key stored identity checkpoint}, s.consumers.get key = some stored →
    stored.status.bind ReconciliationStatus.cursor = some (identity, checkpoint) →
    s.Synced key identity checkpoint

/-! ## What steps leave -/

/-- Publications count on, and nothing a site has recorded is forgotten. -/
structure Sites.Later (sites sites' : Sites) : Prop where
  counter : ∀ site environment, sites.counter site environment ≤ sites'.counter site environment
  index : ∀ {secretUid published}, sites'.index.get secretUid = some published →
    (sites.index.get secretUid = some published ∧ ∀ version,
      sites'.versions version = some secretUid → sites.versions version = some secretUid) ∨
    sites.counter published.site published.environment < published.sequence
  payloads : ∀ {version payload}, sites.payloads version = some payload →
    sites'.payloads version = some payload
  requests : ∀ {certificate csr}, sites.requests certificate = some csr →
    sites'.requests certificate = some csr

/-- A resource as it was before some changes of its specification. -/
structure Stored.Before {Spec : Type} (stored stored' : Stored Spec) : Prop where
  status : stored'.status = stored.status
  generation : stored.generation ≤ stored'.generation
  spec : stored'.generation = stored.generation → stored'.spec = stored.spec

/-- Each resource was there before, with the status it has, or has no status. -/
def Resources.Kept {Spec : Type} (resources resources' : Resources Spec) : Prop :=
  ∀ key stored', resources'.get key = some stored' → stored'.status = none ∨
    ∃ stored, resources.get key = some stored ∧ stored.Before stored'

/-- What a step does that writes no status of a consumer or an import. -/
structure Cluster.Later (s s' : Cluster) : Prop where
  sites : s.sites.Later s'.sites
  consumers : s.consumers.Kept s'.consumers
  imports : s.imports.Kept s'.imports
  secrets : ∀ {key secret}, s'.secrets key = some secret →
    s.secrets key = some secret ∨ s.revision < secret.resourceVersion
  revision : s.revision ≤ s'.revision

variable {s s' : Cluster} {sites sites' : Sites} {Spec : Type}

theorem Stored.Before.refl (stored : Stored Spec) : stored.Before stored :=
  ⟨rfl, le_rfl, fun _ => rfl⟩

theorem Stored.Before.trans {first second third : Stored Spec} (h : first.Before second)
    (h' : second.Before third) : first.Before third := by
  refine ⟨h'.status.trans h.status, h.generation.trans h'.generation, fun heq => ?_⟩
  have hle := h.generation
  have hle' := h'.generation
  exact (h'.spec (by omega)).trans (h.spec (by omega))

theorem Resources.Kept.refl (resources : Resources Spec) : resources.Kept resources :=
  fun _ _ h => .inr ⟨_, h, .refl _⟩

theorem Sites.Later.refl (sites : Sites) : sites.Later sites :=
  ⟨fun _ _ => le_rfl, fun h => .inl ⟨h, fun _ h => h⟩, fun h => h, fun h => h⟩

theorem Cluster.Later.refl (s : Cluster) : s.Later s :=
  ⟨.refl _, .refl _, .refl _, .inl, le_rfl⟩

/-- Only the sites change. -/
theorem Cluster.Later.of_sites (h : s.sites.Later sites') : s.Later { s with sites := sites' } :=
  ⟨h, .refl _, .refl _, .inl, le_rfl⟩

/-! ### What stays covered -/

theorem Cluster.Bounds.later {identity : SyncIdentity} {checkpoint : Checkpoint}
    (h : s.Bounds identity checkpoint) (hlater : s.Later s') : s'.Bounds identity checkpoint :=
  le_trans h (hlater.sites.counter _ _)

theorem Cluster.Covers.later {identity : SyncIdentity} {checkpoint : Checkpoint}
    {secretUid controlVersionId : String} (h : s.Covers identity checkpoint secretUid controlVersionId)
    (hbounds : s.Bounds identity checkpoint) (hlater : s.Later s') :
    s'.Covers identity checkpoint secretUid controlVersionId := by
  intro published hpublished hsite henvironment hversion
  obtain ⟨hbefore, hversions⟩ | hnew := hlater.sites.index hpublished
  · exact h published hbefore hsite henvironment (hversions _ hversion)
  · unfold Cluster.Bounds at hbounds
    rw [hsite, henvironment] at hnew
    exact .inr (by omega)

theorem Stored.Concerns.before {stored stored' : Stored ImportSpec} {key consumerKey : NamespacedName}
    {version : RecordedVersion} (h : stored'.Concerns key consumerKey version)
    (hbefore : stored.Before stored') : stored.Concerns key consumerKey version := by
  have hle := hbefore.generation
  obtain ⟨hgeneration, hreference⟩ := h
  refine ⟨by omega, fun heq => ?_⟩
  have hsame : stored'.generation = stored.generation := by omega
  rw [← hreference (by omega), Stored.reference, Stored.reference, hbefore.spec hsame]

theorem Cluster.CoversImport.later {consumerKey key : NamespacedName} {identity : SyncIdentity}
    {checkpoint : Checkpoint} (h : s.CoversImport consumerKey identity checkpoint key)
    (hbounds : s.Bounds identity checkpoint) (hlater : s.Later s') :
    s'.CoversImport consumerKey identity checkpoint key := by
  intro stored' version hstored' hrecorded hconcerns
  obtain hnone | ⟨stored, hstored, hbefore⟩ := hlater.imports _ _ hstored'
  · rw [hnone] at hrecorded
    cases hrecorded
  · exact (h stored version hstored (hbefore.status ▸ hrecorded) (hconcerns.before hbefore)).later
      hbounds hlater

theorem Cluster.Synced.later {consumerKey : NamespacedName} {identity : SyncIdentity}
    {checkpoint : Checkpoint} (h : s.Synced consumerKey identity checkpoint)
    (hlater : s.Later s') : s'.Synced consumerKey identity checkpoint :=
  ⟨h.1.later hlater, fun key => (h.2 key).later h.1 hlater⟩

/-- The stored cursors keep what they promise. -/
theorem Cluster.Later.sound (hlater : s.Later s') (hsites : s'.sites.Sound)
    (hrevision : ∀ {key secret}, s'.secrets key = some secret → secret.resourceVersion ≤ s'.revision)
    (h : s.Sound) : s'.Sound where
  sites := hsites
  revision := hrevision
  synced := by
    intro key stored' identity checkpoint hstored' hcursor
    obtain hnone | ⟨stored, hstored, hbefore⟩ := hlater.consumers _ _ hstored'
    · rw [hnone] at hcursor
      cases hcursor
    · exact (h.synced hstored (hbefore.status ▸ hcursor)).later hlater

/-- What the site holds is covered by every cursor. -/
theorem Cluster.Sound.covers (h : s.Sound) {secretUid : String} {published : Published}
    (hpublished : s.sites.index.get secretUid = some published) (identity : SyncIdentity)
    (checkpoint : Checkpoint) (other : String) :
    s.Covers identity checkpoint other published.record.controlVersionId := by
  intro current hcurrent _ _ hversion
  obtain rfl : secretUid = other :=
    Option.some.inj ((h.sites.version hpublished).symm.trans hversion)
  exact .inl (by rw [Option.some.inj (hcurrent.symm.trans hpublished)])

/-! ## Sites -/

theorem Sites.of_publishable {site environment : String} {record : AgentSyncRecord}
    (h : sites.publishable site environment record = true) :
    (∀ earlier, sites.index.get record.secretUid = some earlier → earlier.site = site ∧
      earlier.environment = environment ∧ earlier.record.secretId = record.secretId) ∧
    sites.versions record.controlVersionId = none := by
  unfold Sites.publishable at h
  rw [decide_eq_true_eq] at h
  refine ⟨fun earlier hearlier => ?_, h.2.1⟩
  have hall := h.1
  rw [hearlier] at hall
  exact of_decide_eq_true hall

/-- What the index holds after a publication. -/
theorem Sites.get_publish {site environment : String} {record : AgentSyncRecord}
    {payload : SecretPayload} {secretUid : String} {published : Published}
    (h : (sites.publish site environment record payload).index.get secretUid = some published) :
    (secretUid = record.secretUid ∧
      published = ⟨site, sites.counter site environment + 1, environment, record, payload⟩) ∨
    (secretUid ≠ record.secretUid ∧ sites.index.get secretUid = some published) := by
  by_cases huid : secretUid = record.secretUid
  · subst huid
    exact .inl ⟨rfl, (Option.some.inj ((Table.get_set_self _ _ _).symm.trans h)).symm⟩
  · exact .inr ⟨huid, (Table.get_set_of_ne _ _ huid).symm.trans h⟩

theorem Sites.counter_publish (sites : Sites) (site environment : String) (record : AgentSyncRecord)
    (payload : SecretPayload) (site' environment' : String) :
    (sites.publish site environment record payload).counter site' environment' =
      if site' = site ∧ environment' = environment then sites.counter site environment + 1
      else sites.counter site' environment' := by
  unfold Sites.publish
  by_cases hsite : site' = site
  · subst hsite
    by_cases henvironment : environment' = environment
    · subst henvironment
      simp
    · simp [henvironment]
  · simp [hsite]

theorem Sites.versions_publish {site environment : String} {record : AgentSyncRecord}
    {payload : SecretPayload} {version secretUid : String}
    (h : (sites.publish site environment record payload).versions version = some secretUid) :
    (version = record.controlVersionId ∧ secretUid = record.secretUid) ∨
      sites.versions version = some secretUid := by
  change Function.update sites.versions record.controlVersionId (some record.secretUid) version =
    some secretUid at h
  by_cases hversion : version = record.controlVersionId
  · subst hversion
    rw [Function.update_self] at h
    exact .inl ⟨rfl, (Option.some.inj h).symm⟩
  · exact .inr ((Function.update_of_ne hversion _ _).symm.trans h)

theorem Sites.payloads_publish {site environment : String} {record : AgentSyncRecord}
    (payload : SecretPayload) {version : String} (hversion : version ≠ record.controlVersionId) :
    (sites.publish site environment record payload).payloads version = sites.payloads version :=
  Function.update_of_ne hversion _ _

theorem Sites.Sound.later_publish (h : sites.Sound) {site environment : String}
    {record : AgentSyncRecord} (hpublishable : sites.publishable site environment record = true)
    (payload : SecretPayload) : sites.Later (sites.publish site environment record payload) where
  counter site' environment' := by
    rw [counter_publish]
    split
    · rename_i heq
      rw [heq.1, heq.2]
      omega
    · exact le_rfl
  index := by
    intro secretUid published hpublished
    obtain ⟨-, rfl⟩ | ⟨hne, hbefore⟩ := get_publish hpublished
    · exact .inr (Nat.lt_succ_self _)
    · refine .inl ⟨hbefore, fun version hversion => ?_⟩
      obtain ⟨-, huid⟩ | hbefore := versions_publish hversion
      · exact absurd huid hne
      · exact hbefore
  payloads := by
    intro version payload' hpayload
    refine (payloads_publish payload ?_).trans hpayload
    rintro rfl
    cases (h.payloads (of_publishable hpublishable).2).symm.trans hpayload
  requests h := h

theorem Sites.Sound.publish (h : sites.Sound) {site environment : String} {record : AgentSyncRecord}
    (hpublishable : sites.publishable site environment record = true) (payload : SecretPayload) :
    (sites.publish site environment record payload).Sound := by
  obtain ⟨hsame, hfresh⟩ := of_publishable hpublishable
  have hlater := h.later_publish hpublishable payload
  have hversion {version secretUid : String} (hversion : sites.versions version = some secretUid) :
      (sites.publish site environment record payload).versions version = some secretUid := by
    refine (Function.update_of_ne ?_ _ _).trans hversion
    rintro rfl
    cases hfresh.symm.trans hversion
  constructor
  · intro secretUid published hpublished
    obtain ⟨-, rfl⟩ | ⟨-, hbefore⟩ := get_publish hpublished
    · rw [counter_publish, if_pos ⟨rfl, rfl⟩]
    · exact (h.sequence hbefore).trans (hlater.counter _ _)
  · intro secretUid published hpublished
    obtain ⟨rfl, rfl⟩ | ⟨-, hbefore⟩ := get_publish hpublished
    · rfl
    · exact h.named hbefore
  · intro secretUid published hpublished
    obtain ⟨rfl, rfl⟩ | ⟨-, hbefore⟩ := get_publish hpublished
    · exact Function.update_self ..
    · exact hversion (h.version hbefore)
  · intro secretUid published hpublished
    obtain ⟨rfl, rfl⟩ | ⟨-, hbefore⟩ := get_publish hpublished
    · exact Function.update_self ..
    · exact hlater.payloads (h.payload hbefore)
  · intro version hnone
    by_cases hsame : version = record.controlVersionId
    · subst hsame
      cases (Function.update_self ..).symm.trans hnone
    · exact (payloads_publish payload hsame).trans
        (h.payloads ((Function.update_of_ne hsame _ _).symm.trans hnone))
  · intro identity grant hgrant entry hentry
    obtain ⟨published, hpublished, hsite, henvironment, hsecretId⟩ := h.grants hgrant entry hentry
    by_cases huid : entry.secretUid = record.secretUid
    · obtain ⟨hsite', henvironment', hid⟩ := hsame published (huid ▸ hpublished)
      rw [huid]
      exact ⟨_, Table.get_set_self _ _ _, hsite'.symm.trans hsite,
        henvironment'.symm.trans henvironment, hid.symm.trans hsecretId⟩
    · exact ⟨published, (Table.get_set_of_ne _ _ huid).trans hpublished, hsite, henvironment,
        hsecretId⟩

/-- A write of an agent publishes, or leaves the sites as they are. -/
theorem Sites.write_cases (sites : Sites) (identity : SyncIdentity)
    (secretId expected operationKey : String) (change : AgentSyncRecord → AgentSyncRecord)
    (payload : Option SecretPayload) :
    (sites.write identity secretId expected operationKey change payload).2 = sites ∨
    ∃ environment record payload' replies,
      sites.publishable identity.apiUrl environment record = true ∧
      (sites.write identity secretId expected operationKey change payload).2 =
        { sites.publish identity.apiUrl environment record payload' with replies := replies } := by
  unfold Sites.write
  split
  · exact .inl rfl
  · split
    · exact .inl rfl
    · dsimp only
      split
      · exact .inl rfl
      · split
        · rename_i grant published _ _ hpublishable
          exact .inr ⟨_, _, _, _, hpublishable, rfl⟩
        · exact .inl rfl

/-! ## Events and requests -/

theorem Resources.Kept.apply (resources : Resources Spec) (key : NamespacedName) (uid : String)
    (spec : Option Spec) : resources.Kept (resources.apply key uid spec) := by
  intro other stored' hstored'
  unfold Resources.apply at hstored'
  by_cases hkey : other = key
  · subst hkey
    rw [Table.get_set_self] at hstored'
    obtain ⟨spec, rfl, rfl⟩ := Option.map_eq_some_iff.mp hstored'
    cases hstored : resources.get other with
    | none => exact .inl rfl
    | some stored =>
        refine .inr ⟨stored, rfl, rfl, ?_, fun heq => ?_⟩
        · exact Nat.le_succ _
        · exact absurd heq (Nat.succ_ne_self _)
  · rw [Table.get_set_of_ne _ _ hkey] at hstored'
    exact .inr ⟨stored', hstored', .refl _⟩

theorem Cluster.later_putSecret (s : Cluster) (key : NamespacedName) (body : SecretBody) :
    s.Later (s.putSecret key body) where
  sites := .refl _
  consumers := .refl _
  imports := .refl _
  secrets := by
    intro other secret hsecret
    rw [secrets_putSecret] at hsecret
    split at hsecret
    · obtain rfl := Option.some.inj hsecret
      exact .inr (Nat.lt_succ_self _)
    · exact .inl hsecret
  revision := Nat.le_succ _

theorem Cluster.later_removeSecret (s : Cluster) (key : NamespacedName) :
    s.Later (s.removeSecret key) where
  sites := .refl _
  consumers := .refl _
  imports := .refl _
  secrets := by
    intro other secret hsecret
    rw [secrets_removeSecret] at hsecret
    split at hsecret
    · cases hsecret
    · exact .inl hsecret
  revision := le_rfl

theorem Cluster.Sound.putSecret (h : s.Sound) (key : NamespacedName) (body : SecretBody) :
    (s.putSecret key body).Sound := by
  refine (s.later_putSecret key body).sound h.sites (fun {other secret} hsecret => ?_) h
  rw [secrets_putSecret] at hsecret
  split at hsecret
  · obtain rfl := Option.some.inj hsecret
    exact le_rfl
  · exact (h.revision hsecret).trans (Nat.le_succ _)

theorem Cluster.Sound.removeSecret (h : s.Sound) (key : NamespacedName) :
    (s.removeSecret key).Sound := by
  refine (s.later_removeSecret key).sound h.sites (fun {other secret} hsecret => ?_) h
  rw [secrets_removeSecret] at hsecret
  split at hsecret
  · cases hsecret
  · exact h.revision hsecret

/-- An agent is enrolled, or its grant is changed. -/
theorem Sites.Sound.agent (h : sites.Sound) {identity : SyncIdentity} {grant : AgentGrantRecord}
    (hgrantable : sites.grantable identity grant = true) :
    Sites.Sound { sites with agents := Function.update sites.agents identity (some grant) } where
  sequence := h.sequence
  named := h.named
  version := h.version
  payload := h.payload
  payloads := h.payloads
  grants := by
    intro other grant' hgrant' entry hentry
    by_cases hother : other = identity
    · subst hother
      have hself : Function.update sites.agents other (some grant) other = some grant' := hgrant'
      rw [Function.update_self] at hself
      obtain rfl := Option.some.inj hself
      unfold Sites.grantable at hgrantable
      rw [decide_eq_true_eq] at hgrantable
      have hany := List.all_eq_true.mp hgrantable.1 entry hentry
      obtain ⟨published, hpublished, hok⟩ := (Option.any_eq_true ..).mp hany
      exact ⟨published, hpublished, of_decide_eq_true hok⟩
    · exact h.grants ((Function.update_of_ne hother _ _).symm.trans hgrant') entry hentry

/-- **Events keep the invariant.**  Only passes write the status of a resource. -/
theorem Cluster.environment_later {event : Event} (h : s.Sound)
    (hevent : s.environment event = some s') : s.Later s' ∧ s'.Sound := by
  have of_kept {s' : Cluster} (hlater : s.Later s') (hsites : s'.sites = s.sites)
      (hsecrets : s'.secrets = s.secrets) (hrevision : s'.revision = s.revision) :
      s.Later s' ∧ s'.Sound :=
    ⟨hlater, hlater.sound (hsites ▸ h.sites)
      (fun hsecret => hrevision ▸ h.revision (hsecrets ▸ hsecret)) h⟩
  cases event with
  | provider name spec =>
      obtain rfl := Option.some.inj hevent
      exact of_kept ⟨.refl _, .refl _, .refl _, .inl, le_rfl⟩ rfl rfl rfl
  | consumer key uid spec =>
      obtain rfl := Option.some.inj hevent
      exact of_kept ⟨.refl _, .apply _ _ _ _, .refl _, .inl, le_rfl⟩
        rfl rfl rfl
  | secretImport key uid spec =>
      obtain rfl := Option.some.inj hevent
      exact of_kept ⟨.refl _, .refl _, .apply _ _ _ _, .inl, le_rfl⟩
        rfl rfl rfl
  | secretExport key uid spec =>
      obtain rfl := Option.some.inj hevent
      exact of_kept ⟨.refl _, .refl _, .refl _, .inl, le_rfl⟩ rfl rfl rfl
  | secret key body =>
      cases body with
      | some body =>
          obtain rfl := Option.some.inj hevent
          exact ⟨s.later_putSecret key body, h.putSecret key body⟩
      | none =>
          obtain rfl := Option.some.inj hevent
          exact ⟨s.later_removeSecret key, h.removeSecret key⟩
  | labels name labels =>
      obtain rfl := Option.some.inj hevent
      exact of_kept ⟨.refl _, .refl _, .refl _, .inl, le_rfl⟩ rfl rfl rfl
  | restart =>
      obtain rfl := Option.some.inj hevent
      exact of_kept ⟨.refl _, .refl _, .refl _, .inl, le_rfl⟩ rfl rfl rfl
  | publish site environment record payload =>
      obtain ⟨hpublishable, hsome⟩ := Option.ite_none_right_eq_some.mp hevent
      obtain rfl := Option.some.inj hsome
      have hlater := h.sites.later_publish hpublishable payload
      exact ⟨.of_sites hlater,
        (Cluster.Later.of_sites hlater).sound (h.sites.publish hpublishable payload) h.revision h⟩
  | agent identity grant =>
      obtain ⟨hgrantable, hsome⟩ := Option.ite_none_right_eq_some.mp hevent
      obtain rfl := Option.some.inj hsome
      have hlater : s.sites.Later
          { s.sites with agents := Function.update s.sites.agents identity (some grant) } :=
        ⟨fun _ _ => le_rfl, fun h => .inl ⟨h, fun _ h => h⟩, fun h => h, fun h => h⟩
      exact ⟨.of_sites hlater,
        (Cluster.Later.of_sites hlater).sound (h.sites.agent hgrantable) h.revision h⟩

end Hemlig.Kubernetes
