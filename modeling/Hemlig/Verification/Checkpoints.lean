import Hemlig.Verification.Cycles

/-!
# The statuses a pass writes

Between listing the imports and storing the cursors a pass knows, of each import it has not reached,
that its status is still the listed one, or that it was created again (`Cluster.Known.pending`); and
of each import it has reached, that the cursors it is going to store cover what the status records
(`Cluster.Tracks.settled`).  An import is passed over only if the cycle of its consumer, continued
from a cursor that covers it, has not reported a change; every other outcome records a version that
was read after the cycle, or no version.
-/

namespace Hemlig.Kubernetes

open Concurrent Controller Store

variable {runtime : Runtime} {issued : Request → Cluster → Prop} {pid : ℕ} {s s' : Cluster}
  {F : Cluster → Prop} {Spec : Type}

/-! ## What a pass knows -/

def keysOf (resources : List (Resource Spec)) : List NamespacedName :=
  resources.map fun resource => keyOf resource.metadata

/-- What a pass knows of a consumer that is ready: of the imports that are left, that the cursor the
cycle continued from covers them, and of the others, that the new one does. -/
structure Cluster.Tracks (s : Cluster) (left unsettled : List NamespacedName)
    (consumer : ReadyConsumer) : Prop where
  completed : s.Completed consumer.syncIdentity
    (storedCursor consumer.resource.status consumer.syncIdentity) consumer.sync
  earlier : ∀ checkpoint,
    storedCursor consumer.resource.status consumer.syncIdentity = some checkpoint →
    s.Bounds consumer.syncIdentity checkpoint ∧ ∀ key ∈ left,
      s.CoversImport (keyOf consumer.resource.metadata) consumer.syncIdentity checkpoint key
  settled : ∀ key ∉ unsettled, s.CoversImport (keyOf consumer.resource.metadata)
    consumer.syncIdentity consumer.sync.checkpoint key

/-- The status of an import is the listed one, unless the import was created again. -/
def Cluster.Pending (s : Cluster) (resource : SecretImport) : Prop :=
  ∃ (earlier : Stored ImportSpec) (key : NamespacedName), resource = earlier.resource key ∧
    ∀ stored, s.imports.get key = some stored → stored.status = none ∨ earlier.Before stored

/-- What a pass knows of the imports that are left and of the consumers that are ready. -/
structure Cluster.Known (s : Cluster) (left : List SecretImport) (unsettled : List NamespacedName)
    (readyConsumers : List ReadyConsumer) : Prop where
  pending : ∀ resource ∈ left, s.Pending resource
  tracks : ∀ consumer ∈ readyConsumers, s.Tracks (keysOf left) unsettled consumer

/-- A listed consumer has a cursor that covers every import. -/
def Cluster.Remembers (s : Cluster) (resource : Consumer) : Prop :=
  ∀ identity checkpoint, resource.status.bind ReconciliationStatus.cursor = some (identity, checkpoint) →
    s.Synced (keyOf resource.metadata) identity checkpoint

/-- What a pass knows while it makes the consumers ready. -/
structure Cluster.Readying (s : Cluster) (consumers : List Consumer) (imports : List SecretImport)
    (readyConsumers : List ReadyConsumer) : Prop where
  remembers : ∀ resource ∈ consumers, s.Remembers resource
  unlisted : ∀ key ∉ keysOf imports, ∀ stored, s.imports.get key = some stored →
    stored.status = none
  known : s.Known imports (keysOf imports) readyConsumers

theorem Cluster.Tracks.mono {left left' unsettled unsettled' : List NamespacedName}
    {consumer : ReadyConsumer} (h : s.Tracks left unsettled consumer) (hleft : left' ⊆ left)
    (hunsettled : unsettled ⊆ unsettled') : s.Tracks left' unsettled' consumer where
  completed := h.completed
  earlier checkpoint hcheckpoint := ⟨(h.earlier checkpoint hcheckpoint).1,
    fun key hkey => (h.earlier checkpoint hcheckpoint).2 key (hleft hkey)⟩
  settled key hkey := h.settled key fun hmem => hkey (hunsettled hmem)

theorem Cluster.Known.mono {left left' : List SecretImport}
    {unsettled unsettled' : List NamespacedName} {readyConsumers : List ReadyConsumer}
    (h : s.Known left unsettled readyConsumers) (hleft : left' ⊆ left)
    (hunsettled : unsettled ⊆ unsettled') : s.Known left' unsettled' readyConsumers where
  pending resource hresource := h.pending resource (hleft hresource)
  tracks consumer hconsumer := (h.tracks consumer hconsumer).mono (List.map_subset _ hleft)
    hunsettled

theorem lasting_pending (resource : SecretImport) : Lasting fun s => s.Pending resource := by
  rintro s s' _ hlater ⟨earlier, key, hresource, hpending⟩
  refine ⟨earlier, key, hresource, fun stored' hstored' => ?_⟩
  obtain hnone | ⟨stored, hstored, hbefore⟩ := hlater.imports key stored' hstored'
  · exact .inl hnone
  · exact (hpending stored hstored).imp (hbefore.status.trans ·) (·.trans hbefore)

theorem lasting_tracks (left unsettled : List NamespacedName) (consumer : ReadyConsumer) :
    Lasting fun s => s.Tracks left unsettled consumer := by
  intro s s' hsound hlater h
  refine ⟨lasting_completed _ _ _ s s' hsound hlater h.completed, fun checkpoint hcheckpoint => ?_,
    fun key hkey => (h.settled key hkey).later h.completed.bounds hlater⟩
  obtain ⟨hbounds, hcovers⟩ := h.earlier checkpoint hcheckpoint
  exact ⟨hbounds.later hlater, fun key hkey => (hcovers key hkey).later hbounds hlater⟩

theorem lasting_known (left : List SecretImport) (unsettled : List NamespacedName)
    (readyConsumers : List ReadyConsumer) :
    Lasting fun s => s.Known left unsettled readyConsumers :=
  fun s s' hsound hlater h =>
    ⟨fun resource hresource => lasting_pending resource s s' hsound hlater (h.pending resource hresource),
      fun consumer hconsumer => lasting_tracks _ _ _ s s' hsound hlater (h.tracks consumer hconsumer)⟩

theorem lasting_readying (consumers : List Consumer) (imports : List SecretImport)
    (readyConsumers : List ReadyConsumer) :
    Lasting fun s => s.Readying consumers imports readyConsumers := by
  intro s s' hsound hlater h
  refine ⟨fun resource hresource identity checkpoint hcursor =>
    (h.remembers resource hresource identity checkpoint hcursor).later hlater, ?_,
    lasting_known _ _ _ s s' hsound hlater h.known⟩
  intro key hkey stored' hstored'
  obtain hnone | ⟨stored, hstored, hbefore⟩ := hlater.imports key stored' hstored'
  · exact hnone
  · exact hbefore.status.trans (h.unlisted key hkey stored hstored)

/-! ## Writing a status -/

/-- A status is written, or left as it was listed. -/
theorem safe_setStatus {G : Cluster → Prop} {plural : Plural} {metadata : ObjectMeta}
    {status : ReconciliationStatus} {currentStatus : Option ReconciliationStatus} (hF : Lasting F)
    (hready : ∀ s, s.Sound → F s → s.Ready runtime (.patchStatus plural (keyOf metadata) status))
    (hpatch : ∀ s : Cluster, F s → G (s.patchStatus (keyOf metadata) status plural).2)
    (hskip : currentStatus = some status → ∀ s, F s → G s) :
    (passes runtime).Safe issued pid (Owned pid F) (setStatus plural metadata status currentStatus)
      (fun _ => Owned pid G) (fun _ => Owned pid fun s => F s ∨ G s) := by
  refine .ite (fun hsame => .ret fun s _ hs => hs.imp (hskip hsame s)) fun _ => ?_
  refine .bind (R := fun answer => Owned pid fun s => (∀ value, answer = .ok value → G s) ∧ (F s ∨ G s))
    (.request hF.stable (fun s hsound hs hrunning => hready s hsound (hs hrunning)) ?_)
    fun answer => .ofExcept (fun value hvalue s _ hs => hs.imp fun h => h.1 value hvalue)
      fun _ _ s _ hs => hs.imp And.right
  intro s choice answer s' hsound hs _ hexec _
  obtain ⟨hrunning, ⟨rfl, failure, rfl⟩ | ⟨rfl, -⟩⟩ :=
    Cluster.exec_cases (q := .patchStatus plural (keyOf metadata) status) (by simp) (by simp) hexec
  · exact ⟨fun value hvalue => (by cases hvalue), .inl (hs hrunning)⟩
  · exact ⟨fun _ _ => hpatch s (hs hrunning), .inr (hpatch s (hs hrunning))⟩

/-- The status of an import is written, and it records nothing that is not covered. -/
theorem Cluster.Known.patch {resource : SecretImport} {left : List SecretImport}
    {readyConsumers : List ReadyConsumer} {status : ReconciliationStatus}
    (h : s.Known left (keysOf (resource :: left)) readyConsumers)
    (hapart : keyOf resource.metadata ∉ keysOf left)
    (hcovers : ∀ version, status.recorded = some version → ∀ consumer ∈ readyConsumers,
      s.Covers consumer.syncIdentity consumer.sync.checkpoint version.secretUid
        version.controlVersionId) :
    (s.patchStatus (keyOf resource.metadata) status .imports).2.Known left (keysOf left)
      readyConsumers where
  pending := by
    intro other hother
    obtain ⟨earlier, key, rfl, hpending⟩ := h.pending other hother
    refine ⟨earlier, key, rfl, fun stored' hstored' => ?_⟩
    obtain ⟨hkey, -⟩ | ⟨hstored, -⟩ := Resources.get_patch hstored'
    · exact absurd (List.mem_map.mpr ⟨_, hother, hkey⟩) hapart
    · exact hpending stored' hstored
  tracks := by
    intro consumer hconsumer
    have htracks := h.tracks consumer hconsumer
    refine ⟨⟨htracks.completed.bounds, htracks.completed.covers, htracks.completed.unreported⟩,
      fun checkpoint hcheckpoint => ?_, fun key hkey stored' version hstored' hrecorded hconcerns => ?_⟩
    · obtain ⟨hbounds, hearlier⟩ := htracks.earlier checkpoint hcheckpoint
      refine ⟨hbounds, fun key hkey stored' version hstored' hrecorded hconcerns => ?_⟩
      obtain ⟨rfl, -⟩ | ⟨hstored, -⟩ := Resources.get_patch hstored'
      · exact absurd hkey hapart
      · exact hearlier key hkey stored' version hstored hrecorded hconcerns
    · obtain ⟨rfl, hstatus⟩ | ⟨hstored, hne⟩ := Resources.get_patch hstored'
      · rw [hstatus] at hrecorded
        exact hcovers version hrecorded consumer hconsumer
      · refine htracks.settled key (fun hmem => ?_) stored' version hstored hrecorded hconcerns
        obtain rfl | hrest := List.mem_cons.mp hmem
        · exact hne rfl
        · exact hkey hrest

/-- An import is settled as it is. -/
theorem Cluster.Known.settle {resource : SecretImport} {left : List SecretImport}
    {readyConsumers : List ReadyConsumer}
    (h : s.Known (resource :: left) (keysOf (resource :: left)) readyConsumers)
    (hcovers : ∀ consumer ∈ readyConsumers, s.CoversImport (keyOf consumer.resource.metadata)
      consumer.syncIdentity consumer.sync.checkpoint (keyOf resource.metadata)) :
    s.Known left (keysOf left) readyConsumers where
  pending other hother := h.pending other (List.mem_cons_of_mem _ hother)
  tracks consumer hconsumer := by
    have htracks := h.tracks consumer hconsumer
    refine ⟨htracks.completed, fun checkpoint hcheckpoint =>
      ⟨(htracks.earlier checkpoint hcheckpoint).1, fun key hkey =>
        (htracks.earlier checkpoint hcheckpoint).2 key (List.mem_cons_of_mem _ hkey)⟩,
      fun key hkey => ?_⟩
    by_cases hsame : key = keyOf resource.metadata
    · rw [hsame]
      exact hcovers consumer hconsumer
    · refine htracks.settled key fun hmem => ?_
      obtain hhead | hrest := List.mem_cons.mp hmem
      · exact hsame hhead
      · exact hkey hrest

/-- What a pending import records is what it was listed with. -/
theorem Cluster.Pending.recorded {resource : SecretImport} (h : s.Pending resource)
    {stored : Stored ImportSpec} (hstored : s.imports.get (keyOf resource.metadata) = some stored)
    {version : RecordedVersion}
    (hrecorded : stored.status.bind ReconciliationStatus.recorded = some version) :
    ∃ earlier : Stored ImportSpec, resource = earlier.resource (keyOf resource.metadata) ∧
      earlier.Before stored ∧ resource.status.bind ReconciliationStatus.recorded = some version := by
  obtain ⟨earlier, key, rfl, hpending⟩ := h
  obtain hnone | hbefore := hpending stored hstored
  · rw [hnone] at hrecorded
    cases hrecorded
  · rw [hbefore.status] at hrecorded
    exact ⟨earlier, rfl, hbefore, hrecorded⟩

/-! ## Imports -/

/-- The cursors that are stored, or going to be stored, cover a version. -/
def Cluster.Fresh (s : Cluster) (readyConsumers : List ReadyConsumer)
    (secretUid controlVersionId : String) : Prop :=
  s.CoversStored secretUid controlVersionId ∧ ∀ consumer ∈ readyConsumers,
    s.Covers consumer.syncIdentity consumer.sync.checkpoint secretUid controlVersionId

theorem lasting_fresh (left : List SecretImport) (unsettled : List NamespacedName)
    (readyConsumers : List ReadyConsumer) (secretUid controlVersionId : String) :
    Lasting fun s => s.Known left unsettled readyConsumers ∧
      s.Fresh readyConsumers secretUid controlVersionId := by
  rintro s s' hsound hlater ⟨hknown, hstored, hready⟩
  refine ⟨lasting_known _ _ _ s s' hsound hlater hknown, ?_, fun consumer hconsumer =>
    (hready consumer hconsumer).later (hknown.tracks consumer hconsumer).completed.bounds hlater⟩
  intro key stored' identity checkpoint hstored' hcursor
  obtain hnone | ⟨stored, hbefore, hsame⟩ := hlater.consumers key stored' hstored'
  · rw [hnone] at hcursor
    cases hcursor
  · have hcursor := hsame.status ▸ hcursor
    exact (hstored key stored identity checkpoint hbefore hcursor).later
      (hsound.synced hbefore hcursor).1 hlater

/-- What is stored for an import is what the site holds. -/
theorem Cluster.Sound.authentic (h : s.Sound) {identity : SyncIdentity} {secretId : String}
    {published : Published} {environment : String}
    (hfind : s.sites.find identity.apiUrl environment secretId = some published)
    {secret : AgentSecret} (hpayload : secret.payload = published.payload)
    (hversion : secret.controlVersionId = published.record.controlVersionId)
    (resource : SecretImport) (secretUid : String) :
    s.Authentic runtime (importBody runtime resource secretUid secret) := by
  obtain ⟨⟨uid, hpublished⟩, -⟩ := Sites.mem_published.mp (List.mem_of_find?_eq_some hfind)
  refine ⟨secret.controlVersionId, secret.payload, rfl, ?_, rfl⟩
  rw [hversion, hpayload]
  exact h.sites.payload hpublished

/-- The version that a site answers with is fresh. -/
theorem Cluster.Sound.fresh (h : s.Sound) {identity : SyncIdentity} {secretId : String}
    {published : Published} {environment : String}
    (hfind : s.sites.find identity.apiUrl environment secretId = some published)
    (readyConsumers : List ReadyConsumer) (secretUid : String) :
    s.Fresh readyConsumers secretUid published.record.controlVersionId := by
  obtain ⟨⟨uid, hpublished⟩, -⟩ := Sites.mem_published.mp (List.mem_of_find?_eq_some hfind)
  exact ⟨fun _ _ _ _ _ _ => h.covers hpublished _ _ _, fun _ _ => h.covers hpublished _ _ _⟩

/-- What a site answers an agent with. -/
theorem Sites.of_getAgentSecret {sites : Sites} {identity : SyncIdentity} {secretId : String}
    {ifNoneMatch : Option String} {remote : Option AgentSecret}
    (h : sites.getAgentSecret identity secretId ifNoneMatch = .ok remote) :
    ∃ environment published, sites.find identity.apiUrl environment secretId = some published ∧
      ((remote = none ∧ ifNoneMatch = some published.record.controlVersionId) ∨
        ∃ secret, remote = some secret ∧ secret.payload = published.payload ∧
          secret.controlVersionId = published.record.controlVersionId) := by
  unfold Sites.getAgentSecret at h
  cases hpermitted : sites.permitted identity secretId .read with
  | error failure =>
      rw [hpermitted] at h
      cases h
  | ok permitted =>
      obtain ⟨grant, published⟩ := permitted
      refine ⟨grant.environment, published, ?_, ?_⟩
      · unfold Sites.permitted at hpermitted
        cases hgrant : sites.activeGrant identity with
        | error failure =>
            rw [hgrant] at hpermitted
            cases hpermitted
        | ok found =>
            rw [hgrant] at hpermitted
            by_cases hcapability : AgentCapability.read ∈ found.capabilities
            · cases hfind : sites.find identity.apiUrl found.environment secretId with
              | none => simp [bind, Except.bind, hcapability, hfind] at hpermitted
              | some secret =>
                  simp only [bind, Except.bind, hcapability, not_true_eq_false, if_false, hfind] at hpermitted
                  split at hpermitted
                  · cases hpermitted
                    exact hfind
                  · cases hpermitted
            · simp [bind, Except.bind, hcapability] at hpermitted
      · rw [hpermitted] at h
        simp only [bind, Except.bind] at h
        split at h
        · cases h
        · split at h
          · rename_i hsame
            cases h
            exact .inl ⟨rfl, hsame⟩
          · cases h
            exact .inr ⟨_, rfl, rfl, rfl⟩

/-- The grant selects the secret by its name. -/
theorem safe_selectGrant {α : Type} {P : Cluster → Prop} {R : α → Cluster → Prop}
    {E : PassFailure → Cluster → Prop} {sync : Synchronization} {secretId : String}
    {capability : AgentCapability} {next : AgentSecretGrant → Pass α}
    (hfail : ∀ failure s, P s → E failure s)
    (hnext : ∀ selected ∈ sync.config.secretGrants,
      (passes runtime).Safe issued pid P (next selected) R E) :
    (passes runtime).Safe issued pid P ((selectGrant sync secretId capability).bind next) R E := by
  unfold selectGrant
  cases hfind : sync.config.secretGrants.find? (·.secretId = secretId) with
  | none => exact .raise fun s _ hs => hfail _ s hs
  | some selected =>
      dsimp only
      split
      · exact .raise fun s _ hs => hfail _ s hs
      · split
        · exact .raise fun s _ hs => hfail _ s hs
        · exact hnext selected (List.mem_of_find?_eq_some hfind)

/-- The version that is found is the recorded one. -/
def Recorded (resource : SecretImport) (secretUid version : String) : Prop :=
  ∃ status, resource.status = some status ∧ status.secretUid = some secretUid ∧
    status.controlVersionId = some version

theorem safe_currentImportVersion (hF : Lasting F) (resource : SecretImport) (secretUid : String) :
    (passes runtime).Safe issued pid (Owned pid F)
      (currentImportVersion runtime resource secretUid)
      (fun localVersion => Owned pid fun s => F s ∧ ∀ version, localVersion = some version →
        Recorded resource secretUid version) (fun _ => Owned pid F) := by
  have hnone : ∀ s, F s → F s ∧ ∀ version, (none : Option String) = some version →
      Recorded resource secretUid version := fun _ h => ⟨h, by simp⟩
  unfold currentImportVersion
  cases hstatus : resource.status with
  | none => exact .ret fun s _ hs => hs.imp (hnone s)
  | some status =>
      dsimp only
      split
      · exact .ret fun s _ hs => hs.imp (hnone s)
      · rename_i hrecorded
        rw [not_or, not_not] at hrecorded
        refine .recover (E := fun _ => Owned pid F) (.bind (safe_read hF _) fun current =>
          .ret fun s _ hs => hs.imp fun h => ⟨h.1, fun version hversion => ?_⟩) fun failure =>
          .ite (fun _ => .ret fun s _ hs => hs.imp (hnone s)) fun _ => .raise fun _ _ hs => hs
        split at hversion
        · exact ⟨status, hstatus, hrecorded.1, hversion⟩
        · cases hversion

/-- **An import is passed over only where the new cursor covers it.**  The cycle either reports the
recorded version, or it continues from a cursor that covers it and reports no change. -/
theorem Cluster.Known.current {resource : SecretImport} {left : List SecretImport}
    {readyConsumers : List ReadyConsumer}
    (h : s.Known (resource :: left) (keysOf (resource :: left)) readyConsumers)
    (hdistinct : (readyConsumers.map fun consumer => keyOf consumer.resource.metadata).Nodup)
    {consumer : ReadyConsumer} (hconsumer : consumer ∈ readyConsumers)
    (hreference : keyOf consumer.resource.metadata = consumerReferenceKey
      resource.metadata.inNamespace resource.spec.consumerRef resource.spec.consumerNamespace)
    {selected : AgentSecretGrant} (hselected : selected ∈ consumer.sync.config.secretGrants)
    {localVersion : Option String} (hlocal : ∀ version, localVersion = some version →
      Recorded resource selected.secretUid version)
    (hcurrent : isCurrent resource consumer.sync selected.secretUid localVersion = true) :
    s.Known left (keysOf left) readyConsumers := by
  refine h.settle fun other hother stored version hstored hrecorded hconcerns => ?_
  unfold isCurrent at hcurrent
  rw [decide_eq_true_eq] at hcurrent
  obtain ⟨hsome, hgeneration, hagrees⟩ := hcurrent
  obtain ⟨localVersion, rfl⟩ := Option.isSome_iff_exists.mp hsome
  obtain ⟨status, hstatus, huid, hversion⟩ := hlocal localVersion rfl
  obtain ⟨earlier, hresource, hbefore, hlisted⟩ :=
    (h.pending resource List.mem_cons_self).recorded hstored hrecorded
  -- The status records the version for the generation that was listed.
  have hobserved : status.observedGeneration = some earlier.generation := by
    rw [hstatus, hresource] at hgeneration
    exact hgeneration
  obtain rfl : version = ⟨selected.secretUid, localVersion, earlier.generation⟩ := by
    have heq : status.recorded = some version := by
      rw [hstatus] at hlisted
      exact hlisted
    unfold ReconciliationStatus.recorded at heq
    rw [huid, hversion, hobserved] at heq
    exact (Option.some.inj heq).symm
  -- The specification is the listed one, so that the import refers to the same consumer.
  obtain ⟨hle, hrefers⟩ := hconcerns
  have hbeforeLe := hbefore.generation
  dsimp only at hle hrefers
  have hsame : stored.generation = earlier.generation := by omega
  obtain rfl : consumer = other := by
    refine List.inj_on_of_nodup_map hdistinct hconsumer hother ?_
    rw [hreference, ← hrefers hsame.symm, Stored.reference, hbefore.spec hsame, hresource]
    rfl
  have htracks := h.tracks consumer hconsumer
  unfold agrees at hagrees
  cases hentry : consumer.sync.entries selected.secretUid with
  | some indexed =>
      rw [hentry] at hagrees
      obtain rfl := Option.some.inj (of_decide_eq_true hagrees)
      exact htracks.completed.covers _ indexed hentry
  | none =>
      rw [hentry] at hagrees
      have hsnapshot : consumer.sync.snapshot = false := by simpa using hagrees
      obtain ⟨checkpoint, hcheckpoint, henvironment, hgaps⟩ :=
        htracks.completed.unreported hsnapshot
      obtain ⟨-, hearlier⟩ := htracks.earlier checkpoint hcheckpoint
      have hcovers := hearlier _ List.mem_cons_self stored _ hstored hrecorded ⟨hle, hrefers⟩
      intro published hpublished hsite henv hbelongs
      obtain hversion | hlater := hcovers published hpublished hsite
        (henv.trans henvironment.symm) hbelongs
      · exact .inl hversion
      · obtain hle | hlt := hgaps selected hselected hentry published hpublished hsite henv
        · omega
        · exact .inr hlt

/-- A fresh version settles an import. -/
theorem Cluster.Known.fresh {resource : SecretImport} {left : List SecretImport}
    {readyConsumers : List ReadyConsumer} {secretUid version : String}
    (h : s.Known (resource :: left) (keysOf (resource :: left)) readyConsumers)
    (hfresh : s.Fresh readyConsumers secretUid version)
    (hrecorded : Recorded resource secretUid version) : s.Known left (keysOf left) readyConsumers := by
  refine h.settle fun consumer hconsumer stored recorded hstored hstatus _ => ?_
  obtain ⟨earlier, -, -, hlisted⟩ :=
    (h.pending resource List.mem_cons_self).recorded hstored hstatus
  obtain ⟨status, hsome, huid, hversion⟩ := hrecorded
  rw [hsome] at hlisted
  change status.recorded = some recorded at hlisted
  unfold ReconciliationStatus.recorded at hlisted
  rw [huid, hversion] at hlisted
  obtain ⟨generation, -, rfl⟩ := Option.map_eq_some_iff.mp hlisted
  exact hfresh.2 consumer hconsumer

/-- An import whose listed status records no version is settled. -/
theorem Cluster.Known.cleared {resource : SecretImport} {left : List SecretImport}
    {readyConsumers : List ReadyConsumer} {status : ReconciliationStatus}
    (h : s.Known (resource :: left) (keysOf (resource :: left)) readyConsumers)
    (hstatus : resource.status = some status) (hrecorded : status.recorded = none) :
    s.Known left (keysOf left) readyConsumers := by
  refine h.settle fun consumer _ stored version hstored hstored' _ => ?_
  obtain ⟨earlier, -, -, hlisted⟩ :=
    (h.pending resource List.mem_cons_self).recorded hstored hstored'
  rw [hstatus] at hlisted
  cases hrecorded.symm.trans hlisted

section

variable {resource : SecretImport} {left : List SecretImport} {readyConsumers : List ReadyConsumer}

/-- An import is under way: it is settled already, or as it was listed. -/
def Cluster.Underway (s : Cluster) (resource : SecretImport) (left : List SecretImport)
    (readyConsumers : List ReadyConsumer) : Prop :=
  s.Known (resource :: left) (keysOf (resource :: left)) readyConsumers ∨
    s.Known left (keysOf left) readyConsumers

theorem lasting_underway : Lasting fun s => s.Underway resource left readyConsumers :=
  (lasting_known _ _ _).or (lasting_known _ _ _)

/-- A status that records no version settles an import. -/
theorem safe_clear (hapart : keyOf resource.metadata ∉ keysOf left) {status : ReconciliationStatus}
    (hrecorded : status.recorded = none) :
    (passes runtime).Safe issued pid (Owned pid fun s => s.Underway resource left readyConsumers)
      (setStatus .imports resource.metadata status resource.status)
      (fun _ => Owned pid fun s => s.Known left (keysOf left) readyConsumers)
      (fun _ _ => True) := by
  refine (safe_setStatus lasting_underway ?_ ?_ ?_).weaken (fun _ _ h => h) (fun _ _ _ h => h)
    fun _ _ _ _ => trivial
  · intro s _ _ version hversion
    cases hrecorded.symm.trans hversion
  · intro s h
    have hnone : ∀ version, status.recorded = some version → ∀ consumer ∈ readyConsumers,
        s.Covers consumer.syncIdentity consumer.sync.checkpoint version.secretUid
          version.controlVersionId :=
      fun version hversion => by cases hrecorded.symm.trans hversion
    obtain hbefore | hafter := h
    · exact (hbefore.mono (List.subset_cons_self _ _) fun _ h => h).patch hapart hnone
    · exact (hafter.mono (fun _ h => h) (List.subset_cons_self _ _)).patch hapart hnone
  · intro hsame s h
    obtain hbefore | hafter := h
    · exact hbefore.cleared hsame hrecorded
    · exact hafter

theorem safe_setFailure (hapart : keyOf resource.metadata ∉ keysOf left) (failure : PassFailure) :
    (passes runtime).Safe issued pid (Owned pid fun s => s.Underway resource left readyConsumers)
      (setFailure .imports resource.metadata resource.status failure)
      (fun _ => Owned pid fun s => s.Known left (keysOf left) readyConsumers)
      (fun _ _ => True) :=
  safe_clear hapart rfl

/-- An import is read and stored, or passed over. -/
theorem safe_materialize (hapart : keyOf resource.metadata ∉ keysOf left)
    (hdistinct : (readyConsumers.map fun consumer => keyOf consumer.resource.metadata).Nodup)
    {consumer : ReadyConsumer} (hconsumer : consumer ∈ readyConsumers)
    (hreference : keyOf consumer.resource.metadata = consumerReferenceKey
      resource.metadata.inNamespace resource.spec.consumerRef resource.spec.consumerNamespace) :
    (passes runtime).Safe issued pid
      (Owned pid fun s => s.Known (resource :: left) (keysOf (resource :: left)) readyConsumers)
      (materialize runtime resource consumer)
      (fun _ => Owned pid fun s => s.Known left (keysOf left) readyConsumers)
      (fun _ => Owned pid fun s => s.Underway resource left readyConsumers) := by
  have hknown := lasting_known (resource :: left) (keysOf (resource :: left)) readyConsumers
  refine safe_selectGrant (fun _ _ hs => hs.imp .inl) fun selected hselected => ?_
  refine .bind ((safe_currentImportVersion hknown resource selected.secretUid).weaken
    (fun _ _ h => h) (fun _ _ _ h => h) fun _ _ _ hs => hs.imp .inl) fun localVersion => ?_
  refine .ite (fun hcurrent => .ret fun s _ hs => hs.imp fun h =>
    h.1.current hdistinct hconsumer hreference hselected h.2 hcurrent) fun _ => ?_
  have hlasting := hknown.and (.const (∀ version, localVersion = some version →
    Recorded resource selected.secretUid version))
  refine .bind ((safe_send (q := .getAgentSecret _ _ _) (R := fun (remote : Option AgentSecret) s =>
      (remote = none → s.Known left (keysOf left) readyConsumers) ∧ ∀ secret, remote = some secret →
        s.Fresh readyConsumers selected.secretUid secret.controlVersionId ∧
          s.Authentic runtime (importBody runtime resource selected.secretUid secret)) hlasting
      trivial (by simp) (fun _ _ _ => trivial) ?_).weaken (fun _ _ h => h) (fun _ _ _ h => h)
      fun _ _ _ hs => hs.imp fun h => .inl h.1) fun (remote : Option AgentSecret) => ?_
  · intro s choice remote hsound hs hanswer
    obtain ⟨environment, published, hfind, hcases⟩ := Sites.of_getAgentSecret hanswer
    have hfresh := hsound.fresh hfind readyConsumers selected.secretUid
    show (remote = none → s.Known left (keysOf left) readyConsumers) ∧ ∀ secret, remote = some secret →
      s.Fresh readyConsumers selected.secretUid secret.controlVersionId ∧
        s.Authentic runtime (importBody runtime resource selected.secretUid secret)
    obtain ⟨rfl, hmatch⟩ | ⟨secret, rfl, hpayload, hversion⟩ := hcases
    · refine ⟨fun _ => hs.1.fresh hfresh (hs.2 _ ?_), by simp⟩
      split at hmatch
      · exact hmatch
      · cases hmatch
    · refine ⟨by simp, fun other hother => ?_⟩
      obtain rfl := Option.some.inj hother
      refine ⟨?_, hsound.authentic hfind hpayload hversion resource selected.secretUid⟩
      rw [hversion]
      exact hfresh
  · cases remote with
    | none => exact .ret fun _ _ hs => hs.imp fun h => h.2.1 rfl
    | some secret =>
        have hauthentic : Lasting fun s =>
            s.Authentic runtime (importBody runtime resource selected.secretUid secret) :=
          lasting_authentic _
        have hboth := (lasting_fresh (resource :: left) (keysOf (resource :: left)) readyConsumers
          selected.secretUid secret.controlVersionId).and hauthentic
        refine Discipline.Safe.of_pre (P := Owned pid fun s =>
          (s.Known (resource :: left) (keysOf (resource :: left)) readyConsumers ∧
            s.Fresh readyConsumers selected.secretUid secret.controlVersionId) ∧
          s.Authentic runtime (importBody runtime resource selected.secretUid secret)) ?_
          fun _ _ hs => hs.imp fun h => ⟨⟨h.1.1, (h.2.2 secret rfl).1⟩, (h.2.2 secret rfl).2⟩
        refine .bind ((safe_applyImport hboth (by simp [isOwnedByImport, importBody])
          fun _ h => h.2).weaken (fun _ _ h => h) (fun _ _ _ h => h)
          fun _ _ _ hs => hs.imp fun h => .inl h.1.1) fun _ => ?_
        refine (safe_setStatus (G := fun s => s.Known left (keysOf left) readyConsumers) hboth
          ?_ ?_ ?_).weaken (fun _ _ h => h) (fun _ _ _ h => h)
          fun _ _ _ hs => hs.imp fun h => h.imp (fun h => h.1.1) id
        · intro s _ hs version hversion
          obtain ⟨generation, -, rfl⟩ := Option.map_eq_some_iff.mp hversion
          exact hs.1.2.1
        · intro s hs
          refine (hs.1.1.mono (List.subset_cons_self _ _) fun _ h => h).patch hapart
            fun version hversion => ?_
          obtain ⟨generation, -, rfl⟩ := Option.map_eq_some_iff.mp hversion
          exact hs.1.2.2
        · intro hsame s hs
          exact hs.1.1.fresh hs.1.2 ⟨_, hsame, rfl, rfl⟩

/-- **One import.**  Whatever happens to it, it is settled when the pass goes on. -/
theorem safe_reconcileImport (hapart : keyOf resource.metadata ∉ keysOf left)
    (hdistinct : (readyConsumers.map fun consumer => keyOf consumer.resource.metadata).Nodup)
    {consumer : Option ReadyConsumer} (hconsumer : ∀ ready, consumer = some ready →
      ready ∈ readyConsumers ∧ keyOf ready.resource.metadata = consumerReferenceKey
        resource.metadata.inNamespace resource.spec.consumerRef resource.spec.consumerNamespace) :
    (passes runtime).Safe issued pid
      (Owned pid fun s => s.Known (resource :: left) (keysOf (resource :: left)) readyConsumers)
      (reconcileImport runtime resource consumer)
      (fun _ => Owned pid fun s => s.Known left (keysOf left) readyConsumers) (fun _ _ => True) := by
  cases consumer with
  | none =>
      exact .bind ((safe_setFailure hapart _).of_pre fun _ _ hs => hs.imp .inl) fun _ =>
        .ret fun _ _ hs => hs
  | some consumer =>
      obtain ⟨hmem, hreference⟩ := hconsumer consumer rfl
      refine .recover (.bind (safe_materialize hapart hdistinct hmem hreference) fun _ =>
        .ret fun _ _ hs => hs) fun failure => .ite (fun _ => ?_) fun _ => ?_
      · refine .bind ((safe_removeOwnedImport lasting_underway resource).weaken (fun _ _ h => h)
          (fun _ _ _ h => h) fun _ _ _ _ => trivial) fun _ => ?_
        exact .bind (safe_clear hapart rfl) fun _ => .ret fun _ _ hs => hs
      · exact .bind (safe_setFailure hapart failure) fun _ => .ret fun _ _ hs => hs

end

end Hemlig.Kubernetes
