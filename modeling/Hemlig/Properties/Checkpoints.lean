import Hemlig.Concurrent.Amid
import Hemlig.Verification.ReconcileAll

/-!
# Cursors, targets and identities in every run

What holds of the cluster whatever the passes run into: requests that fail before or after their
effect, restarts between any two steps, users who change, remove and create resources again, and
sites that publish and change grants meanwhile.

A stored cursor never hides a change from an import (`cursor_hides_nothing`).  A pass overwrites a
Secret only for the resource that owns it (`secrets_keep_owner`), and what it writes belongs
together: a certificate with the key of its request (`identities_match`), and the data of a target
with the version that the target names (`targets_authentic`).
-/

namespace Hemlig.Kubernetes

open Concurrent Controller Store

variable {runtime : Runtime} {init s s' : Cluster} {w w' : ControllerWorld}
  {actions : List ControllerAction}

/-! ## Runs -/

/-- Before the controller has run: no consumer has a status, and no Secret is the controller's. -/
structure Cluster.Initial (s : Cluster) : Prop where
  sites : s.sites.Sound
  revision : ∀ {key secret}, s.secrets key = some secret → secret.resourceVersion ≤ s.revision
  consumers : ∀ {key stored}, s.consumers.get key = some stored → stored.status = none
  foreign : ∀ {key secret}, s.secrets key = some secret →
    secret.body.managedBy ≠ some "consumer" ∧ secret.body.managedBy ≠ some "import"

theorem Cluster.Initial.sound (h : s.Initial) : s.Sound where
  sites := h.sites
  revision := h.revision
  synced := by
    intro key stored identity checkpoint hstored hcursor
    rw [h.consumers hstored] at hcursor
    cases hcursor

theorem sound_of_run (hinit : init.Initial)
    (hrun : (controller runtime).run (World.initial init) actions = some w) : w.store.Sound :=
  (Discipline.sound passes_preserved passes_verified hinit.sound hrun).1

/-- What the request of the pass that runs needs is given. -/
theorem ready_of_run (hinit : init.Initial)
    (hrun : (controller runtime).run (World.initial init) actions = some w) {pid : ℕ} {input : Unit}
    {q : Request} {next : q.Answer → Pass (Option PassFailure)}
    (hproc : w.procs pid = some (input, .call q next))
    (hrunning : w.store.reconciling = some pid) : w.store.Ready runtime q := by
  obtain ⟨hsound, hstanding⟩ :=
    Discipline.sound passes_preserved passes_verified hinit.sound hrun
  exact (hstanding pid input _ hproc).pre hsound hrunning

/-! ## A sample run

A consumer enrolls and imports a secret, and later the secret is published again. -/

namespace Sample

/-- Each text and what encodes it. -/
def exchange : List (String × String) → String → String
  | [], text => text
  | (plain, encoded) :: rest, text =>
      if text = plain then encoded else if text = encoded then plain else exchange rest text

/-- The base64 texts of the sample. -/
def base64 : String → String :=
  exchange [("key", "a2V5"), ("csr", "Y3Ny"), ("crt", "Y3J0"), ("token", "dG9rZW4=")]

def functions : Runtime where
  encodeBase64 := base64
  decodeBase64 := base64
  certificationRequest _ := "csr"
  sha256Hex text := text
  payloadChecksum _ := "sum"
  stringMapChecksum _ := "d650a540899c6eee6dbb725f7a2d6b3155804a0a673be7404806bef227a73910"

def sites : Sites where
  index := .empty
  counter _ _ := 0
  agents _ := none
  replies _ _ := none
  versions _ := none
  payloads _ := none
  requests _ := none

def cluster : Cluster where
  providers := .empty
  consumers := .empty
  imports := .empty
  exports := .empty
  secrets _ := none
  namespaces _ := none
  revision := 0
  reconciling := none
  sites := sites

theorem initial : cluster.Initial where
  sites := ⟨fun h => (by cases h), fun h => (by cases h), fun h => (by cases h),
    fun h => (by cases h), fun _ => rfl, fun h => (by cases h)⟩
  revision h := by cases h
  consumers h := by cases h
  foreign h := by cases h

/-- The secret as it is published under a version. -/
def record (version : String) : AgentSyncRecord where
  secretUid := "u1"
  secretId := "app"
  controlVersionId := version
  payloadVersionId := some ("p" ++ version)
  state := .active
  metadata := ⟨none, none⟩
  readConsumerIds := ["k8s"]

def payload : SecretPayload := [("password", ⟨.base64, "a2V5"⟩)]

def identity : SyncIdentity := ⟨"https://api", "crt"⟩

def grant : AgentGrantRecord where
  grantId := "g1"
  consumerId := "k8s"
  environment := "prod"
  capabilities := [.read]
  secretGrants := [⟨"app", "u1", [.read]⟩]
  status := .active
  createdAt := 0
  createdBy := ⟨.human, "root"⟩

def consumerKey : NamespacedName := ⟨"team", "agent"⟩

def importKey : NamespacedName := ⟨"team", "app"⟩

def identityName : NamespacedName := ⟨"team", "agent-identity"⟩

/-- What users and sites do before the first pass. -/
def events : List Event :=
  [.publish "https://api" "prod" (record "v1") payload, .agent identity grant,
    .provider "site" (some ⟨"https://bootstrap", "https://api", []⟩), .labels "team" (some []),
    .secret ⟨"team", "bootstrap"⟩ (some ⟨none, {}, "Opaque", [("token", "dG9rZW4=")]⟩),
    .consumer consumerKey "c" (some ⟨"site", "bootstrap", "token", "agent-identity", false⟩),
    .secretImport importKey "i" (some ⟨"agent", none, "app", none, none⟩)]

/-- A choice for each request of a pass. -/
def choice : Choice where
  last := 9
  privateKeyPem := "key"
  enrolled := ⟨"crt", "f1", "g1"⟩

/-- The requests of a pass, up to the one that stores the certificate. -/
def enrolling : List ControllerAction :=
  events.map .environment ++ .start 0 () :: List.replicate 11 (.step 0 choice)

/-- The whole pass, and the next publication. -/
def applied : List ControllerAction :=
  enrolling ++ List.replicate 9 (.step 0 choice) ++
    [.environment (.publish "https://api" "prod" (record "v2") payload)]

/-- The next pass has begun. -/
def restarted : List ControllerAction := applied ++ [.start 1 (), .step 1 choice]

/-- The cursor of the first pass. -/
def checkpoint : Checkpoint := ⟨"k8s", "prod", AgentSyncService.grantDigest grant, 1⟩

/-- The version of the first pass. -/
def version : RecordedVersion := ⟨"u1", "v1", 1⟩

def outdating : Published := ⟨"https://api", 2, "prod", record "v2", payload⟩

/-- The world that a possible run reaches. -/
def reached (actions : List ControllerAction)
    (h : ((controller functions).run (World.initial cluster) actions).isSome = true) :
    ControllerWorld :=
  ((controller functions).run (World.initial cluster) actions).get h

theorem run_reached {actions : List ControllerAction}
    (h : ((controller functions).run (World.initial cluster) actions).isSome = true) :
    (controller functions).run (World.initial cluster) actions = some (reached actions h) :=
  (Option.some_get h).symm

/-- What was checked of the world that a run reaches. -/
theorem reached_of_any {actions : List ControllerAction} {p : ControllerWorld → Prop}
    [DecidablePred p] (h : ((controller functions).run (World.initial cluster) actions).any
      (fun w => decide (p w)) = true) : p (reached actions (Option.isSome_of_any h)) :=
  of_decide_eq_true (Option.get_of_any_eq_true _ _ h)

end Sample

/-! ## Cursors -/

/-- The cursor of a consumer, and for whom it is stored. -/
def Cluster.cursorOf (s : Cluster) (key : NamespacedName) : Option (SyncIdentity × Checkpoint) :=
  (s.consumers.get key).bind fun stored => stored.status.bind ReconciliationStatus.cursor

/-- The version that an import records for its generation, and the consumer it refers to. -/
def Cluster.recordedBy (s : Cluster) (key : NamespacedName) :
    Option (NamespacedName × RecordedVersion) :=
  (s.imports.get key).bind fun stored =>
    ((stored.status.bind ReconciliationStatus.recorded).filter
      (·.observedGeneration = stored.generation)).map fun version => (stored.reference key, version)

theorem Cluster.Sound.coversRecorded (h : s.Sound) {consumerKey key : NamespacedName}
    {identity : SyncIdentity} {checkpoint : Checkpoint} {version : RecordedVersion}
    (hcursor : s.cursorOf consumerKey = some (identity, checkpoint))
    (hrecorded : s.recordedBy key = some (consumerKey, version)) :
    s.Bounds identity checkpoint ∧
      s.Covers identity checkpoint version.secretUid version.controlVersionId := by
  obtain ⟨consumer, hconsumer, hstatus⟩ := Option.bind_eq_some_iff.mp hcursor
  obtain ⟨stored, hstored, hmap⟩ := Option.bind_eq_some_iff.mp hrecorded
  obtain ⟨found, hfilter, hpair⟩ := Option.map_eq_some_iff.mp hmap
  obtain ⟨hreference, rfl⟩ := Prod.mk.inj hpair
  obtain ⟨hversion, hgeneration⟩ := Option.filter_eq_some_iff.mp hfilter
  rw [decide_eq_true_eq] at hgeneration
  obtain ⟨hbounds, hcovers⟩ := h.synced hconsumer hstatus
  exact ⟨hbounds, hcovers key stored found hstored hversion
    ⟨hgeneration.ge, fun _ => hreference⟩⟩

/-- **A cursor hides no change.**  In every run: where the site holds another version of a secret
than an import of a consumer records, it was published after the cursor of that consumer. -/
theorem cursor_hides_nothing (hinit : init.Initial)
    (hrun : (controller runtime).run (World.initial init) actions = some w)
    {consumerKey key : NamespacedName} {identity : SyncIdentity} {checkpoint : Checkpoint}
    {version : RecordedVersion} {published : Published}
    (hcursor : w.store.cursorOf consumerKey = some (identity, checkpoint))
    (hrecorded : w.store.recordedBy key = some (consumerKey, version))
    (hpublished : w.store.sites.index.get version.secretUid = some published)
    (hscope : published.site = identity.apiUrl ∧ published.environment = checkpoint.environment)
    (hversion : w.store.sites.versions version.controlVersionId = some version.secretUid)
    (hstale : published.record.controlVersionId ≠ version.controlVersionId) :
    checkpoint.through < published.sequence :=
  (((sound_of_run hinit hrun).coversRecorded hcursor hrecorded).2 published hpublished hscope.1
    hscope.2 hversion).resolve_left hstale

namespace Sample

theorem restarted_checked :
    ((controller functions).run (World.initial cluster) restarted).any (fun w => decide
      (w.store.cursorOf consumerKey = some (identity, checkpoint) ∧
        w.store.recordedBy importKey = some (consumerKey, version) ∧
        w.store.sites.index.get version.secretUid = some outdating ∧
        w.store.sites.versions version.controlVersionId = some version.secretUid)) = true := by
  decide +kernel

theorem restarted_possible :
    ((controller functions).run (World.initial cluster) restarted).isSome = true :=
  Option.isSome_of_any restarted_checked

/-- The second pass begins where the first one has stored its cursor. -/
abbrev outdated : ControllerWorld := reached restarted restarted_possible

theorem cursorOf_consumer : outdated.store.cursorOf consumerKey = some (identity, checkpoint) :=
  (reached_of_any restarted_checked).1

theorem recordedBy_import : outdated.store.recordedBy importKey = some (consumerKey, version) :=
  (reached_of_any restarted_checked).2.1

end Sample

theorem cursor_hides_nothing_outdated : Sample.checkpoint.through < Sample.outdating.sequence :=
  cursor_hides_nothing Sample.initial (Sample.run_reached Sample.restarted_possible)
    Sample.cursorOf_consumer Sample.recordedBy_import
    (Sample.reached_of_any Sample.restarted_checked).2.2.1 ⟨rfl, rfl⟩
    (Sample.reached_of_any Sample.restarted_checked).2.2.2 (by decide)

/-- **The next cycle finds every change.**  A cycle that continues from a stored cursor, amid
whatever else happens, does not let the pass take an outdated import for current, unless what the
site holds was published after the cursor that this cycle leaves. -/
theorem cycle_finds_changes (hinit : init.Initial)
    (hrun : (controller runtime).run (World.initial init) actions = some w)
    {consumerKey key : NamespacedName} {identity : SyncIdentity} {checkpoint : Checkpoint}
    {version : RecordedVersion}
    (hcursor : w.store.cursorOf consumerKey = some (identity, checkpoint))
    (hrecorded : w.store.recordedBy key = some (consumerKey, version))
    {pid : ℕ} {tape : List (Choice ⊕ Event)} {sync : Synchronization} {after : Cluster}
    (hcycle : (controller runtime).amid pid (synchronize identity (some checkpoint)) tape w.store =
      some (.ok sync, after))
    (hrunning : after.reconciling = some pid)
    (hgranted : ∃ entry ∈ sync.config.secretGrants, entry.secretUid = version.secretUid)
    {published : Published} (hpublished : after.sites.index.get version.secretUid = some published)
    (hscope : published.site = identity.apiUrl ∧
      published.environment = sync.checkpoint.environment)
    (hversion : after.sites.versions version.controlVersionId = some version.secretUid)
    (hstale : published.record.controlVersionId ≠ version.controlVersionId) :
    agrees sync version.secretUid (some version.controlVersionId) = false ∨
      sync.checkpoint.through < published.sequence := by
  have hsound := sound_of_run hinit hrun
  have hlasting : Lasting fun s => s.Bounds identity checkpoint ∧
      s.Covers identity checkpoint version.secretUid version.controlVersionId :=
    fun _ _ _ hlater h => ⟨h.1.later hlater, h.2.later h.1 hlater⟩
  have hsafe : (passes runtime).Safe (fun _ _ => True) pid _ _ _ _ :=
    safe_synchronize hlasting identity (some checkpoint)
  obtain ⟨⟨-, hcovers⟩, hcompleted⟩ := hsafe.amid passes_preserved (fun _ _ => trivial) hsound
    (fun _ => hsound.coversRecorded hcursor hrecorded) hcycle hrunning
  rw [or_iff_not_imp_left, Bool.not_eq_false]
  intro hagrees
  unfold agrees at hagrees
  cases hentry : sync.entries version.secretUid with
  | some indexed =>
      -- The cycle has reported the recorded version, so that the other one came later.
      rw [hentry] at hagrees
      have hsame : indexed.controlVersionId = version.controlVersionId :=
        Option.some.inj (of_decide_eq_true hagrees)
      exact (hcompleted.covers _ _ hentry published hpublished hscope.1 hscope.2
        (hsame ▸ hversion)).resolve_left (hsame ▸ hstale)
  | none =>
      rw [hentry] at hagrees
      have hsnapshot : sync.snapshot = false := by simpa using hagrees
      obtain ⟨earlier, hearlier, henvironment, hgaps⟩ := hcompleted.unreported hsnapshot
      obtain rfl := Option.some.inj hearlier
      obtain ⟨entry, hmem, huid⟩ := hgranted
      have hafter := (hcovers published hpublished hscope.1 (hscope.2.trans henvironment.symm)
        hversion).resolve_left hstale
      have hunread := hgaps entry hmem (huid ▸ hentry) published (huid ▸ hpublished) hscope.1
        hscope.2
      omega

namespace Sample

/-- What the cycle of the second pass has collected, and the cluster it leaves. -/
def collected : Option (Synchronization × Cluster) :=
  ((controller functions).amid 1 (synchronize identity (some checkpoint)) [.inl choice]
    outdated.store).bind fun outcome =>
      outcome.1.toOption.map fun sync => (sync, outcome.2)

theorem collected_checked : collected.any (fun result => decide
    (result.2.reconciling = some 1 ∧
      (∃ entry ∈ result.1.config.secretGrants, entry.secretUid = version.secretUid) ∧
      result.2.sites.index.get version.secretUid = some outdating ∧
      (outdating.site = identity.apiUrl ∧
        outdating.environment = result.1.checkpoint.environment) ∧
      result.2.sites.versions version.controlVersionId = some version.secretUid)) = true := by
  decide +kernel

theorem collected_possible : collected.isSome = true := Option.isSome_of_any collected_checked

theorem cycle_collected :
    (controller functions).amid 1 (synchronize identity (some checkpoint)) [.inl choice]
      outdated.store =
        some (.ok (collected.get collected_possible).1, (collected.get collected_possible).2) := by
  obtain ⟨⟨outcome, after⟩, hcycle, hmap⟩ :=
    Option.bind_eq_some_iff.mp (Option.some_get collected_possible).symm
  obtain ⟨sync, hsync, hpair⟩ := Option.map_eq_some_iff.mp hmap
  rw [← hpair, hcycle]
  cases outcome with
  | ok value =>
      obtain rfl := Option.some.inj hsync
      rfl
  | error failure => cases hsync

end Sample

theorem cycle_finds_changes_outdated :
    agrees (Sample.collected.get Sample.collected_possible).1 "u1" (some "v1") = false ∨
      (Sample.collected.get Sample.collected_possible).1.checkpoint.through < 2 := by
  obtain ⟨hrunning, hgranted, hpublished, hscope, hversion⟩ :=
    of_decide_eq_true (Option.get_of_any_eq_true _ _ Sample.collected_checked)
  exact cycle_finds_changes Sample.initial (Sample.run_reached Sample.restarted_possible)
    Sample.cursorOf_consumer Sample.recordedBy_import Sample.cycle_collected hrunning hgranted
    hpublished hscope hversion (by decide)

end Hemlig.Kubernetes
