import Hemlig.Invariant.Abort
import Hemlig.Invariant.CommitStep
import Hemlig.Invariant.Registration

/-!
# Every step keeps the invariant

A request that is sent under the discipline, whatever it answers, and every event of
the environment keep the invariant, and evolve the cloud as the others may rely on.
A request other than a preparation or a commit is quiet: it does not even disturb
what its own process knows.
-/

namespace Hemlig

open Concurrent Store DynamoRepository AgentSyncRepository

variable {init s s' : Cloud} {pid : ℕ}

/-! ## Quiet steps -/

/-- A gentle write to the table that is no part of an index. -/
theorem Gentle.quiet_of_table {table : Table Key Item} (h : Gentle s { s with table := table })
    (hinv : Invariant init s) (hsync : SyncKept s { s with table := table })
    (hcapabilities : CapabilitiesStep s { s with table := table }) :
    Quiet init s { s with table := table } :=
  h.quiet_of_kept hinv hsync hcapabilities id fun _ hnone => hnone

/-- A gentle step that leaves the table, the index and the history alone. -/
theorem Gentle.quiet_of_same {s' : Cloud} (h : Gentle s s') (hinv : Invariant init s)
    (htable : s'.table = s.table) (hhistory : s'.history = s.history)
    (hgone : ∀ {reference}, reference.versionId ∈ s.known → s.object reference = none →
      s'.object reference = none) : Quiet init s s' := by
  have hsame : ∀ key, s'.table.get key = s.table.get key := fun key => by rw [htable]
  have hevents : ∀ {event}, s'.Happened event → s.Happened event := fun hhappened => by
    rwa [Cloud.Happened, hhistory] at hhappened
  exact h.quiet_of_kept hinv
    { state := fun environment => hsame _
      change := fun environment sk => hsame _
      sequence := fun hhead hhead' => by
        obtain rfl := Option.some.inj (hhead.symm.trans ((hsame _).symm.trans hhead'))
        rfl }
    (.of_kept (fun hstored => (hsame _).symm.trans hstored) fun _ => hevents) hevents hgone

/-! ### Identifiers, objects and evidence -/

theorem quiet_newId (hinv : Invariant init s) {id : String} (hfresh : id ∉ s.known) :
    Quiet init s { s with known := id :: s.known
                          drawnBy := Function.update s.drawnBy id (some pid) } := by
  have h : Gentle s { s with known := [id] ++ s.known
                             drawnBy := Function.update s.drawnBy id (some pid) } := by
    refine .learn (fun {other owner} hdrawn => ?_) fun {other owner} hdrawn => ?_
    · rw [Function.update_of_ne, hdrawn]
      rintro rfl
      exact hfresh (hinv.known.drawn hdrawn)
    · by_cases hother : other = id
      · exact .inr (by simp [hother])
      · rw [Function.update_of_ne hother] at hdrawn
        exact .inl hdrawn
  exact h.quiet_of_same hinv rfl rfl fun _ hnone => hnone

theorem quiet_putBundle (hinv : Invariant init s) {id : String}
    {bundles : String → Option StoredBundle} :
    Quiet init s { s with known := id :: s.known, bundles := bundles } := by
  have hlearn : Gentle s { s with known := [id] ++ s.known, drawnBy := s.drawnBy } :=
    .learn (fun hdrawn => hdrawn) .inl
  have hgentle : Gentle s { s with known := id :: s.known, bundles := bundles } :=
    { hlearn with
      history := .of_eq rfl
      kept := fun hkept => ⟨(hlearn.kept hkept).known, hkept.locked, hkept.deleted⟩ }
  exact hgentle.quiet_of_same hinv rfl rfl fun _ hnone => hnone

theorem quiet_register (hinv : Invariant init s) (input : Input) :
    Quiet init s (input.register s) :=
  (Gentle.learn (fun h => h) .inl).quiet_of_same hinv rfl rfl fun _ hnone => hnone

theorem quiet_put (hinv : Invariant init s) {key : ObjectKey} {versionId : String}
    {body : ObjectBody} {retainUntil : Option Time} (hnone : s.objects key = none)
    (hfresh : versionId ∉ s.known) :
    Quiet init s ({ s with known := versionId :: s.known }.setObject key
      (some ⟨versionId, body, retainUntil⟩)) := by
  refine (Gentle.put hnone hfresh).quiet_of_same hinv rfl rfl fun {reference} hmem hgone => ?_
  simp only [Cloud.object, Cloud.setObject] at hgone ⊢
  by_cases hkey : reference.key = key
  · rw [hkey, Function.update_self, Option.filter_some, if_neg]
    simp only [decide_eq_true_eq]
    rintro rfl
    exact hfresh hmem
  · rwa [Function.update_of_ne hkey]

theorem quiet_extend (hinv : Invariant init s) {reference : ObjectReference} {object : StoredObject}
    {retainUntil : Time} (hobject : s.object reference = some object)
    (hlonger : object.retainUntil.any (retainUntil < ·) = false) :
    Quiet init s (s.setObject reference.key
      (some { object with retainUntil := some retainUntil })) := by
  obtain ⟨hstored, hversion⟩ := Option.filter_eq_some_iff.mp hobject
  refine (Gentle.extend hobject hlonger).quiet_of_same hinv rfl rfl fun {other} _ hgone => ?_
  simp only [Cloud.object, Cloud.setObject] at hgone ⊢
  by_cases hkey : other.key = reference.key
  · rw [hkey, hstored] at hgone
    rw [hkey, Function.update_self]
    simpa using hgone
  · rwa [Function.update_of_ne hkey]

theorem quiet_delete (hinv : Invariant init s) {reference : ObjectReference} {object : StoredObject}
    (hobject : s.object reference = some object) (hlock : object.locked s.now = false)
    {u : String} {sk : WorkflowSk} (hkey : reference.key = objectKeyOf u sk)
    (hsuperseded : s.Superseded u sk) :
    Quiet init s ((s.setObject reference.key none).record (.deleted reference)) := by
  have hgentle := Gentle.delete hobject hlock hkey hsuperseded
  obtain ⟨hstored, hversion⟩ := Option.filter_eq_some_iff.mp hobject
  have hsync : SyncKept s ((s.setObject reference.key none).record (.deleted reference)) :=
    { SyncKept.refl s with }
  have hgone : ∀ other : ObjectReference, other.key = reference.key ∨ s.object other = none →
      Cloud.object ((s.setObject reference.key none).record (.deleted reference)) other = none := by
    intro other hother
    simp only [Cloud.object, Cloud.setObject, Cloud.record] at hother ⊢
    by_cases hsame : other.key = reference.key
    · rw [hsame, Function.update_self]
      rfl
    · rw [Function.update_of_ne hsame]
      exact hother.resolve_left hsame
  have hretention :
      RetentionInv ((s.setObject reference.key none).record (.deleted reference)) := by
    refine ⟨?_, fun hcommitted hprior other hother => hgentle.kept
      (hinv.retention.kept (hgentle.history.committed hcommitted) hprior other hother)⟩
    rintro other ⟨entry, hentry, hevent⟩
    rcases List.mem_append.mp hentry with hold | hnew
    · obtain ⟨hmem, hnone⟩ := hinv.retention.deleted ⟨entry, hold, hevent⟩
      exact ⟨hmem, hgone other (.inr hnone)⟩
    · rw [List.mem_singleton.mp hnew] at hevent
      obtain rfl : reference = other := by simpa using hevent
      have hsame : object.versionId = reference.versionId := by simpa using hversion
      exact ⟨hsame ▸ hinv.known.object hstored, hgone reference (.inl rfl)⟩
  have hmoves := hsync.moves hgentle.heads
  exact hgentle.quiet hinv hmoves
    (hinv.sync.transfer hgentle.heads hgentle.holds hsync hgentle.history.history) hretention
    (.of_kept (fun hstored => hstored) (.of_record rfl rfl))

/-! ### Writes to the table -/

theorem quiet_retryable (hinv : Invariant init s) {u : String} {sk : WorkflowSk}
    (hholds : (markRetryableWrite u sk).holds s.table = true) :
    Quiet init s { s with table := (markRetryableWrite u sk).apply s.table } := by
  obtain ⟨row, hrow, hcondition⟩ := Write.holds_update.mp hholds
  have hprepared : row.workflowState = .prepared := by simpa using hcondition
  rw [markRetryableWrite, Write.apply_update hrow]
  exact (Gentle.set_row hrow (.retryable hprepared)
    (.inr (.inl (by simp [hprepared])))).quiet_of_table hinv (.set_row _) (.set_other _ (by simp))

theorem quiet_deleted (hinv : Invariant init s) {u : String} {sk : WorkflowSk}
    (hsuperseded : s.Superseded u sk)
    (hholds : (markRetentionDeletedWrite u sk).holds s.table = true) :
    Quiet init s { s with table := (markRetentionDeletedWrite u sk).apply s.table } := by
  obtain ⟨row, hrow, hcondition⟩ := Write.holds_update.mp hholds
  have hready : row.workflowState = .ready := by simpa using hcondition
  rw [markRetentionDeletedWrite, Write.apply_update hrow]
  exact (Gentle.set_row hrow (.deleted hready) (.inr (.inr hsuperseded.2))).quiet_of_table hinv
    (.set_row _) (.set_other _ (by simp))

theorem quiet_release (hinv : Invariant init s) {u operationId : String}
    (hholds : (releaseLeaseWrite u operationId).holds s.table = true) :
    Quiet init s { s with table := (releaseLeaseWrite u operationId).apply s.table } := by
  obtain ⟨head, hhead, -⟩ := Write.holds_update.mp hholds
  rw [releaseLeaseWrite, Write.apply_update hhead]
  exact (Gentle.release hhead).quiet_of_table hinv (.release hhead) (.set_other _ (by simp))

/-- An item that nothing here depends on. -/
theorem quiet_other (hinv : Invariant init s) {key : Key} (item : Option (Item key))
    (hkey : key.Apart) (hregistry : key.ofRegistry = false) :
    Quiet init s { s with table := s.table.set key item } :=
  quiet_apart hinv item hkey (.same (Registry.ofTable_set_other _ _ hregistry))
    (.set_other _ fun tokenHash h => by simp [h, Key.ofRegistry] at hregistry)

theorem quiet_write (hinv : Invariant init s) {write : TableWrite}
    (hready : SanctionedWrite pid s write) (hholds : write.holds s.table = true) :
    Quiet init s { s with table := write.apply s.table } := by
  cases hready with
  | retryable => exact quiet_retryable hinv hholds
  | release => exact quiet_release hinv hholds
  | deleted hsuperseded => exact quiet_deleted hinv hsuperseded hholds
  | enable hsynced => exact enable_step hinv hsynced hholds
  | cursor => exact quiet_other hinv _ ⟨rfl, rfl, by simp⟩ rfl
  | registry hregistry => exact registration_write hinv hregistry hholds

/-! ## Requests -/

/-- What a request does to the cloud. -/
inductive Transition (init : Cloud) (pid : ℕ) (q : Request) (s s' : Cloud) : Prop
  | gentle (h : Gentle s s')
  | undone {environment secretId u operationId : String} {head : HeadRecord}
      (hq : q = .transactWrite (abortPreparedCreateWrites environment secretId u operationId) none)
      (h : Undone s s' u head)
  | prepared {mutation : PreparedMutation} {now : Time}
      (hq : q = .transactWrite (prepareWrites mutation now) (some (.prepared mutation)))
      (hready : PrepareReady pid s mutation) (h : Preparation s s' mutation)
  | committed {completed : CompletedMutation} {writes : List TableWrite} {sequence : ℕ}
      {extendedAt : Option Time} {head : HeadRecord}
      (hq : q = .transactWrite writes (some (.committed completed sequence extendedAt)))
      (h : Committing init s s' completed sequence extendedAt pid head)

def Key.isCursor : Key → Bool
  | .cursor _ => true
  | _ => false

/-- A request that neither prepares nor commits, stores no cursor and issues no capability. -/
def Request.quiet : Request → Bool
  | .transactWrite _ (some event) => event.ofOthers
  | .write single => !single.key.isCursor
  | .writeNoted _ (.issued _) => false
  | _ => true

/-- What a request of a process may do to the cloud. -/
structure Kept (init : Cloud) (pid : ℕ) (q : Request) (s s' : Cloud) : Prop where
  invariant : Invariant init s'
  evolves : Evolves (some pid) s s'
  quiet : q.quiet = true → Evolves none s s'
  transition : Transition init pid q s s'

theorem Quiet.kept {q : Request} (h : Quiet init s s') : Kept init pid q s s' :=
  ⟨h.invariant, h.evolves _, fun _ => h.evolves none, .gentle h.gentle⟩

theorem kept_transact (hinv : Invariant init s) {writes : List TableWrite} {note : Option Event}
    (hready : Sanctioned pid s writes note) {conflicts : List ℕ} {table : Table Key Item}
    (htransact : transact s.table conflicts writes = .ok table) :
    Kept init pid (.transactWrite writes note) s ({ s with table := table }.recordAny note) := by
  cases hready with
  | prepare hprepare =>
      have h := preparation_of_transact htransact hprepare
      exact ⟨h.invariant hinv hprepare, h.evolves hprepare, nofun, .prepared rfl hprepare h⟩
  | commit hcommit hpublish hnotifications hsize =>
      obtain ⟨head, h, hinv', hevolves⟩ := commit_step hinv hcommit hpublish htransact
      exact ⟨hinv', hevolves, nofun, .committed rfl h⟩
  | backfill hbackfill hpublish => exact (backfill_step hinv hbackfill hpublish htransact).kept
  | createEnvironment => exact (createEnvironment_step hinv htransact).kept
  | emptyState hsynced => exact (emptyState_step hinv hsynced htransact).kept
  | abort =>
      obtain ⟨head, h⟩ := undone_of_transact hinv.names htransact
      exact ⟨h.invariant hinv, h.evolves hinv _, fun _ => h.evolves hinv none, .undone rfl h⟩
  | registry hregistry => exact (registration_step hinv hregistry htransact).kept

theorem kept_perform (hinv : Invariant init s) {q : Request} (hready : RequestReady pid s q)
    {choice : Choice} {answer : Response q}
    (hperform : perform pid choice s q = some (answer, s')) : Kept init pid q s s' := by
  have hsame : s' = s → Kept init pid q s s' := by
    rintro rfl
    exact (Quiet.refl hinv).kept
  cases q with
  | newId tag =>
      simp only [perform] at hperform
      split at hperform
      · cases hperform
      · cases hperform
        exact (quiet_newId hinv ‹_›).kept
  | write write =>
      simp only [perform] at hperform
      split at hperform
      · cases hperform
        exact (quiet_write hinv hready ‹_›).kept
      · cases hperform
        exact hsame rfl
  | writeNoted write note =>
      simp only [perform] at hperform
      split at hperform
      · cases hperform
        exact (registration_note hinv hready ‹_›).kept
      · cases hperform
        exact hsame rfl
  | transactWrite writes note =>
      simp only [perform] at hperform
      split at hperform
      · cases hperform
        exact kept_transact hinv hready ‹_›
      · cases hperform
        exact hsame rfl
      · cases hperform
        exact hsame rfl
  | putObject key body =>
      simp only [perform] at hperform
      split at hperform
      · cases hperform
        exact hsame rfl
      · split at hperform
        · cases hperform
        · cases hperform
          exact (quiet_put hinv ‹_› ‹_›).kept
  | extendRetention reference retainUntil =>
      simp only [perform] at hperform
      split at hperform
      · split at hperform
        · cases hperform
          exact hsame rfl
        · cases hperform
          exact (quiet_extend hinv ‹_› (Bool.eq_false_iff.mpr ‹_›)).kept
      · cases hperform
        exact hsame rfl
  | deleteObject reference =>
      simp only [perform] at hperform
      split at hperform
      · split at hperform
        · cases hperform
          exact hsame rfl
        · cases hperform
          obtain ⟨u, sk, hkey, hsuperseded⟩ := hready
          exact (quiet_delete hinv ‹_› (Bool.eq_false_iff.mpr ‹_›) hkey hsuperseded).kept
      · cases hperform
        exact hsame rfl
  | auditWrite event =>
      cases hperform
      exact ((Gentle.audit_write hready).quiet_of_same hinv rfl rfl fun _ hnone => hnone).kept
  | reconcileTruststore =>
      cases hperform
      exact ((Gentle.refl s).quiet_of_recorded hinv (.refl s) rfl (fun hclaim => by cases hclaim)
        (.of_kept (fun hstored => hstored) (.of_record rfl rfl))).kept
  | putBundle key pem =>
      simp only [perform] at hperform
      split at hperform
      · cases hperform
        exact hsame rfl
      · split at hperform
        · cases hperform
        · cases hperform
          exact (quiet_putBundle hinv).kept
  | newRoot =>
      obtain ⟨certificate, -, heq⟩ := Option.map_eq_some_iff.mp hperform
      cases heq
      exact hsame rfl
  | getBundle key =>
      simp only [perform] at hperform
      split at hperform
      · cases hperform
        exact hsame rfl
      · cases hperform
        exact hsame rfl
  | updateDomainName _ _ | provision _ _ _ =>
      simp only [perform] at hperform
      split at hperform
      · cases hperform
        exact hsame rfl
      · cases hperform
        exact hsame rfl
  | getObject reference | getRetention reference =>
      simp only [perform] at hperform
      split at hperform
      · cases hperform
        exact hsame rfl
      · cases hperform
        exact hsame rfl
  | now | choose | get _ | transactGet _ _ | expiredPrepared _ | readyWorkflows _
  | changePage _ _ _ _ | environmentPage _ | accessPage _ _ _ | scanHeads _ | encrypt _
  | decrypt _ | dueEnrollments _ | truststoreRootPage _ | issueLeaf _ _ _ | encryptIssuerKey
  | decryptIssuerKey _ | getDomainName | identityPage _ =>
      cases hperform
      exact hsame rfl

/-- **A request makes one move of the registry, or none.** -/
theorem Transition.changes {q : Request} (h : Transition init pid q s s') :
    s.registry.Changes s'.registry := by
  cases h with
  | gentle h => exact h.registry
  | undone _ h => exact .same h.registry
  | prepared _ _ h => exact .moved _ h.claim
  | committed _ h => exact .same h.effect.registry

/-- No request touches the index of identities. -/
theorem Transition.identityIndex {q : Request} (h : Transition init pid q s s')
    {fingerprint : String} {identity : IdentityRecord}
    (hidentity : s'.identityIndex fingerprint = some identity) :
    s.identityIndex fingerprint = some identity ∨ s.identity fingerprint = some identity := by
  cases h with
  | gentle h => exact h.identityIndex hidentity
  | undone _ h => exact .inl (by rwa [h.rest] at hidentity)
  | prepared _ _ h => exact .inl (by rwa [h.rest] at hidentity)
  | committed _ h => exact .inl (by rwa [h.effect.rest] at hidentity)

/-- **A request under the discipline keeps the invariant.** -/
theorem kept_exec (hinv : Invariant init s) {q : Request} (hready : RequestReady pid s q)
    {choice : Choice} {answer : Response q} (hexec : exec pid q choice s = some (answer, s')) :
    Kept init pid q s s' := by
  unfold exec at hexec
  split at hexec
  · exact kept_perform hinv hready hexec
  · split at hexec
    · cases hexec
    · cases hexec
      exact (Quiet.refl hinv).kept
  · split at hexec
    · cases hexec
    · obtain ⟨⟨answer', after⟩, hperform, heq⟩ := Option.map_eq_some_iff.mp hexec
      cases heq
      exact kept_perform hinv hready hperform

/-! ## The environment -/

/-- **An event of the environment keeps the invariant.** -/
theorem quiet_event (hinv : Invariant init s) {event : EnvironmentEvent}
    (hevent : event.apply s = some s') : Quiet init s s' := by
  cases event with
  | tick elapsed =>
      cases hevent
      exact (Gentle.tick elapsed).quiet_of_same hinv rfl rfl fun _ hnone => hnone
  | replicate u sk =>
      cases hevent
      exact (Gentle.replicate u sk).quiet_of_same hinv rfl rfl fun _ hnone => hnone
  | replicateIdentity fingerprint =>
      cases hevent
      exact (Gentle.replicateIdentity fingerprint).quiet_of_same hinv rfl rfl fun _ hnone => hnone
  | expireChange environment sk =>
      simp only [EnvironmentEvent.apply] at hevent
      split at hevent
      · cases hevent
        rename_i hdue
        rw [Option.any_eq_true] at hdue
        obtain ⟨row, hrow, hdue⟩ := hdue
        rw [Option.any_eq_true] at hdue
        obtain ⟨ttl, httl, -⟩ := hdue
        exact expire_step hinv hrow (by rw [httl]; rfl)
      · cases hevent
  | expireCursor token =>
      simp only [EnvironmentEvent.apply] at hevent
      split at hevent
      · cases hevent
        exact quiet_other hinv none ⟨rfl, rfl, by simp⟩ rfl
      · cases hevent
  | expireCapability tokenHash =>
      simp only [EnvironmentEvent.apply] at hevent
      split at hevent
      · cases hevent
        exact quiet_apart hinv none ⟨rfl, rfl, by simp⟩
          (.moved _ (Registry.forget_of_set tokenHash)) (.forget tokenHash)
      · cases hevent
  | foreign key item =>
      simp only [EnvironmentEvent.apply] at hevent
      split at hevent
      · cases hevent
        cases key <;> simp_all [Key.foreign] <;> exact quiet_other hinv item ⟨rfl, rfl, by simp⟩ rfl
      · cases hevent

/-! ## The discipline -/

/-- **The discipline is kept by every step.** -/
theorem preserved (init : Cloud) : (discipline init).Preserved where
  request hinv hpre hexec := (kept_exec hinv hpre hexec).invariant
  start input _ hinv := (quiet_register hinv input).invariant
  environment hinv hevent := (quiet_event hinv hevent).invariant

/-- What the others do to a process. -/
theorem interference_evolves (hinv : Invariant init s)
    (hstep : (discipline init).Interference pid s s') :
    ∃ actor, actor ≠ some pid ∧ Evolves actor s s' := by
  cases hstep with
  | @request other _ _ _ hne hpre hexec =>
      exact ⟨some other, by simpa using hne, (kept_exec hinv hpre hexec).evolves⟩
  | start hregister =>
      subst hregister
      exact ⟨none, by simp, (quiet_register hinv _).evolves none⟩
  | environment hevent => exact ⟨none, by simp, (quiet_event hinv hevent).evolves none⟩

/-- An assertion that survives every evolution is stable. -/
theorem stable_of_evolves {P : Cloud → Prop}
    (h : ∀ {s s' : Cloud} {actor : Option ℕ}, Invariant init s → actor ≠ some pid →
      Evolves actor s s' → P s → P s') : (discipline init).Stable pid P := by
  intro s s' hinv hstep hP
  obtain ⟨actor, hactor, hevolves⟩ := interference_evolves hinv hstep
  exact h hinv hactor hevolves hP

end Hemlig
