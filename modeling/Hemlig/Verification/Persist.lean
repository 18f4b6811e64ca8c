import Hemlig.Verification.PriorAccess
import Hemlig.Verification.Publish

/-!
# Persisting a mutation

From its preparation to its commit a mutation knows that its revisions are pending
and its own, that their objects are stored, and that the snapshot it was made from
still is what its secret says at that version.
-/

namespace Hemlig

open Concurrent Store DynamoRepository SecretService

variable {init s s' : Cloud} {pid : ℕ}

/-! ## What survives -/

theorem UpdateReady.mono {actor : Option ℕ} (hevolves : Evolves actor s s')
    (hinv : Invariant init s) {mutation : PreparedMutation} {prior : List AccessRecord}
    {head : HeadRecord} {control : ControlRevision}
    (h : UpdateReady s mutation prior head control) :
    UpdateReady s' mutation prior head control where
  snapshot := hevolves.snapshot h.snapshot
  updates := h.updates
  consumer := h.consumer
  access := h.access.imp_right fun hok => hok.mono hevolves hinv h.snapshot.settled
  later := hevolves.drawnLater hinv.rows h.snapshot.settled h.later

theorem lasts_updateReady {mutation : PreparedMutation} {prior : List AccessRecord}
    {head : HeadRecord} {control : ControlRevision} :
    Lasts init fun s => UpdateReady s mutation prior head control :=
  fun _ _ _ hinv _ hevolves h => h.mono hevolves hinv

/-- How a mutation relates to the head it was made from. -/
def Based (s : Cloud) (mutation : PreparedMutation) (priorHead : Option HeadRecord)
    (prior : List AccessRecord) : Prop :=
  (mutation.Creates ∧ priorHead = none ∧ prior = []) ∨
    ∃ head control, priorHead = some head ∧ UpdateReady s mutation prior head control

theorem lasts_based {mutation : PreparedMutation} {priorHead : Option HeadRecord}
    {prior : List AccessRecord} : Lasts init fun s => Based s mutation priorHead prior :=
  (Lasts.const _).or (.exists fun _ => .exists fun _ => (Lasts.const _).and lasts_updateReady)

theorem Rely.stored (hrely : Rely pid s s') {u operationId versionId : String} {sk : WorkflowSk}
    {body : ObjectBody} (howns : s.Owns pid operationId)
    (h : s.Stored u sk operationId versionId body) : s'.Stored u sk operationId versionId body := by
  obtain ⟨actor, hactor, hevolves⟩ := hrely.evolves
  exact hevolves.stored hactor howns h

theorem lasts_kept {reference : ObjectReference} {time : Time} :
    Lasts init fun s => s.Kept reference time :=
  fun _ _ _ _ _ hevolves h => hevolves.kept h

/-! ## A mutation in progress -/

/-- What the process knows once its mutation is prepared. -/
structure Underway (pid : ℕ) (s : Cloud) (mutation : PreparedMutation)
    (priorHead : Option HeadRecord) (prior : List AccessRecord) : Prop where
  owns : s.Owns pid mutation.operationId
  prepared : s.Prepared mutation
  wellFormed : mutation.WellFormed
  control : s.Pending mutation.secretUid (.control mutation.control.controlVersionId)
    mutation.operationId
  payload : ∀ payload, mutation.payload = some payload →
    s.Pending mutation.secretUid (.payload payload.revision.payloadVersionId) mutation.operationId
  based : Based s mutation priorHead prior

theorem persists_underway {mutation : PreparedMutation} {priorHead : Option HeadRecord}
    {prior : List AccessRecord} :
    Persists init pid fun s => Underway pid s mutation priorHead prior := by
  intro s s' hinv hinv' hrely h
  obtain ⟨actor, hactor, hevolves⟩ := hrely.evolves
  exact
    { owns := hevolves.owns h.owns
      prepared := hevolves.happened h.prepared
      wellFormed := h.wellFormed
      control := hevolves.pending hactor h.owns h.control
      payload := fun payload hpayload => hevolves.pending hactor h.owns (h.payload payload hpayload)
      based := lasts_based s s' actor hinv hinv' hevolves h.based }

/-- What the process must know to prepare a mutation. -/
structure Preparable (pid : ℕ) (s : Cloud) (mutation : PreparedMutation)
    (priorHead : Option HeadRecord) (prior : List AccessRecord) : Prop where
  operation : s.Drawn pid mutation.operationId
  wellFormed : mutation.WellFormed
  control : mutation.control.controlVersionId ∈ s.known
  payload : ∀ payload, mutation.payload = some payload →
    payload.revision.payloadVersionId ∈ s.known
  acl : s.AclFrom mutation.expectedControlVersionId mutation.control.acl
  based : Based s mutation priorHead prior
  born : mutation.Creates → s.Drawn pid mutation.secretUid ∧
    (s.environment mutation.environment).isSome

theorem Preparable.ready {mutation : PreparedMutation} {priorHead : Option HeadRecord}
    {prior : List AccessRecord} (h : Preparable pid s mutation priorHead prior) :
    PrepareReady pid s mutation where
  owns := h.operation.owns
  unused := h.operation.unused
  wellFormed := h.wellFormed
  control := h.control
  payload := h.payload
  acl := h.acl
  kind := by
    rcases h.based with ⟨hcreates, -⟩ | ⟨head, control, -, hupdate⟩
    · obtain ⟨hdrawn, henvironment⟩ := h.born hcreates
      exact .inl ⟨hcreates, hdrawn.owns, hdrawn.unborn, henvironment⟩
    · exact .inr ⟨head, control, hupdate.snapshot, hupdate.updates⟩

theorem persists_preparable {mutation : PreparedMutation} {priorHead : Option HeadRecord}
    {prior : List AccessRecord} :
    Persists init pid fun s => Preparable pid s mutation priorHead prior := by
  intro s s' hinv hinv' hrely h
  obtain ⟨actor, hactor, hevolves⟩ := hrely.evolves
  exact
    { operation := persists_drawn s s' hinv hinv' hrely h.operation
      wellFormed := h.wellFormed
      control := hevolves.known h.control
      payload := fun payload hpayload => hevolves.known (h.payload payload hpayload)
      acl := hevolves.aclFrom h.acl
      based := lasts_based s s' actor hinv hinv' hevolves h.based
      born := fun hcreates => ⟨persists_drawn s s' hinv hinv' hrely (h.born hcreates).1,
        hevolves.environments (h.born hcreates).2⟩ }

/-- **A preparation takes effect as a whole.** -/
theorem underway_of_preparation {mutation : PreparedMutation} {priorHead : Option HeadRecord}
    {prior : List AccessRecord} (hinv : Invariant init s)
    (h : Preparable pid s mutation priorHead prior) {now : Time} {conflicts : List ℕ}
    {table : Table Key Item}
    (htransact : transact s.table conflicts (prepareWrites mutation now) = .ok table) :
    Underway pid ({ s with table := table }.recordAny (some (.prepared mutation))) mutation
      priorHead prior := by
  have hpreparation := preparation_of_transact htransact h.ready
  have hevolves := hpreparation.evolves h.ready
  have hinv' := hpreparation.invariant hinv h.ready
  exact
    { owns := hevolves.owns h.operation.owns
      prepared := hpreparation.prepared
      wellFormed := h.wellFormed
      control := ⟨_, (control_of_prepare htransact).2, by
        simp [controlItem, workflowItem, StoredWorkflow.Settled], rfl⟩
      payload := fun payload hpayload => ⟨_, (payload_of_prepare htransact hpayload).2, by
        simp [payloadItem, workflowItem, StoredWorkflow.Settled], rfl⟩
      based := lasts_based s _ _ hinv hinv' hevolves h.based }

section Specs

variable {issued : Request → Cloud → Prop} {F : Cloud → Prop} {mutation : PreparedMutation}
  {priorHead : Option HeadRecord} {prior : List AccessRecord}

theorem runs_prepareMutation :
    Runs init issued pid (fun s => Preparable pid s mutation priorHead prior)
      (prepareMutation mutation) fun _ s => Underway pid s mutation priorHead prior := by
  refine Discipline.Safe.recover (E := fun _ _ => True) ?_ fun failure => .raise fun _ _ _ => trivial
  refine (spec_now persists_preparable).bind_runs fun now => ?_
  refine safe_send (persists_preparable.and (.const _)).stable
    (fun s _ hs => .prepare hs.1.ready) ?_ fun _ _ _ _ _ _ _ _ => trivial
  rintro s choice answer s' hinv - ⟨hs, -⟩ - hexec
  obtain ⟨table, htransact, rfl⟩ := transact_of_answer hexec
  exact underway_of_preparation hinv hs htransact

/-- The object of a pending revision. -/
theorem spec_putImmutable (hF : Persists init pid F) {u operationId : String} {sk : WorkflowSk}
    {body : ObjectBody} (hpending : ∀ s, F s → s.Pending u sk operationId) :
    Spec init issued pid F (ObjectStore.putImmutable (objectKeyOf u sk) body) fun reference s =>
      reference.key = objectKeyOf u sk ∧ s.Stored u sk operationId reference.versionId body := by
  refine .bind (R := fun versionId s => s.Stored u sk operationId versionId body) ?_ fun versionId =>
    .ret fun _ _ hs => ⟨rfl, hs.2⟩
  refine .send hF rfl (fun _ _ _ => trivial) ?_
  rintro s choice versionId s' - - hs - hperform
  simp only [perform] at hperform
  split at hperform
  · cases hperform
  · split at hperform <;> cases hperform
    exact ⟨hpending s hs, _, Function.update_self .., rfl, rfl⟩

theorem spec_putPayload (hF : Persists init pid F) (hwell : mutation.WellFormed)
    (hpending : ∀ s, F s → ∀ payload, mutation.payload = some payload →
      s.Pending mutation.secretUid (.payload payload.revision.payloadVersionId)
        mutation.operationId) :
    Spec init issued pid F (putPayload mutation.payload) fun stored s =>
      (mutation.payload = none → stored = none) ∧
      ∀ payload, mutation.payload = some payload → ∃ object, stored = some object ∧
        object.key = objectKeyOf mutation.secretUid (.payload payload.revision.payloadVersionId) ∧
        s.Stored mutation.secretUid (.payload payload.revision.payloadVersionId)
          mutation.operationId object.versionId (.payload payload.revision) := by
  cases hpayload : mutation.payload with
  | none => exact .ret fun _ _ _ => ⟨fun _ => rfl, fun payload hsome => by cases hsome⟩
  | some payload =>
      rw [putPayload, (hwell.payload payload hpayload).1]
      refine .bind (spec_putImmutable hF fun s hs => hpending s hs payload hpayload) fun object => ?_
      refine .ret fun s _ hs => ⟨fun hnone => (by cases hnone), fun other hother => ?_⟩
      obtain rfl : payload = other := Option.some.inj hother
      exact ⟨object, rfl, hs.2⟩

/-! ## The locks of the replaced objects -/

theorem spec_extendIfStored (hF : Persists init pid F) (reference : Option ObjectReference)
    (retainUntil : Time) :
    Spec init issued pid F (extendIfStored reference retainUntil) fun _ s =>
      ∀ stored ∈ reference, s.Kept stored retainUntil := by
  cases reference with
  | none => exact .ret fun _ _ _ stored hmem => by cases hmem
  | some reference =>
      refine .send hF rfl (fun _ _ _ => trivial) ?_
      rintro s choice answer s' hinv - - - hperform stored hmem
      cases hmem
      simp only [perform] at hperform
      split at hperform
      · rename_i object hobject
        split at hperform <;> cases hperform
        obtain ⟨hstored, hversion⟩ := Option.filter_eq_some_iff.mp hobject
        have hsame : object.versionId = reference.versionId := by simpa using hversion
        refine ⟨hsame ▸ hinv.known.object hstored, fun extended hextended => ?_,
          fun entry hentry hevent => ?_⟩
        · obtain ⟨hextended', -⟩ := Option.filter_eq_some_iff.mp hextended
          simp only [Cloud.setObject, Function.update_self] at hextended'
          cases hextended'
          exact ⟨retainUntil, rfl, le_rfl⟩
        · cases (hinv.retention.deleted ⟨entry, hentry, hevent⟩).2.symm.trans hobject
      · cases hperform

/-- The objects of the replaced head are kept for 91 days. -/
theorem spec_extendPriorRetention (hF : Persists init pid F) (head : Option HeadRecord) :
    Spec init issued pid F (extendPriorRetention head) fun extendedAt s =>
      (head.isSome → extendedAt.isSome) ∧ ∀ time prior, extendedAt = some time →
        head = some prior → ∀ reference ∈ prior.references, s.Kept reference (time + 91 * day) := by
  cases head with
  | none => exact .ret fun _ _ _ => ⟨nofun, fun time prior _ hnone => by cases hnone⟩
  | some head =>
      refine .bind (spec_now hF) fun now => ?_
      refine .bind (spec_extendIfStored (hF.and (.const _)) _ _) fun _ => ?_
      refine .bind (spec_extendIfStored ((hF.and (.const _)).and
        (.forall fun _ => .imp lasts_kept.persists)) _ _) fun _ => .ret ?_
      rintro s - ⟨⟨-, hcontrol⟩, hpayload⟩
      refine ⟨fun _ => rfl, fun time prior htime hprior reference hmem => ?_⟩
      cases htime
      cases hprior
      rcases List.mem_append.mp hmem with hmem | hmem
      · exact hcontrol reference (Option.mem_toList.mp hmem)
      · exact hpayload reference (Option.mem_toList.mp hmem)

/-! ## The commit -/

theorem persists_commitStaged {completed : CompletedMutation} :
    Persists init pid fun s => CommitStaged pid s completed := by
  intro s s' hinv hinv' hrely h
  obtain ⟨actor, hactor, hevolves⟩ := hrely.evolves
  exact
    { owns := hevolves.owns h.owns
      prepared := hevolves.happened h.prepared
      wellFormed := h.wellFormed
      controlKey := h.controlKey
      control := hrely.stored h.owns h.control
      noPayload := h.noPayload
      payload := fun payload hpayload => by
        obtain ⟨object, hobject, hkey, hstored⟩ := h.payload payload hpayload
        exact ⟨object, hobject, hkey, hrely.stored h.owns hstored⟩
      kind := lasts_based s s' actor hinv hinv' hevolves h.kind }

theorem persists_commitReady {completed : CompletedMutation} {extendedAt : Option Time} :
    Persists init pid fun s => CommitReady pid s completed extendedAt := by
  intro s s' hinv hinv' hrely h
  obtain ⟨actor, -, hevolves⟩ := hrely.evolves
  exact
    { persists_commitStaged s s' hinv hinv' hrely h.toCommitStaged with
      timed := h.timed
      extended := fun time head htime hhead reference hmem =>
        hevolves.kept (h.extended time head htime hhead reference hmem) }

/-- What becomes of the row of one kind. -/
structure ControlRevision.Notifies (control : ControlRevision) (kind : ChangeKind)
    (consumerIds : List String) (result : Option NotificationOutboxRecord) : Prop where
  none : result = none → consumerIds = []
  some : ∀ {record}, result = some record → record = control.notice record.eventId kind consumerIds

theorem ControlRevision.Notifies.kind {control : ControlRevision} {kind : ChangeKind}
    {consumerIds : List String} {record : NotificationOutboxRecord}
    (h : control.Notifies kind consumerIds (Option.some record)) : record.kind = kind := by
  rw [h.some rfl]
  rfl

theorem spec_notificationOutboxRecord (hF : Persists init pid F) (control : ControlRevision)
    (kind : ChangeKind) (consumerIds : List String) :
    Spec init issued pid F (notificationOutboxRecord control kind consumerIds) fun result s =>
      (∀ record, result = some record → record.eventId ∈ s.known ∧
        ∀ other, (∀ s, F s → other ∈ s.known) → record.eventId ≠ other) ∧
      control.Notifies kind consumerIds result := by
  refine .ite (fun hnone => .ret fun _ _ _ => ⟨?_, ?_⟩) fun _ => ?_
  · rintro record ⟨⟩
  · constructor
    · exact fun _ => hnone
    · rintro record ⟨⟩
  · refine .bind (spec_newId hF "") fun eventId => .ret fun s _ hs => ⟨fun record hrecord => ?_, ?_⟩
    · cases hrecord
      exact ⟨hs.2.1.known, hs.2.2.2.2⟩
    · constructor
      · intro hnone
        cases hnone
      · rintro record ⟨⟩
        rfl

/-- The rows of both kinds. -/
theorem announces_of_notifies {completed : CompletedMutation}
    {changed revoked : Option NotificationOutboxRecord}
    (hchanged : completed.prepared.control.Notifies .changed (completed.recipients .changed)
      changed)
    (hrevoked : completed.prepared.control.Notifies .revoked (completed.recipients .revoked)
      revoked)
    (hne : ∀ first second, changed = some first → revoked = some second →
      first.eventId ≠ second.eventId) :
    completed.Announces (changed.toList ++ revoked.toList) where
  eventIds := by
    cases changed with
    | none => cases revoked <;> simp
    | some first =>
        cases revoked with
        | none => simp
        | some second => simpa using hne first second rfl rfl
  kinds := by
    cases changed with
    | none => cases revoked <;> simp
    | some first =>
        cases revoked with
        | none => simp
        | some second => simp [hchanged.kind, hrevoked.kind]
  notice := by
    intro record hrecord
    obtain hmem | hmem := List.mem_append.mp hrecord
    · obtain rfl := Option.mem_toList.mp hmem
      rw [hchanged.kind]
      exact hchanged.some rfl
    · obtain rfl := Option.mem_toList.mp hmem
      rw [hrevoked.kind]
      exact hrevoked.some rfl
  complete := by
    intro kind hrecipients
    cases kind with
    | changed =>
        cases changed with
        | none => exact absurd (hchanged.none rfl) hrecipients
        | some first => exact ⟨first, by simp, hchanged.kind⟩
    | revoked =>
        cases revoked with
        | none => exact absurd (hrevoked.none rfl) hrecipients
        | some second => exact ⟨second, by simp, hrevoked.kind⟩

theorem spec_notificationItemsFor (hF : Persists init pid F) (completed : CompletedMutation) :
    Spec init issued pid F (notificationItemsFor completed.prepared.control completed.accessItems
      completed.replaceAccess) fun notifications _ => completed.Announces notifications := by
  refine .bind (R := fun result s => (∀ record, result = some record → record.eventId ∈ s.known) ∧
      completed.prepared.control.Notifies .changed (completed.recipients .changed) result)
    ((spec_notificationOutboxRecord hF _ _ _).post fun _ _ _ _ h =>
      ⟨fun record hsome => (h.1 record hsome).1, h.2⟩) fun changed => ?_
  refine .bind (spec_notificationOutboxRecord (hF.and ((Persists.forall fun _ =>
    .imp lasts_known.persists).and (.const _))) _ .revoked (completed.recipients .revoked))
    fun revoked => .ret ?_
  rintro s - ⟨⟨-, -, hchanged⟩, hrevoked⟩
  refine announces_of_notifies hchanged hrevoked.2 fun first second hfirst hsecond => ?_
  exact ((hrevoked.1 second hsecond).2 first.eventId fun s hs => hs.2.1 first hfirst).symm

theorem spec_commitTime (hF : Persists init pid F) (priorHead : Option HeadRecord) :
    Spec init issued pid F (commitTime priorHead) fun _ _ => True :=
  .ite (fun _ => spec_now hF) fun _ => .ret fun _ _ _ => trivial

theorem runs_completeMutation {completed : CompletedMutation} {extendedAt : Option Time} :
    Runs init issued pid (fun s => CommitReady pid s completed extendedAt)
      (completeMutation completed extendedAt) fun _ s => s.Commits completed := by
  refine (spec_notificationItemsFor persists_commitReady completed).bind_runs fun notifications => ?_
  have hready : Persists init pid fun s => CommitReady pid s completed extendedAt ∧
      completed.Announces notifications :=
    persists_commitReady.and (.const _)
  refine (spec_commitTime hready _).next (fun _ _ _ hs _ => hs) fun now => ?_
  refine .ite (fun _ => .raise fun _ _ _ => trivial) fun _ => ?_
  refine safe_publish hready (fun _ _ _ _ => trivial) fun items sequence => ?_
  refine safe_send (hready.and lasts_assembled.persists).stable ?_
    (fun s choice answer s' _ _ _ _ hexec => ?_)
    fun s choice failure s' _ _ hs hexec => ⟨trivial, fun hcontention => ?_⟩
  · rintro s - ⟨⟨hcommit, hannounces⟩, state, epoch, ttl, previous, rfl, rfl, hpublish, hsize⟩
    exact .commit hcommit hpublish hannounces hsize
  · obtain ⟨table, -, rfl⟩ := transact_of_answer hexec
    exact ⟨sequence, extendedAt, .record _⟩
  · rw [unchanged_of_contention hexec hcontention]
    exact hs.1

/-! ## All of it -/

/-- **A mutation may be persisted** wherever its preparation follows from what the
process knows. -/
theorem runs_persistMutation {input : MutationInput} (hF : Persists init pid F)
    (hready : ∀ u operationId now s, F s → input.control.secretUid = some u →
      s.Drawn pid operationId → Preparable pid s (preparedMutation input u operationId now)
        input.priorHead input.priorAccess) :
    Runs init issued pid F (persistMutation input) fun _ s =>
      s.Achieved input.actor input.idempotencyKey input.control := by
  refine Spec.next (R := fun _ _ => True) (.get hF _ fun _ _ _ => trivial) (fun _ _ _ hs _ => hs)
    fun idempotency => ?_
  refine .ite (fun _ => .raise fun _ _ _ => trivial) fun _ => ?_
  refine (Spec.requireSome input.control.secretUid).bind_runs fun u => ?_
  have hF' : Persists init pid fun s => F s ∧ input.control.secretUid = some u := hF.and (.const _)
  refine (spec_newId hF' "").next (fun _ _ _ hs h => And.intro hs h.1) fun operationId => ?_
  refine (spec_now (hF'.and persists_drawn)).next (fun _ _ _ hs _ => hs) fun now => ?_
  have hprepared := fun (s : Cloud) (hs : (F s ∧ input.control.secretUid = some u) ∧
    s.Drawn pid operationId) => hready u operationId now s hs.1.1 hs.1.2 hs.2
  have hclaims : (preparedMutation input u operationId now).actor = input.actor ∧
      (preparedMutation input u operationId now).idempotencyKey = input.idempotencyKey ∧
      (preparedMutation input u operationId now).control = input.control := ⟨rfl, rfl, rfl⟩
  generalize preparedMutation input u operationId now = mutation at hprepared hclaims ⊢
  refine Discipline.Safe.bind (runs_prepareMutation.of_pre fun s _ hs => hprepared s hs) fun _ => ?_
  refine .of_fact (fun s _ hs => hs.wellFormed) fun hwell => ?_
  rw [hwell.key]
  refine (spec_putImmutable persists_underway fun s hs => hs.control).bind_runs
    fun controlObject => ?_
  have hcontrol : Persists init pid fun s =>
      Underway pid s mutation input.priorHead input.priorAccess ∧
        controlObject.key = objectKeyOf mutation.secretUid
          (.control mutation.control.controlVersionId) ∧
        s.Stored mutation.secretUid (.control mutation.control.controlVersionId)
          mutation.operationId controlObject.versionId (.control mutation.control) :=
    fun s s' hinv hinv' hrely h => ⟨persists_underway s s' hinv hinv' hrely h.1, h.2.1,
      hrely.stored h.1.owns h.2.2⟩
  refine Spec.next (G := fun payloadObject s => CommitStaged pid s
      { prepared := mutation
        controlObject := controlObject
        payloadObject := payloadObject
        priorHead := input.priorHead
        priorAccess := input.priorAccess })
    (spec_putPayload hcontrol hwell fun s hs => hs.1.payload) ?_ fun payloadObject => ?_
  · rintro payloadObject s - ⟨hunderway, hkey, hstored⟩ ⟨hnone, hsome⟩
    exact
      { owns := hunderway.owns
        prepared := hunderway.prepared
        wellFormed := hwell
        controlKey := hkey
        control := hstored
        noPayload := hnone
        payload := hsome
        kind := hunderway.based }
  refine (spec_extendPriorRetention persists_commitStaged input.priorHead).next
    (fun extendedAt s _ hs h => ?_) fun extendedAt =>
      runs_completeMutation.post fun _ s _ hcommits => ⟨_, hcommits, hclaims⟩
  exact { hs with timed := h.1, extended := h.2 }

end Specs

end Hemlig
