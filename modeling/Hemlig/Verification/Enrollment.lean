import Hemlig.Verification.Maintenance

/-!
# Enrollments

What the processes of the consumer service know about the registry.  An enrollment is
only ever resumed as it was started, so the result that a process returns is that of
the finished operation; and the record that it found or left under its idempotency key
is the record of that operation.
-/

namespace Hemlig

open Concurrent Store DynamoRepository ConsumerService

variable {init s s' : Cloud} {pid : ℕ}

/-! ## What stays true of the registry -/

/-- The enrollment has ended with this result. -/
def Cloud.Finished (s : Cloud) (operationId : String) (result : ConsumerProvisioningResult) :
    Prop :=
  ∃ row, s.enrollment operationId = some row ∧ row.record.workflowState = .ready ∧
    result = activeResult row.record

theorem lasts_claimed {claim : (Actor × String) × IdempotencyRecord} :
    Lasts init fun s => s.registry.Claimed claim :=
  fun _ _ _ _ _ hevolves h => h.mono hevolves.registry

/-- The operation under the key has its evidence. -/
def Cloud.Succeeded (s : Cloud) (actor : Actor) (idempotencyKey : String) : Prop :=
  ∃ record, s.idempotency actor idempotencyKey = some record ∧ record.status = .succeeded

theorem lasts_succeeded {actor : Actor} {idempotencyKey : String} :
    Lasts init fun s => s.Succeeded actor idempotencyKey := by
  rintro s s' owner - - hevolves ⟨record, hrecord, hsucceeded⟩
  have hstored : s.registry.records (actor, idempotencyKey) = some record := hrecord
  obtain ⟨record', hrecord', hstep⟩ := hevolves.registry.records hstored
  exact ⟨record', hrecord', hstep.succeeded hsucceeded⟩

/-- A record that was found or left under the key. -/
structure Cloud.Under (s : Cloud) (actor : Actor) (idempotencyKey : String)
    (record : IdempotencyRecord) : Prop where
  claimed : s.registry.Claimed ((actor, idempotencyKey), record)
  succeeded : record.status = .succeeded → s.Succeeded actor idempotencyKey

theorem lasts_under {actor : Actor} {idempotencyKey : String} {record : IdempotencyRecord} :
    Lasts init fun s => s.Under actor idempotencyKey record :=
  fun s s' owner hinv hinv' hevolves h =>
    ⟨h.claimed.mono hevolves.registry, fun hsucceeded =>
      lasts_succeeded s s' owner hinv hinv' hevolves (h.succeeded hsucceeded)⟩

/-- Evidence is only left out where there is some. -/
def Cloud.Covered (s : Cloud) (actor : Actor) (idempotencyKey : String)
    (shouldWriteTerminalAudit : Bool) : Prop :=
  shouldWriteTerminalAudit = false → s.Succeeded actor idempotencyKey

theorem lasts_covered {actor : Actor} {idempotencyKey : String} {shouldWrite : Bool} :
    Lasts init fun s => s.Covered actor idempotencyKey shouldWrite :=
  .imp lasts_succeeded

theorem Cloud.Under.covered {s : Cloud} {actor : Actor} {idempotencyKey : String}
    {record : IdempotencyRecord} (h : s.Under actor idempotencyKey record) :
    s.Covered actor idempotencyKey (record.status ≠ .succeeded) :=
  fun hskip => h.succeeded (not_not.mp (of_decide_eq_false hskip))

theorem lasts_enrolled {operation : EnrollmentRecord} :
    Lasts init fun s => s.registry.Enrolled operation :=
  fun _ _ _ _ _ hevolves h => h.mono hevolves.registry

theorem lasts_enrollmentFinished {operationId : String} {result : ConsumerProvisioningResult} :
    Lasts init fun s => s.Finished operationId result := by
  rintro s s' actor - - hevolves ⟨row, hrow, hready, rfl⟩
  obtain ⟨row', hrow', hstep⟩ := hevolves.registry.enrollments hrow
  have hsame : row'.record = row.record := hstep.ended (by rw [hready]; decide)
  exact ⟨row', hrow', hsame ▸ hready, by rw [hsame]⟩

/-- The result of an operation is told by the fields that its end does not touch. -/
theorem activeResult_of_fixed {operation operation' : EnrollmentRecord}
    (h : operation.fixed = operation'.fixed) : activeResult operation = activeResult operation' := by
  simp only [EnrollmentRecord.fixed, EnrollmentRecord.mk.injEq] at h
  simp [activeResult, h]

/-! ## Harmless requests -/

theorem Request.Harmless.write {write : TableWrite} (h : ∀ s, RegistryWrite s write)
    (hkey : write.key.isCursor = false) : (Request.write write).Harmless :=
  ⟨by simp [Request.quiet, hkey], fun _ s => .registry (h s)⟩

theorem harmless_ensureIssuerTruststoreRoot (issuer : IssuerRecord) :
    (ensureIssuerTruststoreRoot issuer).Only Request.Harmless :=
  .recover (Request.Harmless.send (.write (fun _ => .root) rfl)) fun _ =>
    .bind (Request.Harmless.get _).send fun _ => .ite trivial trivial

theorem harmless_createIssuer (issuer : IssuerRecord) :
    (createIssuer issuer).Only Request.Harmless := by
  refine .recover (.bind (Request.Harmless.send ⟨rfl, fun _ _ => .registry .issuer⟩)
    fun _ => trivial) fun _ => ?_
  refine .bind (Request.Harmless.get _).send fun existing => ?_
  cases existing with
  | none => trivial
  | some existing =>
      show ((ensureIssuerTruststoreRoot existing).bind _).Only Request.Harmless
      exact .bind (harmless_ensureIssuerTruststoreRoot existing) fun _ => trivial

theorem harmless_encryptPrivateKey : IssuerService.encryptPrivateKey.Only Request.Harmless := by
  refine .bind (Request.Harmless.send ⟨rfl, fun _ _ => trivial⟩) fun encrypted => ?_
  cases encrypted <;> trivial

theorem harmless_getOrCreateIssuer : IssuerService.getOrCreateIssuer.Only Request.Harmless := by
  refine .bind (Request.Harmless.get _).send fun existing => ?_
  cases existing with
  | some existing => exact .bind (harmless_ensureIssuerTruststoreRoot existing) fun _ => trivial
  | none =>
      refine .bind (Request.Harmless.send ⟨rfl, fun _ _ => trivial⟩) fun _ => ?_
      refine .bind (Request.Harmless.send ⟨rfl, fun _ _ => trivial⟩) fun _ => ?_
      refine .bind harmless_encryptPrivateKey fun _ => ?_
      exact .bind (harmless_createIssuer _) fun _ => trivial

theorem harmless_issuerFingerprint : IssuerService.issuerFingerprint.Only Request.Harmless :=
  .bind harmless_getOrCreateIssuer fun _ => trivial

theorem harmless_decryptPrivateKey (encryptedPrivateKey : String) :
    (IssuerService.decryptPrivateKey encryptedPrivateKey).Only Request.Harmless := by
  refine .bind (Request.Harmless.send ⟨rfl, fun _ _ => trivial⟩) fun failure => ?_
  cases failure with
  | none => trivial
  | some failure => cases failure <;> trivial

theorem harmless_poll (uri versionId : String) (left : ℕ) :
    (publishTruststore.poll uri versionId left).Only Request.Harmless := by
  induction left with
  | zero => trivial
  | succ left ih =>
      refine .bind (Request.Harmless.send ⟨rfl, fun _ _ => trivial⟩) fun _ => ?_
      exact .ite trivial (.ite trivial ih)

theorem harmless_publishTruststore (key versionId : String) :
    (publishTruststore key versionId).Only Request.Harmless := by
  refine .bind (Request.Harmless.send ⟨rfl, fun _ _ => trivial⟩) fun _ => ?_
  refine .bind ?_ fun _ => harmless_poll _ _ _
  exact .ite (.recover (Request.Harmless.send ⟨rfl, fun _ _ => trivial⟩) fun _ =>
    .ite trivial trivial) trivial

theorem harmless_reconcileTruststore : reconcileTruststore.Only Request.Harmless := by
  refine .bind (Request.Harmless.get _).send fun state => ?_
  cases state.bind TruststoreState.currentTruststoreKey with
  | none => trivial
  | some key =>
      cases state.bind TruststoreState.currentTruststoreVersionId with
      | none => trivial
      | some versionId => exact harmless_publishTruststore key versionId

theorem harmless_listTruststoreRoots (operationId : String) :
    (listTruststoreRoots operationId).Only Request.Harmless := by
  have hpages : ∀ left startKey,
      (listTruststoreRoots.pages operationId left startKey).Only Request.Harmless := by
    intro left
    induction left with
    | zero => exact fun _ => trivial
    | succ left ih =>
        intro startKey
        refine .bind (Request.Harmless.send ⟨rfl, fun _ _ => trivial⟩) fun page => ?_
        cases page.lastEvaluatedKey with
        | none => trivial
        | some key => exact .bind (ih (some key)) fun _ => trivial
  refine .bind (Request.Harmless.send ⟨rfl, fun _ _ => trivial⟩) fun most => ?_
  exact .bind (hpages most none) fun _ => trivial

theorem harmless_rootsAndState (operationId : String) :
    (rootsAndState operationId).Only Request.Harmless := by
  refine .bind (Request.Harmless.send ⟨rfl, fun _ _ => trivial⟩) fun _ => .ite ?_ ?_
  · exact .bind (harmless_listTruststoreRoots _) fun _ =>
      .bind (Request.Harmless.get _).send fun _ => trivial
  · exact .bind (Request.Harmless.get _).send fun _ =>
      .bind (harmless_listTruststoreRoots _) fun _ => trivial

theorem harmless_createTruststoreBundle (operation : EnrollmentRecord)
    (roots : List TruststoreRootRecord) (rootFingerprints : List String) :
    (createTruststoreBundle operation roots rootFingerprints).Only Request.Harmless := by
  refine .ite trivial (.bind (.recover (.bind (Request.Harmless.send ⟨rfl, fun _ _ => trivial⟩)
    fun _ => trivial) fun _ => .recover (.bind (Request.Harmless.send ⟨rfl, fun _ _ => trivial⟩)
    fun _ => .ite trivial trivial) fun _ => trivial) fun _ => .bind ?_ fun _ => trivial)
  exact Request.Harmless.send (.write (fun _ => .stage) rfl)

theorem harmless_truststoreFor (operation : EnrollmentRecord) (roots : List TruststoreRootRecord)
    (state : Option TruststoreState) :
    (truststoreFor operation roots state).Only Request.Harmless := by
  simp only [truststoreFor]
  cases currentTruststoreForRoots state (roots.map TruststoreRootRecord.fingerprint) with
  | none => exact harmless_createTruststoreBundle _ _ _
  | some truststore => trivial

theorem harmless_acquireTruststoreLease (operationId : String) (expiresAt : Time) :
    (acquireTruststoreLease operationId expiresAt).Only Request.Harmless :=
  .recover (.bind (Request.Harmless.send ⟨rfl, fun _ _ => trivial⟩) fun _ =>
    Request.Harmless.send (.write (fun _ => .lease) rfl)) fun _ => trivial

section Specs

variable {issued : Request → Cloud → Prop} {F : Cloud → Prop}

/-- A program with a handler for whatever it raises. -/
theorem Spec.recover {α : Type} {program : Service α} {handler : Failure → Service α}
    {R : α → Cloud → Prop} (h : Spec init issued pid F program R)
    (hhandler : ∀ failure, Spec init issued pid F (handler failure) R) :
    Spec init issued pid F (program.recover handler) R :=
  Discipline.Safe.recover h hhandler

/-- A harmless step whose result is of no use. -/
theorem Spec.harmless_bind {α β : Type} (hF : Persists init pid F) {program : Service α}
    (h : program.Only Request.Harmless) {next : α → Service β} {R : β → Cloud → Prop}
    (hnext : ∀ value, Spec init issued pid F (next value) R) :
    Spec init issued pid F (program.bind next) R :=
  (Spec.harmless hF h).skip hnext

/-- A program that may find nothing. -/
theorem Spec.bind_option {α β : Type} {program : Service (Option α)} {G : α → Cloud → Prop}
    {next : Option α → Service β} {R : β → Cloud → Prop}
    (h : Spec init issued pid F program fun found s => ∀ value, found = some value → G value s)
    (hnone : Spec init issued pid F (next none) R)
    (hsome : ∀ value, Spec init issued pid (fun s => F s ∧ G value s) (next (some value)) R) :
    Spec init issued pid F (program.bind next) R := by
  refine Discipline.Safe.bind h fun found => ?_
  cases found with
  | none => exact Discipline.Safe.of_pre hnone fun _ _ hs => hs.1
  | some value =>
      exact (hsome value).weaken (fun _ _ hs => ⟨hs.1, hs.2 value rfl⟩)
        (fun _ _ _ hs => ⟨hs.1.1, hs.2⟩) fun _ _ _ hs => hs.1

/-- A program that must find something. -/
theorem Spec.require {α β : Type} {program : Service (Option α)} {G : α → Cloud → Prop}
    {error : ApiError} {next : α → Service β} {R : β → Cloud → Prop}
    (h : Spec init issued pid F program fun found s => ∀ value, found = some value → G value s)
    (hnext : ∀ value, Spec init issued pid (fun s => F s ∧ G value s) (next value) R) :
    Spec init issued pid F
      (program.bind fun found => (Hemlig.requireSome error found).bind next) R :=
  .bind_option h .raise hnext

/-! ## Reads -/

theorem spec_getEnrollment (hF : Persists init pid F) (operationId : String) :
    Spec init issued pid F (getEnrollment operationId) fun found s =>
      ∀ operation, found = some operation → operation.operationId = operationId ∧
        s.registry.Enrolled operation ∧
        (operation.workflowState = .ready → s.Finished operationId (activeResult operation)) := by
  refine Spec.bind (R := fun row s => ∀ stored, row = some stored →
    s.enrollment operationId = some stored) (.get hF _ fun _ _ _ _ h => h) fun row =>
      .ret fun s _ hs operation hoperation => ?_
  obtain ⟨stored, hstored, rfl⟩ := Option.map_eq_some_iff.mp hoperation
  have hrow := hs.2 stored hstored
  obtain ⟨record, rfl⟩ := stored
  exact ⟨rfl, ⟨_, hrow, rfl⟩, fun hready => ⟨_, hrow, hready, rfl⟩⟩

theorem spec_getIdempotency (hF : Persists init pid F) (actor : Actor) (idempotencyKey : String) :
    Spec init issued pid F (getIdempotency actor idempotencyKey) fun found s =>
      ∀ record, found = some record → s.Under actor idempotencyKey record :=
  .get hF _ fun _ _ _ record hrecord =>
    ⟨⟨record, hrecord, rfl⟩, fun hsucceeded => ⟨record, hrecord, hsucceeded⟩⟩

/-! ## Publishing -/

theorem spec_failEnrollment (hF : Persists init pid F) {operation : EnrollmentRecord}
    (henrolled : ∀ s, F s → s.registry.Enrolled operation) :
    Spec init issued pid F (failEnrollment operation) fun _ _ => True :=
  .send_any hF rfl fun s _ hs => .registry (.fail (henrolled s hs))

theorem spec_rollbackRejectedTruststore (hF : Persists init pid F) {operation : EnrollmentRecord}
    (henrolled : ∀ s, F s → s.registry.Enrolled operation) :
    Spec init issued pid F (rollbackRejectedTruststore operation) fun _ _ => True := by
  refine Spec.harmless_bind hF (Request.Harmless.get _).send fun state => ?_
  cases state.bind TruststoreState.currentTruststoreKey with
  | none => exact spec_failEnrollment hF henrolled
  | some key =>
      cases state.bind TruststoreState.currentTruststoreVersionId with
      | none => exact spec_failEnrollment hF henrolled
      | some versionId =>
          exact Spec.harmless_bind hF (harmless_publishTruststore key versionId) fun _ =>
            spec_failEnrollment hF henrolled

theorem spec_publishOrRollback (hF : Persists init pid F) {operation : EnrollmentRecord}
    (henrolled : ∀ s, F s → s.registry.Enrolled operation) (truststore : TruststoreReference) :
    Spec init issued pid F (publishOrRollback operation truststore) fun _ _ => True := by
  refine Spec.recover (Spec.harmless hF (harmless_publishTruststore _ _)) fun failure => ?_
  exact .ite (fun _ => (spec_rollbackRejectedTruststore hF henrolled).skip fun _ => .raise)
    fun _ => .raise

/-- A completed operation has finished with the result it was given. -/
theorem finished_of_complete {operation : EnrollmentRecord} {truststore : TruststoreReference}
    {rootFingerprints : List String} {r r' : Registry}
    (h : r.Step (.complete operation truststore rootFingerprints) r') :
    ∃ row, r'.enrollments operation.operationId = some row ∧ row.record.workflowState = .ready ∧
      activeResult operation = activeResult row.record := by
  cases h with
  | @complete _ _ _ identity row consumer state hwaiting _ =>
      refine ⟨row.settle .ready, Function.update_self .., rfl, ?_⟩
      exact activeResult_of_fixed hwaiting.fixed.symm

theorem spec_completeOrLatest (hF : Persists init pid F) {operation : EnrollmentRecord}
    (henrolled : ∀ s, F s → s.registry.Enrolled operation) (truststore : TruststoreReference)
    (rootFingerprints : List String) :
    Spec init issued pid F (completeOrLatest operation truststore rootFingerprints)
      fun result s => s.Finished operation.operationId result := by
  refine Spec.recover ?_ fun failure => ?_
  · refine Spec.bind (R := fun _ s => s.Finished operation.operationId (activeResult operation))
      (.send hF rfl (fun s _ hs => .registry (.complete (henrolled s hs))) ?_)
      fun _ => .ret fun _ _ hs => hs.2
    rintro s choice _ s' - - hs - hperform
    simp only [perform] at hperform
    split at hperform <;> cases hperform
    rename_i table htransact
    exact finished_of_complete (Registry.complete_of_transact (henrolled s hs) htransact)
  · refine .bind (spec_getEnrollment hF _) fun latest => ?_
    cases hready : latest.filter (·.workflowState = .ready) with
    | none => exact .raise
    | some operation' =>
        obtain ⟨hlatest, hstate⟩ := Option.filter_eq_some_iff.mp hready
        exact .ret fun s _ hs => (hs.2 operation' hlatest).2.2 (of_decide_eq_true hstate)

theorem spec_publishEnrollment (hF : Persists init pid F) {operation : EnrollmentRecord}
    (henrolled : ∀ s, F s → s.registry.Enrolled operation) :
    Spec init issued pid F (publishEnrollment operation)
      fun result s => s.Finished operation.operationId result := by
  refine Spec.harmless_bind hF (harmless_rootsAndState _) fun ⟨roots, state⟩ => ?_
  refine .ite (fun _ => .raise) fun _ => .ite (fun _ => .raise) fun _ => ?_
  refine Spec.harmless_bind hF (harmless_truststoreFor _ _ _) fun truststore => ?_
  exact (spec_publishOrRollback hF henrolled truststore).skip fun _ =>
    spec_completeOrLatest hF henrolled truststore _

/-- **A resumed enrollment has finished.** -/
theorem spec_resume (hF : Persists init pid F) (operationId : String) :
    Spec init issued pid F (resume operationId) fun result s => s.Finished operationId result := by
  refine Spec.require (spec_getEnrollment hF operationId) fun operation => ?_
  have hknows : Persists init pid fun s => F s ∧ operation.operationId = operationId ∧
      s.registry.Enrolled operation ∧
      (operation.workflowState = .ready → s.Finished operationId (activeResult operation)) :=
    hF.and ((Lasts.const _).and (lasts_enrolled.and (.imp lasts_enrollmentFinished))).persists
  split
  · exact .ret fun s _ hs => hs.2.2.2 ‹_›
  · exact .raise
  · refine (spec_now hknows).skip fun now => ?_
    refine Spec.harmless_bind hknows (harmless_acquireTruststoreLease _ _) fun _ => ?_
    exact (spec_publishEnrollment hknows fun s hs => hs.2.2.1).post fun _ s _ hs hfinished =>
      hs.2.1 ▸ hfinished

/-! ## Idempotency -/

theorem spec_claimOrWinner (hF : Persists init pid F) (item : IdempotencyRecord)
    {claim : Service Unit} {actor : Actor} {idempotencyKey : String}
    (h : Spec init issued pid F claim fun _ s => s.Under actor idempotencyKey item) :
    Spec init issued pid F (claimOrWinner claim actor idempotencyKey) fun winner s =>
      s.Under actor idempotencyKey (winner.getD item) := by
  refine Spec.recover (h.bind fun _ => .ret fun _ _ hs => hs.2) fun failure => ?_
  refine .bind_option (spec_getIdempotency hF actor idempotencyKey) .raise fun winner => ?_
  exact .ret fun _ _ hs => hs.2

/-! ## Enrollment -/

/-- The enrollment that claimed the key, with this request, has finished with the result. -/
def Cloud.EnrolledUnder (s : Cloud) (actor : Actor) (idempotencyKey : String)
    (requestDigest : OperationDigest) (result : ConsumerProvisioningResult) : Prop :=
  ∃ record operationId, s.registry.Claimed ((actor, idempotencyKey), record) ∧
    record.requestDigest = some requestDigest ∧ record.operationType = some .enroll ∧
    record.operationId = some operationId ∧ s.Finished operationId result

theorem lasts_enrolledUnder {actor : Actor} {idempotencyKey : String}
    {requestDigest : OperationDigest} {result : ConsumerProvisioningResult} :
    Lasts init fun s => s.EnrolledUnder actor idempotencyKey requestDigest result :=
  .exists fun _ => .exists fun _ => lasts_claimed.and ((Lasts.const _).and ((Lasts.const _).and
    ((Lasts.const _).and lasts_enrollmentFinished)))

theorem assertIdempotency_eq {record : IdempotencyRecord} {requestDigest : OperationDigest}
    {operationType : OperationType}
    (h : assertIdempotency record requestDigest operationType = .ok ()) :
    record.requestDigest = some requestDigest ∧ record.operationType = some operationType := by
  unfold assertIdempotency at h
  split at h
  · cases h
  · rename_i hnot
    push Not at hnot
    exact hnot

theorem stringField_eq {value : Option String} {field : String}
    (h : stringField value = .ok field) : value = some field := by
  unfold stringField at h
  split at h
  · cases h
    exact (Option.filter_eq_some_iff.mp ‹_›).1
  · cases h

theorem spec_resumeRecorded (hF : Persists init pid F) {record : IdempotencyRecord} {actor : Actor}
    {idempotencyKey : String} (requestDigest : OperationDigest)
    (hunder : ∀ s, F s → s.Under actor idempotencyKey record) :
    Spec init issued pid F (resumeRecorded record requestDigest) fun operation s =>
      s.EnrolledUnder actor idempotencyKey requestDigest operation.result ∧
        s.Covered actor idempotencyKey operation.shouldWriteTerminalAudit := by
  refine Spec.bind_fact .assertOk fun _ hassert => ?_
  obtain ⟨hdigest, htype⟩ := assertIdempotency_eq hassert
  refine Spec.bind_fact .assertOk fun operationId hfield => ?_
  refine .bind (spec_resume hF operationId) fun result => .ret fun s _ hs => ?_
  exact ⟨⟨record, operationId, (hunder s hs.1).claimed, hdigest, htype, stringField_eq hfield,
    hs.2⟩, (hunder s hs.1).covered⟩

theorem spec_resumeClaimed (hF : Persists init pid F) {winner : Option IdempotencyRecord}
    {operationId : String} {actor : Actor} {idempotencyKey : String}
    {requestDigest : OperationDigest} {item : IdempotencyRecord}
    (hitem : item.requestDigest = some requestDigest ∧ item.operationType = some .enroll ∧
      item.operationId = some operationId)
    (hunder : ∀ s, F s → s.Under actor idempotencyKey (winner.getD item)) :
    Spec init issued pid F (resumeClaimed winner operationId requestDigest) fun operation s =>
      s.EnrolledUnder actor idempotencyKey requestDigest operation.result ∧
        s.Covered actor idempotencyKey operation.shouldWriteTerminalAudit := by
  cases winner with
  | some winner => exact spec_resumeRecorded hF requestDigest hunder
  | none =>
      refine .bind (spec_resume hF operationId) fun result => .ret fun s _ hs => ⟨?_, nofun⟩
      exact ⟨item, operationId, (hunder s hs.1).claimed, hitem.1, hitem.2.1, hitem.2.2, hs.2⟩

theorem spec_joinPending (hF : Persists init pid F) (input : EnrollmentInput)
    (requestDigest : OperationDigest) {pending : EnrollmentRecord}
    (henrolled : ∀ s, F s → s.registry.Enrolled pending) :
    Spec init issued pid F (joinPending input requestDigest pending) fun operation s =>
      s.EnrolledUnder input.actor input.idempotencyKey requestDigest operation.result ∧
        s.Covered input.actor input.idempotencyKey operation.shouldWriteTerminalAudit := by
  refine .ite (fun _ => .raise) fun hmatch => ?_
  have hdigest : pending.requestDigest = requestDigest := by
    simp only [mismatched, decide_eq_true_eq, not_or, not_not] at hmatch
    exact hmatch.2.2.2.1
  refine .bind (spec_claimOrWinner hF (associatedItem pending) ?_) fun winner => ?_
  · refine Spec.recover ?_ fun _ => .raise
    refine .send hF rfl (fun s _ hs => .registry (.associate (henrolled s hs))) ?_
    rintro s choice _ s' - - hs - hperform
    simp only [perform] at hperform
    split at hperform <;> cases hperform
    exact ⟨⟨_, Table.get_set_self _ _ _, rfl⟩, fun hnone => by cases hnone⟩
  · refine spec_resumeClaimed (hF.and lasts_under.persists) ⟨?_, ?_, rfl⟩ fun s hs => hs.2
    · rw [← hdigest]
      rfl
    · rw [associatedItem, Registry.operationType_eq pending.operationType]
      rfl

/-- What the issuer has issued. -/
structure IssuedApiIdentity.For (identity : IssuedApiIdentity) (consumerId environment : String)
    (csr : CertificateRequest) : Prop where
  consumerId : identity.apiIdentity.consumerId = consumerId
  environment : identity.apiIdentity.environment = environment
  kind : identity.apiIdentity.kind = .api
  key : ∃ parsed, IssuerService.parseAndVerifyCsr csr = .ok parsed ∧
    identity.apiIdentity.certificatePem.publicKey = parsed.publicKey

theorem spec_issueApiIdentity (hF : Persists init pid F) (consumerId environment : String)
    (csr : CertificateRequest) :
    Spec init issued pid F (IssuerService.issueApiIdentity consumerId environment csr)
      fun identity _ => identity.For consumerId environment csr := by
  refine Spec.bind_fact .assertOk fun parsed hparsed => ?_
  refine Spec.harmless_bind hF harmless_getOrCreateIssuer fun ⟨issuer, _⟩ => ?_
  refine Spec.harmless_bind hF (harmless_decryptPrivateKey _) fun _ => ?_
  refine Spec.skip (R := fun _ _ => True)
    (.send_any (q := .issueLeaf issuer consumerId csr) hF rfl fun _ _ _ => trivial) fun leaf => ?_
  refine Spec.skip (.requireSome leaf) fun certificate => .ret fun _ _ _ => ?_
  exact ⟨rfl, rfl, rfl, parsed, hparsed, rfl⟩

theorem spec_startNew (hF : Persists init pid F) (input : EnrollmentInput)
    (hmay : ∀ s, F s → s.MayEnroll input.actor input.idempotencyKey input.consumerId)
    {rootFingerprint : String} {csr : CertificationRequest}
    (hcsr : IssuerService.parseAndVerifyCsr input.apiCertificateSigningRequestPem = .ok csr) :
    Spec init issued pid F
      (startNew input (.enroll input.consumerId input.environment rootFingerprint csr))
      fun operation s => s.EnrolledUnder input.actor input.idempotencyKey
          (.enroll input.consumerId input.environment rootFingerprint csr) operation.result ∧
        s.Covered input.actor input.idempotencyKey operation.shouldWriteTerminalAudit := by
  refine Spec.bind_fact (spec_issueApiIdentity hF _ _ _) fun identity hidentity => ?_
  refine (spec_now hF).skip fun createdAt => ?_
  refine (spec_newId hF "").skip fun operationId => ?_
  refine (spec_now hF).skip fun now => ?_
  obtain ⟨parsed, hparsed, hkey⟩ := hidentity.key
  obtain rfl : parsed = csr := Except.ok.inj (hparsed.symm.trans hcsr)
  have hmatches : (preparedEnrollment input
      (.enroll input.consumerId input.environment rootFingerprint parsed) identity operationId
      createdAt now).Matches :=
    ⟨hidentity.consumerId, hidentity.environment, hidentity.kind, rootFingerprint, parsed, rfl, hkey⟩
  refine .bind (spec_claimOrWinner hF ((preparedEnrollment input
      (.enroll input.consumerId input.environment rootFingerprint parsed) identity operationId
      createdAt now).idempotencyItem) ?_) fun winner => ?_
  · refine Spec.recover ?_ fun _ => .raise
    refine .send hF rfl (fun s _ hs => .registry (.start hmatches (hmay s hs))) ?_
    rintro s choice _ s' - - hs - hperform
    simp only [perform] at hperform
    split at hperform <;> cases hperform
    exact ⟨(RegistryTransaction.start hmatches (hmay s hs)).claimed ‹_› rfl, fun hnone => by cases hnone⟩
  · exact spec_resumeClaimed (hF.and lasts_under.persists) ⟨rfl, rfl, rfl⟩ fun s hs => hs.2

/-- The request of an enrollment, as it was accepted. -/
def EnrollmentInput.Accepted (input : EnrollmentInput) (requestDigest : OperationDigest) : Prop :=
  ∃ rootFingerprint csr,
    IssuerService.parseAndVerifyCsr input.apiCertificateSigningRequestPem = .ok csr ∧
      requestDigest = .enroll input.consumerId input.environment rootFingerprint csr

/-- **What an enrollment returns is the result of the operation under its key.** -/
theorem spec_enroll (hF : Persists init pid F) (input : EnrollmentInput)
    (hmay : ∀ s, F s → s.MayEnroll input.actor input.idempotencyKey input.consumerId) :
    Spec init issued pid F (enroll input) fun operation s =>
      (∃ requestDigest, input.Accepted requestDigest ∧
        s.EnrolledUnder input.actor input.idempotencyKey requestDigest operation.result) ∧
      s.Covered input.actor input.idempotencyKey operation.shouldWriteTerminalAudit := by
  refine Spec.skip .assertOk fun _ => (spec_requireEnvironment hF _).skip fun _ => ?_
  refine Spec.bind_fact .assertOk fun csr hcsr => ?_
  refine Spec.harmless_bind hF harmless_issuerFingerprint fun rootFingerprint => ?_
  have haccepted : input.Accepted
      (.enroll input.consumerId input.environment rootFingerprint csr) :=
    ⟨rootFingerprint, csr, hcsr, rfl⟩
  refine .bind_option (spec_getIdempotency hF _ _) ?_ fun prior => ?_
  · refine .bind_option (G := fun pending s => s.registry.Enrolled pending) ?_ ?_ fun pending => ?_
    · refine Spec.harmless_bind hF (Request.Harmless.get _).send fun consumer => ?_
      cases (consumer.filter (·.status = .pending)).bind
          ConsumerRecord.pendingEnrollmentOperationId with
      | none => exact .ret fun _ _ _ _ hnone => by cases hnone
      | some operationId =>
          exact (spec_getEnrollment hF operationId).post fun found s _ _ h pending hpending =>
            (h pending hpending).2.1
    · exact (spec_startNew hF input hmay hcsr).post
        fun _ _ _ _ h => ⟨⟨_, haccepted, h.1⟩, h.2⟩
    · exact (spec_joinPending (hF.and lasts_enrolled.persists) input _ fun _ hs => hs.2).post
        fun _ _ _ _ h => ⟨⟨_, haccepted, h.1⟩, h.2⟩
  · exact (spec_resumeRecorded (hF.and lasts_under.persists) _ fun _ hs => hs.2).post
      fun _ _ _ _ h => ⟨⟨_, haccepted, h.1⟩, h.2⟩

end Specs

end Hemlig
