import Hemlig.Registry.Machine

/-!
# Sound registries

The rows of an enrollment belong together: the operation, the identity that it created,
the consumer that waits for it and the record of its key.  Each of these rows changes in
transactions that test only some of the others.  What every registry has in common is
therefore stated at once, for all of them (`Registry.Sound`), and kept by every move:

* the moves that settle an operation find the four rows together (`Registry.Waiting`) and
  leave no trace of the consumer waiting;
* the moves that create an identity find none of its fingerprint, so no operation has it;
* only an active identity is revoked, and then its operation is `READY`.
-/

namespace Hemlig

/-- An identity has gone as far as the operation that created it. -/
def Agrees : WorkflowState → IdentityStatus → Prop
  | .prepared, .pending | .ready, .active | .ready, .revoked | .failed, .failed => True
  | _, _ => False

theorem Agrees.stages {state : WorkflowState} {status : IdentityStatus} (h : Agrees state status) :
    (state = .prepared ∧ status = .pending) ∨
      (state = .ready ∧ (status = .active ∨ status = .revoked)) ∨
      (state = .failed ∧ status = .failed) := by
  cases state <;> cases status <;> simp_all [Agrees]

theorem Agrees.pending_iff {state : WorkflowState} {status : IdentityStatus}
    (h : Agrees state status) : state = .prepared ↔ status = .pending := by
  obtain ⟨rfl, rfl⟩ | ⟨rfl, rfl | rfl⟩ | ⟨rfl, rfl⟩ := h.stages <;> simp

theorem Agrees.ready_iff {state : WorkflowState} {status : IdentityStatus}
    (h : Agrees state status) : state = .ready ↔ status = .active ∨ status = .revoked := by
  obtain ⟨rfl, rfl⟩ | ⟨rfl, rfl | rfl⟩ | ⟨rfl, rfl⟩ := h.stages <;> simp

theorem Agrees.failed_iff {state : WorkflowState} {status : IdentityStatus}
    (h : Agrees state status) : state = .failed ↔ status = .failed := by
  obtain ⟨rfl, rfl⟩ | ⟨rfl, rfl | rfl⟩ | ⟨rfl, rfl⟩ := h.stages <;> simp

/-- The identity is the one that the operation created. -/
structure EnrollmentRecord.Created (operation : EnrollmentRecord) (identity : IdentityRecord) :
    Prop where
  consumerId : identity.consumerId = operation.consumerId
  kind : identity.kind = .api
  certificatePem : identity.certificatePem = some operation.apiCertificatePem
  agrees : Agrees operation.workflowState identity.status

/-- The consumer waits for the operation. -/
structure ConsumerRecord.WaitsFor (consumer : ConsumerRecord) (operationId : String) : Prop where
  pending : consumer.status = .pending
  names : consumer.pendingEnrollmentOperationId = some operationId

/-- The operation is for the consumer and the key of its request. -/
def EnrollmentRecord.ForRequest (operation : EnrollmentRecord) : Prop :=
  ∃ rootFingerprint csr, operation.requestDigest =
    .enroll operation.consumerId operation.environment rootFingerprint csr ∧
      operation.apiCertificatePem.publicKey = csr.publicKey

namespace Registry

open DynamoRepository

/-- A record of an enrollment is for the request of its operation. -/
def Recorded (r : Registry) (record : IdempotencyRecord) : Prop :=
  record.operationType = some .enroll → ∀ operationId, record.operationId = some operationId →
    ∃ row, r.enrollments operationId = some row ∧
      record.requestDigest = some row.record.requestDigest

theorem Recorded.mono {r r' : Registry} {record : IdempotencyRecord} (h : r.Recorded record)
    (hextends : Extends r r') : r'.Recorded record := by
  intro htype operationId hoperation
  obtain ⟨row, hrow, hdigest⟩ := h htype operationId hoperation
  obtain ⟨row', hrow', hstep⟩ := hextends.enrollments hrow
  have hsame : row'.record.requestDigest = row.record.requestDigest :=
    show row'.record.fixed.requestDigest = _ from hstep.fixed ▸ rfl
  exact ⟨row', hrow', hsame ▸ hdigest⟩

theorem Recorded.of_fixed {r : Registry} {record record' : IdempotencyRecord}
    (h : r.Recorded record) (hfixed : record'.fixed = record.fixed) : r.Recorded record' := by
  have htype : record'.operationType = record.operationType :=
    show record'.fixed.operationType = _ from hfixed ▸ rfl
  have hoperation : record'.operationId = record.operationId :=
    show record'.fixed.operationId = _ from hfixed ▸ rfl
  have hdigest : record'.requestDigest = record.requestDigest :=
    show record'.fixed.requestDigest = _ from hfixed ▸ rfl
  unfold Recorded
  rw [htype, hoperation, hdigest]
  exact h

/-- The rows of every enrollment belong together. -/
structure Sound (r : Registry) : Prop where
  named : ∀ {fingerprint identity}, r.identities fingerprint = some identity →
    identity.fingerprint = fingerprint
  created : ∀ {operationId} {row : StoredEnrollment operationId},
    r.enrollments operationId = some row →
      ∃ identity, r.identities row.record.apiFingerprint = some identity ∧
        row.record.Created identity
  own : ∀ {operationId operationId'} {row : StoredEnrollment operationId}
    {row' : StoredEnrollment operationId'}, r.enrollments operationId = some row →
      r.enrollments operationId' = some row' →
        row.record.apiFingerprint = row'.record.apiFingerprint → operationId = operationId'
  waiting : ∀ {operationId} {row : StoredEnrollment operationId},
    r.enrollments operationId = some row → row.record.workflowState = .prepared →
      ∃ consumer, r.consumers row.record.consumerId = some consumer ∧
        consumer.WaitsFor operationId
  pending : ∀ {consumerId consumer}, r.consumers consumerId = some consumer →
    consumer.status = .pending → ∃ operationId row, consumer.WaitsFor operationId ∧
      r.enrollments operationId = some row ∧ row.record.workflowState = .prepared ∧
        row.record.consumerId = consumerId
  claimed : ∀ {operationId} {row : StoredEnrollment operationId},
    r.enrollments operationId = some row →
      r.Claimed ((row.record.actor, row.record.idempotencyKey), associatedItem row.record)
  recorded : ∀ {key record}, r.records key = some record → r.Recorded record
  request : ∀ {operationId} {row : StoredEnrollment operationId},
    r.enrollments operationId = some row → row.record.ForRequest

variable {r r' : Registry} {move : RegistryMove}

/-- Nothing was enrolled, and no consumer waits. -/
theorem Sound.of_none (hidentities : ∀ fingerprint, r.identities fingerprint = none)
    (henrollments : ∀ operationId, r.enrollments operationId = none)
    (hconsumers : ∀ {consumerId consumer}, r.consumers consumerId = some consumer →
      consumer.status ≠ .pending)
    (hrecords : ∀ {key record}, r.records key = some record →
      record.operationType ≠ some .enroll) : r.Sound where
  named h := by simp [hidentities] at h
  created h := by simp [henrollments] at h
  own h := by simp [henrollments] at h
  waiting h := by simp [henrollments] at h
  pending h hpending := (hconsumers h hpending).elim
  claimed h := by simp [henrollments] at h
  recorded h htype := (hrecords h htype).elim
  request h := by simp [henrollments] at h

/-- A move that touches neither an operation nor an identity nor a consumer. -/
theorem Sound.of_records (h : r.Sound) (hextends : Extends r r')
    (henrollments : r'.enrollments = r.enrollments) (hidentities : r'.identities = r.identities)
    (hconsumers : r'.consumers = r.consumers)
    (hrecords : ∀ {key record}, r'.records key = some record → r'.Recorded record) :
    r'.Sound where
  named hidentity := h.named (hidentities ▸ hidentity)
  created hrow := by
    rw [hidentities]
    exact h.created (henrollments ▸ hrow)
  own hrow hrow' := h.own (henrollments ▸ hrow) (henrollments ▸ hrow')
  waiting hrow hprepared := by
    rw [hconsumers]
    exact h.waiting (henrollments ▸ hrow) hprepared
  pending hconsumer hpending := by
    rw [henrollments]
    exact h.pending (hconsumers ▸ hconsumer) hpending
  claimed hrow := (h.claimed (henrollments ▸ hrow)).mono hextends
  recorded hrecord := hrecords hrecord
  request hrow := h.request (henrollments ▸ hrow)

/-- A move that only changes the identity of one fingerprint. -/
theorem Sound.of_identity (h : r.Sound) (hextends : Extends r r') {changed : String}
    {identity' : IdentityRecord} (henrollments : r'.enrollments = r.enrollments)
    (hidentities : r'.identities = Function.update r.identities changed (some identity'))
    (hconsumers : r'.consumers = r.consumers) (hnamed : identity'.fingerprint = changed)
    (hcreated : ∀ {operationId} {row : StoredEnrollment operationId},
      r.enrollments operationId = some row → row.record.apiFingerprint = changed →
        row.record.Created identity')
    (hrecords : ∀ {key record}, r'.records key = some record → r'.Recorded record) :
    r'.Sound where
  named {fingerprint identity} hidentity := by
    rw [hidentities] at hidentity
    by_cases hsame : fingerprint = changed
    · rw [hsame, Function.update_self] at hidentity
      rw [← Option.some.inj hidentity, hnamed, hsame]
    · rw [Function.update_of_ne hsame] at hidentity
      exact h.named hidentity
  created {operationId row} hrow := by
    rw [henrollments] at hrow
    rw [hidentities]
    by_cases hsame : row.record.apiFingerprint = changed
    · exact ⟨identity', by rw [hsame, Function.update_self], hcreated hrow hsame⟩
    · rw [Function.update_of_ne hsame]
      exact h.created hrow
  own hrow hrow' := h.own (henrollments ▸ hrow) (henrollments ▸ hrow')
  waiting hrow hprepared := by
    rw [hconsumers]
    exact h.waiting (henrollments ▸ hrow) hprepared
  pending hconsumer hpending := by
    rw [henrollments]
    exact h.pending (hconsumers ▸ hconsumer) hpending
  claimed hrow := (h.claimed (henrollments ▸ hrow)).mono hextends
  recorded hrecord := hrecords hrecord
  request hrow := h.request (henrollments ▸ hrow)

/-! ## An enrollment starts -/

theorem Sound.start (h : r.Sound) {enrollment : PreparedEnrollment}
    (hmatches : enrollment.Matches)
    (hidentity : r.identities enrollment.apiIdentity.fingerprint = none)
    (henrollment : r.enrollments enrollment.operationId = none)
    (hconsumer : r.consumers enrollment.consumerId = none) (hextends : Extends r r')
    (hidentities : r'.identities = Function.update r.identities
      enrollment.apiIdentity.fingerprint (some (enrollment.apiIdentity.item .pending)))
    (henrollments : r'.enrollments = Function.update r.enrollments enrollment.operationId
      (some ⟨enrollment.operationItem, rfl⟩))
    (hconsumers : r'.consumers = Function.update r.consumers enrollment.consumerId
      (some enrollment.consumerItem))
    (hclaimed : r'.Claimed ((enrollment.actor, enrollment.idempotencyKey),
      associatedItem enrollment.operationItem))
    (hrecords : ∀ {key record}, r'.records key = some record → r'.Recorded record) :
    r'.Sound := by
  -- No operation that is already there has the new identity.
  have hother : ∀ {operationId} {row : StoredEnrollment operationId},
      r.enrollments operationId = some row →
        row.record.apiFingerprint ≠ enrollment.apiIdentity.fingerprint := by
    intro operationId row hrow hsame
    obtain ⟨identity, hstored, -⟩ := h.created hrow
    rw [hsame, hidentity] at hstored
    cases hstored
  refine { named := ?_, created := ?_, own := ?_, waiting := ?_, pending := ?_,
           claimed := ?_, recorded := hrecords, request := ?_ }
  · intro fingerprint identity hstored
    rw [hidentities] at hstored
    by_cases hsame : fingerprint = enrollment.apiIdentity.fingerprint
    · rw [hsame, Function.update_self] at hstored
      rw [← Option.some.inj hstored, hsame]
      rfl
    · rw [Function.update_of_ne hsame] at hstored
      exact h.named hstored
  · intro operationId row hrow
    rw [henrollments] at hrow
    rw [hidentities]
    by_cases hsame : operationId = enrollment.operationId
    · subst hsame
      rw [Function.update_self] at hrow
      obtain rfl := Option.some.inj hrow
      exact ⟨_, Function.update_self .., hmatches.consumerId, hmatches.kind, rfl, trivial⟩
    · rw [Function.update_of_ne hsame] at hrow
      rw [Function.update_of_ne (hother hrow)]
      exact h.created hrow
  · intro operationId operationId' row row' hrow hrow' hfingerprint
    rw [henrollments] at hrow hrow'
    by_cases hsame : operationId = enrollment.operationId <;>
      by_cases hsame' : operationId' = enrollment.operationId
    · rw [hsame, hsame']
    · subst hsame
      rw [Function.update_self] at hrow
      rw [Function.update_of_ne hsame'] at hrow'
      obtain rfl := Option.some.inj hrow
      exact (hother hrow' hfingerprint.symm).elim
    · subst hsame'
      rw [Function.update_of_ne hsame] at hrow
      rw [Function.update_self] at hrow'
      obtain rfl := Option.some.inj hrow'
      exact (hother hrow hfingerprint).elim
    · rw [Function.update_of_ne hsame] at hrow
      rw [Function.update_of_ne hsame'] at hrow'
      exact h.own hrow hrow' hfingerprint
  · intro operationId row hrow hprepared
    rw [henrollments] at hrow
    rw [hconsumers]
    by_cases hsame : operationId = enrollment.operationId
    · subst hsame
      rw [Function.update_self] at hrow
      obtain rfl := Option.some.inj hrow
      exact ⟨_, Function.update_self .., rfl, rfl⟩
    · rw [Function.update_of_ne hsame] at hrow
      obtain ⟨consumer, hstored, hwaits⟩ := h.waiting hrow hprepared
      have hne : row.record.consumerId ≠ enrollment.consumerId := by
        intro heq
        rw [heq, hconsumer] at hstored
        cases hstored
      rw [Function.update_of_ne hne]
      exact ⟨consumer, hstored, hwaits⟩
  · intro consumerId consumer hstored hpending
    rw [hconsumers] at hstored
    rw [henrollments]
    by_cases hsame : consumerId = enrollment.consumerId
    · subst hsame
      rw [Function.update_self] at hstored
      obtain rfl := Option.some.inj hstored
      exact ⟨enrollment.operationId, _, ⟨rfl, rfl⟩, Function.update_self .., rfl, rfl⟩
    · rw [Function.update_of_ne hsame] at hstored
      obtain ⟨operationId, row, hwaits, hrow, hprepared, howner⟩ := h.pending hstored hpending
      have hne : operationId ≠ enrollment.operationId := by
        rintro rfl
        rw [henrollment] at hrow
        cases hrow
      exact ⟨operationId, row, hwaits, by rw [Function.update_of_ne hne, hrow], hprepared, howner⟩
  · intro operationId row hrow
    rw [henrollments] at hrow
    by_cases hsame : operationId = enrollment.operationId
    · subst hsame
      rw [Function.update_self] at hrow
      obtain rfl := Option.some.inj hrow
      exact hclaimed
    · rw [Function.update_of_ne hsame] at hrow
      exact (h.claimed hrow).mono hextends
  · intro operationId row hrow
    rw [henrollments] at hrow
    by_cases hsame : operationId = enrollment.operationId
    · subst hsame
      rw [Function.update_self] at hrow
      obtain rfl := Option.some.inj hrow
      exact hmatches.key
    · rw [Function.update_of_ne hsame] at hrow
      exact h.request hrow

/-! ## An enrollment ends -/

/-- The fields of an operation that do not change when it ends. -/
private theorem fixed_fields {operation operation' : EnrollmentRecord}
    (h : operation.fixed = operation'.fixed) :
    operation.apiFingerprint = operation'.apiFingerprint ∧
      operation.consumerId = operation'.consumerId :=
  ⟨show operation.fixed.apiFingerprint = _ from h ▸ rfl,
    show operation.fixed.consumerId = _ from h ▸ rfl⟩

/-- The rows of an operation change together when it ends. -/
theorem Sound.settle (h : r.Sound) {operation : EnrollmentRecord} {identity : IdentityRecord}
    {row : StoredEnrollment operation.operationId} {consumer : ConsumerRecord}
    {state : TruststoreState} (hwaiting : r.Waiting operation identity row consumer state)
    (hextends : Extends r r') {workflowState : WorkflowState} {status : IdentityStatus}
    (hagrees : Agrees workflowState status) (hended : workflowState ≠ .prepared)
    {profile : Option ConsumerRecord}
    (hprofile : ∀ consumer', profile = some consumer' → consumer'.status ≠ .pending)
    (hidentities : r'.identities = Function.update r.identities operation.apiFingerprint
      (some (identity.withStatus status)))
    (henrollments : r'.enrollments = Function.update r.enrollments operation.operationId
      (some (row.settle workflowState)))
    (hconsumers : r'.consumers = Function.update r.consumers operation.consumerId profile)
    (hrecords : ∀ {key record}, r'.records key = some record → r'.Recorded record) :
    r'.Sound := by
  obtain ⟨hfingerprint, howner⟩ := fixed_fields hwaiting.fixed
  -- The consumer of the operation waits for it and for no other.
  have hnames : consumer.WaitsFor operation.operationId := by
    obtain ⟨other, hother, hwaits⟩ := h.waiting hwaiting.storedRow hwaiting.prepared
    rw [howner, hwaiting.storedConsumer] at hother
    exact Option.some.inj hother ▸ hwaits
  -- Its identity is the one it created, and of no other operation.
  have hcreated : row.record.Created identity := by
    obtain ⟨other, hother, hcreated⟩ := h.created hwaiting.storedRow
    rw [hfingerprint, hwaiting.storedIdentity] at hother
    exact Option.some.inj hother ▸ hcreated
  refine { named := ?_, created := ?_, own := ?_, waiting := ?_, pending := ?_,
           claimed := ?_, recorded := hrecords, request := ?_ }
  · intro fingerprint other hstored
    rw [hidentities] at hstored
    by_cases hsame : fingerprint = operation.apiFingerprint
    · rw [hsame, Function.update_self] at hstored
      rw [← Option.some.inj hstored, hsame]
      exact (h.named hwaiting.storedIdentity :)
    · rw [Function.update_of_ne hsame] at hstored
      exact h.named hstored
  · intro operationId other hstored
    rw [henrollments] at hstored
    rw [hidentities]
    by_cases hsame : operationId = operation.operationId
    · subst hsame
      rw [Function.update_self] at hstored
      obtain rfl := Option.some.inj hstored
      have hself : (row.settle workflowState).record.apiFingerprint = operation.apiFingerprint :=
        hfingerprint
      rw [hself, Function.update_self]
      exact ⟨_, rfl, hcreated.consumerId, hcreated.kind, hcreated.certificatePem, hagrees⟩
    · rw [Function.update_of_ne hsame] at hstored
      have hne : other.record.apiFingerprint ≠ operation.apiFingerprint := fun heq =>
        hsame (h.own hstored hwaiting.storedRow (heq.trans hfingerprint.symm))
      rw [Function.update_of_ne hne]
      exact h.created hstored
  · -- The end of an operation changes neither its name nor its fingerprint.
    have hrows : ∀ {operationId} {other : StoredEnrollment operationId},
        r'.enrollments operationId = some other → ∃ before, r.enrollments operationId = some before ∧
          before.record.apiFingerprint = other.record.apiFingerprint := by
      intro operationId other hstored
      rw [henrollments] at hstored
      by_cases hsame : operationId = operation.operationId
      · subst hsame
        rw [Function.update_self] at hstored
        obtain rfl := Option.some.inj hstored
        exact ⟨row, hwaiting.storedRow, rfl⟩
      · rw [Function.update_of_ne hsame] at hstored
        exact ⟨other, hstored, rfl⟩
    intro operationId operationId' other other' hstored hstored' hsame
    obtain ⟨before, hbefore, heq⟩ := hrows hstored
    obtain ⟨before', hbefore', heq'⟩ := hrows hstored'
    exact h.own hbefore hbefore' (heq.trans (hsame.trans heq'.symm))
  · intro operationId other hstored hprepared
    rw [henrollments] at hstored
    by_cases hsame : operationId = operation.operationId
    · subst hsame
      rw [Function.update_self] at hstored
      obtain rfl := Option.some.inj hstored
      exact (hended hprepared).elim
    · rw [Function.update_of_ne hsame] at hstored
      obtain ⟨waits, hwaits, hfor⟩ := h.waiting hstored hprepared
      have hne : other.record.consumerId ≠ operation.consumerId := by
        intro heq
        rw [heq, hwaiting.storedConsumer] at hwaits
        obtain rfl := Option.some.inj hwaits
        exact hsame (Option.some.inj (hfor.names.symm.trans hnames.names))
      rw [hconsumers, Function.update_of_ne hne]
      exact ⟨waits, hwaits, hfor⟩
  · intro consumerId other hstored hpending
    rw [hconsumers] at hstored
    by_cases hsame : consumerId = operation.consumerId
    · rw [hsame, Function.update_self] at hstored
      exact (hprofile other hstored hpending).elim
    · rw [Function.update_of_ne hsame] at hstored
      obtain ⟨operationId, before, hwaits, hrow, hprepared, hbefore⟩ := h.pending hstored hpending
      have hne : operationId ≠ operation.operationId := by
        rintro rfl
        obtain rfl := Option.some.inj (hwaiting.storedRow.symm.trans hrow)
        exact hsame (hbefore.symm.trans howner)
      exact ⟨operationId, before, hwaits, by rw [henrollments, Function.update_of_ne hne, hrow],
        hprepared, hbefore⟩
  · intro operationId other hstored
    rw [henrollments] at hstored
    by_cases hsame : operationId = operation.operationId
    · subst hsame
      rw [Function.update_self] at hstored
      obtain rfl := Option.some.inj hstored
      exact (h.claimed hwaiting.storedRow).mono hextends
    · rw [Function.update_of_ne hsame] at hstored
      exact (h.claimed hstored).mono hextends
  · intro operationId other hstored
    rw [henrollments] at hstored
    by_cases hsame : operationId = operation.operationId
    · subst hsame
      rw [Function.update_self] at hstored
      obtain rfl := Option.some.inj hstored
      exact (h.request hwaiting.storedRow :)
    · rw [Function.update_of_ne hsame] at hstored
      exact h.request hstored

/-! ## Every move -/

/-- The records after a move: those before it, and one of the operation of the move. -/
private theorem recorded_update {records : Actor × String → Option IdempotencyRecord}
    {changed : Actor × String} {item : IdempotencyRecord} (hitem : r.Recorded item)
    (hrecords : ∀ {key record}, records key = some record → r.Recorded record)
    {key : Actor × String} {record : IdempotencyRecord}
    (hrecord : Function.update records changed (some item) key = some record) :
    r.Recorded record := by
  by_cases hsame : key = changed
  · subst hsame
    rw [Function.update_self] at hrecord
    exact Option.some.inj hrecord ▸ hitem
  · rw [Function.update_of_ne hsame] at hrecord
    exact hrecords hrecord

theorem Step.recorded (hstep : Step r move r') (h : r.Sound) {key : Actor × String}
    {record : IdempotencyRecord} (hrecord : r'.records key = some record) : r'.Recorded record := by
  have hold : ∀ {key record}, r.records key = some record → r'.Recorded record :=
    fun hrecord => (h.recorded hrecord).mono hstep.extends
  cases hstep with
  | start =>
      refine recorded_update ?_ hold hrecord
      intro _ operationId hoperation
      obtain rfl := Option.some.inj hoperation
      exact ⟨_, Function.update_self .., rfl⟩
  | rotate | revoke | claim => exact recorded_update (fun htype => by cases htype) hold hrecord
  | @associate operation _ _ henrolled =>
      refine recorded_update ?_ hold hrecord
      intro _ operationId hoperation
      obtain rfl := Option.some.inj hoperation
      obtain ⟨row, hrow, hfixed⟩ := henrolled
      have hdigest : row.record.requestDigest = operation.requestDigest :=
        show row.record.fixed.requestDigest = _ from hfixed ▸ rfl
      exact ⟨row, hrow, congrArg some hdigest.symm⟩
  | @mark actor idempotencyKey eventId =>
      refine recorded_update ?_ hold hrecord
      cases hstored : r.records (actor, idempotencyKey) with
      | none => exact fun htype => by cases htype
      | some stored => exact (hold hstored).of_fixed rfl
  | complete | fail | truststore | grant | policy | activate | issue | consume | forget =>
      exact hold hrecord

/-- **Every move keeps the rows of an enrollment together.** -/
theorem Step.sound (hstep : Step r move r') (h : r.Sound) : r'.Sound := by
  have hextends : Extends r r' := hstep.extends
  have hrecords : ∀ {key record}, r'.records key = some record → r'.Recorded record :=
    hstep.recorded h
  cases hstep with
  | start hmatches hrecord hidentity henrollment hconsumer =>
      exact h.start hmatches hidentity henrollment hconsumer hextends rfl rfl rfl
        ⟨_, Function.update_self .., rfl⟩ hrecords
  | complete hwaiting henvironment =>
      refine h.settle hwaiting hextends (show Agrees .ready .active from trivial) (by simp) ?_
        rfl rfl rfl hrecords
      intro consumer' hconsumer'
      simp [← Option.some.inj hconsumer', ConsumerRecord.activate]
  | fail hwaiting =>
      exact h.settle hwaiting hextends (show Agrees .failed .failed from trivial) (by simp)
        (fun _ hnone => by cases hnone) rfl rfl rfl hrecords
  | rotate hactive hrecord hidentity =>
      refine h.of_identity hextends rfl rfl rfl rfl (fun hrow hsame => ?_) hrecords
      -- No operation created an identity that is not there.
      obtain ⟨identity, hstored, -⟩ := h.created hrow
      rw [hsame, hidentity] at hstored
      cases hstored
  | revoke hrecord hidentity howner hkind hactive =>
      refine h.of_identity hextends rfl rfl rfl (h.named hidentity :)
        (fun {operationId row} hrow hsame => ?_) hrecords
      obtain ⟨other, hstored, hcreated⟩ := h.created hrow
      rw [hsame, hidentity] at hstored
      obtain rfl := Option.some.inj hstored
      have hready : row.record.workflowState = .ready :=
        hcreated.agrees.ready_iff.mpr (.inl hactive)
      refine ⟨hcreated.consumerId, hcreated.kind, hcreated.certificatePem, ?_⟩
      rw [hready]
      trivial
  | associate | claim | mark | truststore | grant | policy | activate | issue | consume | forget =>
      exact h.of_records hextends rfl rfl rfl hrecords

theorem Changes.sound (hchanges : Changes r r') (h : r.Sound) : r'.Sound := by
  cases hchanges with
  | same hsame => exact hsame ▸ h
  | moved move hstep => exact hstep.sound h

/-! ## Grants -/

/-- Every grant is the one of its consumer. -/
def SoleGrants (r : Registry) : Prop :=
  ∀ {grantId} {stored : StoredGrant grantId}, r.grants grantId = some stored →
    r.grantOf stored.record.consumerId = some grantId

/-- A grant that is changed stays the one of its consumer. -/
private theorem SoleGrants.update (h : r.SoleGrants) {changed : String}
    {stored stored' : StoredGrant changed} (hstored : r.grants changed = some stored)
    (hconsumer : stored'.record.consumerId = stored.record.consumerId) {grantId : String}
    {other : StoredGrant grantId}
    (hother : Function.update r.grants changed (some stored') grantId = some other) :
    r.grantOf other.record.consumerId = some grantId := by
  by_cases hsame : grantId = changed
  · subst hsame
    rw [Function.update_self] at hother
    rw [← Option.some.inj hother, hconsumer]
    exact h hstored
  · rw [Function.update_of_ne hsame] at hother
    exact h hother

theorem Step.soleGrants (hstep : Step r move r') (h : r.SoleGrants) : r'.SoleGrants := by
  intro grantId stored hstored
  have hextends : Extends r r' := hstep.extends
  cases hstep with
  | @grant grant hgrant hconsumer =>
      by_cases hsame : grantId = grant.grantId
      · subst hsame
        have hnew : Function.update r.grants grant.grantId _ grant.grantId = some stored := hstored
        rw [Function.update_self] at hnew
        rw [← Option.some.inj hnew]
        exact Function.update_self ..
      · have hold : Function.update r.grants grant.grantId _ grantId = some stored := hstored
        rw [Function.update_of_ne hsame] at hold
        exact hextends.grantOf (h hold)
  | policy hgrant => exact h.update hgrant (by rfl) hstored
  | activate hgrant _ => exact h.update hgrant (by rfl) hstored
  | start | complete | fail | rotate | revoke | associate | claim | mark | truststore | issue
  | consume | forget => exact h hstored

theorem Changes.soleGrants (hchanges : Changes r r') (h : r.SoleGrants) : r'.SoleGrants := by
  cases hchanges with
  | same hsame => exact hsame ▸ h
  | moved move hstep => exact hstep.soleGrants h

/-- A consumer has one grant at most. -/
theorem SoleGrants.unique (h : r.SoleGrants) {grantId grantId' : String}
    {stored : StoredGrant grantId} {stored' : StoredGrant grantId'}
    (hstored : r.grants grantId = some stored) (hstored' : r.grants grantId' = some stored')
    (hconsumer : stored.record.consumerId = stored'.record.consumerId) : grantId = grantId' := by
  have hgrant := h hstored
  rw [hconsumer, h hstored'] at hgrant
  exact (Option.some.inj hgrant).symm

end Registry

end Hemlig
