import Hemlig.Verification.Grants
import Hemlig.Verification.Identities
import Hemlig.Verification.Reading

/-!
# Evidence

A process marks a record only with the event that it has just written for the operation
under the key, or for the registration of an issuer, which claims no key.
-/

namespace Hemlig

open Concurrent Store DynamoRepository ConsumerService

variable {init s s' : Cloud} {pid : ℕ}

/-! ## What an event attests -/

/-- Only the fields of a record matter that stay as they are. -/
theorem attests_of_fixed {record record' : IdempotencyRecord} {event : AuditEvent}
    (hfixed : record'.fixed = record.fixed) (h : s.Attests record event) :
    s.Attests record' event := by
  simp only [IdempotencyRecord.fixed, IdempotencyRecord.mk.injEq] at hfixed
  obtain ⟨hdigest, hoperation, htype, -, -, -, hfingerprint, -, -⟩ := hfixed
  simpa only [Cloud.Attests, hdigest, hoperation, htype, hfingerprint] using h

theorem Cloud.Commits.mono {actor : Option ℕ} (hevolves : Evolves actor s s')
    {completed : CompletedMutation} (h : s.Commits completed) : s'.Commits completed :=
  let ⟨sequence, extendedAt, hhappened⟩ := h
  ⟨sequence, extendedAt, hevolves.happened hhappened⟩

theorem lasts_attests {record : IdempotencyRecord} {event : AuditEvent} :
    Lasts init fun s => s.Attests record event := by
  intro s s' actor hinv hinv' hevolves h
  unfold Cloud.Attests at h ⊢
  cases htype : record.operationType with
  | none =>
      rw [htype] at h
      obtain ⟨completed, hcommits, hrest⟩ := h
      exact ⟨completed, hcommits.mono hevolves, hrest⟩
  | some operationType =>
      rw [htype] at h
      cases operationType with
      | enroll =>
          obtain ⟨operationId, row, hoperation, hrow, hready, htarget⟩ := h
          obtain ⟨row', hrow', hready', hresult⟩ :=
            lasts_enrollmentFinished s s' actor hinv hinv' hevolves ⟨row, hrow, hready, rfl⟩
          exact ⟨operationId, row', hoperation, hrow', hready', hresult ▸ htarget⟩
      | rotate =>
          obtain ⟨consumerId, rootFingerprint, csr, fingerprint, hdigest, hfingerprint, hsome,
            htarget⟩ := h
          obtain ⟨identity, hidentity⟩ := Option.isSome_iff_exists.mp hsome
          obtain ⟨identity', hidentity', -⟩ := hevolves.registry.identities hidentity
          have hsome' : (s'.identity fingerprint).isSome :=
            Option.isSome_iff_exists.mpr ⟨identity', hidentity'⟩
          exact ⟨consumerId, rootFingerprint, csr, fingerprint, hdigest, hfingerprint, hsome',
            htarget⟩
      | revoke =>
          obtain ⟨consumerId, fingerprint, hdigest, hsome, htarget⟩ := h
          obtain ⟨identity, hidentity⟩ := Option.isSome_iff_exists.mp hsome
          obtain ⟨identity', hidentity', -⟩ := hevolves.registry.identities hidentity
          exact ⟨consumerId, fingerprint, hdigest,
            Option.isSome_iff_exists.mpr ⟨identity', hidentity'⟩, htarget⟩

/-- The record under the key is of an operation that the target is the evidence of. -/
def Cloud.Evidenced (s : Cloud) (actor : Actor) (idempotencyKey : String)
    (target : List (String × String)) : Prop :=
  ∃ record, s.registry.Claimed ((actor, idempotencyKey), record) ∧
    ∀ event : AuditEvent, event.target = target → s.Attests record event

theorem lasts_evidenced {actor : Actor} {idempotencyKey : String}
    {target : List (String × String)} :
    Lasts init fun s => s.Evidenced actor idempotencyKey target :=
  .exists fun _ => lasts_claimed.and (.forall fun _ => .imp lasts_attests)

/-- A committed mutation has claimed its key. -/
theorem Cloud.Achieved.evidenced (hinv : Invariant init s) {actor : Actor}
    {idempotencyKey : String} {control : ControlRevision}
    (h : s.Achieved actor idempotencyKey control) {target : List (String × String)}
    (htarget : ∀ entry ∈ Admin.controlTarget control, entry ∈ target) :
    s.Evidenced actor idempotencyKey target := by
  obtain ⟨completed, hcommits, rfl, rfl, rfl⟩ := h
  obtain ⟨sequence, extendedAt, hhappened⟩ := id hcommits
  have hprepared : s.Prepared completed.prepared := (hinv.history.committed hhappened).1
  refine ⟨_, hinv.records.claimed rfl hprepared, fun event htarget' => ?_⟩
  exact ⟨completed, hcommits, rfl, fun entry hentry => htarget' ▸ htarget entry hentry⟩

/-- A finished enrollment has kept the key that started it. -/
theorem Cloud.Finished.evidenced (hinv : Invariant init s) {operationId : String}
    {result : ConsumerProvisioningResult} (h : s.Finished operationId result)
    {operation : EnrollmentRecord} (hname : operation.operationId = operationId)
    (henrolled : s.registry.Enrolled operation) :
    s.Evidenced operation.actor operation.idempotencyKey (Admin.enrollmentTarget result) := by
  subst hname
  obtain ⟨row, hrow, hready, rfl⟩ := h
  obtain ⟨other, hother, hfixed⟩ := henrolled
  obtain rfl := Option.some.inj (hrow.symm.trans hother)
  have hclaimed := hinv.identities.sound.claimed hrow
  have hkey : row.record.actor = operation.actor ∧
      row.record.idempotencyKey = operation.idempotencyKey := by
    simp only [EnrollmentRecord.fixed, EnrollmentRecord.mk.injEq] at hfixed
    exact ⟨hfixed.2.2.2.2.2.2.2.2.2.2.1, hfixed.2.2.2.2.2.2.2.2.2.2.2.1⟩
  rw [hkey.1, hkey.2] at hclaimed
  refine ⟨_, hclaimed, fun event htarget => ?_⟩
  exact ⟨_, row, congrArg some row.named, hrow, hready, htarget⟩

theorem Cloud.EnrolledUnder.evidenced {actor : Actor} {idempotencyKey : String}
    {requestDigest : OperationDigest} {result : ConsumerProvisioningResult}
    (h : s.EnrolledUnder actor idempotencyKey requestDigest result) :
    s.Evidenced actor idempotencyKey (Admin.enrollmentTarget result) := by
  obtain ⟨record, operationId, hclaimed, -, htype, hoperation, row, hrow, hready, rfl⟩ := h
  refine ⟨record, hclaimed, fun event htarget => ?_⟩
  rw [Cloud.Attests, htype]
  exact ⟨operationId, row, hoperation, hrow, hready, htarget⟩

theorem Cloud.RotatedUnder.evidenced {actor : Actor} {idempotencyKey consumerId : String}
    {rootFingerprint : String} {csr : CertificationRequest} {result : ApiIdentityResult}
    (hconsumer : result.consumerId = consumerId)
    (h : s.RotatedUnder actor idempotencyKey (.rotate consumerId rootFingerprint csr) result) :
    s.Evidenced actor idempotencyKey (Admin.identityTarget result) := by
  obtain ⟨record, hclaimed, hdigest, htype, hfingerprint, identity, hidentity, -⟩ := h
  refine ⟨record, hclaimed, fun event htarget => ?_⟩
  rw [Cloud.Attests, htype]
  refine ⟨consumerId, rootFingerprint, csr, result.apiFingerprint, hdigest, hfingerprint, ?_, ?_⟩
  · rw [hidentity]
    rfl
  · rw [htarget, ← hconsumer]
    rfl

theorem Cloud.RevokedUnder.evidenced {actor : Actor} {idempotencyKey consumerId : String}
    {result : ApiIdentityResult} (hconsumer : result.consumerId = consumerId)
    (h : s.RevokedUnder actor idempotencyKey consumerId result.apiFingerprint) :
    s.Evidenced actor idempotencyKey (Admin.identityTarget result) := by
  obtain ⟨record, hclaimed, hdigest, htype, certificatePem, identity, hidentity, -⟩ := h
  refine ⟨record, hclaimed, fun event htarget => ?_⟩
  rw [Cloud.Attests, htype]
  refine ⟨consumerId, result.apiFingerprint, hdigest, ?_, ?_⟩
  · rw [hidentity]
    rfl
  · rw [htarget, ← hconsumer]
    rfl

/-! ## Marking -/

theorem lasts_audited {event : AuditEvent} : Lasts init fun s => event ∈ s.audit :=
  fun _ _ _ _ _ hevolves h => hevolves.evidence h

theorem lasts_proves {actor : Actor} {record : IdempotencyRecord} {eventId : String} :
    Lasts init fun s => s.Proves actor record eventId := by
  rintro s s' owner hinv hinv' hevolves ⟨event, hevent, hid, houtcome, hactor, hattests⟩
  exact ⟨event, hevolves.evidence hevent, hid, houtcome, hactor,
    lasts_attests s s' owner hinv hinv' hevolves hattests⟩

section Specs

variable {issued : Request → Cloud → Prop} {F : Cloud → Prop}

/-- An audit event of some operation, once it is written. -/
theorem spec_auditWritten (hF : Persists init pid F) {event : AuditEvent}
    (hoperation : event.operation ≠ "workflow.recovery") :
    Spec init issued pid F (send (.auditWrite event)) fun _ s => event ∈ s.audit := by
  refine .send hF rfl (fun _ _ _ h => (hoperation h).elim) ?_
  rintro s choice _ s' - - - - hperform
  cases hperform
  exact List.mem_append_right _ (List.mem_singleton_self _)

/-- The record under a key is marked with evidence of its own operation. -/
theorem spec_markAuditSucceeded (hF : Persists init pid F) {actor : Actor}
    {idempotencyKey eventId : String}
    (h : ∀ s, F s → (∃ record, s.registry.Claimed ((actor, idempotencyKey), record) ∧
      s.Proves actor record eventId) ∨ s.ShowsIssuer eventId) :
    Spec init issued pid F (markAuditSucceeded actor idempotencyKey eventId) fun _ s =>
      s.Succeeded actor idempotencyKey := by
  refine .send hF rfl (fun s _ hs => .registry (.mark ?_)) ?_
  · rcases h s hs with ⟨record, ⟨current, hcurrent, hfixed⟩, event, hevent, hid, houtcome, hactor,
      hattests⟩ | hissuer
    · exact .inl ⟨current, hcurrent, event, hevent, hid, houtcome, hactor,
        attests_of_fixed hfixed hattests⟩
    · exact .inr hissuer
  · rintro s choice _ s' - - - - hperform
    simp only [perform] at hperform
    split at hperform <;> cases hperform
    exact ⟨_, Table.get_set_self _ _ _, rfl⟩

/-- The success of an operation is put on record. -/
theorem spec_humanOperation (hF : Persists init pid F) {actor : Actor}
    {idempotencyKey correlationId operation : String} {target : List (String × String)}
    (hoperation : operation ≠ "workflow.recovery")
    (h : ∀ s, F s → s.Evidenced actor idempotencyKey target ∨
      operation = "adminpost:/v1/admin/issuer") :
    Spec init issued pid F (humanOperation actor idempotencyKey correlationId operation target)
      fun _ s => s.Succeeded actor idempotencyKey := by
  refine (spec_newId hF "").skip fun eventId => ?_
  refine .bind (spec_auditWritten hF hoperation) fun _ => ?_
  refine spec_markAuditSucceeded (hF.and lasts_audited.persists) fun s hs => ?_
  rcases h s hs.1 with ⟨record, hclaimed, hattests⟩ | hissuer
  · exact .inl ⟨record, hclaimed, _, hs.2, rfl, rfl, rfl, hattests _ rfl⟩
  · exact .inr ⟨_, hs.2, rfl, hissuer⟩

/-! ## The routes of the administrator -/

theorem AdminRequest.operation_ne_recovery (request : AdminRequest) :
    request.operation ≠ "workflow.recovery" := by
  cases request with
  | createSecret => exact show "adminpost:/v1/admin/secrets" ≠ _ by decide
  | enrollConsumer => exact show "adminpost:/v1/admin/consumers" ≠ _ by decide
  | registerIssuer => exact show "adminpost:/v1/admin/issuer" ≠ _ by decide
  | updateSecret request =>
      show "adminput:/v1/admin/secrets/" ++ request.secretId ++ _ ≠ _
      rw [String.append_assoc]
      exact operation_ne "adminput:/v1/admin/secrets/" _ (by decide)
  | archiveSecret request =>
      show "adminpost:/v1/admin/secrets/" ++ request.secretId ++ _ ≠ _
      rw [String.append_assoc]
      exact operation_ne "adminpost:/v1/admin/secrets/" _ (by decide)
  | revokeGrant request =>
      show "admindelete:/v1/admin/consumers/" ++ request.consumerId ++ _ ++ _ ≠ _
      rw [String.append_assoc, String.append_assoc]
      exact operation_ne "admindelete:/v1/admin/consumers/" _ (by decide)
  | rotateIdentity request =>
      show "adminpost:/v1/admin/consumers/" ++ request.consumerId ++ _ ≠ _
      rw [String.append_assoc]
      exact operation_ne "adminpost:/v1/admin/consumers/" _ (by decide)
  | revokeIdentity request =>
      show "admindelete:/v1/admin/consumers/" ++ request.consumerId ++ _ ++ _ ≠ _
      rw [String.append_assoc, String.append_assoc]
      exact operation_ne "admindelete:/v1/admin/consumers/" _ (by decide)

theorem spec_concludeUnless (hF : Persists init pid F) (audited : Bool) {request : AdminRequest}
    {correlationId : String} {target : List (String × String)}
    (h : ∀ s, F s → s.Evidenced request.actor request.idempotencyKey target)
    (hcovered : ∀ s, F s → s.Covered request.actor request.idempotencyKey (!audited)) :
    Spec init issued pid F (Admin.concludeUnless audited request correlationId target)
      fun _ s => s.Succeeded request.actor request.idempotencyKey :=
  .ite (fun haudited => .ret fun s _ hs => hcovered s hs (by simpa using haudited)) fun _ =>
    spec_humanOperation hF request.operation_ne_recovery fun s hs => .inl (h s hs)

/-- What a request of the administrator has achieved when it returns. -/
def AdminRequest.Result : AdminRequest → AdminResponse → Cloud → Prop
  | .enrollConsumer request, .enrollment result, s => ∃ requestDigest,
      request.Accepted requestDigest ∧
        s.EnrolledUnder request.actor request.idempotencyKey requestDigest result
  | .rotateIdentity request, .identity result, s => ∃ requestDigest,
      request.Accepted requestDigest ∧
        s.RotatedUnder request.actor request.idempotencyKey requestDigest result
  | .revokeIdentity request, .identity result, s =>
      result.apiFingerprint = request.apiFingerprint ∧ s.RevokedUnder request.actor
        request.idempotencyKey request.consumerId request.apiFingerprint
  | request, .control control, s => s.Achieved request.actor request.idempotencyKey control
  | .registerIssuer _ _, .issuer _ _ _, _ => True
  | _, _, _ => False

theorem lasts_achieved {actor : Actor} {idempotencyKey : String} {control : ControlRevision} :
    Lasts init fun s => s.Achieved actor idempotencyKey control := by
  rintro s s' owner - - hevolves ⟨completed, hcommits, hrest⟩
  exact ⟨completed, hcommits.mono hevolves, hrest⟩

theorem lasts_adminResult {request : AdminRequest} {response : AdminResponse} :
    Lasts init (request.Result response) := by
  cases request <;> cases response <;> first
    | exact .const _
    | exact lasts_achieved
    | exact .exists fun _ => (Lasts.const _).and lasts_enrolledUnder
    | exact .exists fun _ => (Lasts.const _).and lasts_rotatedUnder
    | exact (Lasts.const _).and lasts_revokedUnder

/-- What a request has achieved, with the evidence of it. -/
def AdminRequest.Concluded (request : AdminRequest) (response : AdminResponse) (s : Cloud) : Prop :=
  request.Result response s ∧ s.Succeeded request.actor request.idempotencyKey

theorem lasts_concluded {request : AdminRequest} {response : AdminResponse} :
    Lasts init (request.Concluded response) :=
  lasts_adminResult.and lasts_succeeded

/-- A mutation with its evidence. -/
theorem runs_mutation (request : AdminRequest) {correlationId : String}
    {mutation : Service ControlRevision} (target : ControlRevision → List (String × String))
    (hmutation : Runs init issued pid F mutation fun control s =>
      s.Achieved request.actor request.idempotencyKey control)
    (htarget : ∀ control, ∀ entry ∈ Admin.controlTarget control, entry ∈ target control) :
    Runs init issued pid F (mutation.bind fun control =>
      (Admin.conclude request correlationId (target control)).bind fun _ =>
        .ret (AdminResponse.control control)) fun response s =>
          (∃ control, response = .control control ∧
            s.Achieved request.actor request.idempotencyKey control) ∧
          s.Succeeded request.actor request.idempotencyKey := by
  refine Discipline.Safe.bind hmutation fun control => ?_
  have hevidenced : Persists init pid fun s =>
      s.Achieved request.actor request.idempotencyKey control ∧
        s.Evidenced request.actor request.idempotencyKey (target control) :=
    (lasts_achieved.and lasts_evidenced).persists
  refine Discipline.Safe.of_pre ?_ fun s hinv hs =>
    And.intro hs (hs.evidenced hinv (htarget control))
  refine (spec_humanOperation hevidenced request.operation_ne_recovery fun s hs =>
    .inl hs.2).bind_runs fun _ => .ret fun _ _ hs => ⟨⟨control, rfl, hs.1.1⟩, hs.2⟩

/-- **A request of the administrator is the one that its key stands for.** -/
theorem runs_operate (hF : Persists init pid F) {request : AdminRequest} {correlationId : String}
    (hknown : ∀ s, F s → ∀ version, request.ifMatch = some version → version ∈ s.known)
    (hhuman : request.actor.type = .human) :
    Runs init issued pid F (Admin.operate request correlationId) request.Concluded := by
  cases request with
  | createSecret request =>
      refine (runs_mutation (.createSecret request) Admin.controlTarget (runs_adminCreate hF)
        fun _ _ h => h).post ?_
      rintro _ s - ⟨⟨control, rfl, h⟩, hsucceeded⟩
      exact ⟨h, hsucceeded⟩
  | updateSecret request =>
      refine (runs_mutation (.updateSecret request) (Admin.updateTarget request)
        (runs_adminUpdate hF fun s hs => hknown s hs _ rfl)
        fun _ _ h => List.mem_append_left _ h).post ?_
      rintro _ s - ⟨⟨control, rfl, h⟩, hsucceeded⟩
      exact ⟨h, hsucceeded⟩
  | archiveSecret request =>
      refine (runs_mutation (.archiveSecret request) Admin.controlTarget
        (runs_archive hF fun s hs => hknown s hs _ rfl) fun _ _ h => h).post ?_
      rintro _ s - ⟨⟨control, rfl, h⟩, hsucceeded⟩
      exact ⟨h, hsucceeded⟩
  | revokeGrant request =>
      refine (runs_mutation (.revokeGrant request)
        (fun control => ("consumerId", request.consumerId) :: Admin.controlTarget control)
        (runs_revokeConsumerSecretGrant hF) fun _ _ h => List.mem_cons_of_mem _ h).post ?_
      rintro _ s - ⟨⟨control, rfl, h⟩, hsucceeded⟩
      exact ⟨h, hsucceeded⟩
  | enrollConsumer request =>
      refine (spec_enroll hF request fun _ _ => .inl hhuman).next (fun _ _ _ _ h => h) fun operation => ?_
      have hknows : Persists init pid fun s => (∃ requestDigest, request.Accepted requestDigest ∧
          s.EnrolledUnder request.actor request.idempotencyKey requestDigest operation.result) ∧
          s.Covered request.actor request.idempotencyKey operation.shouldWriteTerminalAudit :=
        ((Lasts.exists fun _ => (Lasts.const _).and lasts_enrolledUnder).and lasts_covered).persists
      refine (spec_concludeUnless hknows _ ?_ fun s hs => ?_).bind_runs fun _ =>
        .ret fun s _ hs => ⟨hs.1.1, hs.2⟩
      · rintro s ⟨⟨requestDigest, -, henrolled⟩, -⟩
        exact henrolled.evidenced
      · rw [Bool.not_not]
        exact hs.2
  | rotateIdentity request =>
      refine (spec_rotateApiIdentity hF request).next (fun _ _ _ _ h => h) fun identity => ?_
      have hknows : Persists init pid fun s => identity.consumerId = request.consumerId ∧
          (∃ requestDigest, request.Accepted requestDigest ∧
            s.RotatedUnder request.actor request.idempotencyKey requestDigest identity) ∧
          s.Covered request.actor request.idempotencyKey identity.shouldWriteTerminalAudit :=
        ((Lasts.const _).and ((Lasts.exists fun _ => (Lasts.const _).and lasts_rotatedUnder).and
          lasts_covered)).persists
      refine (spec_concludeUnless hknows _ ?_ fun s hs => ?_).bind_runs fun _ =>
        .ret fun s _ hs => ⟨hs.1.2.1, hs.2⟩
      · rintro s ⟨hconsumer, ⟨requestDigest, ⟨rootFingerprint, csr, -, rfl⟩, hrotated⟩, -⟩
        exact hrotated.evidenced hconsumer
      · rw [Bool.not_not]
        exact hs.2.2
  | revokeIdentity request =>
      refine (spec_revokeApiIdentity hF request).next (fun _ _ _ _ h => h) fun identity => ?_
      have hknows : Persists init pid fun s => identity.consumerId = request.consumerId ∧
          identity.apiFingerprint = request.apiFingerprint ∧
          s.RevokedUnder request.actor request.idempotencyKey request.consumerId
            request.apiFingerprint ∧
          s.Covered request.actor request.idempotencyKey identity.shouldWriteTerminalAudit :=
        ((Lasts.const _).and ((Lasts.const _).and (lasts_revokedUnder.and lasts_covered))).persists
      refine (spec_concludeUnless hknows _ ?_ fun s hs => ?_).bind_runs fun _ =>
        .ret fun s _ hs => ⟨⟨hs.1.2.1, hs.1.2.2.1⟩, hs.2⟩
      · rintro s ⟨hconsumer, hfingerprint, hrevoked, -⟩
        rw [← hfingerprint] at hrevoked
        exact hrevoked.evidenced hconsumer
      · rw [Bool.not_not]
        exact hs.2.2.2
  | registerIssuer actor idempotencyKey =>
      refine (Spec.harmless hF harmless_getOrCreateIssuer).next (fun _ _ _ hs _ => hs)
        fun ⟨issuer, created⟩ => ?_
      refine (Spec.harmless hF (Request.Harmless.get _).send).next (fun _ _ _ hs _ => hs)
        fun truststore => ?_
      refine (spec_humanOperation hF (by decide) fun _ _ => .inr rfl).bind_runs fun _ =>
        .ret fun _ _ hs => ⟨trivial, hs.2⟩

/-! ## The recovery of enrollments -/

/-- `AuditWriter.write`, of an event of some operation. -/
theorem spec_writeEvent (hF : Persists init pid F) {event : AuditEvent}
    (hoperation : event.operation ≠ "workflow.recovery") :
    Spec init issued pid F (Recovery.writeEvent event) fun eventId s =>
      { event with eventId := some eventId } ∈ s.audit := by
  refine (spec_newId hF "").skip fun eventId => ?_
  exact .bind (spec_auditWritten hF hoperation) fun _ => .ret fun _ _ hs => hs.2

/-- The success of a finished enrollment is put on record under the key that started it. -/
theorem spec_recordSuccess (hF : Persists init pid F) {operationId : String}
    {result : ConsumerProvisioningResult} {operation : EnrollmentRecord}
    (h : ∀ s, F s → s.Finished operationId result ∧ operation.operationId = operationId ∧
      s.registry.Enrolled operation) :
    Spec init issued pid F (Recovery.recordSuccess operationId result operation)
      fun _ _ => True := by
  refine Spec.harmless_bind hF (Request.Harmless.get _).send fun idempotency => ?_
  refine .ite (fun _ => .ret fun _ _ _ => trivial) fun _ => ?_
  -- The key of the operation is its own.
  have hevidenced : Persists init pid fun s => F s ∧
      s.Evidenced operation.actor operation.idempotencyKey (Admin.enrollmentTarget result) :=
    hF.and lasts_evidenced.persists
  refine .deduce (fun s hinv hs => (h s hs).1.evidenced hinv (h s hs).2.1 (h s hs).2.2) ?_
  have hoperation : "consumer.enroll" ≠ "workflow.recovery" := by decide
  refine .bind (spec_writeEvent hevidenced hoperation) fun eventId => ?_
  refine (spec_markAuditSucceeded (hevidenced.and lasts_audited.persists) fun s hs => ?_).post
    fun _ _ _ _ _ => trivial
  obtain ⟨record, hclaimed, hattests⟩ := hs.1.2
  exact .inl ⟨record, hclaimed, _, hs.2, rfl, rfl, rfl, hattests _ rfl⟩

theorem spec_resumeExpired (hF : Persists init pid F) (operationId : String) :
    Spec init issued pid F (Recovery.resumeExpired operationId) fun _ _ => True := by
  refine .bind (spec_resume hF operationId) fun result => ?_
  have hfinished : Persists init pid fun s => F s ∧ s.Finished operationId result :=
    hF.and lasts_enrollmentFinished.persists
  refine .bind_option (spec_getEnrollment hfinished operationId) (.ret fun _ _ _ => trivial)
    fun operation => ?_
  have hknows : Persists init pid fun s => (F s ∧ s.Finished operationId result) ∧
      operation.operationId = operationId ∧ s.registry.Enrolled operation ∧
      (operation.workflowState = .ready → s.Finished operationId (activeResult operation)) :=
    hfinished.and ((Lasts.const _).and (lasts_enrolled.and (.imp lasts_enrollmentFinished))).persists
  exact spec_recordSuccess hknows fun s hs => ⟨hs.1.2, hs.2.1, hs.2.2.1⟩

theorem spec_enrollmentExpired (hF : Persists init pid F) (operationId : String) :
    Spec init issued pid F ((Recovery.writeEvent (Recovery.enrollmentExpiredEvent operationId)).bind
      fun _ => .ret ()) fun _ _ => True := by
  have hoperation : "consumer.enrollment.recovery" ≠ "workflow.recovery" := by decide
  exact (spec_writeEvent hF hoperation).skip fun _ => .ret fun _ _ _ => trivial

theorem spec_failExpired (hF : Persists init pid F) (operationId : String) :
    Spec init issued pid F (Recovery.failExpired operationId) fun _ _ => True := by
  refine .bind (spec_getEnrollment hF operationId) fun found => ?_
  have hknows : Persists init pid fun s => F s ∧ ∀ operation, found = some operation →
      operation.operationId = operationId ∧ s.registry.Enrolled operation ∧
      (operation.workflowState = .ready → s.Finished operationId (activeResult operation)) :=
    hF.and (Lasts.forall fun _ => .imp ((Lasts.const _).and
      (lasts_enrolled.and (.imp lasts_enrollmentFinished)))).persists
  cases hfound : found.filter (·.workflowState = .prepared) with
  | none => exact spec_enrollmentExpired hknows operationId
  | some operation =>
      have hsome : found = some operation := (Option.filter_eq_some_iff.mp hfound).1
      have hfail : Spec init issued pid _ (tryCatch (failEnrollment operation) fun _ => pure ())
          fun _ _ => True :=
        .recover (spec_failEnrollment hknows fun s hs => (hs.2 operation hsome).2.1) fun _ =>
          .ret fun _ _ _ => trivial
      exact hfail.skip fun _ => spec_enrollmentExpired hknows operationId

theorem spec_recoverEnrollment (hF : Persists init pid F) (operationId : String) :
    Spec init issued pid F (Recovery.recoverEnrollment operationId) fun _ _ => True :=
  .recover (spec_resumeExpired hF operationId) fun _ => spec_failExpired hF operationId

/-- **A recovery pass over the enrollments records no success that did not happen.** -/
theorem spec_enrollments (hF : Persists init pid F) :
    Spec init issued pid F Recovery.enrollments fun _ _ => True := by
  refine (spec_now hF).skip fun now => ?_
  refine Spec.harmless_bind hF
    (Request.Harmless.send (q := .dueEnrollments now) ⟨rfl, fun _ _ => trivial⟩) fun expired => ?_
  exact (Spec.forM fun operationId _ => spec_recoverEnrollment hF operationId).skip fun _ =>
    Spec.harmless hF harmless_reconcileTruststore

end Specs

end Hemlig
