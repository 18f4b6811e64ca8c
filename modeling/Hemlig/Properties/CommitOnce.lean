import Hemlig.Properties.Bootstrap
import Hemlig.Properties.IdempotencyKeys

/-!
# A key commits once

Four kinds of operation claim an idempotency key, each in the transaction that starts it.  The
record that is left there names one operation for good, so that whatever takes effect under the
key is that operation, and takes effect once.  A request that returns under the key returns the
result of that operation; two of them have asked for the same, and are not mutations.
-/

namespace Hemlig

open Concurrent Store DynamoRepository ConsumerService

variable {init s s' : Cloud} {w : ServiceWorld} {actions : List ServiceAction} {pid : ℕ}
  {actor : Actor} {idempotencyKey : String}

/-! ## Operations -/

/-- An operation that may take effect under a key. -/
inductive Operation
  | mutation (operationId : String)
  | enrollment (operationId : String)
  | rotation (fingerprint : String)
  | revocation (requestDigest : OperationDigest)
  deriving DecidableEq, Repr

/-- The record is the one that the operation claims a key with. -/
def Operation.Names (record : IdempotencyRecord) : Operation → Prop
  | .mutation operationId => record.operationType = none ∧ record.operationId = some operationId
  | .enrollment operationId =>
      record.operationType = some .enroll ∧ record.operationId = some operationId
  | .rotation fingerprint =>
      record.operationType = some .rotate ∧ record.apiFingerprint = some fingerprint
  | .revocation requestDigest =>
      record.operationType = some .revoke ∧ record.requestDigest = some requestDigest

/-- The operation has taken effect; rotations and revocations do so in the transaction that claims
their key. -/
def Cloud.TookEffect (s : Cloud) : Operation → Prop
  | .mutation operationId => ∃ completed, s.Commits completed ∧
      completed.prepared.operationId = operationId
  | .enrollment operationId => ∃ row, s.enrollment operationId = some row ∧
      row.record.workflowState = .ready
  | .rotation _ | .revocation _ => True

/-- The operation carries the key and has taken effect. -/
def Cloud.Effected (s : Cloud) (actor : Actor) (idempotencyKey : String) (operation : Operation) :
    Prop :=
  s.TookEffect operation ∧
    ∃ record, s.registry.Claimed ((actor, idempotencyKey), record) ∧ operation.Names record

/-- What the operation returns. -/
def Operation.Shows (s : Cloud) (output : Output) : Operation → Prop
  | .mutation operationId => ∃ completed, s.Commits completed ∧
      completed.prepared.operationId = operationId ∧
        (output = .control completed.prepared.control ∨
          output = .admin (.control completed.prepared.control))
  | .enrollment operationId => ∃ row, s.enrollment operationId = some row ∧
      output = .admin (.enrollment (activeResult row.record))
  | .rotation fingerprint => ∃ result, output = .admin (.identity result) ∧
      result.apiFingerprint = fingerprint ∧ s.Certified fingerprint result.apiCertificatePem
  | .revocation requestDigest => ∃ result consumerId, output = .admin (.identity result) ∧
      requestDigest = .revoke consumerId result.apiFingerprint

/-- The key under which an event takes effect. -/
def Event.effect : Event → Option (Actor × String)
  | .committed completed _ _ => some (completed.prepared.actor, completed.prepared.idempotencyKey)
  | .rotated actor idempotencyKey _ _ _ | .revoked actor idempotencyKey _ _ _ =>
      some (actor, idempotencyKey)
  | _ => none

/-! ## Requests -/

/-- The key of a request that claims one. -/
def AdminRequest.operationKey (request : AdminRequest) : Option (Actor × String) :=
  match request with
  | .registerIssuer _ _ => none
  | _ => some (request.actor, request.idempotencyKey)

def Input.operationKey : Input → Option (Actor × String)
  | .admin request _ => request.authenticated.operationKey
  | input => input.mutationKey

/-- The request asks for the operation of the digest. -/
def AdminRequest.Accepts (requestDigest : OperationDigest) : AdminRequest → Prop
  | .enrollConsumer request => request.Accepted requestDigest
  | .rotateIdentity request => request.Accepted requestDigest
  | .revokeIdentity request => requestDigest = .revoke request.consumerId request.apiFingerprint
  | _ => False

def Input.Accepts (requestDigest : OperationDigest) : Input → Prop
  | .admin request _ => request.authenticated.Accepts requestDigest
  | _ => False

/-- Every key commits at most one operation. -/
structure KeysCommitOnce (w : ServiceWorld) : Prop where
  /-- A mutation takes effect under its own key. -/
  mutation : ∀ completed, w.store.Commits completed → w.store.Effected completed.prepared.actor
    completed.prepared.idempotencyKey (.mutation completed.prepared.operationId)
  /-- So does an enrollment. -/
  enrollment : ∀ operationId (row : StoredEnrollment operationId),
    w.store.enrollment operationId = some row → row.record.workflowState = .ready →
      w.store.Effected row.record.actor row.record.idempotencyKey (.enrollment operationId)
  rotation : ∀ actor idempotencyKey requestDigest identity rootFingerprint,
    w.store.Happened (.rotated actor idempotencyKey requestDigest identity rootFingerprint) →
      w.store.Effected actor idempotencyKey (.rotation identity.fingerprint)
  revocation : ∀ actor idempotencyKey requestDigest consumerId fingerprint,
    w.store.Happened (.revoked actor idempotencyKey requestDigest consumerId fingerprint) →
      w.store.Effected actor idempotencyKey (.revocation requestDigest)
  /-- One operation takes effect under a key. -/
  sole : ∀ actor idempotencyKey operation operation',
    w.store.Effected actor idempotencyKey operation →
      w.store.Effected actor idempotencyKey operation' → operation = operation'
  /-- It takes effect once. -/
  once : ∀ key, w.store.history.Pairwise fun entry entry' =>
    ¬ (entry.event.effect = some key ∧ entry'.event.effect = some key)
  /-- A request that returns returns the result of the operation under its key. -/
  own : ∀ pid input output actor idempotencyKey, w.procs pid = some (input, .ret output) →
    input.operationKey = some (actor, idempotencyKey) →
      ∃ operation, w.store.Effected actor idempotencyKey operation ∧
        operation.Shows w.store output
  /-- Two requests that return under one key have asked for the same. -/
  same : ∀ pid pid' input input' output output' key, pid ≠ pid' →
    w.procs pid = some (input, .ret output) → w.procs pid' = some (input', .ret output') →
      input.operationKey = some key → input'.operationKey = some key →
        ∃ requestDigest, input.Accepts requestDigest ∧ input'.Accepts requestDigest
  /-- So have two redemptions of one token, which enroll under its key. -/
  redemption : ∀ pid pid' token csr csr' redemption redemption',
    w.Redeemed pid token csr redemption → w.Redeemed pid' token csr' redemption' →
      redemption.result.apiFingerprint = redemption'.result.apiFingerprint ∧
        w.store.ForKeyOf redemption.result.apiFingerprint csr ∧
          w.store.ForKeyOf redemption.result.apiFingerprint csr'

/-! ## Records -/

/-- What two records under one key agree on. -/
theorem same_of_claimed {record record' : IdempotencyRecord}
    (h : s.registry.Claimed ((actor, idempotencyKey), record))
    (h' : s.registry.Claimed ((actor, idempotencyKey), record')) :
    record.operationType = record'.operationType ∧ record.operationId = record'.operationId ∧
      record.apiFingerprint = record'.apiFingerprint ∧
        record.requestDigest = record'.requestDigest := by
  obtain ⟨stored, hstored, hfixed⟩ := h
  obtain ⟨stored', hstored', hfixed'⟩ := h'
  obtain rfl := Option.some.inj (hstored.symm.trans hstored')
  have hsame : record.fixed = record'.fixed := hfixed.symm.trans hfixed'
  simp only [IdempotencyRecord.fixed, IdempotencyRecord.mk.injEq] at hsame
  exact ⟨hsame.2.2.1, hsame.2.1, hsame.2.2.2.2.2.2.1, hsame.1⟩

/-- **A record names one operation.** -/
theorem Cloud.Effected.unique {operation operation' : Operation}
    (h : s.Effected actor idempotencyKey operation)
    (h' : s.Effected actor idempotencyKey operation') : operation = operation' := by
  obtain ⟨-, record, hclaimed, hnames⟩ := h
  obtain ⟨-, record', hclaimed', hnames'⟩ := h'
  obtain ⟨htype, hoperation, hfingerprint, hdigest⟩ := same_of_claimed hclaimed hclaimed'
  cases operation <;> cases operation' <;>
    simp_all [Operation.Names]

/-! ## What takes effect -/

theorem effected_of_commits (hinv : Invariant init s) {completed : CompletedMutation}
    (h : s.Commits completed) : s.Effected completed.prepared.actor
      completed.prepared.idempotencyKey (.mutation completed.prepared.operationId) := by
  obtain ⟨sequence, extendedAt, hhappened⟩ := h
  have hprepared := (hinv.history.committed hhappened).1
  exact ⟨⟨completed, ⟨sequence, extendedAt, hhappened⟩, rfl⟩, _,
    hinv.records.claimed rfl hprepared, rfl, rfl⟩

theorem effected_of_ready (hinv : Invariant init s) {operationId : String}
    {row : StoredEnrollment operationId} (hrow : s.enrollment operationId = some row)
    (hready : row.record.workflowState = .ready) :
    s.Effected row.record.actor row.record.idempotencyKey (.enrollment operationId) := by
  refine ⟨⟨row, hrow, hready⟩, associatedItem row.record, hinv.identities.sound.claimed hrow, ?_⟩
  refine ⟨?_, congrArg some row.named⟩
  exact congrArg (fun kind : EnrollmentOperationType => some kind.operationType)
    (Registry.operationType_eq row.record.operationType)

theorem effected_of_rotated (hinv : Invariant init s) {requestDigest : OperationDigest}
    {identity : ApiIdentity} {rootFingerprint : String}
    (h : s.Happened (.rotated actor idempotencyKey requestDigest identity rootFingerprint)) :
    s.Effected actor idempotencyKey (.rotation identity.fingerprint) :=
  ⟨trivial, _, hinv.records.claimed rfl h, rfl, rfl⟩

theorem effected_of_revoked (hinv : Invariant init s) {requestDigest : OperationDigest}
    {consumerId fingerprint : String}
    (h : s.Happened (.revoked actor idempotencyKey requestDigest consumerId fingerprint)) :
    s.Effected actor idempotencyKey (.revocation requestDigest) :=
  ⟨trivial, _, hinv.records.claimed rfl h, rfl, rfl⟩

/-! ## What requests return -/

/-- The response is one to the request. -/
def AdminRequest.Fits (response : AdminResponse) : AdminRequest → Prop
  | .createSecret _ | .updateSecret _ | .archiveSecret _ | .revokeGrant _ =>
      ∃ control, response = .control control
  | .enrollConsumer _ => ∃ result, response = .enrollment result
  | .rotateIdentity _ | .revokeIdentity _ => ∃ result, response = .identity result
  | .registerIssuer _ _ => True

def Input.Fits (output : Output) : Input → Prop
  | .create _ | .update _ | .archive _ | .agentUpdate _ | .revoke _ _ _ _ =>
      ∃ control, output = .control control
  | .admin request _ => ∃ response, output = .admin response ∧ request.authenticated.Fits response
  | _ => True

theorem returns_operate (request : AdminRequest) (correlationId : String) :
    (Admin.operate request correlationId).Returns fun response => request.Fits response := by
  cases request with
  | createSecret _ | updateSecret _ | archiveSecret _ | revokeGrant _ =>
      exact .after fun control => .after fun _ => ⟨control, rfl⟩
  | enrollConsumer _ => exact .after fun enrollment => .after fun _ => ⟨enrollment.result, rfl⟩
  | rotateIdentity _ | revokeIdentity _ =>
      exact .after fun identity => .after fun _ => ⟨identity, rfl⟩
  | registerIssuer _ _ => exact .after fun _ => .after fun _ => .after fun _ => trivial

theorem returns_code (input : Input) (hkey : input.operationKey.isSome = true) :
    input.code.Returns fun output => input.Fits output := by
  cases input with
  | create _ | update _ | archive _ | agentUpdate _ | revoke _ _ _ _ =>
      exact .after fun control => ⟨control, rfl⟩
  | admin request correlationId =>
      exact (returns_operate request.authenticated correlationId).bind fun response hfits =>
        ⟨response, rfl, hfits⟩
  | _ => cases hkey

/-- A mutation returns what it has committed under its key. -/
theorem effected_of_achieved (hinv : Invariant init s) {control : ControlRevision}
    (h : s.Achieved actor idempotencyKey control) : ∃ operation,
      s.Effected actor idempotencyKey operation ∧ operation.Shows s (.control control) ∧
        operation.Shows s (.admin (.control control)) := by
  obtain ⟨completed, hcommits, rfl, rfl, rfl⟩ := h
  exact ⟨_, effected_of_commits hinv hcommits, ⟨completed, hcommits, rfl, .inl rfl⟩,
    ⟨completed, hcommits, rfl, .inr rfl⟩⟩

/-- What a request of the administrator has achieved is the operation under its key. -/
theorem effected_of_result (hinv : Invariant init s) {request : AdminRequest}
    {response : AdminResponse} (hfits : request.Fits response)
    (hresult : request.Result response s)
    (hkey : request.operationKey = some (actor, idempotencyKey)) :
    ∃ operation, s.Effected actor idempotencyKey operation ∧
      operation.Shows s (.admin response) := by
  have hmutation : ∀ {control}, s.Achieved actor idempotencyKey control →
      response = .control control → ∃ operation, s.Effected actor idempotencyKey operation ∧
        operation.Shows s (.admin response) := by
    rintro control hachieved rfl
    obtain ⟨operation, heffected, -, hshows⟩ := effected_of_achieved hinv hachieved
    exact ⟨operation, heffected, hshows⟩
  cases request with
  | createSecret _ | updateSecret _ | archiveSecret _ | revokeGrant _ =>
      obtain ⟨control, rfl⟩ := hfits
      cases hkey
      exact hmutation hresult rfl
  | enrollConsumer request =>
      obtain ⟨result, rfl⟩ := hfits
      cases hkey
      obtain ⟨requestDigest, -, record, operationId, hclaimed, -, htype, hoperation, row, hrow, hready,
        rfl⟩ := hresult
      exact ⟨.enrollment operationId, ⟨⟨row, hrow, hready⟩, record, hclaimed, htype, hoperation⟩,
        row, hrow, rfl⟩
  | rotateIdentity request =>
      obtain ⟨result, rfl⟩ := hfits
      cases hkey
      obtain ⟨requestDigest, -, record, hclaimed, -, htype, hfingerprint, hcertified⟩ := hresult
      exact ⟨.rotation result.apiFingerprint, ⟨trivial, record, hclaimed, htype, hfingerprint⟩,
        result, rfl, rfl, hcertified⟩
  | revokeIdentity request =>
      obtain ⟨result, rfl⟩ := hfits
      cases hkey
      obtain ⟨hfingerprint, record, hclaimed, hdigest, htype, -⟩ := hresult
      exact ⟨.revocation _, ⟨trivial, record, hclaimed, htype, hdigest⟩, result, request.consumerId,
        rfl, hfingerprint ▸ rfl⟩
  | registerIssuer _ _ => cases hkey

/-- **A request returns the result of the operation under its key.** -/
theorem effected_of_returned (hinit : Initial init)
    (hrun : service.run (World.initial init) actions = some w) {input : Input} {output : Output}
    (hreturned : w.procs pid = some (input, .ret output))
    (hkey : input.operationKey = some (actor, idempotencyKey)) :
    ∃ operation, w.store.Effected actor idempotencyKey operation ∧
      operation.Shows w.store output := by
  have hinv := invariant_of_run hinit hrun
  have hresult := result_of_run hinit hrun hreturned
  have hfits : input.Fits output :=
    System.returned_of_returns hrun rfl (returns_code input (hkey ▸ rfl)) hreturned
  have hmutation : ∀ {control}, w.store.Achieved actor idempotencyKey control →
      output = .control control → ∃ operation, w.store.Effected actor idempotencyKey operation ∧
        operation.Shows w.store output := by
    rintro control hachieved rfl
    obtain ⟨operation, heffected, hshows, -⟩ := effected_of_achieved hinv hachieved
    exact ⟨operation, heffected, hshows⟩
  cases input with
  | create _ | update _ | archive _ | agentUpdate _ | revoke _ _ _ _ =>
      obtain ⟨control, rfl⟩ := hfits
      cases hkey
      exact hmutation hresult rfl
  | admin request correlationId =>
      obtain ⟨response, rfl, hresponse⟩ := hfits
      exact effected_of_result hinv hresponse hresult.1 hkey
  | _ => cases hkey

/-! ## Two requests under one key -/

/-- The record that the transaction of a mutation has left. -/
theorem claimed_of_answered (hinit : Initial init)
    (hrun : service.run (World.initial init) actions = some w) {input : Input}
    (h : service.Answered (World.initial init) actions pid input
      (PreparedUnder actor idempotencyKey)) :
    ∃ record, w.store.registry.Claimed ((actor, idempotencyKey), record) ∧
      record.operationType = none := by
  obtain ⟨before, choice, after, middle, next, q, response, rfl, -, hnext, hafter, hexec, hprepared⟩ :=
    h.split hrun
  obtain ⟨-, mutation, hrecord⟩ := claim_of_preparedUnder hexec hprepared
  have hclaimed : next.store.registry.Claimed
      ((actor, idempotencyKey), idempotencyItem mutation) := ⟨_, hrecord, rfl⟩
  exact ⟨_, hclaimed.mono (extends_of_run hinit hnext hafter), rfl⟩

/-- After the transaction of one process there is none of another. -/
theorem eq_of_earlier (hinit : Initial init) {before before' : List ServiceAction} {pid pid' : ℕ}
    {choice choice' : Choice} {next middle' next' : ServiceWorld} {q' : Request}
    {response' : Response q'}
    (hnext : service.run (World.initial init) (before ++ [.step pid choice]) = some next)
    (htaken : next.store.Taken actor idempotencyKey)
    (hmiddle' : service.run (World.initial init) before' = some middle')
    (hexec' : exec pid' q' choice' middle'.store = some (response', next'.store))
    (hprepared' : PreparedUnder actor idempotencyKey q' response')
    (hearlier : before ++ [.step pid choice] <+: before' ++ [.step pid' choice']) : pid = pid' := by
  rcases List.prefix_concat_iff.mp hearlier with hsame | ⟨between, rfl⟩
  · have hstep := (List.append_inj' hsame rfl).2
    cases hstep
    rfl
  · rw [service.run_append, hnext] at hmiddle'
    obtain ⟨record, hrecord⟩ := htaken.of_extends (extends_of_run hinit hnext hmiddle')
    cases (claim_of_preparedUnder hexec' hprepared').1.symm.trans hrecord

/-- **Two processes do not both prepare a mutation under one key.** -/
theorem answered_once (hinit : Initial init)
    (hrun : service.run (World.initial init) actions = some w) {pid' : ℕ} {input input' : Input}
    (h : service.Answered (World.initial init) actions pid input
      (PreparedUnder actor idempotencyKey))
    (h' : service.Answered (World.initial init) actions pid' input'
      (PreparedUnder actor idempotencyKey)) : pid = pid' := by
  obtain ⟨before, choice, after, middle, next, q, response, heq, hmiddle, hnext, -, hexec,
    hprepared⟩ := h.split hrun
  obtain ⟨before', choice', after', middle', next', q', response', heq', hmiddle', hnext', -, hexec',
    hprepared'⟩ := h'.split hrun
  have htaken : next.store.Taken actor idempotencyKey := by
    obtain ⟨-, mutation, hrecord⟩ := claim_of_preparedUnder hexec hprepared
    exact ⟨_, hrecord⟩
  have htaken' : next'.store.Taken actor idempotencyKey := by
    obtain ⟨-, mutation, hrecord⟩ := claim_of_preparedUnder hexec' hprepared'
    exact ⟨_, hrecord⟩
  have hearlier : before ++ [.step pid choice] <+: actions := heq ▸ List.prefix_append _ _
  have hearlier' : before' ++ [.step pid' choice'] <+: actions := heq' ▸ List.prefix_append _ _
  rcases List.prefix_or_prefix_of_prefix hearlier hearlier' with hbefore | hbefore
  · exact eq_of_earlier hinit hnext htaken hmiddle' hexec' hprepared' hbefore
  · exact (eq_of_earlier hinit hnext' htaken' hmiddle hexec hprepared hbefore).symm

/-- The record of the key is that of an operation that the request asks for. -/
def Cloud.AskedFor (s : Cloud) (actor : Actor) (idempotencyKey : String) (input : Input) : Prop :=
  ∃ requestDigest record, input.Accepts requestDigest ∧
    s.registry.Claimed ((actor, idempotencyKey), record) ∧
      record.requestDigest = some requestDigest ∧ record.operationType ≠ none

/-- A request that has returned has prepared a mutation, or was for the operation of its key. -/
theorem answered_or_askedFor (hinit : Initial init)
    (hrun : service.run (World.initial init) actions = some w) {input : Input} {output : Output}
    (hreturned : w.procs pid = some (input, .ret output))
    (hkey : input.operationKey = some (actor, idempotencyKey)) :
    service.Answered (World.initial init) actions pid input
        (PreparedUnder actor idempotencyKey) ∨ w.store.AskedFor actor idempotencyKey input := by
  have hmutation : input.mutationKey = some (actor, idempotencyKey) →
      service.Answered (World.initial init) actions pid input
        (PreparedUnder actor idempotencyKey) := fun hmutation =>
    System.answered_of_returned hrun rfl (awaits_code hmutation) hreturned
  have hresult := result_of_run hinit hrun hreturned
  have hfits : input.Fits output :=
    System.returned_of_returns hrun rfl (returns_code input (hkey ▸ rfl)) hreturned
  cases input with
  | admin request correlationId =>
      obtain ⟨response, rfl, hresponse⟩ := hfits
      have hachieved := hresult.1
      change request.authenticated.operationKey = _ at hkey
      change request.authenticated.mutationKey = _ → _ at hmutation
      cases request with
      | createSecret _ | updateSecret _ | archiveSecret _ | revokeGrant _ =>
          exact .inl (hmutation hkey)
      | enrollConsumer request =>
          obtain ⟨result, rfl⟩ := hresponse
          cases hkey
          obtain ⟨requestDigest, haccepted, record, operationId, hclaimed, hdigest, htype, -⟩ :=
            hachieved
          exact .inr ⟨requestDigest, record, haccepted, hclaimed, hdigest, htype ▸ nofun⟩
      | rotateIdentity request =>
          obtain ⟨result, rfl⟩ := hresponse
          cases hkey
          obtain ⟨requestDigest, haccepted, record, hclaimed, hdigest, htype, -⟩ := hachieved
          exact .inr ⟨requestDigest, record, haccepted, hclaimed, hdigest, htype ▸ nofun⟩
      | revokeIdentity request =>
          obtain ⟨result, rfl⟩ := hresponse
          cases hkey
          obtain ⟨-, record, hclaimed, hdigest, htype, -⟩ := hachieved
          exact .inr ⟨_, record, rfl, hclaimed, hdigest, htype ▸ nofun⟩
      | registerIssuer _ _ => cases hkey
  | _ => exact .inl (hmutation hkey)

/-- **Two requests that return under one key have asked for the same.** -/
theorem same_of_returned (hinit : Initial init)
    (hrun : service.run (World.initial init) actions = some w) {pid' : ℕ} {input input' : Input}
    {output output' : Output} (hne : pid ≠ pid')
    (hreturned : w.procs pid = some (input, .ret output))
    (hreturned' : w.procs pid' = some (input', .ret output'))
    (hkey : input.operationKey = some (actor, idempotencyKey))
    (hkey' : input'.operationKey = some (actor, idempotencyKey)) :
    ∃ requestDigest, input.Accepts requestDigest ∧ input'.Accepts requestDigest := by
  -- The record of a mutation has no type.
  have hother : ∀ {pid input input'}, service.Answered (World.initial init) actions pid input
      (PreparedUnder actor idempotencyKey) → ¬ w.store.AskedFor actor idempotencyKey input' := by
    rintro pid input input' hanswered ⟨requestDigest, record, -, hclaimed, -, htype⟩
    obtain ⟨record', hclaimed', hnone⟩ := claimed_of_answered hinit hrun hanswered
    exact htype ((same_of_claimed hclaimed hclaimed').1.trans hnone)
  rcases answered_or_askedFor hinit hrun hreturned hkey with hanswered | hasked
  · rcases answered_or_askedFor hinit hrun hreturned' hkey' with hanswered' | hasked'
    · exact (hne (answered_once hinit hrun hanswered hanswered')).elim
    · exact (hother hanswered hasked').elim
  · rcases answered_or_askedFor hinit hrun hreturned' hkey' with hanswered' | hasked'
    · exact (hother hanswered' hasked).elim
    · obtain ⟨requestDigest, record, haccepts, hclaimed, hdigest, -⟩ := hasked
      obtain ⟨requestDigest', record', haccepts', hclaimed', hdigest', -⟩ := hasked'
      have hsame : some requestDigest = some requestDigest' := by
        rw [← hdigest, ← hdigest', (same_of_claimed hclaimed hclaimed').2.2.2]
      obtain rfl := Option.some.inj hsame
      exact ⟨requestDigest, haccepts, haccepts'⟩

/-! ## Entries of the history -/

/-- What a request adds to the history. -/
inductive HistoryStep (q : Request) (s s' : Cloud) : Prop
  | same (h : s'.history = s.history)
  | other (entry : Entry) (h : s'.history = s.history ++ [entry]) (hnone : entry.event.effect = none)
  | noted (entry : Entry) (h : s'.history = s.history ++ [entry]) (write : TableWrite)
      (hq : q = .writeNoted write entry.event)
  | transact (entry : Entry) (h : s'.history = s.history ++ [entry]) (writes : List TableWrite)
      (conflicts : List ℕ) (hq : q = .transactWrite writes (some entry.event))
      (htransact : transact s.table conflicts writes = .ok s'.table)

theorem historyStep_perform {q : Request} {choice : Choice} {response : Response q}
    (h : perform pid choice s q = some (response, s')) : HistoryStep q s s' := by
  cases q with
  | writeNoted write note =>
      simp only [perform] at h
      split at h
      · cases h
        exact .noted _ rfl write rfl
      · cases h
        exact .same rfl
  | transactWrite writes note =>
      simp only [perform] at h
      split at h
      · cases h
        cases note with
        | none => exact .same rfl
        | some note => exact .transact ⟨s.now, s.known, note⟩ rfl writes choice.conflicts rfl ‹_›
      · cases h
        exact .same rfl
      · cases h
        exact .same rfl
  | deleteObject reference =>
      simp only [perform] at h
      split at h
      · split at h
        · cases h
          exact .same rfl
        · cases h
          exact .other _ rfl rfl
      · cases h
        exact .same rfl
  | reconcileTruststore =>
      cases h
      exact .other _ rfl rfl
  | newRoot =>
      obtain ⟨certificate, -, heq⟩ := Option.map_eq_some_iff.mp h
      cases heq
      exact .same rfl
  | write _ | newId _ | putObject _ _ | extendRetention _ _ | getObject _ | getRetention _
  | putBundle _ _ | getBundle _ | updateDomainName _ _ | provision _ _ _ =>
      simp only [perform] at h
      repeat' split at h
      all_goals cases h
      all_goals exact .same rfl
  | now | choose | get _ | transactGet _ _ | expiredPrepared _ | readyWorkflows _
  | changePage _ _ _ _ | environmentPage _ | accessPage _ _ _ | scanHeads _ | encrypt _
  | decrypt _ | auditWrite _ | dueEnrollments _ | truststoreRootPage _
  | issueLeaf _ _ _ | encryptIssuerKey | decryptIssuerKey _ | getDomainName | identityPage _ =>
      cases h
      exact .same rfl

theorem historyStep_exec {q : Request} {choice : Choice} {response : Response q}
    (h : exec pid q choice s = some (response, s')) : HistoryStep q s s' := by
  unfold exec at h
  split at h
  · exact historyStep_perform h
  · split at h <;> cases h
    exact .same rfl
  · split at h
    · cases h
    · obtain ⟨⟨other, after⟩, hperform, heq⟩ := Option.map_eq_some_iff.mp h
      cases heq
      exact historyStep_perform hperform

/-- An event of the environment takes no effect under a key. -/
theorem historyStep_event {event : EnvironmentEvent} (h : event.apply s = some s') :
    s'.history = s.history ∨ ∃ entry, s'.history = s.history ++ [entry] ∧
      entry.event.effect = none := by
  cases event with
  | tick _ | replicate _ _ | replicateIdentity _ =>
      cases h
      exact .inl rfl
  | expireChange environment sk =>
      simp only [EnvironmentEvent.apply] at h
      split at h <;> cases h
      exact .inr ⟨_, rfl, rfl⟩
  | expireCursor _ | expireCapability _ | foreign _ _ =>
      simp only [EnvironmentEvent.apply] at h
      split at h <;> cases h
      exact .inl rfl

/-- What has taken effect has claimed its key. -/
theorem taken_of_effect (hinv : Invariant init s) {entry : Entry} (hentry : entry ∈ s.history)
    (heffect : entry.event.effect = some (actor, idempotencyKey)) :
    ∃ operation, s.Effected actor idempotencyKey operation := by
  obtain ⟨time, known, event⟩ := entry
  cases event with
  | committed completed sequence extendedAt =>
      cases heffect
      exact ⟨_, effected_of_commits hinv ⟨sequence, extendedAt, _, hentry, rfl⟩⟩
  | rotated _ _ _ _ _ =>
      cases heffect
      exact ⟨_, effected_of_rotated hinv ⟨_, hentry, rfl⟩⟩
  | revoked _ _ _ _ _ =>
      cases heffect
      exact ⟨_, effected_of_revoked hinv ⟨_, hentry, rfl⟩⟩
  | _ => cases heffect

/-- A mutation that commits has not committed before. -/
theorem not_effected_of_commit (hinv : Invariant init s) {completed : CompletedMutation}
    {extendedAt : Option Time} {sequence : ℕ} (hready : CommitReady pid s completed extendedAt)
    (hcommit : Commitment s s' completed sequence extendedAt) {operation : Operation} :
    ¬ s.Effected completed.prepared.actor completed.prepared.idempotencyKey operation := by
  rintro ⟨heffect, record, hclaimed, hnames⟩
  have hown := hinv.records.claimed rfl hready.prepared
  obtain ⟨htype, hoperation, -, -⟩ := same_of_claimed hclaimed hown
  cases operation with
  | mutation operationId =>
      obtain ⟨other, ⟨sequence', extendedAt', hhappened⟩, rfl⟩ := heffect
      have hsame : other.prepared.operationId = completed.prepared.operationId :=
        Option.some.inj (hnames.2.symm.trans hoperation)
      -- A committed operation holds no lease.
      obtain ⟨head, hhead, howner, -⟩ := hcommit.head
      exact (hinv.history.committed hhappened).2.2 _ head hhead (howner.trans (hsame ▸ rfl))
  | enrollment _ | rotation _ | revocation _ => cases hnames.1.symm.trans htype

/-- **An effect is the first one under its key.** -/
theorem first_effect {q : Request} (h : Requested init pid q s s') {event : Event}
    {writes : List TableWrite} {conflicts : List ℕ} (hq : q = .transactWrite writes (some event))
    (htransact : transact s.table conflicts writes = .ok s'.table)
    (heffect : event.effect = some (actor, idempotencyKey)) (operation : Operation) :
    ¬ s.Effected actor idempotencyKey operation := by
  have hready := h.ready
  subst hq
  change Sanctioned pid s writes (some event) at hready
  cases hready with
  | commit hcommit hpublish hnotifications hsize =>
      cases heffect
      exact not_effected_of_commit h.before hcommit (commitment_of_transact htransact)
  | prepare hprepare => cases heffect
  | registry hregistry =>
      -- The record is created by the transaction.
      have hfree : ∀ {record}, .create (.idempotency actor idempotencyKey) record ∈ writes →
          ¬ s.Effected actor idempotencyKey operation := by
        rintro record hmem ⟨-, claimed, ⟨stored, hstored, -⟩, -⟩
        cases (get_of_create htransact hmem).1.symm.trans hstored
      cases hregistry with
      | rotate hactive =>
          cases heffect
          exact hfree List.mem_cons_self
      | revoke =>
          cases heffect
          exact hfree List.mem_cons_self
      | start _ _ | grant => cases heffect

/-- Nothing takes effect twice under a key. -/
def EffectsOnce (history : List Entry) : Prop :=
  ∀ key, history.Pairwise fun entry entry' =>
    ¬ (entry.event.effect = some key ∧ entry'.event.effect = some key)

theorem EffectsOnce.concat {history : List Entry} (h : EffectsOnce history) {entry : Entry}
    (hfirst : ∀ key, entry.event.effect = some key →
      ∀ earlier ∈ history, earlier.event.effect ≠ some key) :
    EffectsOnce (history ++ [entry]) := by
  intro key
  refine List.pairwise_append.mpr ⟨h key, List.pairwise_singleton _ _, ?_⟩
  rintro earlier hearlier _ hlast ⟨heffect, heffect'⟩
  obtain rfl := List.mem_singleton.mp hlast
  exact hfirst key heffect' earlier hearlier heffect

/-- A request adds no second effect. -/
theorem Requested.effectsOnce {q : Request} (h : Requested init pid q s s')
    (hhistory : HistoryStep q s s') (honce : EffectsOnce s.history) : EffectsOnce s'.history := by
  cases hhistory with
  | same hsame => exact hsame ▸ honce
  | other entry hadded hnone =>
      rw [hadded]
      refine honce.concat fun key hkey => ?_
      cases hnone.symm.trans hkey
  | noted entry hadded write hq =>
      rw [hadded]
      refine honce.concat fun key hkey => ?_
      have hready := h.ready
      subst hq
      change RegistryNote pid s write entry.event at hready
      generalize entry.event = event at hready hkey
      cases hready <;> cases hkey
  | transact entry hadded writes conflicts hq htransact =>
      rw [hadded]
      refine honce.concat fun key hkey earlier hearlier hearlier' => ?_
      obtain ⟨operation, hoperation⟩ := taken_of_effect h.before hearlier hearlier'
      exact first_effect h hq htransact hkey operation hoperation

/-- **In every run each key takes effect once.** -/
theorem effectsOnce_of_run (hinit : Initial init) (hempty : init.history = [])
    (hrun : service.run (World.initial init) actions = some w) : EffectsOnce w.store.history := by
  refine service.run_induction (fun _ w => EffectsOnce w.store.history) hrun ?_ ?_
  · intro key
    show init.history.Pairwise _
    rw [hempty]
    exact List.Pairwise.nil
  · intro before action middle next hbefore hmiddle hact honce
    have hinv := invariant_of_run hinit hmiddle
    rcases service.act_cases hact with ⟨pid, input, rfl, -, rfl⟩ |
      ⟨pid, choice, input, q, continuation, answer, after, rfl, hproc, hexec, rfl⟩ |
      ⟨event, after, rfl, hevent, rfl⟩
    · exact honce
    · have hready := ready_of_run hinit hmiddle hproc
      have hrequested : Requested init pid q middle.store after :=
        ⟨hinv, hready, kept_exec hinv hready hexec, tableStep_exec hexec⟩
      exact hrequested.effectsOnce (historyStep_exec hexec) honce
    · rcases historyStep_event hevent with hsame | ⟨entry, hadded, hnone⟩
      · exact (hsame ▸ honce :)
      · show EffectsOnce after.history
        rw [hadded]
        refine honce.concat fun key hkey => ?_
        cases hnone.symm.trans hkey

/-! ## Runs -/

/-- **Every key commits at most one operation**, which its requests resume or are refused. -/
theorem keys_commit_once (hinit : Initial init)
    (hrun : service.run (World.initial init) actions = some w) : KeysCommitOnce w := by
  have hinv := invariant_of_run hinit hrun
  refine
    { mutation := fun completed hcommits => effected_of_commits hinv hcommits
      enrollment := fun operationId row hrow hready => effected_of_ready hinv hrow hready
      rotation := fun _ _ _ _ _ hrotated => effected_of_rotated hinv hrotated
      revocation := fun _ _ _ _ _ hrevoked => effected_of_revoked hinv hrevoked
      sole := fun _ _ _ _ heffected heffected' => heffected.unique heffected'
      once := effectsOnce_of_run hinit hinit.history hrun
      own := fun pid input output actor idempotencyKey hreturned hkey =>
        effected_of_returned hinit hrun hreturned hkey
      same := fun pid pid' input input' output output' key hne hreturned hreturned' hkey hkey' =>
        same_of_returned hinit hrun hne hreturned hreturned' hkey hkey'
      redemption := ?_ }
  intro pid pid' token csr csr' redemption redemption' hreturned hreturned'
  have hredeemed := hreturned.achieved hinit hrun
  have hredeemed' := hreturned'.achieved hinit hrun
  have hsame : redemption.result.apiFingerprint = redemption'.result.apiFingerprint :=
    (hinv.capabilities.bound_once hredeemed'.bound).1 _ hredeemed.bound
  exact ⟨hsame, hredeemed.forKeyOf, hsame ▸ hredeemed'.forKeyOf⟩

theorem keys_commit_once_redeemed : KeysCommitOnce (reached Cloud.empty _ Sample.redeemed) :=
  keys_commit_once Initial.empty (run_reached Sample.redeemed)

end Hemlig
