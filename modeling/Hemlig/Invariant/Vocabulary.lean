import Hemlig.System

/-!
# The vocabulary of the invariant

What the proofs say about a cloud: which revisions are settled, what a committed
head names, what the history records, and how one state of the cloud may follow
another.
-/

namespace Hemlig

/-! ## Revisions -/

/-- Where the object of a revision is stored. -/
def objectKeyOf (secretUid : String) : WorkflowSk → ObjectKey
  | .control controlVersionId => controlKey secretUid controlVersionId
  | .payload payloadVersionId => payloadKey secretUid payloadVersionId

theorem objectKeyOf_inj {u u' : String} {sk sk' : WorkflowSk}
    (h : objectKeyOf u sk = objectKeyOf u' sk') : u = u' ∧ sk = sk' := by
  cases sk <;> cases sk' <;> simp_all [objectKeyOf, controlKey, payloadKey]

/-- The version in the sort key of a revision. -/
def WorkflowSk.version : WorkflowSk → String
  | .control controlVersionId => controlVersionId
  | .payload payloadVersionId => payloadVersionId

/-- The revision was committed; its object is stored, or deleted again. -/
def StoredWorkflow.Settled (row : StoredWorkflow) : Prop :=
  row.workflowState = .ready ∨ row.workflowState = .deleted

/-- What every control revision of a secret satisfies. -/
structure ControlRevision.Sound (control : ControlRevision) (secretUid : String) : Prop where
  uid : control.secretUid.all (· = secretUid) = true
  state : control.state ≠ .revoked
  acl : WellFormedAcl control.acl

/-- The document in a row is the revision that its key names. -/
def Documents (secretUid : String) : WorkflowSk → ObjectBody → Prop
  | .control controlVersionId, .control control =>
      control.controlVersionId = controlVersionId ∧ control.Sound secretUid
  | .payload payloadVersionId, .payload payload => payload.payloadVersionId = payloadVersionId
  | _, _ => False

/-- What every workflow row satisfies. -/
structure WorkflowOk (known : List String) (secretUid : String) (sk : WorkflowSk)
    (row : StoredWorkflow) : Prop where
  uid : row.secretUid = secretUid
  objectKey : row.objectKey = objectKeyOf secretUid sk
  documents : Documents secretUid sk row.serialized
  version : sk.version ∈ known
  due : row.workflowDue.isSome ↔ row.workflowState = .prepared
  stored : row.s3VersionId.isSome ↔ row.Settled
  retention : row.retentionDue.isSome → row.workflowState = .ready

/-- What may become of a row: its document stays, and so does its object once it is
settled. -/
structure RowStep (row row' : StoredWorkflow) : Prop where
  operationId : row'.operationId = row.operationId
  serialized : row'.serialized = row.serialized
  settled : row.Settled → row'.Settled ∧ row'.s3VersionId = row.s3VersionId

theorem RowStep.refl (row : StoredWorkflow) : RowStep row row := ⟨rfl, rfl, fun h => ⟨h, rfl⟩⟩

theorem RowStep.trans {row row' row'' : StoredWorkflow} (h : RowStep row row')
    (h' : RowStep row' row'') : RowStep row row'' where
  operationId := h'.operationId.trans h.operationId
  serialized := h'.serialized.trans h.serialized
  settled hsettled := by
    obtain ⟨hsettled', hversion⟩ := h.settled hsettled
    obtain ⟨hsettled'', hversion'⟩ := h'.settled hsettled'
    exact ⟨hsettled'', hversion'.trans hversion⟩

/-! ## Idempotency -/

/-- The record that an event leaves under the key it claims. -/
def Event.claim : Event → Option ((Actor × String) × IdempotencyRecord)
  | .prepared mutation =>
      some ((mutation.actor, mutation.idempotencyKey), idempotencyItem mutation)
  | .enrolled enrollment =>
      some ((enrollment.actor, enrollment.idempotencyKey), enrollment.idempotencyItem)
  | .rotated actor idempotencyKey requestDigest identity rootFingerprint =>
      some ((actor, idempotencyKey),
        DynamoRepository.rotatedItem requestDigest identity rootFingerprint)
  | .revoked actor idempotencyKey requestDigest consumerId fingerprint =>
      some ((actor, idempotencyKey),
        DynamoRepository.revokedItem requestDigest consumerId fingerprint)
  | _ => none

/-! ## Heads -/

/-- Some mutation of the secret has committed. -/
abbrev HeadRecord.Committed (head : HeadRecord) : Prop := head.workflowState = .ready

/-- A head without its lease and its place in the sync index. -/
def HeadRecord.content (head : HeadRecord) : HeadRecord :=
  { head with leaseOwner := none, leaseExpiresAt := none, syncSequence := none }

/-- A head names a revision. -/
def HeadRecord.Names (head : HeadRecord) (sk : WorkflowSk) : Prop :=
  Retention.isCurrent sk (some head) = true

namespace Cloud

variable (s : Cloud)

/-- A committed revision, with its document and the version of its object. -/
def Holds (u : String) (sk : WorkflowSk) (versionId : String) (body : ObjectBody) : Prop :=
  (∃ row, s.workflow u sk = some row ∧ row.workflowState = .ready ∧
    row.s3VersionId = some versionId ∧ row.serialized = body) ∧
  ∃ object, s.objects (objectKeyOf u sk) = some object ∧ object.versionId = versionId ∧
    object.body = body

/-- A committed revision, whatever became of its object. -/
def SettledDocument (u : String) (sk : WorkflowSk) (body : ObjectBody) : Prop :=
  ∃ row, s.workflow u sk = some row ∧ row.Settled ∧ row.serialized = body

/-- What a committed head says is what the control revision it names says, and the
objects it refers to are there. -/
structure Describes (u : String) (head : HeadRecord) (control : ControlRevision) : Prop where
  stored : ∃ versionId, head.controlObjectVersionId = some versionId ∧
    head.controlObjectKey = some (controlKey u head.controlVersionId) ∧
    s.Holds u (.control head.controlVersionId) versionId (.control control)
  secretId : control.secretId = head.secretId
  environment : control.environment = head.environment
  state : control.state = head.state
  metadata : control.metadata = head.metadata
  payloadVersionId : control.payloadVersionId = head.payloadVersionId
  payload : ∀ payloadVersionId, head.payloadVersionId = some payloadVersionId →
    ∃ versionId revision, head.payloadObjectVersionId = some versionId ∧
      head.payloadObjectKey = some (payloadKey u payloadVersionId) ∧
      s.Holds u (.payload payloadVersionId) versionId (.payload revision)
  noPayload : head.payloadVersionId = none →
    head.payloadObjectVersionId = none ∧ head.payloadObjectKey = none

/-- No head names the settled revision, and so none ever will again. -/
def Superseded (u : String) (sk : WorkflowSk) : Prop :=
  (∃ row, s.workflow u sk = some row ∧ row.Settled) ∧
    ∀ head, s.head u = some head → ¬ head.Names sk

/-- An ACL is within the limit, or comes from the ACL of the expected revision: it is not
longer, or has one grant more. -/
def AclFrom (expected : Option String) (acl : List Grant) : Prop :=
  acl.length ≤ maximumAclGrants ∨ ∃ u version control, expected = some version ∧
    s.SettledDocument u (.control version) (.control control) ∧
      (acl.length ≤ control.acl.length ∨ ∃ grant, acl = control.acl ++ [grant])

/-! ## History -/

def Happened (event : Event) : Prop := ∃ entry ∈ s.history, entry.event = event

theorem Happened.record {s : Cloud} (event : Event) : (s.record event).Happened event :=
  ⟨_, List.mem_append_right _ (List.mem_singleton_self _), rfl⟩

theorem Happened.of_append {s s' : Cloud} {event other : Event} {time : Time}
    {known : List String} (h : s'.history = s.history ++ [⟨time, known, event⟩])
    (hother : s'.Happened other) : s.Happened other ∨ other = event := by
  obtain ⟨entry, hentry, rfl⟩ := hother
  rw [h] at hentry
  rcases List.mem_append.mp hentry with hold | hnew
  · exact .inl ⟨entry, hold, rfl⟩
  · exact .inr (by rw [List.mem_singleton.mp hnew])

def Prepared (mutation : PreparedMutation) : Prop := s.Happened (.prepared mutation)

def Commits (completed : CompletedMutation) : Prop :=
  ∃ sequence extendedAt, s.Happened (.committed completed sequence extendedAt)

/-- A mutation of the actor under the key has committed the control revision. -/
def Achieved (actor : Actor) (idempotencyKey : String) (control : ControlRevision) : Prop :=
  ∃ completed, s.Commits completed ∧ completed.prepared.actor = actor ∧
    completed.prepared.idempotencyKey = idempotencyKey ∧ completed.prepared.control = control

/-- A capability for the grant was issued with the token. -/
def IssuedFor (tokenHash grantId : String) : Prop :=
  ∃ capability, s.Happened (.issued capability) ∧ capability.tokenHash = tokenHash ∧
    capability.grantId = grantId

/-- The capability of the token was consumed for the identity of the fingerprint. -/
abbrev Bound (tokenHash fingerprint : String) : Prop := s.Happened (.consumed tokenHash fingerprint)

/-- An archive of the secret committed when these identifiers were known. -/
def ArchivedAt (u : String) (known : List String) : Prop :=
  ∃ entry ∈ s.history, entry.known = known ∧ ∃ completed sequence extendedAt,
    entry.event = .committed completed sequence extendedAt ∧
      completed.prepared.archive = true ∧ completed.prepared.secretUid = u

/-- The create of the secret was undone before it committed. -/
def Buried (u : String) : Prop :=
  s.head u = none ∧ ∃ mutation, s.Prepared mutation ∧
    mutation.expectedControlVersionId = none ∧ mutation.secretUid = u

/-- The operation was prepared and holds no lease any more. -/
def Dead (operationId : String) : Prop :=
  (∃ mutation, s.Prepared mutation ∧ mutation.operationId = operationId) ∧
    ∀ u head, s.head u = some head → head.leaseOwner ≠ some operationId

/-- The mutations of a secret that committed, in order. -/
def commits (u : String) : List CompletedMutation :=
  s.history.filterMap fun entry => match entry.event with
    | .committed completed _ _ => if completed.prepared.secretUid = u then some completed else none
    | _ => none

/-- The control version that a secret has committed. -/
def version (u : String) : Option String :=
  ((s.head u).filter (·.workflowState = .ready)).map HeadRecord.controlVersionId

/-- The payload version that a secret has committed. -/
def payloadVersion (u : String) : Option String :=
  ((s.head u).filter (·.workflowState = .ready)).bind HeadRecord.payloadVersionId

/-- Epoch and sequence of the sync index of an environment. -/
def counter (environment : String) : Option (String × ℕ) :=
  (s.syncState environment).map fun state => (state.epoch, state.sequence)

/-- The version under a reference is locked until some time, or was until it was
deleted. -/
structure Kept (reference : ObjectReference) (until' : Time) : Prop where
  known : reference.versionId ∈ s.known
  locked : ∀ object, s.object reference = some object →
    ∃ retainUntil, object.retainUntil = some retainUntil ∧ until' ≤ retainUntil
  deleted : ∀ entry ∈ s.history, entry.event = .deleted reference → until' ≤ entry.time

end Cloud

/-- The order in which the counter of an index moves. -/
def CounterLe : Option (String × ℕ) → Option (String × ℕ) → Prop
  | none, _ => True
  | some _, none => False
  | some first, some second => first.1 = second.1 ∧ first.2 ≤ second.2

theorem CounterLe.refl (counter : Option (String × ℕ)) : CounterLe counter counter := by
  cases counter <;> simp [CounterLe]

theorem CounterLe.trans {first second third : Option (String × ℕ)} (h : CounterLe first second)
    (h' : CounterLe second third) : CounterLe first third := by
  cases first with
  | none => trivial
  | some first =>
      cases second with
      | none => exact h.elim
      | some second =>
          cases third with
          | none => exact h'.elim
          | some third => exact ⟨h.1.trans h'.1, h.2.trans h'.2⟩

theorem CounterLe.antisymm {first second : Option (String × ℕ)} (h : CounterLe first second)
    (h' : CounterLe second first) : first = second := by
  cases first with
  | none => cases second with
    | none => rfl
    | some second => exact h'.elim
  | some first =>
      cases second with
      | none => exact h.elim
      | some second => exact congrArg some (Prod.ext h.1 (le_antisymm h.2 h'.2))

end Hemlig
