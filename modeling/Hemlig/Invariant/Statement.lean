import Hemlig.Registry.Sound
import Hemlig.Invariant.Vocabulary

/-!
# The invariant

What holds of the cloud in every state of every run, whatever the processes and
the environment do.  Nothing here depends on the repository being free of the
defects it has: in particular an archived head may be written again, so that a
live head without a name is not excluded.

The past before a run is a cloud in which the sync index does not exist yet and
nothing is in progress (`Initial`); the empty cloud is one.
-/

namespace Hemlig

/-! ## Rows -/

structure RowsInv (s : Cloud) : Prop where
  ok : ∀ {u sk row}, s.workflow u sk = some row → WorkflowOk s.known u sk row
  /-- An index shows a row as it once was. -/
  index : ∀ {u sk row}, s.index u sk = some row → WorkflowOk s.known u sk row ∧
    ∃ current, s.workflow u sk = some current ∧ RowStep row current
  settled : ∀ {u sk row}, s.workflow u sk = some row → row.Settled →
    ∃ head, s.head u = some head ∧ head.Committed
  prepared : ∀ {mutation}, s.Prepared mutation →
    ∃ row, s.workflow mutation.secretUid (.control mutation.control.controlVersionId) = some row ∧
      row.operationId = mutation.operationId ∧ row.serialized = .control mutation.control
  preparedPayload : ∀ {mutation payload}, s.Prepared mutation → mutation.payload = some payload →
    ∃ row, s.workflow mutation.secretUid (.payload payload.revision.payloadVersionId) = some row ∧
      row.operationId = mutation.operationId ∧ row.serialized = .payload payload.revision

/-! ## Heads -/

/-- What a mutation that creates a secret looks like. -/
structure PreparedMutation.Creates (mutation : PreparedMutation) : Prop where
  secretUid : ∃ id, mutation.secretUid = "sec-" ++ id
  expected : mutation.expectedControlVersionId = none
  archive : mutation.archive = false
  payload : mutation.payload = none
  state : mutation.control.state ≠ .archived
  payloadVersionId : mutation.control.payloadVersionId = none
  schemaVersion : mutation.control.schemaVersion = 1
  inactive : mutation.control.state ≠ .active

/-- A payload revision repeats the secret that it belongs to. -/
structure PayloadRevision.Belongs (payload : PayloadRevision)
    (secretUid secretId environment : String) : Prop where
  schemaVersion : payload.schemaVersion = 1
  secretUid : payload.secretUid = some secretUid
  secretId : payload.secretId = secretId
  environment : payload.environment = environment

/-- What every mutation looks like. -/
structure PreparedMutation.WellFormed (mutation : PreparedMutation) : Prop where
  secretId : mutation.control.secretId = mutation.secretId
  environment : mutation.control.environment = mutation.environment
  sound : mutation.control.Sound mutation.secretUid
  uid : mutation.control.secretUid = some mutation.secretUid
  key : mutation.controlKey =
    objectKeyOf mutation.secretUid (.control mutation.control.controlVersionId)
  payload : ∀ payload, mutation.payload = some payload →
    payload.key = objectKeyOf mutation.secretUid (.payload payload.revision.payloadVersionId) ∧
      mutation.control.payloadVersionId = some payload.revision.payloadVersionId
  belongs : ∀ payload, mutation.payload = some payload →
    payload.revision.Belongs mutation.secretUid mutation.secretId mutation.environment

structure HeadsInv (s : Cloud) : Prop where
  uid : ∀ {u head}, s.head u = some head → head.secretUid = u ∧ ∃ id, u = "sec-" ++ id
  environment : ∀ {u head}, s.head u = some head → (s.environment head.environment).isSome
  described : ∀ {u head}, s.head u = some head → head.Committed → ∃ control, s.Describes u head control
  creating : ∀ {u head}, s.head u = some head → ¬ head.Committed →
    ∃ mutation, s.Prepared mutation ∧ mutation.secretUid = u ∧ mutation.Creates ∧
      mutation.WellFormed ∧ (head = createdHead mutation ∨ head = DynamoRepository.unleasedHead (createdHead mutation))
  unsettled : ∀ {u head}, s.head u = some head → ¬ head.Committed →
    ∀ sk row, s.workflow u sk = some row → ¬ row.Settled
  lease : ∀ {u head operationId}, s.head u = some head → head.leaseOwner = some operationId →
    ∃ mutation, s.Prepared mutation ∧ mutation.operationId = operationId ∧
      mutation.secretUid = u ∧
      (head.Committed → mutation.expectedControlVersionId = some head.controlVersionId)

/-! ## Names -/

structure NamesInv (s : Cloud) : Prop where
  lookup : ∀ {environment secretId lookup}, s.lookup environment secretId = some lookup →
    ∃ head, s.head lookup.secretUid = some head ∧ head.environment = environment ∧
      head.secretId = secretId ∧ head.state ≠ .archived
  creating : ∀ {u head}, s.head u = some head → ¬ head.Committed →
    ∃ lookup, s.lookup head.environment head.secretId = some lookup ∧ lookup.secretUid = u
  archived : ∀ {u known environment secretId lookup}, s.ArchivedAt u known →
    s.lookup environment secretId = some lookup → lookup.secretUid ≠ u

/-! ## Access records -/

structure AccessInv (s : Cloud) : Prop where
  record : ∀ {consumerId environment u access}, s.access consumerId environment u = some access →
    access.consumerId = consumerId ∧ access.secretUid = u ∧ access.environment = environment ∧
      ∃ head, s.head u = some head ∧ head.Committed ∧ head.environment = environment
  readable : ∀ {u head control}, s.head u = some head → head.Committed →
    s.Describes u head control → ∀ consumerId,
      (∃ access, s.access consumerId head.environment u = some access ∧ access.active = true) ↔
        consumerId ∈ readers control
  /-- Once its archive has committed, a secret only has the ACL of that archive or of
  a control revision drawn later. -/
  sealed : ∀ {u known head control}, s.ArchivedAt u known → s.head u = some head →
    head.Committed → s.Describes u head control → head.controlVersionId ∈ known →
      control.acl = []

/-! ## The sync index -/

structure SyncInv (s : Cloud) : Prop where
  row : ∀ {environment sk row}, s.change environment sk = some row →
    ∃ head sequence control, s.head row.record.secretUid = some head ∧ head.Committed ∧
      head.environment = environment ∧ head.syncSequence = some sequence ∧
      sk = syncSk sequence row.record.secretUid ∧
      s.Describes row.record.secretUid head control ∧
      row.record = syncRecord row.record.secretUid control ∧
      (row.ttl.isSome → control.state = .archived)
  head : ∀ {u head sequence}, s.head u = some head → head.syncSequence = some sequence →
    head.Committed ∧ ∃ state, s.syncState head.environment = some state ∧ 1 ≤ sequence ∧
      sequence ≤ state.sequence ∧
      ((s.change head.environment (syncSk sequence u)).isSome ∨
        head.state = .archived ∧ s.Happened (.expired head.environment (syncSk sequence u)))
  distinct : ∀ {u u' head head' sequence}, s.head u = some head → s.head u' = some head' →
    head.environment = head'.environment → head.syncSequence = some sequence →
      head'.syncSequence = some sequence → u = u'
  ready : ∀ {environment state u head}, s.syncState environment = some state →
    state.ready = true → s.head u = some head → head.Committed →
      head.environment = environment → head.syncSequence.isSome
  bound : ∀ {environment state}, s.syncState environment = some state →
    state.sequence ≤ maximumSafeInteger

/-! ## History -/

/-- The commits of a secret, each prepared on the version the one before it wrote,
lead from one version to another. -/
def Chain : Option String → List CompletedMutation → Option String → Prop
  | first, [], last => first = last
  | first, completed :: rest, last =>
      completed.prepared.expectedControlVersionId = first ∧
        Chain (some completed.prepared.control.controlVersionId) rest last

theorem Chain.concat {first last : Option String} {commits : List CompletedMutation}
    (h : Chain first commits last) {completed : CompletedMutation}
    (hexpected : completed.prepared.expectedControlVersionId = last) :
    Chain first (commits ++ [completed]) (some completed.prepared.control.controlVersionId) := by
  induction commits generalizing first with
  | nil =>
      obtain rfl : first = last := h
      exact ⟨hexpected, rfl⟩
  | cons earlier rest ih => exact ⟨h.1, ih h.2⟩

theorem Chain.ne_none {first last : Option String} {commits : List CompletedMutation}
    (h : Chain first commits last) (hne : commits ≠ []) : last ≠ none := by
  induction commits generalizing first with
  | nil => exact absurd rfl hne
  | cons earlier rest ih =>
      cases rest with
      | nil => exact (show some _ = last from h.2) ▸ Option.some_ne_none _
      | cons later rest => exact ih h.2 (List.cons_ne_nil _ _)

/-- The payload version that a mutation carried. -/
def CompletedMutation.carried (completed : CompletedMutation) : Option String :=
  completed.prepared.payload.map fun payload => payload.revision.payloadVersionId

structure HistoryInv (init s : Cloud) : Prop where
  operation : ∀ {mutation mutation'}, s.Prepared mutation → s.Prepared mutation' →
    mutation.operationId = mutation'.operationId → mutation = mutation'
  committed : ∀ {completed sequence extendedAt},
    s.Happened (.committed completed sequence extendedAt) →
      s.Prepared completed.prepared ∧ s.Dead completed.prepared.operationId
  chain : ∀ u, Chain (init.version u) (s.commits u) (s.version u)
  payload : ∀ u, s.payloadVersion u =
    ((s.commits u).reverse.findSome? CompletedMutation.carried).or (init.payloadVersion u)
  audit : ∀ event ∈ s.audit, event.operation = "workflow.recovery" → s.Dead event.correlationId

/-! ## Identifiers -/

structure KnownInv (s : Cloud) : Prop where
  drawn : ∀ {id pid}, s.drawnBy id = some pid → id ∈ s.known
  operation : ∀ {mutation}, s.Prepared mutation → mutation.operationId ∈ s.known
  born : ∀ {mutation}, s.Prepared mutation → mutation.expectedControlVersionId = none →
    mutation.secretUid ∈ s.known
  entry : ∀ {entry}, entry ∈ s.history → ∀ id ∈ entry.known, id ∈ s.known
  object : ∀ {key object}, s.objects key = some object → object.versionId ∈ s.known

/-! ## Retention -/

/-- What a head refers to. -/
def HeadRecord.references (head : HeadRecord) : List ObjectReference :=
  (SecretService.controlReference head).toList ++
    (head.payloadVersionId.bind fun _ => SecretService.payloadReference head).toList

structure RetentionInv (s : Cloud) : Prop where
  deleted : ∀ {reference}, s.Happened (.deleted reference) →
    reference.versionId ∈ s.known ∧ s.object reference = none
  kept : ∀ {completed sequence extendedAt prior},
    s.Happened (.committed completed sequence (some extendedAt)) →
      completed.priorHead = some prior → ∀ reference ∈ prior.references,
        s.Kept reference (extendedAt + 91 * day)

/-! ## Idempotency -/

/-- The record of a key is the one of the operation that claimed it. -/
structure RecordsInv (s : Cloud) : Prop where
  claimed : ∀ {event claim}, event.claim = some claim → s.Happened event →
    s.registry.Claimed claim

/-! ## Identities -/

structure IdentitiesInv (s : Cloud) : Prop where
  sound : s.registry.Sound
  grants : s.registry.SoleGrants
  /-- The index shows an identity as it once was. -/
  index : ∀ {fingerprint identity}, s.identityIndex fingerprint = some identity →
    ∃ current, s.identity fingerprint = some current ∧ IdentityStep identity current

/-! ## Capabilities -/

/-- A token is issued for one grant, and its capability bound to one identity, for good. -/
structure CapabilitiesInv (s : Cloud) : Prop where
  stored : ∀ {tokenHash stored}, s.capability tokenHash = some stored →
    s.IssuedFor tokenHash stored.record.grantId
  known : ∀ {tokenHash grantId}, s.IssuedFor tokenHash grantId → tokenHash ∈ s.known
  issued : ∀ {tokenHash grantId grantId'}, s.IssuedFor tokenHash grantId →
    s.IssuedFor tokenHash grantId' → grantId = grantId'
  bound : ∀ {tokenHash fingerprint}, s.Bound tokenHash fingerprint →
    (∃ grantId, s.IssuedFor tokenHash grantId) ∧
      ∀ {stored}, s.capability tokenHash = some stored →
        DynamoRepository.consumedWith stored.record fingerprint = true
  consumed : ∀ {tokenHash stored}, s.capability tokenHash = some stored →
    stored.record.status = .consumed → ∃ fingerprint, s.Bound tokenHash fingerprint
  unique : ∀ {tokenHash fingerprint fingerprint'}, s.Bound tokenHash fingerprint →
    s.Bound tokenHash fingerprint' → fingerprint = fingerprint'

/-! ## The invariant -/

structure Invariant (init s : Cloud) : Prop where
  rows : RowsInv s
  heads : HeadsInv s
  names : NamesInv s
  access : AccessInv s
  sync : SyncInv s
  history : HistoryInv init s
  known : KnownInv s
  retention : RetentionInv s
  records : RecordsInv s
  identities : IdentitiesInv s
  capabilities : CapabilitiesInv s

/-- A past in which nothing is in progress, nobody was enrolled through the service and the
sync index does not exist yet. -/
structure Initial (s : Cloud) : Prop where
  row : ∀ {u sk row}, s.workflow u sk = some row → WorkflowOk s.known u sk row ∧ row.Settled ∧
    ∃ head, s.head u = some head ∧ head.Committed
  head : ∀ {u head}, s.head u = some head → head.Committed ∧ head.secretUid = u ∧
    (∃ id, u = "sec-" ++ id) ∧ head.leaseOwner = none ∧ head.syncSequence = none ∧
    (s.environment head.environment).isSome ∧ ∃ control, s.Describes u head control
  lookup : ∀ {environment secretId lookup}, s.lookup environment secretId = some lookup →
    ∃ head, s.head lookup.secretUid = some head ∧ head.environment = environment ∧
      head.secretId = secretId ∧ head.state ≠ .archived
  live : ∀ {u head}, s.head u = some head → head.state ≠ .archived →
    ∃ lookup, s.lookup head.environment head.secretId = some lookup ∧ lookup.secretUid = u
  access : ∀ {consumerId environment u access}, s.access consumerId environment u = some access →
    access.consumerId = consumerId ∧ access.secretUid = u ∧ access.environment = environment ∧
      ∃ head, s.head u = some head ∧ head.Committed ∧ head.environment = environment
  readable : ∀ {u head control}, s.head u = some head → s.Describes u head control →
    ∀ consumerId,
      (∃ access, s.access consumerId head.environment u = some access ∧ access.active = true) ↔
        consumerId ∈ readers control
  object : ∀ {key object}, s.objects key = some object → object.versionId ∈ s.known
  syncState : ∀ environment, s.syncState environment = none
  change : ∀ environment sk, s.change environment sk = none
  index : ∀ u sk, s.index u sk = none
  identity : ∀ fingerprint, s.identity fingerprint = none
  identityIndex : ∀ fingerprint, s.identityIndex fingerprint = none
  enrollment : ∀ operationId, s.enrollment operationId = none
  consumer : ∀ {consumerId consumer}, s.consumer consumerId = some consumer →
    consumer.status ≠ .pending
  agentGrant : ∀ {grantId stored}, s.agentGrant grantId = some stored →
    s.agentGrantOf stored.record.consumerId = some grantId
  idempotency : ∀ {actor idempotencyKey record}, s.idempotency actor idempotencyKey = some record →
    record.operationType ≠ some .enroll
  capability : ∀ tokenHash, s.capability tokenHash = none
  drawnBy : ∀ id, s.drawnBy id = none
  history : s.history = []
  audit : s.audit = []

theorem Initial.empty : Initial Cloud.empty where
  row h := by cases h
  head h := by cases h
  lookup h := by cases h
  live h := by cases h
  access h := by cases h
  readable h := by cases h
  object h := by cases h
  syncState _ := rfl
  change _ _ := rfl
  index _ _ := rfl
  identity _ := rfl
  identityIndex _ := rfl
  enrollment _ := rfl
  consumer h := by cases h
  agentGrant h := by cases h
  idempotency h := by cases h
  capability _ := rfl
  drawnBy _ := rfl
  history := rfl
  audit := rfl

end Hemlig
