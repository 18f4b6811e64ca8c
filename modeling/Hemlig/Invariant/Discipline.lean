import Hemlig.Concurrent.RelyGuarantee
import Hemlig.Invariant.Evolution

/-!
# The discipline of the processes

What must hold when a process changes something: the facts about its own reads
that make the write harmless.  Reads, clock readings, new identifiers, new objects
and longer locks need nothing.
-/

namespace Hemlig

open Concurrent Store AgentSyncRepository DynamoRepository

/-- A mutation follows from the head and the control revision it was made from. -/
structure PreparedMutation.Updates (mutation : PreparedMutation) (head : HeadRecord)
    (control : ControlRevision) : Prop where
  expected : mutation.expectedControlVersionId = some head.controlVersionId
  secretId : mutation.secretId = head.secretId
  environment : mutation.environment = head.environment
  payloadVersionId : mutation.payload = none →
    mutation.control.payloadVersionId = control.payloadVersionId
  state : mutation.archive = false → mutation.control.state = .archived →
    control.state = .archived
  archive : mutation.archive = true → mutation.control.state = .archived ∧
    mutation.control.acl = [] ∧ mutation.payload = none
  schemaVersion : mutation.control.schemaVersion = 1 ∨
    mutation.control.schemaVersion = control.schemaVersion
  active : mutation.control.state = .active → mutation.payload.isSome ∨ control.state = .active

/-! ## Preparing -/

structure PrepareReady (pid : ℕ) (s : Cloud) (mutation : PreparedMutation) : Prop where
  owns : s.Owns pid mutation.operationId
  unused : s.Unused mutation.operationId
  wellFormed : mutation.WellFormed
  control : mutation.control.controlVersionId ∈ s.known
  payload : ∀ payload, mutation.payload = some payload →
    payload.revision.payloadVersionId ∈ s.known
  acl : s.AclFrom mutation.expectedControlVersionId mutation.control.acl
  kind : (mutation.Creates ∧ s.Owns pid mutation.secretUid ∧ s.Unborn mutation.secretUid ∧
      (s.environment mutation.environment).isSome) ∨
    ∃ head control, s.Snapshot mutation.secretUid head control ∧ mutation.Updates head control

/-! ## Publishing -/

/-- The place of a publication in the index. -/
structure PublishReady (s : Cloud) (environment : String) (record : AgentSyncRecord)
    (state : Option AgentSyncState) (ttl : Option ℕ) (previous : Option ℕ) : Prop where
  sequenced : s.Sequenced environment record.secretUid
    (state.map fun state => (state.epoch, state.sequence)) previous
  safe : nextSequence state ≤ maximumSafeInteger
  ttl : ttl.isSome → record.state = .archived

/-- The prior access records of a mutation are those of the consumers its prior
control revision named. -/
structure PriorAccessOk (s : Cloud) (u : String) (head : HeadRecord) (control : ControlRevision)
    (prior : List AccessRecord) : Prop where
  consumer : ∀ access ∈ prior, access.consumerId ∈ control.acl.map Grant.consumerId
  accurate : ∀ access ∈ prior,
    s.PriorAt u head.controlVersionId access.consumerId head.environment (some access)
  complete : ∀ grant ∈ control.acl, (∃ access ∈ prior, access.consumerId = grant.consumerId) ∨
    s.PriorAt u head.controlVersionId grant.consumerId head.environment none

/-- What a commit that replaces a head relies on. -/
structure UpdateReady (s : Cloud) (mutation : PreparedMutation) (prior : List AccessRecord)
    (head : HeadRecord) (control : ControlRevision) : Prop where
  snapshot : s.Snapshot mutation.secretUid head control
  updates : mutation.Updates head control
  consumer : ∀ access ∈ prior, access.consumerId ∈ control.acl.map Grant.consumerId
  access : mutation.control.acl = control.acl ∨
    PriorAccessOk s mutation.secretUid head control prior
  later : s.DrawnLater mutation.secretUid head.controlVersionId mutation.control.controlVersionId

/-- A prepared mutation whose objects are stored. -/
structure CommitStaged (pid : ℕ) (s : Cloud) (completed : CompletedMutation) : Prop where
  owns : s.Owns pid completed.prepared.operationId
  prepared : s.Prepared completed.prepared
  wellFormed : completed.prepared.WellFormed
  controlKey : completed.controlObject.key = objectKeyOf completed.prepared.secretUid
    (.control completed.prepared.control.controlVersionId)
  control : s.Stored completed.prepared.secretUid
    (.control completed.prepared.control.controlVersionId) completed.prepared.operationId
    completed.controlObject.versionId (.control completed.prepared.control)
  noPayload : completed.prepared.payload = none → completed.payloadObject = none
  payload : ∀ payload, completed.prepared.payload = some payload →
    ∃ object, completed.payloadObject = some object ∧
      object.key = objectKeyOf completed.prepared.secretUid
        (.payload payload.revision.payloadVersionId) ∧
      s.Stored completed.prepared.secretUid (.payload payload.revision.payloadVersionId)
        completed.prepared.operationId object.versionId (.payload payload.revision)
  kind : (completed.prepared.Creates ∧ completed.priorHead = none ∧ completed.priorAccess = []) ∨
    ∃ head control, completed.priorHead = some head ∧
      UpdateReady s completed.prepared completed.priorAccess head control

/-- The objects it replaces are locked for another 91 days. -/
structure CommitReady (pid : ℕ) (s : Cloud) (completed : CompletedMutation)
    (extendedAt : Option Time) : Prop extends CommitStaged pid s completed where
  timed : completed.priorHead.isSome → extendedAt.isSome
  extended : ∀ time head, extendedAt = some time → completed.priorHead = some head →
    ∀ reference ∈ head.references, s.Kept reference (time + 91 * day)

/-- Whom a commit tells of a change, and whom of a revocation. -/
def CompletedMutation.recipients (completed : CompletedMutation) : ChangeKind → List String
  | .changed =>
      if completed.replaceAccess then
        (completed.accessItems.filter (·.active)).map AccessRecord.consumerId
      else readers completed.prepared.control
  | .revoked =>
      if completed.replaceAccess then
        (completed.accessItems.filter (!·.active)).map AccessRecord.consumerId
      else []

/-- The row that tells consumers of a control revision. -/
def ControlRevision.notice (control : ControlRevision) (eventId : String) (kind : ChangeKind)
    (consumerIds : List String) : NotificationOutboxRecord where
  eventId := eventId
  consumerIds := consumerIds
  secretId := control.secretId
  environment := control.environment
  controlVersionId := control.controlVersionId
  payloadVersionId := if kind = .revoked then none else control.payloadVersionId
  kind := kind
  createdAt := control.createdAt
  status := .pending

/-- The rows that announce a commit: one of each kind that has recipients. -/
structure CompletedMutation.Announces (completed : CompletedMutation)
    (notifications : List NotificationOutboxRecord) : Prop where
  eventIds : (notifications.map NotificationOutboxRecord.eventId).Nodup
  kinds : (notifications.map NotificationOutboxRecord.kind).Nodup
  notice : ∀ record ∈ notifications, record =
    completed.prepared.control.notice record.eventId record.kind (completed.recipients record.kind)
  complete : ∀ kind, completed.recipients kind ≠ [] → ∃ record ∈ notifications, record.kind = kind

/-- What a backfill relies on. -/
structure BackfillReady (s : Cloud) (pk : String) (head : HeadRecord) (control : ControlRevision) :
    Prop where
  uid : head.secretUid = pk
  document : ∃ row, s.workflow pk (.control head.controlVersionId) = some row ∧
    row.serialized = .control control
  control : controlMatches control head = true

/-! ## The registry -/

/-- The target of the evidence of an operation on one identity. -/
def fingerprintTarget (consumerId fingerprint : String) : List (String × String) :=
  [("consumerId", consumerId), ("apiFingerprint", fingerprint)]

/-- What the evidence of an operation names: its control revision, its enrolled
consumer, or the identity it created or revoked. -/
def Cloud.Attests (s : Cloud) (record : IdempotencyRecord) (event : AuditEvent) : Prop :=
  match record.operationType with
  | none => ∃ completed, s.Commits completed ∧
      record.operationId = some completed.prepared.operationId ∧
      ∀ entry ∈ Admin.controlTarget completed.prepared.control, entry ∈ event.target
  | some .enroll => ∃ operationId row, record.operationId = some operationId ∧
      s.enrollment operationId = some row ∧ row.record.workflowState = .ready ∧
      event.target = Admin.enrollmentTarget (ConsumerService.activeResult row.record)
  | some .rotate => ∃ consumerId rootFingerprint csrFingerprint fingerprint,
      record.requestDigest = some (.rotate consumerId rootFingerprint csrFingerprint) ∧
      record.apiFingerprint = some fingerprint ∧ (s.identity fingerprint).isSome ∧
      event.target = fingerprintTarget consumerId fingerprint
  | some .revoke => ∃ consumerId fingerprint,
      record.requestDigest = some (.revoke consumerId fingerprint) ∧
      (s.identity fingerprint).isSome ∧ event.target = fingerprintTarget consumerId fingerprint

/-- An event of the archive is the evidence that the operation under a key of the actor
succeeded. -/
def Cloud.Proves (s : Cloud) (actor : Actor) (record : IdempotencyRecord) (eventId : String) :
    Prop :=
  ∃ event ∈ s.audit, event.eventId = some eventId ∧ event.outcome = .succeeded ∧
    event.actor = actor ∧ s.Attests record event

/-- The event is the evidence of an issuer registration. -/
def Cloud.ShowsIssuer (s : Cloud) (eventId : String) : Prop :=
  ∃ event ∈ s.audit, event.eventId = some eventId ∧
    event.operation = "adminpost:/v1/admin/issuer"

/-- The grant is stored, whatever its policy is now. -/
def Cloud.Granted (s : Cloud) (grant : AgentGrantRecord) : Prop :=
  ∃ stored, s.agentGrant grant.grantId = some stored ∧ stored.record.fixed = grant.fixed

/-- A redemption enrolls the consumer under its key: the token is one of the grant of the
consumer. -/
def Cloud.Redeeming (s : Cloud) (actor : Actor) (idempotencyKey consumerId : String) : Prop :=
  ∃ token grant, s.IssuedFor token grant.grantId ∧ s.Granted grant ∧
    actor = AgentGrantService.bootstrapActor grant ∧ idempotencyKey = "redeem-" ++ token ∧
    consumerId = grant.consumerId

/-- The actor may enroll the consumer under the key: an administrator any, a redemption only
its own. -/
def Cloud.MayEnroll (s : Cloud) (actor : Actor) (idempotencyKey consumerId : String) : Prop :=
  actor.type = .human ∨ s.Redeeming actor idempotencyKey consumerId

/-- The transactions of the registry. -/
inductive RegistryTransaction (s : Cloud) : List TableWrite → Option Event → Prop
  | start {enrollment : PreparedEnrollment} (h : enrollment.Matches)
      (hmay : s.MayEnroll enrollment.actor enrollment.idempotencyKey enrollment.consumerId) :
      RegistryTransaction s (startEnrollmentWrites enrollment) (some (.enrolled enrollment))
  | complete {operation : EnrollmentRecord} {truststore : TruststoreReference}
      {rootFingerprints : List String} (h : s.registry.Enrolled operation) :
      RegistryTransaction s (completeEnrollmentWrites operation truststore rootFingerprints) none
  | fail {operation : EnrollmentRecord} (h : s.registry.Enrolled operation) :
      RegistryTransaction s (failEnrollmentWrites operation) none
  | rotate {actor : Actor} {idempotencyKey : String} {requestDigest : OperationDigest}
      {identity : ApiIdentity} {rootFingerprint : String}
      (h : s.registry.ActiveConsumer identity.consumerId) :
      RegistryTransaction s
        (createApiIdentityWrites actor idempotencyKey requestDigest identity rootFingerprint)
        (some (.rotated actor idempotencyKey requestDigest identity rootFingerprint))
  | revoke {actor : Actor} {idempotencyKey : String} {requestDigest : OperationDigest}
      {consumerId fingerprint : String} :
      RegistryTransaction s
        (revokeApiIdentityWrites actor idempotencyKey requestDigest consumerId fingerprint)
        (some (.revoked actor idempotencyKey requestDigest consumerId fingerprint))
  | issuer {issuer : IssuerRecord} : RegistryTransaction s (createIssuerWrites issuer) none
  | grant {grant : AgentGrantRecord} :
      RegistryTransaction s (createAgentGrantWrites grant) (some (.granted grant))

/-- The single writes of the registry. -/
inductive RegistryWrite (s : Cloud) : TableWrite → Prop
  | associate {operation : EnrollmentRecord} {actor : Actor} {idempotencyKey : String}
      (h : s.registry.Enrolled operation) :
      RegistryWrite s (associateWrite operation actor idempotencyKey)
  | mark {actor : Actor} {idempotencyKey eventId : String}
      (h : (∃ record, s.idempotency actor idempotencyKey = some record ∧
        s.Proves actor record eventId) ∨ s.ShowsIssuer eventId) :
      RegistryWrite s (markAuditSucceededWrite actor idempotencyKey eventId)
  | lease {operationId : String} {expiresAt now : Time} :
      RegistryWrite s (acquireTruststoreLeaseWrite operationId expiresAt now)
  | stage {operationId : String} {truststore : TruststoreReference}
      {rootFingerprints : List String} :
      RegistryWrite s (recordTruststoreBundleWrite operationId truststore rootFingerprints)
  | root {issuer : IssuerRecord} : RegistryWrite s (ensureRootWrite issuer)
  | policy {grant : AgentGrantRecord} {removeDisplayName : Bool} :
      RegistryWrite s (updateAgentGrantWrite grant removeDisplayName)

/-- The single writes of the registry that the history keeps.  A token is issued by the
process that drew it. -/
inductive RegistryNote (pid : ℕ) (s : Cloud) : TableWrite → Event → Prop
  | activate {grantId fingerprint : String} {activatedAt : Time} :
      RegistryNote pid s (activateAgentGrantWrite grantId fingerprint activatedAt)
        (.activated grantId fingerprint)
  | issue {capability : BootstrapCapabilityRecord} (howns : s.Owns pid capability.tokenHash)
      (hfresh : ∀ grantId, ¬ s.IssuedFor capability.tokenHash grantId)
      (hpending : capability.status = .pending) :
      RegistryNote pid s (createBootstrapCapabilityWrite capability) (.issued capability)
  | consume {tokenHash fingerprint : String} {consumedAt : Time} :
      RegistryNote pid s (consumeBootstrapCapabilityWrite tokenHash fingerprint consumedAt)
        (.consumed tokenHash fingerprint)

/-! ## All requests -/

/-- The transactions a process may send. -/
inductive Sanctioned (pid : ℕ) (s : Cloud) : List TableWrite → Option Event → Prop
  | prepare {mutation : PreparedMutation} {now : Time} (h : PrepareReady pid s mutation) :
      Sanctioned pid s (prepareWrites mutation now) (some (.prepared mutation))
  | commit {completed : CompletedMutation} {extendedAt : Option Time} {retentionDueAt : Time}
      {notifications : List NotificationOutboxRecord} {state : Option AgentSyncState}
      {epoch : String} {ttl previous : Option ℕ} (h : CommitReady pid s completed extendedAt)
      (hpublish : PublishReady s completed.prepared.environment
        (syncRecord completed.prepared.secretUid completed.prepared.control) state ttl previous)
      (hnotifications : completed.Announces notifications)
      (hsize : (publicationWrites completed.prepared.environment
        (syncRecord completed.prepared.secretUid completed.prepared.control)
        (completed.writes retentionDueAt notifications) state epoch ttl previous).length ≤ 100) :
      Sanctioned pid s
        (publicationWrites completed.prepared.environment
          (syncRecord completed.prepared.secretUid completed.prepared.control)
          (completed.writes retentionDueAt notifications) state epoch ttl previous)
        (some (.committed completed (nextSequence state) extendedAt))
  | backfill {pk : String} {head : HeadRecord} {control : ControlRevision}
      {state : Option AgentSyncState} {epoch : String} {ttl previous : Option ℕ}
      (h : BackfillReady s pk head control)
      (hpublish : PublishReady s head.environment (syncRecord head.secretUid control) state ttl
        previous) :
      Sanctioned pid s
        (publicationWrites head.environment (syncRecord head.secretUid control)
          (resequence pk head) state epoch ttl previous) none
  | createEnvironment {environment : EnvironmentRecord} {epoch : String} :
      Sanctioned pid s (createEnvironmentWrites environment epoch) none
  | emptyState {environment epoch : String} (h : s.AllSynced) :
      Sanctioned pid s [emptyState environment epoch] none
  | abort {environment secretId secretUid operationId : String} :
      Sanctioned pid s (abortPreparedCreateWrites environment secretId secretUid operationId) none
  | registry {writes : List TableWrite} {note : Option Event}
      (h : RegistryTransaction s writes note) : Sanctioned pid s writes note

/-- The single writes a process may send. -/
inductive SanctionedWrite (pid : ℕ) (s : Cloud) : TableWrite → Prop
  | retryable {secretUid : String} {sk : WorkflowSk} :
      SanctionedWrite pid s (markRetryableWrite secretUid sk)
  | release {secretUid operationId : String} :
      SanctionedWrite pid s (releaseLeaseWrite secretUid operationId)
  | deleted {secretUid : String} {sk : WorkflowSk} (h : s.Superseded secretUid sk) :
      SanctionedWrite pid s (markRetentionDeletedWrite secretUid sk)
  | enable {environment : String} (h : s.AllSynced) :
      SanctionedWrite pid s (enableWrite environment)
  | cursor {token : String} {cursor : StoredCursor} (h : s.Owns pid token) :
      SanctionedWrite pid s (.create (.cursor token) cursor)
  | registry {write : TableWrite} (h : RegistryWrite s write) : SanctionedWrite pid s write

/-- What must hold when a process sends a request. -/
def RequestReady (pid : ℕ) (s : Cloud) : Request → Prop
  | .transactWrite writes note => Sanctioned pid s writes note
  | .write write => SanctionedWrite pid s write
  | .writeNoted write note => RegistryNote pid s write note
  | .deleteObject reference => ∃ u sk, reference.key = objectKeyOf u sk ∧ s.Superseded u sk
  | .auditWrite event => event.operation = "workflow.recovery" → s.Dead event.correlationId
  | _ => True

/-- The discipline of the service, in runs from an initial cloud. -/
def discipline (init : Cloud) : Discipline service where
  inv := Invariant init
  pre := fun pid q s => RequestReady pid s q

end Hemlig
