import Hemlig.Repositories.AgentSync
import Mathlib.Data.List.Dedup

/-!
# The control table

`src/repositories/dynamo.ts`, as far as secrets, their grants and their
workflows go.  A mutation writes twice: `prepareMutation` records its intent and
takes the lease of the secret, `completeMutation` commits it if the lease is
still its own.
-/

namespace Hemlig

open Store Concurrent

/-! ## Catalog keys -/

def catalogPk (environment : String) : String := "CATALOG#" ++ environment

def archivedCatalogPk (environment : String) : String := "ARCHIVED_CATALOG#" ++ environment

def catalogPkFor (environment : String) (archived : Bool) : String :=
  if archived then archivedCatalogPk environment else catalogPk environment

/-- What stands before the last slash. -/
def secretFolderPath (secretId : String) : Option String :=
  let after := secretId.toList.reverse.dropWhile (· ≠ '/')
  if after.isEmpty then none else some (String.ofList after.tail.reverse)

def catalogSk (secretId : String) : String :=
  "PATH#" ++ (secretFolderPath secretId).getD "_" ++ "/SECRET#" ++ secretId

/-! ## Errors -/

/-- The message of an error; the exception of a client is represented by its name. -/
def errorMessage : Failure → String
  | .api error => error.message
  | .error message => message
  | .timeout => "unknown error"
  | .aws .conditionalCheckFailed => "ConditionalCheckFailedException"
  | .aws (.transactionCanceled _) => "TransactionCanceledException"
  | .aws .validation => "ValidationException"
  | .aws .preconditionFailed => "PreconditionFailed"
  | .aws .noSuchVersion => "NoSuchVersion"
  | .aws .accessDenied => "AccessDenied"
  | .aws .unavailable => "ServiceUnavailable"
  | .aws .badRequest => "BadRequestException"
  | .aws .conflict => "ConflictException"
  | .aws .tooManyRequests => "TooManyRequestsException"

def isConditionalCheckFailure : Failure → Bool
  | .aws .conditionalCheckFailed => true
  | _ => false

/-- A write whose refused condition is an answer. -/
def conditionally (write : Service Unit) : Service Bool :=
  tryCatch
    (do
      write
      pure true)
    fun failure => if isConditionalCheckFailure failure then pure false else throw failure

/-! ## The writes of a mutation -/

/-- A new workflow row, due when its mutation expires. -/
def workflowItem (mutation : PreparedMutation) (objectKey : ObjectKey) (serialized : ObjectBody)
    (revisionSk : Option (Time × String)) : StoredWorkflow where
  secretUid := mutation.secretUid
  workflowState := .prepared
  operationId := mutation.operationId
  objectKey := objectKey
  expiresAt := mutation.expiresAt
  workflowDue := some mutation.expiresAt
  retentionDue := none
  serialized := serialized
  s3VersionId := none
  revisionSk := revisionSk

def controlItem (mutation : PreparedMutation) : StoredWorkflow :=
  workflowItem mutation mutation.controlKey (.control mutation.control)
    (some (mutation.control.createdAt, mutation.control.controlVersionId))

def payloadItem (mutation : PreparedMutation) (payload : PreparedPayload) : StoredWorkflow :=
  workflowItem mutation payload.key (.payload payload.revision) none

def idempotencyItem (mutation : PreparedMutation) : IdempotencyRecord where
  requestDigest := some (.mutation mutation.requestDigest)
  operationId := some mutation.operationId
  status := .prepared
  expiresAt := some mutation.expiresAt

/-- The head of a secret that is being created. -/
def createdHead (mutation : PreparedMutation) : HeadRecord where
  secretUid := mutation.secretUid
  secretId := mutation.secretId
  environment := mutation.environment
  controlVersionId := mutation.control.controlVersionId
  controlObjectVersionId := none
  controlObjectKey := none
  payloadVersionId := mutation.control.payloadVersionId
  payloadObjectVersionId := none
  payloadObjectKey := none
  payloadKeyCount := mutation.control.payloadKeyCount
  state := mutation.control.state
  workflowState := .prepared
  metadata := mutation.control.metadata
  updatedAt := mutation.control.createdAt
  catalogPk := catalogPk mutation.environment
  catalogSk := catalogSk mutation.secretId
  catalogTags := mutation.control.metadata.tags.getD []
  leaseOwner := some mutation.operationId
  leaseExpiresAt := some mutation.expiresAt
  syncSequence := none

/-- `leaseExpiresAt` is absent or has passed. -/
def HeadRecord.leasable (head : HeadRecord) (now : Time) : Bool :=
  head.leaseExpiresAt.all (· < now)

/-- The head with the lease of a mutation. -/
def leasedHead (mutation : PreparedMutation) (head : HeadRecord) : HeadRecord :=
  { head with
    leaseOwner := some mutation.operationId
    leaseExpiresAt := some mutation.expiresAt }

/-- The writes on the head and the name: a new secret, or the lease of one. -/
def acquireWrites (mutation : PreparedMutation) (now : Time) : List TableWrite :=
  match mutation.expectedControlVersionId with
  | none =>
      [ .create (.head mutation.secretUid) (createdHead mutation),
        .create (.lookup mutation.environment mutation.secretId)
          { secretUid := mutation.secretUid
            secretId := mutation.secretId
            environment := mutation.environment } ]
  | some expected =>
      [ .update (.head mutation.secretUid)
          (fun head => head.controlVersionId = expected ∧ head.leasable now)
          (leasedHead mutation) ]

def prepareWrites (mutation : PreparedMutation) (now : Time) : List TableWrite :=
  [ .create (.idempotency mutation.actor mutation.idempotencyKey) (idempotencyItem mutation),
    .create (.workflow mutation.secretUid (.control mutation.control.controlVersionId))
      (controlItem mutation) ] ++
  (mutation.payload.toList.map fun payload =>
    .create (.workflow mutation.secretUid (.payload payload.revision.payloadVersionId))
      (payloadItem mutation payload)) ++
  acquireWrites mutation now

/-- The row of a revision whose object is stored. -/
def readyRow (object : ObjectReference) (row : StoredWorkflow) : StoredWorkflow :=
  { row with
    workflowState := .ready
    s3VersionId := some object.versionId
    objectKey := object.key
    workflowDue := none }

def workflowReadyUpdate (secretUid : String) (sk : WorkflowSk) (object : ObjectReference) :
    TableWrite :=
  .update (.workflow secretUid sk) (fun row => row.workflowState = .prepared) (readyRow object)

/-- The row of a revision that retention may look at from `due` on. -/
def candidateRow (due : Time) (row : StoredWorkflow) : StoredWorkflow :=
  { row with retentionDue := some due }

def retentionCandidateUpdate (secretUid : String) (sk : WorkflowSk) (due : Time) : TableWrite :=
  .update (.workflow secretUid sk) (fun row => row.workflowState = .ready) (candidateRow due)

/-! ## Access records and notifications -/

/-- The distinct elements of a list, in the order of their first occurrences. -/
def distinct (values : List String) : List String := values.reverse.dedup.reverse

@[simp] theorem mem_distinct {value : String} {values : List String} :
    value ∈ distinct values ↔ value ∈ values := by
  simp [distinct]

theorem nodup_distinct (values : List String) : (distinct values).Nodup := by
  simp [distinct, List.nodup_dedup]

/-- The grant of a consumer includes `read`. -/
def hasRead (acl : List Grant) (consumerId : String) : Bool :=
  (acl.reverse.find? (·.consumerId = consumerId)).any fun grant => .read ∈ grant.permissions

/-- The access record of a consumer under a control revision. -/
def accessItem (secretUid : String) (control : ControlRevision) (consumerId : String) :
    AccessRecord :=
  let hasRead := hasRead control.acl consumerId
  { consumerId := consumerId
    secretUid := secretUid
    secretId := control.secretId
    environment := control.environment
    permissions := if hasRead then [.read] else []
    controlVersionId := control.controlVersionId
    payloadVersionId := control.payloadVersionId
    state := if hasRead then control.state else .revoked
    changeKind := if hasRead then .changed else .revoked }

/-- The access record lets its consumer read. -/
def AccessRecord.active (access : AccessRecord) : Bool :=
  .read ∈ access.permissions ∧ access.state ≠ .revoked

def accessItemsFor (secretUid : String) (control : ControlRevision) (prior : List AccessRecord) :
    List AccessRecord :=
  (distinct (prior.map AccessRecord.consumerId ++ control.acl.map Grant.consumerId)).map
    (accessItem secretUid control)

/-- The consumers that a control revision lets read. -/
def readers (control : ControlRevision) : List String :=
  (control.acl.filter fun grant => .read ∈ grant.permissions).map Grant.consumerId

def accessProjectionChanged (control : ControlRevision) (prior : List AccessRecord) : Bool :=
  let grants := distinct (readers control)
  let activePrior := distinct ((prior.filter (·.active)).map AccessRecord.consumerId)
  grants.length ≠ activePrior.length || grants.any (· ∉ activePrior)

/-- A notification for some consumers, if there are any. -/
def notificationOutboxRecord (control : ControlRevision) (kind : ChangeKind)
    (consumerIds : List String) : Service (Option NotificationOutboxRecord) := do
  if consumerIds = [] then return none
  else
    let eventId ← send (.newId "")
    return some {
      eventId := eventId
      consumerIds := consumerIds
      secretId := control.secretId
      environment := control.environment
      controlVersionId := control.controlVersionId
      payloadVersionId := if kind = .revoked then none else control.payloadVersionId
      kind := kind
      createdAt := control.createdAt
      status := .pending }

def notificationItemsFor (control : ControlRevision) (accessItems : List AccessRecord)
    (accessChanged : Bool) : Service (List NotificationOutboxRecord) := do
  let currentRecipients :=
    if accessChanged then (accessItems.filter (·.active)).map AccessRecord.consumerId
    else readers control
  let revokedRecipients :=
    if accessChanged then (accessItems.filter (!·.active)).map AccessRecord.consumerId else []
  let changed ← notificationOutboxRecord control .changed currentRecipients
  let revoked ← notificationOutboxRecord control .revoked revokedRecipients
  return changed.toList ++ revoked.toList

/-! ## The writes of a commit -/

namespace CompletedMutation

variable (completed : CompletedMutation)

def payloadVersionId : Option String :=
  match completed.prepared.payload with
  | none => completed.priorHead.bind HeadRecord.payloadVersionId
  | some payload => some payload.revision.payloadVersionId

def payloadObjectVersionId : Option String :=
  match completed.payloadObject with
  | none => completed.priorHead.bind HeadRecord.payloadObjectVersionId
  | some object => some object.versionId

def payloadObjectKey : Option ObjectKey :=
  match completed.payloadObject with
  | none => completed.priorHead.bind HeadRecord.payloadObjectKey
  | some object => some object.key

/-- The payload of the head, set as a whole or removed as a whole. -/
def hasPayload : Bool :=
  completed.payloadVersionId.isSome && completed.payloadObjectVersionId.isSome &&
    completed.payloadObjectKey.isSome

/-- The head that the commit leaves. -/
def head (sequence : ℕ) (head : HeadRecord) : HeadRecord :=
  { head with
    controlVersionId := completed.prepared.control.controlVersionId
    controlObjectVersionId := some completed.controlObject.versionId
    controlObjectKey := some completed.controlObject.key
    state := completed.prepared.control.state
    workflowState := .ready
    metadata := completed.prepared.control.metadata
    updatedAt := completed.prepared.control.createdAt
    catalogPk := catalogPkFor completed.prepared.control.environment completed.prepared.archive
    catalogSk := catalogSk completed.prepared.secretId
    catalogTags := completed.prepared.control.metadata.tags.getD []
    leaseOwner := none
    leaseExpiresAt := none
    payloadVersionId := if completed.hasPayload then completed.payloadVersionId else none
    payloadObjectVersionId :=
      if completed.hasPayload then completed.payloadObjectVersionId else none
    payloadObjectKey := if completed.hasPayload then completed.payloadObjectKey else none
    payloadKeyCount := completed.prepared.control.payloadKeyCount
    syncSequence := some sequence }

/-- The revisions the commit replaces, or keeps, become candidates for retention. -/
def candidateWrites (retentionDueAt : Time) : List TableWrite :=
  match completed.priorHead with
  | none => []
  | some prior =>
      retentionCandidateUpdate completed.prepared.secretUid (.control prior.controlVersionId)
          retentionDueAt ::
        prior.payloadVersionId.toList.map fun payloadVersionId =>
          retentionCandidateUpdate completed.prepared.secretUid (.payload payloadVersionId)
            retentionDueAt

/-- The workflows of the new revisions end. -/
def readyWrites : List TableWrite :=
  workflowReadyUpdate completed.prepared.secretUid
      (.control completed.prepared.control.controlVersionId) completed.controlObject ::
    match completed.prepared.payload, completed.payloadObject with
    | some payload, some object =>
        [workflowReadyUpdate completed.prepared.secretUid
          (.payload payload.revision.payloadVersionId) object]
    | _, _ => []

/-- An archive releases the name. -/
def nameWrites : List TableWrite :=
  if completed.prepared.archive then
    [.delete (.lookup completed.prepared.environment completed.prepared.secretId)
      fun lookup => lookup.secretUid = completed.prepared.secretUid]
  else []

def accessItems : List AccessRecord :=
  accessItemsFor completed.prepared.secretUid completed.prepared.control completed.priorAccess

def replaceAccess : Bool :=
  accessProjectionChanged completed.prepared.control completed.priorAccess

/-- The access records, where the readers change. -/
def accessWrites : List TableWrite :=
  if completed.replaceAccess then
    completed.accessItems.map fun access =>
      .put (.access access.consumerId access.environment access.secretUid) access fun _ => true
  else []

def notificationWrites (notifications : List NotificationOutboxRecord) : List TableWrite :=
  notifications.map fun record => .create (.notification record.eventId) record

/-- All writes of the commit but those of the sync index. -/
def writes (retentionDueAt : Time) (notifications : List NotificationOutboxRecord)
    (sequence : ℕ) : List TableWrite :=
  .update (.head completed.prepared.secretUid)
      (fun head => head.leaseOwner = some completed.prepared.operationId)
      (completed.head sequence) ::
    (completed.readyWrites ++ completed.candidateWrites retentionDueAt ++ completed.nameWrites ++
      completed.accessWrites ++ notificationWrites notifications)

end CompletedMutation

/-! ## The repository -/

namespace DynamoRepository

def getSecretUid (environment secretId : String) : Service (Option String) := do
  let lookup ← send (.get (.lookup environment secretId))
  return lookup.map SecretLookup.secretUid

def getHeadBySecretUid (secretUid : String) : Service (Option HeadRecord) :=
  send (.get (.head secretUid))

def getHead (environment secretId : String) : Service (Option HeadRecord) := do
  match ← getSecretUid environment secretId with
  | none => return none
  | some secretUid => getHeadBySecretUid secretUid

def requireHead (environment secretId : String) : Service HeadRecord := do
  requireSome (notFound "The requested secret was not found.") (← getHead environment secretId)

def requireHeadBySecretUid (secretUid : String) : Service HeadRecord := do
  requireSome (notFound "The requested secret was not found.") (← getHeadBySecretUid secretUid)

/-- A cursor under a token that is not taken. -/
def createCursor (token : String) (cursor : StoredCursor) : Service Bool :=
  conditionally (send (.write (.create (.cursor token) cursor)))

def getCursor (token : String) : Service (Option StoredCursor) := send (.get (.cursor token))

def requireEnvironment (name : String) : Service EnvironmentRecord := do
  requireSome (notFound "The requested environment is not configured.")
    (← send (.get (.environment name)))

def maximumEnvironments : ℕ := 100

/-- The number of environments grows by one, up to the maximum. -/
def countWrite : TableWrite where
  key := .environmentCount
  condition := fun count => count.all (· < maximumEnvironments)
  effect := fun count => some (count.getD 0 + 1)

def createEnvironmentWrites (environment : EnvironmentRecord) (epoch : String) : List TableWrite :=
  [ AgentSyncRepository.emptyState environment.name epoch,
    .create (.environment environment.name) environment,
    countWrite ]

def createEnvironment (environment : EnvironmentRecord) : Service Unit :=
  tryCatch
    (do
      let epoch ← send (.newId "")
      send (.transactWrite (createEnvironmentWrites environment epoch) none))
    fun _ => reject (conflict "The environment already exists or the registry is full.")

def getConsumer (consumerId : String) : Service (Option ConsumerRecord) :=
  send (.get (.consumer consumerId))

def getAgentGrant (grantId : String) : Service (Option AgentGrantRecord) :=
  Option.map StoredGrant.record <$> send (.get (.agentGrant grantId))

def getAgentGrantForConsumer (consumerId : String) : Service (Option AgentGrantRecord) := do
  match ← send (.get (.agentGrantOf consumerId)) with
  | none => return none
  | some grantId => getAgentGrant grantId

def getAccessBySecretUid (consumerId environment secretUid : String) :
    Service (Option AccessRecord) :=
  send (.get (.access consumerId environment secretUid))

def getAccess (consumerId environment secretId : String) : Service (Option AccessRecord) := do
  match ← getSecretUid environment secretId with
  | none => return none
  | some secretUid => getAccessBySecretUid consumerId environment secretUid

/-- The access record of a consumer and the head, from one moment. -/
def getAccessAndHead (consumerId environment secretId : String) :
    Service (Option AccessRecord × Option HeadRecord) := do
  match ← getSecretUid environment secretId with
  | none => return (none, none)
  | some secretUid =>
      send (.transactGet (.access consumerId environment secretUid) (.head secretUid))

/-- A live grant of a consumer. -/
structure ConsumerSecretGrant where
  secretUid : String
  secretId : String
  permissions : List Permission
  controlVersionId : String
  state : SecretState
  deriving DecidableEq, Repr

/-- The live grant behind an access record. -/
def consumerSecretGrant (environment : String) (access : AccessRecord) :
    Service (Option ConsumerSecretGrant) := do
  if access.active then
    let head ← getHeadBySecretUid access.secretUid
    return (head.filter fun head => head.environment = environment ∧
        head.secretId = access.secretId ∧ head.state ≠ .archived).map fun head =>
      { secretUid := head.secretUid
        secretId := head.secretId
        permissions := access.permissions
        controlVersionId := head.controlVersionId
        state := head.state }
  else return none

def listConsumerSecretGrants (consumerId environment : String) (startKey : Option String) :
    Service (Page ConsumerSecretGrant String) := do
  let response ← send (.accessPage consumerId environment startKey)
  let candidates ← response.items.mapM (consumerSecretGrant environment)
  return { items := candidates.filterMap id, lastEvaluatedKey := response.lastEvaluatedKey }

def getIdempotency (actor : Actor) (idempotencyKey : String) :
    Service (Option IdempotencyRecord) :=
  send (.get (.idempotency actor idempotencyKey))

def prepareMutation (mutation : PreparedMutation) : Service Unit :=
  tryCatch
    (do
      let now ← send .now
      send (.transactWrite (prepareWrites mutation now) (some (.prepared mutation))))
    fun failure => reject
      (conflict ("Could not acquire the secret revision lease: " ++ errorMessage failure))

/-- The time from which the retention of replaced revisions counts. -/
def commitTime (priorHead : Option HeadRecord) : Service Time :=
  if priorHead.isSome then send .now else pure 0

/-- Commit a mutation; `extendedAt` is when the locks of the replaced objects were
extended, for the history only. -/
def completeMutation (completed : CompletedMutation) (extendedAt : Option Time) :
    Service Unit := do
  let notifications ← notificationItemsFor completed.prepared.control completed.accessItems
    completed.replaceAccess
  let now ← commitTime completed.priorHead
  let retentionDueAt := now + 91 * day
  if (completed.writes retentionDueAt notifications 0).length > 100 then
    reject (serviceUnavailable "Mutation exceeds the DynamoDB transaction limit.")
  else
    AgentSyncRepository.publish completed.prepared.environment
      (syncRecord completed.prepared.secretUid completed.prepared.control)
      (completed.writes retentionDueAt notifications)
      fun sequence => some (.committed completed sequence extendedAt)

/-- The workflows that were due before a moment. -/
def listExpiredPrepared (now : Time) : Service (List IndexedWorkflow) :=
  send (.expiredPrepared now)

/-- The workflow leaves the due index. -/
def retryableRow (row : StoredWorkflow) : StoredWorkflow :=
  { row with workflowState := .retryable, workflowDue := none }

def markRetryableWrite (secretUid : String) (sk : WorkflowSk) : TableWrite :=
  .update (.workflow secretUid sk) (fun row => row.workflowState = .prepared) retryableRow

def markRetryable (workflow : IndexedWorkflow) : Service Bool :=
  conditionally (send (.write (markRetryableWrite workflow.secretUid workflow.sk)))

def unleasedHead (head : HeadRecord) : HeadRecord :=
  { head with leaseOwner := none, leaseExpiresAt := none }

def releaseLeaseWrite (secretUid operationId : String) : TableWrite :=
  .update (.head secretUid) (fun head => head.leaseOwner = some operationId) unleasedHead

def releaseLease (secretUid operationId : String) : Service Bool :=
  conditionally (send (.write (releaseLeaseWrite secretUid operationId)))

def abortPreparedCreateWrites (environment secretId secretUid operationId : String) :
    List TableWrite :=
  [ .delete (.head secretUid)
      (fun head => head.leaseOwner = some operationId ∧ head.workflowState = .prepared),
    .delete (.lookup environment secretId) fun lookup => lookup.secretUid = secretUid ]

/-- An expired create that never committed: its head and its name are removed. -/
def abortPreparedCreate (environment secretId secretUid operationId : String) : Service Bool :=
  conditionally (send (.transactWrite
    (abortPreparedCreateWrites environment secretId secretUid operationId) none))

/-- The first page of the workflows whose retention is due. -/
def listReadyWorkflows : Service (List IndexedWorkflow) := do
  let now ← send .now
  send (.readyWorkflows now)

/-- The workflow leaves the retention index. -/
def deletedRow (row : StoredWorkflow) : StoredWorkflow :=
  { row with workflowState := .deleted, retentionDue := none }

def markRetentionDeletedWrite (secretUid : String) (sk : WorkflowSk) : TableWrite :=
  .update (.workflow secretUid sk) (fun row => row.workflowState = .ready) deletedRow

def markRetentionDeleted (workflow : IndexedWorkflow) : Service Unit :=
  send (.write (markRetentionDeletedWrite workflow.secretUid workflow.sk))

end DynamoRepository

end Hemlig
