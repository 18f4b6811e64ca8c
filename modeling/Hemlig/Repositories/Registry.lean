import Hemlig.Repositories.Dynamo
import Mathlib.Data.List.Sort

/-!
# The registry of consumers

The second half of `src/repositories/dynamo.ts`: consumers and their API
identities, the enrollment operations that create them, the truststore with its
lease, and the idempotency records that all of these share with the mutations of
secrets.
-/

namespace Hemlig

open Store Concurrent

/-- What a repository function throws instead of any failure of its write. -/
def orConflict (message : String) (write : Service Unit) : Service Unit :=
  tryCatch write fun failure => reject (conflict (message ++ errorMessage failure))

/-! ## The writes of an enrollment -/

def EnrollmentOperationType.operationType : EnrollmentOperationType → OperationType
  | .enroll => .enroll

namespace PreparedEnrollment

variable (enrollment : PreparedEnrollment)

def idempotencyItem : IdempotencyRecord where
  requestDigest := some enrollment.requestDigest
  operationId := some enrollment.operationId
  operationType := some enrollment.operationType.operationType
  consumerId := some enrollment.consumerId
  environment := some enrollment.environment
  rootFingerprint := some enrollment.rootFingerprint
  apiFingerprint := some enrollment.apiIdentity.fingerprint
  status := .prepared

def operationItem : EnrollmentRecord where
  operationId := enrollment.operationId
  operationType := enrollment.operationType
  consumerId := enrollment.consumerId
  environment := enrollment.environment
  rootFingerprint := enrollment.rootFingerprint
  apiFingerprint := enrollment.apiIdentity.fingerprint
  apiCertificatePem := enrollment.apiIdentity.certificatePem
  createdAt := enrollment.createdAt
  workflowState := .prepared
  requestDigest := enrollment.requestDigest
  actor := enrollment.actor
  idempotencyKey := enrollment.idempotencyKey
  workflowDue := some enrollment.expiresAt

def consumerItem : ConsumerRecord where
  consumerId := enrollment.consumerId
  environment := enrollment.environment
  subjectUri := enrollment.subjectUri
  status := .pending
  createdAt := enrollment.createdAt
  createdBy := enrollment.actor
  pendingEnrollmentOperationId := some enrollment.operationId

end PreparedEnrollment

/-- The profile of a new identity. -/
def ApiIdentity.item (identity : ApiIdentity) (status : IdentityStatus) : IdentityRecord where
  fingerprint := identity.fingerprint
  consumerId := identity.consumerId
  environment := identity.environment
  kind := identity.kind
  status := status
  notBefore := identity.notBefore
  notAfter := identity.notAfter
  certificatePem := some identity.certificatePem

/-- The row of an operation that has ended: it leaves the due index. -/
def StoredEnrollment.settle {operationId : String} (state : WorkflowState)
    (row : StoredEnrollment operationId) : StoredEnrollment operationId where
  record := { row.record with workflowState := state, workflowDue := none }
  named := row.named

def IdentityRecord.withStatus (status : IdentityStatus) (identity : IdentityRecord) :
    IdentityRecord :=
  { identity with status := status }

/-- The consumer once its first identity is active. -/
def ConsumerRecord.activate (consumer : ConsumerRecord) : ConsumerRecord :=
  { consumer with status := .active, pendingEnrollmentOperationId := none }

/-- The record with the evidence of its success. -/
def IdempotencyRecord.succeed (eventId : String) (record : IdempotencyRecord) :
    IdempotencyRecord :=
  { record with status := .succeeded, terminalAuditEventId := some eventId }

/-! ### The truststore state -/

namespace TruststoreState

/-- The lease and the pending bundle are gone. -/
def release (state : TruststoreState) : TruststoreState :=
  { state with
    leaseOwner := none
    leaseExpiresAt := none
    pendingOperationId := none
    pendingTruststoreKey := none
    pendingTruststoreVersionId := none
    pendingTruststoreChecksumSha256 := none
    pendingRootFingerprints := none }

/-- The bundle becomes the current one. -/
def publish (truststore : TruststoreReference) (rootFingerprints : List String)
    (state : TruststoreState) : TruststoreState :=
  { state.release with
    currentTruststoreKey := some truststore.key
    currentTruststoreVersionId := some truststore.versionId
    currentTruststoreChecksumSha256 := some truststore.checksumSha256
    currentRootFingerprints := some rootFingerprints }

/-- The bundle is pending. -/
def stage (operationId : String) (truststore : TruststoreReference)
    (rootFingerprints : List String) (state : TruststoreState) : TruststoreState :=
  { state with
    pendingOperationId := some operationId
    pendingTruststoreKey := some truststore.key
    pendingTruststoreVersionId := some truststore.versionId
    pendingTruststoreChecksumSha256 := some truststore.checksumSha256
    pendingRootFingerprints := some rootFingerprints }

/-- `attribute_not_exists(leaseExpiresAt) OR leaseExpiresAt < :now OR leaseOwner = :owner`. -/
def leasable (operationId : String) (now : Time) (state : TruststoreState) : Bool :=
  state.leaseExpiresAt.all (· < now) ∨ state.leaseOwner = some operationId

def lease (operationId : String) (expiresAt : Time) (state : TruststoreState) : TruststoreState :=
  { state with leaseOwner := some operationId, leaseExpiresAt := some expiresAt }

end TruststoreState

/-! ## The repository -/

namespace DynamoRepository

/-! ### Reads -/

def getIdentity (fingerprint : String) : Service (Option IdentityRecord) :=
  send (.get (.identity fingerprint))

def getEnrollment (operationId : String) : Service (Option EnrollmentRecord) := do
  let row ← send (.get (.enrollment operationId))
  return row.map StoredEnrollment.record

def getTruststoreState : Service (Option TruststoreState) := send (.get .truststoreState)

def getTruststoreRoot (fingerprint : String) : Service (Option TruststoreRootRecord) :=
  send (.get (.truststoreRoot fingerprint))

def getIssuer : Service (Option IssuerRecord) := send (.get .issuer)

/-- The enrollment that a pending consumer names. -/
def getPendingEnrollmentForConsumer (consumerId : String) : Service (Option EnrollmentRecord) := do
  let consumer ← getConsumer consumerId
  match (consumer.filter (·.status = .pending)).bind
      ConsumerRecord.pendingEnrollmentOperationId with
  | none => return none
  | some operationId => getEnrollment operationId

def listTruststoreRoots.pages (operationId : String) :
    ℕ → Option String → Service (List TruststoreRootRecord)
  | 0, _ => throw .timeout
  | left + 1, startKey => do
      let page ← send (.truststoreRootPage startKey)
      let roots := page.items.filter fun root =>
        root.status = .active ∨ root.operationId = operationId
      match page.lastEvaluatedKey with
      | none => return roots
      | some key => return roots ++ (← pages operationId left (some key))

/-- The roots that a bundle must contain, by their fingerprints. -/
def listTruststoreRoots (operationId : String) : Service (List TruststoreRootRecord) := do
  let most ← send .choose
  let roots ← listTruststoreRoots.pages operationId most none
  return roots.insertionSort fun left right => left.fingerprint ≤ right.fingerprint

/-- The enrollments in the due index. -/
def listExpiredEnrollments (now : Time) : Service (List String) := send (.dueEnrollments now)

/-! ### The issuer -/

/-- The public anchor of the issuer in the truststore. -/
def issuerRoot (issuer : IssuerRecord) : TruststoreRootRecord where
  fingerprint := issuer.fingerprint
  consumerId := "hemlig"
  certificatePem := issuer.rootCertificatePem
  notBefore := issuer.notBefore
  notAfter := issuer.notAfter
  status := .active
  operationId := "issuer"
  createdAt := issuer.createdAt

def ensureRootWrite (issuer : IssuerRecord) : TableWrite :=
  .create (.truststoreRoot issuer.fingerprint) (issuerRoot issuer)

/-- Repairs an incomplete write without replacing a root. -/
def ensureIssuerTruststoreRoot (issuer : IssuerRecord) : Service Unit :=
  tryCatch (send (.write (ensureRootWrite issuer))) fun _ => do
    let existing ← getTruststoreRoot issuer.fingerprint
    if existing.any fun root =>
        root.certificatePem = issuer.rootCertificatePem ∧ root.status = .active then return ()
    else reject (conflict "The Hemlig issuing-root truststore record is invalid.")

def createIssuerWrites (issuer : IssuerRecord) : List TableWrite :=
  [ .create .issuer issuer, ensureRootWrite issuer ]

/-- A concurrent creator gets the issuer that exists. -/
def createIssuer (issuer : IssuerRecord) : Service IssuerRecord :=
  tryCatch
    (do
      send (.transactWrite (createIssuerWrites issuer) none)
      return issuer)
    fun _ => do
      let existing ← requireSome (conflict "Could not create the Hemlig issuing root.")
        (← getIssuer)
      ensureIssuerTruststoreRoot existing
      return existing

/-! ### Enrollments -/

def startEnrollmentWrites (enrollment : PreparedEnrollment) : List TableWrite :=
  [ .create (.idempotency enrollment.actor enrollment.idempotencyKey) enrollment.idempotencyItem,
    .create (.identity enrollment.apiIdentity.fingerprint) (enrollment.apiIdentity.item .pending),
    .create (.enrollment enrollment.operationId) ⟨enrollment.operationItem, rfl⟩,
    .create (.consumer enrollment.consumerId) enrollment.consumerItem ]

def startEnrollment (enrollment : PreparedEnrollment) : Service Unit :=
  orConflict "Could not prepare consumer enrollment: "
    (send (.transactWrite (startEnrollmentWrites enrollment) (some (.enrolled enrollment))))

/-- The record of another key for an enrollment. -/
def associatedItem (operation : EnrollmentRecord) : IdempotencyRecord where
  requestDigest := some operation.requestDigest
  operationId := some operation.operationId
  operationType := some operation.operationType.operationType
  consumerId := some operation.consumerId
  environment := some operation.environment
  rootFingerprint := some operation.rootFingerprint
  apiFingerprint := some operation.apiFingerprint
  status := .prepared

def associateWrite (operation : EnrollmentRecord) (actor : Actor) (idempotencyKey : String) :
    TableWrite :=
  .create (.idempotency actor idempotencyKey) (associatedItem operation)

def associateEnrollmentIdempotency (operation : EnrollmentRecord) (actor : Actor)
    (idempotencyKey : String) : Service Unit :=
  orConflict "Could not associate enrollment idempotency: "
    (send (.write (associateWrite operation actor idempotencyKey)))

def acquireTruststoreLeaseWrite (operationId : String) (expiresAt now : Time) : TableWrite where
  key := .truststoreState
  condition := fun state => state.all (TruststoreState.leasable operationId now)
  effect := fun state => some ((state.getD {}).lease operationId expiresAt)

def acquireTruststoreLease (operationId : String) (expiresAt : Time) : Service Unit :=
  tryCatch
    (do
      let now ← send .now
      send (.write (acquireTruststoreLeaseWrite operationId expiresAt now)))
    fun failure => reject (serviceUnavailable
      ("Another truststore publication is in progress: " ++ errorMessage failure))

def recordTruststoreBundleWrite (operationId : String) (truststore : TruststoreReference)
    (rootFingerprints : List String) : TableWrite :=
  .update .truststoreState (fun state => state.leaseOwner = some operationId)
    (TruststoreState.stage operationId truststore rootFingerprints)

def recordTruststoreBundle (operationId : String) (truststore : TruststoreReference)
    (rootFingerprints : List String) : Service Unit :=
  send (.write (recordTruststoreBundleWrite operationId truststore rootFingerprints))

/-- The identity of an operation leaves `PENDING`. -/
def identityWrite (operation : EnrollmentRecord) (status : IdentityStatus) : TableWrite :=
  .update (.identity operation.apiFingerprint)
    (fun identity => identity.status = .pending ∧ identity.consumerId = operation.consumerId)
    (IdentityRecord.withStatus status)

/-- The operation leaves `PREPARED`. -/
def operationWrite (operation : EnrollmentRecord) (state : WorkflowState) : TableWrite :=
  .update (.enrollment operation.operationId) (fun row => row.record.workflowState = .prepared)
    (StoredEnrollment.settle state)

/-- The holder of the lease gives it up. -/
def truststoreWrite (operation : EnrollmentRecord) (change : TruststoreState → TruststoreState) :
    TableWrite :=
  .update .truststoreState (fun state => state.leaseOwner = some operation.operationId) change

def completeEnrollmentWrites (operation : EnrollmentRecord) (truststore : TruststoreReference)
    (rootFingerprints : List String) : List TableWrite :=
  [ identityWrite operation .active,
    operationWrite operation .ready,
    truststoreWrite operation (TruststoreState.publish truststore rootFingerprints) ] ++
  if operation.operationType = .enroll then
    [ .update (.consumer operation.consumerId)
        (fun consumer => consumer.status = .pending ∧ consumer.environment = operation.environment)
        ConsumerRecord.activate ]
  else []

def failEnrollmentWrites (operation : EnrollmentRecord) : List TableWrite :=
  [ identityWrite operation .failed,
    operationWrite operation .failed,
    truststoreWrite operation TruststoreState.release ] ++
  if operation.operationType = .enroll then
    [ .delete (.consumer operation.consumerId) fun consumer => consumer.status = .pending ]
  else []

def failEnrollment (operation : EnrollmentRecord) : Service Unit :=
  send (.transactWrite (failEnrollmentWrites operation) none)

/-! ### Identities -/

def rotatedItem (requestDigest : OperationDigest) (identity : ApiIdentity)
    (rootFingerprint : String) : IdempotencyRecord where
  requestDigest := some requestDigest
  operationType := some .rotate
  consumerId := some identity.consumerId
  environment := some identity.environment
  rootFingerprint := some rootFingerprint
  apiFingerprint := some identity.fingerprint
  status := .ready

def createApiIdentityWrites (actor : Actor) (idempotencyKey : String)
    (requestDigest : OperationDigest) (identity : ApiIdentity) (rootFingerprint : String) :
    List TableWrite :=
  [ .create (.idempotency actor idempotencyKey)
      (rotatedItem requestDigest identity rootFingerprint),
    .create (.identity identity.fingerprint) (identity.item .active) ]

def createApiIdentity (actor : Actor) (idempotencyKey : String) (requestDigest : OperationDigest)
    (identity : ApiIdentity) (rootFingerprint : String) : Service Unit :=
  orConflict "Could not create consumer API identity: "
    (send (.transactWrite
      (createApiIdentityWrites actor idempotencyKey requestDigest identity rootFingerprint)
      (some (.rotated actor idempotencyKey requestDigest identity rootFingerprint))))

def revokedItem (requestDigest : OperationDigest) (consumerId fingerprint : String) :
    IdempotencyRecord where
  requestDigest := some requestDigest
  operationType := some .revoke
  consumerId := some consumerId
  apiFingerprint := some fingerprint
  status := .ready

def revokeApiIdentityWrites (actor : Actor) (idempotencyKey : String)
    (requestDigest : OperationDigest) (consumerId fingerprint : String) : List TableWrite :=
  [ .create (.idempotency actor idempotencyKey)
      (revokedItem requestDigest consumerId fingerprint),
    .update (.identity fingerprint)
      (fun identity => identity.consumerId = consumerId ∧ identity.kind = .api ∧
        identity.status = .active)
      (IdentityRecord.withStatus .revoked) ]

def revokeApiIdentity (actor : Actor) (idempotencyKey : String) (requestDigest : OperationDigest)
    (consumerId fingerprint : String) : Service Unit :=
  orConflict "Could not revoke consumer API identity: "
    (send (.transactWrite
      (revokeApiIdentityWrites actor idempotencyKey requestDigest consumerId fingerprint)
      (some (.revoked actor idempotencyKey requestDigest consumerId fingerprint))))

/-! ### Evidence -/

/-- The update has no condition. -/
def markAuditSucceededWrite (actor : Actor) (idempotencyKey eventId : String) : TableWrite where
  key := .idempotency actor idempotencyKey
  condition := fun _ => true
  effect := fun record =>
    some (IdempotencyRecord.succeed eventId (record.getD { status := .succeeded }))

def markAuditSucceeded (actor : Actor) (idempotencyKey eventId : String) : Service Unit :=
  send (.write (markAuditSucceededWrite actor idempotencyKey eventId))

end DynamoRepository

end Hemlig
