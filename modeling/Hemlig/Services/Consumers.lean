import Hemlig.Repositories.Grants
import Hemlig.Services.Issuer
import Hemlig.Services.Secrets

/-!
# The consumer service

`src/services/consumers.ts`: a consumer is enrolled once, by an operation that
attaches the truststore to the delivery domain before it activates the identity;
later identities are created and revoked in one transaction each.  All requests
claim their idempotency key in the transaction that takes effect, and a retry
resumes the operation under the key.
-/

namespace Hemlig

open Concurrent

structure EnrollmentInput where
  consumerId : String
  environment : String
  apiCertificateSigningRequestPem : CertificateRequest
  actor : Actor
  idempotencyKey : String
  deriving DecidableEq, Repr

structure ApiIdentityInput where
  consumerId : String
  apiCertificateSigningRequestPem : CertificateRequest
  actor : Actor
  idempotencyKey : String
  deriving DecidableEq, Repr

structure RevocationInput where
  consumerId : String
  apiFingerprint : String
  actor : Actor
  idempotencyKey : String
  deriving DecidableEq, Repr

/-- An active consumer and the certificate it was enrolled with. -/
structure ConsumerProvisioningResult where
  consumerId : String
  environment : String
  rootFingerprint : String
  apiFingerprint : String
  apiCertificatePem : LeafCertificate
  deriving DecidableEq, Repr

structure ConsumerOperationResult where
  result : ConsumerProvisioningResult
  shouldWriteTerminalAudit : Bool
  deriving DecidableEq, Repr

structure ApiIdentityResult where
  consumerId : String
  environment : String
  rootFingerprint : String
  apiFingerprint : String
  apiCertificatePem : Option LeafCertificate
  status : IdentityStatus
  shouldWriteTerminalAudit : Bool
  deriving DecidableEq, Repr

namespace ConsumerService

open DynamoRepository

def maximumTruststoreCertificates : ℕ := 1000

def maximumTruststoreBytes : ℕ := 1048576

/-- The name of the bucket in this deployment. -/
def truststoreBucketName : String := "hemlig-truststore"

/-- The key prefix of this deployment. -/
def truststoreKeyPrefix : String := "truststores"

def truststoreKey (operationId : String) : String :=
  truststoreKeyPrefix ++ "/bundles/" ++ operationId ++ ".pem"

def truststoreUri (key : String) : String := "s3://" ++ truststoreBucketName ++ "/" ++ key

/-! ## The delivery domain -/

def truststoreMatches (domain : DomainName) (uri versionId : String) : Bool :=
  domain.truststoreUri = some uri ∧ domain.truststoreVersion = some versionId

def truststoreIsAvailable (domain : DomainName) (uri versionId : String) : Bool :=
  truststoreMatches domain uri versionId ∧ domain.truststoreWarnings = [] ∧
    domain.configurations ≠ [] ∧ domain.configurations.all (· = some .available)

def truststoreUpdateInProgress (domain : DomainName) : Bool :=
  domain.configurations.any (· = some .updating)

def retryableTruststoreUpdateError : Failure → Bool
  | .aws .badRequest | .aws .conflict | .aws .tooManyRequests => true
  | _ => false

/-- `TruststoreRejectedError`. -/
def truststoreRejected : Failure :=
  .error "API Gateway rejected the truststore certificate bundle."

/-- Ask the domain until it has the truststore. -/
def publishTruststore.poll (uri versionId : String) : ℕ → Service Unit
  | 0 => reject (serviceUnavailable
      "API Gateway has not confirmed an available truststore version.")
  | left + 1 => do
      let observed ← send .getDomainName
      if truststoreMatches observed uri versionId ∧ observed.truststoreWarnings ≠ [] then
        throw truststoreRejected
      else if truststoreIsAvailable observed uri versionId then return ()
      else poll uri versionId left

/-- Point the domain at the truststore, unless it is being updated already. -/
def publishTruststore.attach (current : DomainName) (uri versionId : String) : Service Unit :=
  if !truststoreMatches current uri versionId && !truststoreUpdateInProgress current then
    tryCatch (send (.updateDomainName uri versionId)) fun failure =>
      if retryableTruststoreUpdateError failure then
        reject (serviceUnavailable "API Gateway has not accepted the new truststore version yet.")
      else throw failure
  else pure ()

def publishTruststore (key versionId : String) : Service Unit := do
  let uri := truststoreUri key
  let current ← send .getDomainName
  publishTruststore.attach current uri versionId
  publishTruststore.poll uri versionId 4

/-- Reattach the current truststore, if there is one. -/
def reconcileTruststore : Service Unit := do
  let state ← getTruststoreState
  match state.bind TruststoreState.currentTruststoreKey,
      state.bind TruststoreState.currentTruststoreVersionId with
  | some key, some versionId => publishTruststore key versionId
  | _, _ => return ()

/-! ## Publishing an enrollment -/

def activeResult (operation : EnrollmentRecord) : ConsumerProvisioningResult where
  consumerId := operation.consumerId
  environment := operation.environment
  rootFingerprint := operation.rootFingerprint
  apiFingerprint := operation.apiFingerprint
  apiCertificatePem := operation.apiCertificatePem

def sameRootFingerprints (left right : List String) : Bool :=
  left.length = right.length ∧ left.insertionSort (· ≤ ·) = right.insertionSort (· ≤ ·)

/-- The bundle that is current, if it holds just these roots. -/
def currentTruststoreForRoots (state : Option TruststoreState) (rootFingerprints : List String) :
    Option TruststoreReference := do
  let state ← state
  let key ← state.currentTruststoreKey
  let versionId ← state.currentTruststoreVersionId
  let checksumSha256 ← state.currentTruststoreChecksumSha256
  let current ← state.currentRootFingerprints
  if sameRootFingerprints current rootFingerprints then
    some { key := key, versionId := versionId, checksumSha256 := checksumSha256 }
  else none

/-- `String.prototype.trim`, of a PEM. -/
def trim (pem : String) : String :=
  String.ofList
    ((pem.toList.dropWhile Char.isWhitespace).reverse.dropWhile Char.isWhitespace).reverse

def truststorePem (roots : List TruststoreRootRecord) : String :=
  "\n".intercalate (roots.map fun root => trim root.certificatePem) ++ "\n"

/-- `ObjectStore.putImmutableOrGet`, on the truststore bucket. -/
def putImmutableOrGet (key pem : String) : Service TruststoreReference :=
  tryCatch
    (do
      let versionId ← send (.putBundle key pem)
      return { key := key, versionId := versionId, checksumSha256 := pem })
    fun failure => tryCatch
      (do
        let existing ← send (.getBundle key)
        if existing.pem ≠ pem then throw failure
        else return { key := key, versionId := existing.versionId, checksumSha256 := pem })
      fun _ => throw failure

def createTruststoreBundle (operation : EnrollmentRecord) (roots : List TruststoreRootRecord)
    (rootFingerprints : List String) : Service TruststoreReference := do
  let pem := truststorePem roots
  if pem.utf8ByteSize > maximumTruststoreBytes then
    reject (badRequest "The truststore PEM bundle exceeds API Gateway's 1 MiB limit.")
  else
    let truststore ← putImmutableOrGet (truststoreKey operation.operationId) pem
    recordTruststoreBundle operation.operationId truststore rootFingerprints
    return truststore

/-- The domain goes back to the current bundle, then the enrollment fails. -/
def rollbackRejectedTruststore (operation : EnrollmentRecord) : Service Unit := do
  let state ← getTruststoreState
  match state.bind TruststoreState.currentTruststoreKey,
      state.bind TruststoreState.currentTruststoreVersionId with
  | some key, some versionId => publishTruststore key versionId
  | _, _ => pure ()
  failEnrollment operation

/-- Publish the bundle of an enrollment; a rejected bundle fails it. -/
def publishOrRollback (operation : EnrollmentRecord) (truststore : TruststoreReference) :
    Service Unit :=
  tryCatch (publishTruststore truststore.key truststore.versionId) fun failure => do
    if failure = truststoreRejected then rollbackRejectedTruststore operation
    else pure ()
    throw failure

/-- Complete an enrollment, or find it completed. -/
def completeOrLatest (operation : EnrollmentRecord) (truststore : TruststoreReference)
    (rootFingerprints : List String) : Service ConsumerProvisioningResult :=
  tryCatch
    (do
      send (.transactWrite (completeEnrollmentWrites operation truststore rootFingerprints) none)
      return activeResult operation)
    fun failure => do
      let latest ← getEnrollment operation.operationId
      match latest.filter (·.workflowState = .ready) with
      | some latest => return activeResult latest
      | none => throw failure

/-- The roots and the truststore state, read together in either order. -/
def rootsAndState (operationId : String) :
    Service (List TruststoreRootRecord × Option TruststoreState) := do
  let first ← send .choose
  if first = 0 then
    let roots ← listTruststoreRoots operationId
    let state ← getTruststoreState
    return (roots, state)
  else
    let state ← getTruststoreState
    let roots ← listTruststoreRoots operationId
    return (roots, state)

/-- The bundle to publish: the current one, or a new one. -/
def truststoreFor (operation : EnrollmentRecord) (roots : List TruststoreRootRecord)
    (state : Option TruststoreState) : Service TruststoreReference :=
  let rootFingerprints := roots.map TruststoreRootRecord.fingerprint
  match currentTruststoreForRoots state rootFingerprints with
  | some truststore => pure truststore
  | none => createTruststoreBundle operation roots rootFingerprints

/-- The enrollment of the lease holder, up to its end. -/
def publishEnrollment (operation : EnrollmentRecord) : Service ConsumerProvisioningResult := do
  let (roots, state) ← rootsAndState operation.operationId
  if !roots.any fun root =>
      root.fingerprint = operation.rootFingerprint ∧ root.status = .active then
    reject (conflict "The Hemlig issuing root is not available in the truststore.")
  else if roots.length > maximumTruststoreCertificates then
    reject (badRequest ("The truststore cannot contain more than " ++
      toString maximumTruststoreCertificates ++ " certificates."))
  else
    let truststore ← truststoreFor operation roots state
    publishOrRollback operation truststore
    completeOrLatest operation truststore (roots.map TruststoreRootRecord.fingerprint)

def resume (operationId : String) : Service ConsumerProvisioningResult := do
  let operation ← requireSome (notFound "The requested enrollment operation was not found.")
    (← getEnrollment operationId)
  match operation.workflowState with
  | .ready => return activeResult operation
  | .failed => reject (enrollmentFailed ("The enrollment truststore publication was rejected. " ++
      "Repair the issuer or truststore configuration before submitting a new enrollment."))
  | _ =>
      let now ← send .now
      acquireTruststoreLease operation.operationId (now + 10 * 60 * 1000)
      publishEnrollment operation

/-! ## Idempotency -/

def assertIdempotency (record : IdempotencyRecord) (requestDigest : OperationDigest)
    (operationType : OperationType) : Except ApiError Unit :=
  if record.requestDigest ≠ some requestDigest ∨ record.operationType ≠ some operationType then
    .error (conflict "This idempotency key has already been used for a different operation.")
  else .ok ()

/-- A field that is there and not empty. -/
def stringField (value : Option String) : Except ApiError String :=
  match value.filter (· ≠ "") with
  | some value => .ok value
  | none => .error (conflict "The idempotency record is incomplete.")

/-- Claim a key; if that fails, another request may have claimed it. -/
def claimOrWinner (claim : Service Unit) (actor : Actor) (idempotencyKey : String) :
    Service (Option IdempotencyRecord) :=
  tryCatch
    (do
      claim
      return none)
    fun failure => do
      match ← getIdempotency actor idempotencyKey with
      | none => throw failure
      | some winner => return some winner

/-! ## Enrollment -/

/-- Resume the enrollment under a key. -/
def resumeRecorded (record : IdempotencyRecord) (requestDigest : OperationDigest) :
    Service ConsumerOperationResult := do
  assertOk (assertIdempotency record requestDigest .enroll)
  let operationId ← assertOk (stringField record.operationId)
  let result ← resume operationId
  return { result := result, shouldWriteTerminalAudit := record.status ≠ .succeeded }

/-- Resume the operation that was claimed, or the one of the winner. -/
def resumeClaimed (winner : Option IdempotencyRecord) (operationId : String)
    (requestDigest : OperationDigest) : Service ConsumerOperationResult := do
  match winner with
  | some winner => resumeRecorded winner requestDigest
  | none =>
      let result ← resume operationId
      return { result := result, shouldWriteTerminalAudit := true }

/-- The pending enrollment is another one than the request asks for. -/
def mismatched (pending : EnrollmentRecord) (input : EnrollmentInput)
    (requestDigest : OperationDigest) : Bool :=
  pending.operationType ≠ .enroll ∨ pending.consumerId ≠ input.consumerId ∨
    pending.environment ≠ input.environment ∨ pending.requestDigest ≠ requestDigest ∨
    pending.workflowState ≠ .prepared

/-- Join the enrollment that the consumer is waiting for. -/
def joinPending (input : EnrollmentInput) (requestDigest : OperationDigest)
    (pending : EnrollmentRecord) : Service ConsumerOperationResult := do
  if mismatched pending input requestDigest then
    reject (conflict
      "The existing pending consumer enrollment does not match this certificate request.")
  else
    let winner ← claimOrWinner
      (associateEnrollmentIdempotency pending input.actor input.idempotencyKey)
      input.actor input.idempotencyKey
    resumeClaimed winner pending.operationId requestDigest

def preparedEnrollment (input : EnrollmentInput) (requestDigest : OperationDigest)
    (issued : IssuedApiIdentity) (operationId : String) (createdAt now : Time) :
    PreparedEnrollment where
  operationId := operationId
  operationType := .enroll
  idempotencyKey := input.idempotencyKey
  actor := input.actor
  requestDigest := requestDigest
  consumerId := input.consumerId
  environment := input.environment
  subjectUri := issued.subjectUri
  rootFingerprint := issued.rootFingerprint
  apiIdentity := issued.apiIdentity
  createdAt := createdAt
  expiresAt := now + 10 * 60 * 1000

/-- A first enrollment. -/
def startNew (input : EnrollmentInput) (requestDigest : OperationDigest) :
    Service ConsumerOperationResult := do
  let issued ← IssuerService.issueApiIdentity input.consumerId input.environment
    input.apiCertificateSigningRequestPem
  let createdAt ← send .now
  let operationId ← send (.newId "")
  let now ← send .now
  let winner ← claimOrWinner
    (startEnrollment (preparedEnrollment input requestDigest issued operationId createdAt now))
    input.actor input.idempotencyKey
  resumeClaimed winner operationId requestDigest

def startOrResume (input : EnrollmentInput) : Service ConsumerOperationResult := do
  let csrFingerprint ← assertOk
    (IssuerService.certificateRequestFingerprint input.apiCertificateSigningRequestPem)
  let rootFingerprint ← IssuerService.issuerFingerprint
  let requestDigest : OperationDigest :=
    .enroll input.consumerId input.environment rootFingerprint csrFingerprint
  match ← getIdempotency input.actor input.idempotencyKey with
  | some prior => resumeRecorded prior requestDigest
  | none =>
      match ← getPendingEnrollmentForConsumer input.consumerId with
      | some pending => joinPending input requestDigest pending
      | none => startNew input requestDigest

def enroll (input : EnrollmentInput) : Service ConsumerOperationResult := do
  assertOk (assertIdentifier input.consumerId "consumerId")
  let _ ← SecretService.requireEnvironment input.environment
  startOrResume input

/-! ## Rotation -/

def idempotentApiIdentityResult (record : IdempotencyRecord) (requestDigest : OperationDigest)
    (consumerId environment : String) : Service ApiIdentityResult := do
  assertOk (assertIdempotency record requestDigest .rotate)
  let apiFingerprint ← assertOk (stringField record.apiFingerprint)
  let rootFingerprint ← assertOk (stringField record.rootFingerprint)
  let identity ← getIdentity apiFingerprint
  let certificatePem ← requireSome
    (conflict "The idempotent API identity record is incomplete.")
    (identity.bind IdentityRecord.certificatePem)
  return {
    consumerId := consumerId
    environment := environment
    rootFingerprint := rootFingerprint
    apiFingerprint := apiFingerprint
    apiCertificatePem := some certificatePem
    status := .active
    shouldWriteTerminalAudit := record.status ≠ .succeeded }

/-- A new identity under a key that no request has used. -/
def rotateNew (input : ApiIdentityInput) (environment : String)
    (requestDigest : OperationDigest) : Service ApiIdentityResult := do
  let issued ← IssuerService.issueApiIdentity input.consumerId environment
    input.apiCertificateSigningRequestPem
  let winner ← claimOrWinner
    (createApiIdentity input.actor input.idempotencyKey requestDigest issued.apiIdentity
      issued.rootFingerprint)
    input.actor input.idempotencyKey
  match winner with
  | some winner =>
      idempotentApiIdentityResult winner requestDigest input.consumerId environment
  | none =>
      return {
        consumerId := input.consumerId
        environment := environment
        rootFingerprint := issued.rootFingerprint
        apiFingerprint := issued.apiIdentity.fingerprint
        apiCertificatePem := some issued.apiIdentity.certificatePem
        status := .active
        shouldWriteTerminalAudit := true }

def rotateApiIdentity (input : ApiIdentityInput) : Service ApiIdentityResult := do
  assertOk (assertIdentifier input.consumerId "consumerId")
  let consumer ← requireSome (notFound "The requested active consumer was not found.")
    ((← getConsumer input.consumerId).filter (·.status = .active))
  let csrFingerprint ← assertOk
    (IssuerService.certificateRequestFingerprint input.apiCertificateSigningRequestPem)
  let rootFingerprint ← IssuerService.issuerFingerprint
  let requestDigest : OperationDigest := .rotate input.consumerId rootFingerprint csrFingerprint
  match ← getIdempotency input.actor input.idempotencyKey with
  | some prior =>
      idempotentApiIdentityResult prior requestDigest input.consumerId consumer.environment
  | none => rotateNew input consumer.environment requestDigest

/-! ## Recovering an identity -/

/-- The first active identity of the page whose certificate is for the key of the
request; a request that does not parse fails at the first candidate. -/
def findIdentity (environment : String) (csr : CertificateRequest) :
    List IdentityRecord → Except ApiError (Option (IdentityRecord × LeafCertificate))
  | [] => .ok none
  | candidate :: rest =>
      match candidate.certificatePem with
      | some certificatePem =>
          if candidate.status = .active ∧ candidate.environment = environment then do
            if ← IssuerService.certificateRequestMatchesCertificate csr certificatePem then
              return some (candidate, certificatePem)
            else findIdentity environment csr rest
          else findIdentity environment csr rest
      | none => findIdentity environment csr rest

/-- The certificate of an active consumer whose key the caller owns. -/
def recoverActiveIdentity (consumerId environment : String) (csr : CertificateRequest) :
    Service (Option ConsumerProvisioningResult) := do
  assertOk (assertIdentifier consumerId "consumerId")
  match (← getConsumer consumerId).filter (·.status = .active) with
  | none => return none
  | some consumer =>
      if consumer.environment ≠ environment then
        reject (conflict "The active consumer belongs to a different environment.")
      else
        let page ← listConsumerApiIdentities consumerId
        let (identity, certificatePem) ← requireSome
          (conflict ("The active consumer does not have an identity for this certificate " ++
            "request."))
          (← assertOk (findIdentity environment csr page))
        let rootFingerprint ← IssuerService.issuerFingerprint
        return some {
          consumerId := consumer.consumerId
          environment := consumer.environment
          rootFingerprint := rootFingerprint
          apiFingerprint := identity.fingerprint
          apiCertificatePem := certificatePem }

/-! ## Revocation -/

def assertFingerprint (value field : String) : Except ApiError Unit :=
  if value.length = 64 ∧ value.toList.all fun char =>
      ('a' ≤ char ∧ char ≤ 'f') ∨ ('0' ≤ char ∧ char ≤ '9') then .ok ()
  else .error (badRequest (field ++ " must be a lowercase SHA-256 certificate fingerprint."))

def revokedResult (input : RevocationInput) (environment : String) (shouldWrite : Bool) :
    ApiIdentityResult where
  consumerId := input.consumerId
  environment := environment
  rootFingerprint := ""
  apiFingerprint := input.apiFingerprint
  apiCertificatePem := none
  status := .revoked
  shouldWriteTerminalAudit := shouldWrite

def revokeApiIdentity (input : RevocationInput) : Service ApiIdentityResult := do
  assertOk (assertIdentifier input.consumerId "consumerId")
  assertOk (assertFingerprint input.apiFingerprint "apiFingerprint")
  let identity ← requireSome
    (notFound "The requested consumer API identity was not found.")
    ((← getIdentity input.apiFingerprint).filter fun identity =>
      identity.consumerId = input.consumerId ∧ identity.kind = .api)
  let requestDigest : OperationDigest := .revoke input.consumerId input.apiFingerprint
  match ← getIdempotency input.actor input.idempotencyKey with
  | some prior =>
      assertOk (assertIdempotency prior requestDigest .revoke)
      return revokedResult input identity.environment (prior.status ≠ .succeeded)
  | none =>
      DynamoRepository.revokeApiIdentity input.actor input.idempotencyKey requestDigest
        input.consumerId input.apiFingerprint
      return revokedResult input identity.environment true

end ConsumerService

end Hemlig
