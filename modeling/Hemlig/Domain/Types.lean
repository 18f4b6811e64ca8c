import Mathlib.Data.List.Basic

/-!
# The data of the service

The records of `src/domain/types.ts`, with the fields that some modelled
function reads or writes.  Identifiers are strings, as in the source.  A
timestamp is its number of milliseconds since the epoch: the source keeps ISO
strings of a fixed width and compares them as strings, which orders them as the
numbers.
-/

namespace Hemlig

/-- Milliseconds since the epoch. -/
abbrev Time := ℕ

/-- `24 * 60 * 60 * 1000`. -/
def day : Time := 24 * 60 * 60 * 1000

inductive SecretState
  | pendingValue
  | active
  | revoked
  | archived
  deriving DecidableEq, Repr

inductive WorkflowState
  | prepared
  | ready
  | retryable
  | failed
  | deleted
  deriving DecidableEq, Repr

inductive ActorType
  | human
  | consumer
  | system
  deriving DecidableEq, Repr

structure Actor where
  type : ActorType
  id : String
  deriving DecidableEq, Repr

inductive Permission
  | read
  deriving DecidableEq, Repr

inductive AgentCapability
  | read
  | write
  deriving DecidableEq, Repr

inductive Encoding
  | utf8
  | base64
  deriving DecidableEq, Repr

structure SecretEntry where
  encoding : Encoding
  value : String
  deriving DecidableEq, Repr

/-- A payload: its entries, with distinct keys. -/
abbrev SecretPayload := List (String × SecretEntry)

structure SecretMetadata where
  description : Option String
  tags : Option (List (String × String))
  deriving DecidableEq, Repr

/-- One ACL entry. -/
structure Grant where
  consumerId : String
  permissions : List Permission
  deriving DecidableEq, Repr

/-- One immutable target and its exact agent operations. -/
structure AgentSecretGrant where
  secretId : String
  secretUid : String
  permissions : List AgentCapability
  deriving DecidableEq, Repr

structure ControlRevision where
  schemaVersion : ℕ
  secretUid : Option String
  secretId : String
  controlVersionId : String
  payloadVersionId : Option String
  payloadKeyCount : Option ℕ
  environment : String
  state : SecretState
  createdAt : Time
  createdBy : Actor
  metadata : SecretMetadata
  acl : List Grant
  deriving DecidableEq, Repr

/-- The sealed form of a payload; only KMS and the envelope look inside. -/
structure EncryptedPayload where
  encryptedDataKey : String
  iv : String
  tag : String
  ciphertext : String
  deriving DecidableEq, Repr

structure PayloadRevision where
  schemaVersion : ℕ
  secretUid : Option String
  secretId : String
  payloadVersionId : String
  environment : String
  createdAt : Time
  createdBy : Actor
  payload : EncryptedPayload
  deriving DecidableEq, Repr

/-! ## Objects -/

/-- The key of a revision object: `secrets/<uid>/control/<version>.json` or
`secrets/<uid>/payload/<version>.json`. -/
inductive ObjectKey
  | control (secretUid controlVersionId : String)
  | payload (secretUid payloadVersionId : String)
  deriving DecidableEq, Repr

/-- The JSON document stored in a revision object. -/
inductive ObjectBody
  | control (revision : ControlRevision)
  | payload (revision : PayloadRevision)
  deriving DecidableEq, Repr

/-- One exact version of an object. -/
structure ObjectReference where
  key : ObjectKey
  versionId : String
  deriving DecidableEq, Repr

/-! ## Items of the control table -/

/-- The mutable record of a secret: `SECRET#<uid> / HEAD`. -/
structure HeadRecord where
  secretUid : String
  secretId : String
  environment : String
  controlVersionId : String
  controlObjectVersionId : Option String
  controlObjectKey : Option ObjectKey
  payloadVersionId : Option String
  payloadObjectVersionId : Option String
  payloadObjectKey : Option ObjectKey
  payloadKeyCount : Option ℕ
  state : SecretState
  workflowState : WorkflowState
  metadata : SecretMetadata
  updatedAt : Time
  catalogPk : String
  catalogSk : String
  catalogTags : List (String × String)
  leaseOwner : Option String
  leaseExpiresAt : Option Time
  syncSequence : Option ℕ
  deriving DecidableEq, Repr

/-- The sort key of a revision workflow below its secret. -/
inductive WorkflowSk
  | control (controlVersionId : String)
  | payload (payloadVersionId : String)
  deriving DecidableEq, Repr

/-- A revision workflow: `SECRET#<uid> / CONTROL#<version>` or `PAYLOAD#<version>`.
`workflowDue` and `retentionDue` are the sort keys of the two sparse due indexes;
a row without the attribute is not in the index. -/
structure StoredWorkflow where
  secretUid : String
  workflowState : WorkflowState
  operationId : String
  objectKey : ObjectKey
  expiresAt : Time
  workflowDue : Option Time
  retentionDue : Option Time
  serialized : ObjectBody
  s3VersionId : Option String
  revisionSk : Option (Time × String)
  deriving DecidableEq, Repr

/-- The live name of a secret: `SECRET_NAME#<environment>#<id> / LOOKUP`. -/
structure SecretLookup where
  secretUid : String
  secretId : String
  environment : String
  deriving DecidableEq, Repr

inductive ChangeKind
  | changed
  | revoked
  deriving DecidableEq, Repr

/-- The delivery projection of one grant:
`CONSUMER#<consumer> / SECRET#<environment>#<uid>`. -/
structure AccessRecord where
  consumerId : String
  secretUid : String
  secretId : String
  environment : String
  permissions : List Permission
  controlVersionId : String
  payloadVersionId : Option String
  state : SecretState
  changeKind : ChangeKind
  deriving DecidableEq, Repr

inductive NotificationStatus
  | pending
  | delivered
  deriving DecidableEq, Repr

/-- `NOTIFICATION#<event> / EVENT`. -/
structure NotificationOutboxRecord where
  eventId : String
  consumerIds : List String
  secretId : String
  environment : String
  controlVersionId : String
  payloadVersionId : Option String
  kind : ChangeKind
  createdAt : Time
  status : NotificationStatus
  deriving DecidableEq, Repr

/-- The digested request of a mutation: `sha256Hex(stableJson({control, hasPayload}))`
is represented by what it is a digest of. -/
structure RequestDigest where
  control : ControlRevision
  hasPayload : Bool
  deriving DecidableEq, Repr

/-- The operations on consumers: `consumer.enroll`, `consumer.api.rotate` and
`consumer.api.revoke`. -/
inductive OperationType
  | enroll
  | rotate
  | revoke
  deriving DecidableEq, Repr

/-- A certification request that has been parsed: its DER and the public key in it. -/
structure CertificationRequest where
  der : String
  publicKey : String
  deriving DecidableEq, Repr

/-- A certificate signing request: its PEM and, if that parses and its signature
verifies, what it says. -/
structure CertificateRequest where
  pem : String
  parsed : Option CertificationRequest
  deriving DecidableEq, Repr

/-- The PEM of a leaf certificate, with the public key it certifies. -/
structure LeafCertificate where
  pem : String
  publicKey : String
  deriving DecidableEq, Repr

/-- A request digest, represented by the document it is the digest of. -/
inductive OperationDigest
  | mutation (digest : RequestDigest)
  | enroll (consumerId environment rootFingerprint : String)
      (csrFingerprint : CertificationRequest)
  | rotate (consumerId rootFingerprint : String) (csrFingerprint : CertificationRequest)
  | revoke (consumerId apiFingerprint : String)
  deriving DecidableEq, Repr

inductive IdempotencyStatus
  | prepared
  | ready
  | succeeded
  deriving DecidableEq, Repr

/-- `IDEMPOTENCY#<type>#<actor> / REQUEST#<key>`.  Which fields there are depends on the
operation that claimed the key; a mutation writes no `operationType`. -/
structure IdempotencyRecord where
  requestDigest : Option OperationDigest := none
  operationId : Option String := none
  operationType : Option OperationType := none
  consumerId : Option String := none
  environment : Option String := none
  rootFingerprint : Option String := none
  apiFingerprint : Option String := none
  status : IdempotencyStatus
  expiresAt : Option Time := none
  terminalAuditEventId : Option String := none
  deriving DecidableEq, Repr

/-- `AGENT_SYNC#<environment> / STATE`. -/
structure AgentSyncState where
  epoch : String
  sequence : ℕ
  ready : Bool
  deriving DecidableEq, Repr

structure AgentSyncRecord where
  secretUid : String
  secretId : String
  controlVersionId : String
  payloadVersionId : Option String
  state : SecretState
  metadata : SecretMetadata
  readConsumerIds : List String
  deriving DecidableEq, Repr

/-- `AGENT_SYNC#<environment> / CHANGE#<sequence>#<uid>`; `ttl` is in seconds. -/
structure ChangeRow where
  record : AgentSyncRecord
  ttl : Option ℕ
  deriving DecidableEq, Repr

/-- `SYSTEM#ENVIRONMENTS / ENVIRONMENT#<name>`. -/
structure EnvironmentRecord where
  name : String
  createdAt : Time
  createdBy : Actor
  deriving DecidableEq, Repr

inductive ConsumerStatus
  | pending
  | active
  | failed
  deriving DecidableEq, Repr

/-- `CONSUMER#<consumer> / PROFILE`; `pendingEnrollmentOperationId` is present while
the first enrollment is still being published. -/
structure ConsumerRecord where
  consumerId : String
  environment : String
  subjectUri : String
  status : ConsumerStatus
  createdAt : Time
  createdBy : Actor
  pendingEnrollmentOperationId : Option String := none
  deriving DecidableEq, Repr

/-! ## Identities and enrollments -/

inductive IdentityStatus
  | pending
  | active
  | revoked
  | expired
  | failed
  deriving DecidableEq, Repr

inductive IdentityKind
  | api
  | notify
  deriving DecidableEq, Repr

/-- `IDENTITY#<fingerprint> / PROFILE`. -/
structure IdentityRecord where
  fingerprint : String
  consumerId : String
  environment : String
  kind : IdentityKind
  status : IdentityStatus
  notBefore : Time
  notAfter : Time
  certificatePem : Option LeafCertificate
  deriving DecidableEq, Repr

/-- `consumer.enroll` is the only one. -/
inductive EnrollmentOperationType
  | enroll
  deriving DecidableEq, Repr

/-- `ENROLLMENT#<operation> / STATE`; `workflowDue` is its place in the due index. -/
structure EnrollmentRecord where
  operationId : String
  operationType : EnrollmentOperationType
  consumerId : String
  environment : String
  rootFingerprint : String
  apiFingerprint : String
  apiCertificatePem : LeafCertificate
  createdAt : Time
  workflowState : WorkflowState
  requestDigest : OperationDigest
  actor : Actor
  idempotencyKey : String
  workflowDue : Option Time
  deriving DecidableEq, Repr

/-- What is stored for an operation names that operation. -/
structure StoredEnrollment (operationId : String) where
  record : EnrollmentRecord
  named : record.operationId = operationId
  deriving DecidableEq, Repr

/-- A certificate, as `X509Certificate` reads it. -/
structure Certificate where
  pem : String
  fingerprint : String
  notBefore : Time
  notAfter : Time
  deriving DecidableEq, Repr

/-- A certificate that the issuer has just signed, and its profile. -/
structure ApiIdentity where
  fingerprint : String
  consumerId : String
  environment : String
  kind : IdentityKind
  notBefore : Time
  notAfter : Time
  certificatePem : LeafCertificate
  deriving DecidableEq, Repr

/-- What `startEnrollment` writes. -/
structure PreparedEnrollment where
  operationId : String
  operationType : EnrollmentOperationType
  idempotencyKey : String
  actor : Actor
  requestDigest : OperationDigest
  consumerId : String
  environment : String
  subjectUri : String
  rootFingerprint : String
  apiIdentity : ApiIdentity
  createdAt : Time
  expiresAt : Time
  deriving DecidableEq, Repr

/-- A version of a truststore bundle; the checksum is represented by the bundle. -/
structure TruststoreReference where
  key : String
  versionId : String
  checksumSha256 : String
  deriving DecidableEq, Repr

/-- `SYSTEM#TRUSTSTORE / STATE`. -/
structure TruststoreState where
  currentTruststoreKey : Option String := none
  currentTruststoreVersionId : Option String := none
  currentTruststoreChecksumSha256 : Option String := none
  currentRootFingerprints : Option (List String) := none
  pendingOperationId : Option String := none
  pendingTruststoreKey : Option String := none
  pendingTruststoreVersionId : Option String := none
  pendingTruststoreChecksumSha256 : Option String := none
  pendingRootFingerprints : Option (List String) := none
  leaseOwner : Option String := none
  leaseExpiresAt : Option Time := none
  deriving DecidableEq, Repr

/-- `TRUSTSTORE#ROOTS / ROOT#<fingerprint>`. -/
structure TruststoreRootRecord where
  fingerprint : String
  consumerId : String
  certificatePem : String
  notBefore : Time
  notAfter : Time
  status : IdentityStatus
  operationId : String
  createdAt : Time
  deriving DecidableEq, Repr

inductive DomainNameStatus
  | available
  | updating
  | pendingCertificateReimport
  | pendingOwnershipVerification
  deriving DecidableEq, Repr

/-- What API Gateway says of the delivery domain: its mutual TLS authentication and the
status of each of its configurations. -/
structure DomainName where
  truststoreUri : Option String := none
  truststoreVersion : Option String := none
  truststoreWarnings : List String := []
  configurations : List (Option DomainNameStatus) := []
  deriving DecidableEq, Repr

/-- `SYSTEM#ISSUER / PROFILE`; only KMS looks inside the encrypted key. -/
structure IssuerRecord where
  rootCertificatePem : String
  encryptedPrivateKey : String
  fingerprint : String
  notBefore : Time
  notAfter : Time
  createdAt : Time
  deriving DecidableEq, Repr

/-! ## Agent grants -/

inductive AgentGrantStatus
  | pending
  | active
  deriving DecidableEq, Repr

/-- `AGENT_GRANT#<grant> / PROFILE`. -/
structure AgentGrantRecord where
  grantId : String
  consumerId : String
  environment : String
  capabilities : List AgentCapability
  secretGrants : List AgentSecretGrant
  displayName : Option String := none
  status : AgentGrantStatus
  createdAt : Time
  createdBy : Actor
  activatedAt : Option Time := none
  activatedFingerprint : Option String := none
  deriving DecidableEq, Repr

/-- What is stored for a grant names that grant. -/
structure StoredGrant (grantId : String) where
  record : AgentGrantRecord
  named : record.grantId = grantId
  deriving DecidableEq, Repr

inductive CapabilityStatus
  | pending
  | consumed
  deriving DecidableEq, Repr

/-- `BOOTSTRAP#<token hash> / STATE`; `ttl` is in seconds.  The hash is represented by the
token. -/
structure BootstrapCapabilityRecord where
  tokenHash : String
  grantId : String
  expiresAt : Time
  ttl : ℕ
  status : CapabilityStatus
  createdAt : Time
  createdBy : Actor
  consumedAt : Option Time := none
  consumedFingerprint : Option String := none
  deriving DecidableEq, Repr

/-- What is stored for a token names that token. -/
structure StoredCapability (tokenHash : String) where
  record : BootstrapCapabilityRecord
  named : record.tokenHash = tokenHash
  deriving DecidableEq, Repr

inductive PositionKind
  | checkpoint
  | page
  deriving DecidableEq, Repr

/-- Where a synchronization stands (`Position` of `services/agent-sync.ts`). -/
structure Position where
  kind : PositionKind
  epoch : String
  digest : List AgentCapability × List AgentSecretGrant × String
  after : ℕ
  through : ℕ
  snapshot : Bool
  checkpointExpiresAt : Time
  pageExpiresAt : Time
  lastSk : Option String
  deriving DecidableEq, Repr

/-- `CURSOR#<token> / STATE`. -/
structure StoredCursor where
  scope : String
  position : Position
  expiresAt : Time
  deriving DecidableEq, Repr

/-! ## Mutations between their two writes -/

structure PreparedPayload where
  revision : PayloadRevision
  key : ObjectKey
  deriving DecidableEq, Repr

/-- What `prepareMutation` writes and `completeMutation` commits. -/
structure PreparedMutation where
  operationId : String
  idempotencyKey : String
  actor : Actor
  requestDigest : RequestDigest
  secretId : String
  secretUid : String
  environment : String
  expectedControlVersionId : Option String
  archive : Bool
  control : ControlRevision
  controlKey : ObjectKey
  payload : Option PreparedPayload
  expiresAt : Time
  deriving DecidableEq, Repr

structure CompletedMutation where
  prepared : PreparedMutation
  controlObject : ObjectReference
  payloadObject : Option ObjectReference
  priorHead : Option HeadRecord
  priorAccess : List AccessRecord
  deriving DecidableEq, Repr

/-! ## Evidence -/

inductive Outcome
  | attempted
  | authorized
  | succeeded
  | failed
  deriving DecidableEq, Repr

/-- One event of the audit archive. -/
structure AuditEvent where
  correlationId : String
  outcome : Outcome
  actor : Actor
  operation : String
  target : List (String × String)
  reasonCode : Option String
  eventId : Option String := none
  deriving DecidableEq, Repr

end Hemlig
