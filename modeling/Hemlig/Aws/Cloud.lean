import Hemlig.Domain.Types
import Hemlig.Store.Transact

/-!
# The shared state

Everything the processes share: the control table, the revision objects, the
clock and the audit archive.  A key of the table that the source builds from
identifiers is a constructor; only the sort keys that are compared by their
order, those of the `CHANGE#` rows, stay strings.

Four fields are no part of the service and are read by no program.  `known` and
`drawnBy` say which identifiers exist and who drew them, so that a new one can be
fresh.  `history` records what happened, and what was known when it did.
`placement` is the fixed internal order in which a scan visits the secrets.
-/

namespace Hemlig

open Store

/-! ## The control table -/

/-- The primary keys of the control table. -/
inductive Key
  | head (secretUid : String)
  | workflow (secretUid : String) (sk : WorkflowSk)
  | lookup (environment secretId : String)
  | access (consumerId environment secretUid : String)
  | idempotency (actor : Actor) (idempotencyKey : String)
  | notification (eventId : String)
  | syncState (environment : String)
  | change (environment sk : String)
  | environment (name : String)
  | environmentCount
  | consumer (consumerId : String)
  | agentGrantOf (consumerId : String)
  | agentGrant (grantId : String)
  | bootstrap (tokenHash : String)
  | cursor (token : String)
  | identity (fingerprint : String)
  | enrollment (operationId : String)
  | truststoreState
  | truststoreRoot (fingerprint : String)
  | issuer
  deriving DecidableEq, Repr

/-- What is stored under a key. -/
abbrev Item : Key → Type
  | .head _ => HeadRecord
  | .workflow _ _ => StoredWorkflow
  | .lookup _ _ => SecretLookup
  | .access _ _ _ => AccessRecord
  | .idempotency _ _ => IdempotencyRecord
  | .notification _ => NotificationOutboxRecord
  | .syncState _ => AgentSyncState
  | .change _ _ => ChangeRow
  | .environment _ => EnvironmentRecord
  | .environmentCount => ℕ
  | .consumer _ => ConsumerRecord
  | .agentGrantOf _ => String
  | .agentGrant grantId => StoredGrant grantId
  | .bootstrap tokenHash => StoredCapability tokenHash
  | .cursor _ => StoredCursor
  | .identity _ => IdentityRecord
  | .enrollment operationId => StoredEnrollment operationId
  | .truststoreState => TruststoreState
  | .truststoreRoot _ => TruststoreRootRecord
  | .issuer => IssuerRecord

/-- One write to the control table. -/
abbrev TableWrite := Write Key Item

/-! ## Objects -/

/-- The one version stored under an object key.  Objects are written with
`If-None-Match: *` and deleted by version, so a key never has a second one. -/
structure StoredObject where
  versionId : String
  body : ObjectBody
  retainUntil : Option Time
  deriving DecidableEq, Repr

/-- The object lock is in force. -/
def StoredObject.locked (object : StoredObject) (now : Time) : Bool :=
  object.retainUntil.any fun retainUntil => now < retainUntil

/-- The one version stored under the key of a truststore bundle. -/
structure StoredBundle where
  versionId : String
  pem : String
  deriving DecidableEq, Repr

/-! ## History -/

/-- What the history keeps of a run. -/
inductive Event
  | prepared (mutation : PreparedMutation)
  | committed (completed : CompletedMutation) (sequence : ℕ) (extendedAt : Option Time)
  | deleted (reference : ObjectReference)
  | expired (environment sk : String)
  | truststoreReconciled
  | enrolled (enrollment : PreparedEnrollment)
  | rotated (actor : Actor) (idempotencyKey : String) (requestDigest : OperationDigest)
      (identity : ApiIdentity) (rootFingerprint : String)
  | revoked (actor : Actor) (idempotencyKey : String) (requestDigest : OperationDigest)
      (consumerId fingerprint : String)
  | granted (grant : AgentGrantRecord)
  | activated (grantId fingerprint : String)
  | issued (capability : BootstrapCapabilityRecord)
  | consumed (tokenHash fingerprint : String)
  deriving DecidableEq, Repr

/-- One event, when it happened, and the identifiers known by then. -/
structure Entry where
  time : Time
  known : List String
  event : Event
  deriving DecidableEq, Repr

/-! ## The state -/

structure Cloud where
  table : Table Key Item
  /-- The two due indexes as last replicated from the table. -/
  index : String → WorkflowSk → Option StoredWorkflow
  /-- The index of the identities of each consumer, likewise. -/
  identityIndex : String → Option IdentityRecord
  objects : ObjectKey → Option StoredObject
  /-- The truststore bucket. -/
  bundles : String → Option StoredBundle
  now : Time
  audit : List AuditEvent
  known : List String
  drawnBy : String → Option ℕ
  history : List Entry
  placement : String → ℕ

namespace Cloud

/-- A cloud in which nothing has happened yet. -/
def empty : Cloud where
  table := .empty
  index _ _ := none
  identityIndex _ := none
  objects _ := none
  bundles _ := none
  now := 0
  audit := []
  known := []
  drawnBy _ := none
  history := []
  placement _ := 0

variable (s : Cloud)

/-- `SECRET#<uid> / HEAD`. -/
abbrev head (secretUid : String) : Option HeadRecord := s.table.get (.head secretUid)

/-- `SECRET#<uid> / CONTROL#<version>` and `PAYLOAD#<version>`. -/
abbrev workflow (secretUid : String) (sk : WorkflowSk) : Option StoredWorkflow :=
  s.table.get (.workflow secretUid sk)

/-- `SECRET_NAME#<environment>#<id> / LOOKUP`. -/
abbrev lookup (environment secretId : String) : Option SecretLookup :=
  s.table.get (.lookup environment secretId)

/-- `CONSUMER#<consumer> / SECRET#<environment>#<uid>`. -/
abbrev access (consumerId environment secretUid : String) : Option AccessRecord :=
  s.table.get (.access consumerId environment secretUid)

/-- `AGENT_SYNC#<environment> / STATE`. -/
abbrev syncState (environment : String) : Option AgentSyncState :=
  s.table.get (.syncState environment)

/-- `AGENT_SYNC#<environment> / CHANGE#…`. -/
abbrev change (environment sk : String) : Option ChangeRow :=
  s.table.get (.change environment sk)

/-- `IDEMPOTENCY#<type>#<actor> / REQUEST#<key>`. -/
abbrev idempotency (actor : Actor) (idempotencyKey : String) : Option IdempotencyRecord :=
  s.table.get (.idempotency actor idempotencyKey)

/-- `CONSUMER#<consumer> / PROFILE`. -/
abbrev consumer (consumerId : String) : Option ConsumerRecord := s.table.get (.consumer consumerId)

/-- `IDENTITY#<fingerprint> / PROFILE`. -/
abbrev identity (fingerprint : String) : Option IdentityRecord :=
  s.table.get (.identity fingerprint)

/-- `ENROLLMENT#<operation> / STATE`. -/
abbrev enrollment (operationId : String) : Option (StoredEnrollment operationId) :=
  s.table.get (.enrollment operationId)

/-- `SYSTEM#TRUSTSTORE / STATE`. -/
abbrev truststoreState : Option TruststoreState := s.table.get .truststoreState

/-- `CONSUMER#<consumer> / AGENT_GRANT`: the grant of the consumer. -/
abbrev agentGrantOf (consumerId : String) : Option String :=
  s.table.get (.agentGrantOf consumerId)

/-- `AGENT_GRANT#<grant> / PROFILE`. -/
abbrev agentGrant (grantId : String) : Option (StoredGrant grantId) :=
  s.table.get (.agentGrant grantId)

/-- `BOOTSTRAP#<token hash> / STATE`. -/
abbrev capability (tokenHash : String) : Option (StoredCapability tokenHash) :=
  s.table.get (.bootstrap tokenHash)

/-- `SYSTEM#ENVIRONMENTS / ENVIRONMENT#<name>`. -/
abbrev environment (name : String) : Option EnvironmentRecord :=
  s.table.get (.environment name)

/-- Add an event to the history. -/
def record (event : Event) : Cloud :=
  { s with history := s.history ++ [⟨s.now, s.known, event⟩] }

/-- Add the event of a write, if it has one. -/
def recordAny : Option Event → Cloud
  | none => s
  | some event => s.record event

@[simp] theorem recordAny_none : s.recordAny none = s := rfl

@[simp] theorem recordAny_some (event : Event) : s.recordAny (some event) = s.record event := rfl

end Cloud

end Hemlig
