import Hemlig.Services.Secrets

/-!
# The agent service

`src/services/agents.ts`: the writes of an agent.  An agent grant names the
secrets it covers by their immutable identity, so an update finds its head by the
granted UID and not by the name.
-/

namespace Hemlig

open Concurrent

structure AgentSecretWriteInput where
  consumerId : String
  environment : String
  secretId : String
  expectedControlVersionId : Option String
  metadata : Option SecretMetadata
  payload : Option SecretPayload
  actor : Actor
  idempotencyKey : String
  deriving DecidableEq, Repr

namespace AgentService

def requireGrant (consumerId environment : String) : Service AgentGrantRecord := do
  let grant ← DynamoRepository.getAgentGrantForConsumer consumerId
  requireSome (forbidden "The client identity does not have an active agent grant.")
    (grant.filter fun grant => grant.status = .active ∧ grant.environment = environment)

def requireCapability (consumerId environment : String) (capability : AgentCapability) :
    Service AgentGrantRecord := do
  let grant ← requireGrant consumerId environment
  if capability ∈ grant.capabilities then return grant
  else reject (forbidden "The agent grant does not allow this operation.")

def hasSecretPermission (grant : AgentGrantRecord) (secretUid : String)
    (permission : AgentCapability) : Bool :=
  grant.secretGrants.any fun scope => scope.secretUid = secretUid ∧ permission ∈ scope.permissions

def requireSecretPermission (secretUid : Option String) (grant : AgentGrantRecord)
    (permission : AgentCapability) : Service Unit :=
  if secretUid.any fun secretUid => hasSecretPermission grant secretUid permission then pure ()
  else reject (forbidden "The agent grant does not allow this secret.")

def requireWriteScope (control : ControlRevision) (grant : AgentGrantRecord) : Service Unit :=
  requireSecretPermission control.secretUid grant .write

def requireReadScope (control : ControlRevision) (grant : AgentGrantRecord) : Service Unit :=
  requireSecretPermission control.secretUid grant .read

def requireSecretUidForPermission (secretId : String) (grant : AgentGrantRecord)
    (permission : AgentCapability) : Service String :=
  requireSome (forbidden "The agent grant does not allow this secret.")
    ((grant.secretGrants.find? fun scope =>
      scope.secretId = secretId ∧ permission ∈ scope.permissions).map AgentSecretGrant.secretUid)

/-- The update an agent asks for: it never names an ACL. -/
def updateInput (input : AgentSecretWriteInput) (expectedControlVersionId : String) :
    UpdateSecretInput where
  secretId := input.secretId
  environment := input.environment
  expectedControlVersionId := expectedControlVersionId
  metadata := input.metadata
  acl := none
  payload := input.payload
  actor := input.actor
  idempotencyKey := input.idempotencyKey
  allowAgentAcl := false

def update (input : AgentSecretWriteInput) : Service ControlRevision := do
  let expected ← requireSome
    (forbidden "An agent update requires the current control revision.")
    input.expectedControlVersionId
  let grant ← requireCapability input.consumerId input.environment .write
  let secretUid ← requireSecretUidForPermission input.secretId grant .write
  let snapshot ← SecretService.getControlSnapshotBySecretUid secretUid
  let current := snapshot.control
  if current.environment ≠ input.environment ∨ current.secretId ≠ input.secretId then
    reject (forbidden)
  else if input.metadata.isNone ∧ input.payload.isNone then
    reject (forbidden "An agent update must change metadata and/or payload.")
  else
    requireWriteScope current grant
    SecretService.updateFromSnapshot (updateInput input expected) snapshot

/-- An agent reads through the ordinary path, within its own scope. -/
def read (consumerId environment secretId : String) (ifNoneMatch : Option String)
    (onAuthorized : Service Unit) : Service SecretReadResult := do
  let grant ← requireCapability consumerId environment .read
  let snapshot ← SecretService.getControlSnapshot environment secretId
  requireReadScope snapshot.control grant
  SecretService.read consumerId environment secretId ifNoneMatch onAuthorized

end AgentService

end Hemlig
