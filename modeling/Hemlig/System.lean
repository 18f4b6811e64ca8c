import Hemlig.Controller.Synchronize
import Hemlig.Handlers.AdminOperations
import Hemlig.Handlers.AgentGrants
import Hemlig.Handlers.Consumer
import Hemlig.Handlers.Retention
import Hemlig.Scripts.BackfillAgentSync
import Hemlig.Services.Environments

/-!
# The system

Any number of processes run the programs of the service against one cloud.  An
`Input` is what starts a process; an `EnvironmentEvent` is what happens without
one: time passes, an index is replicated, an item whose TTL has passed is removed,
and the parts of the service that are not modelled write their own items.
-/

namespace Hemlig

open Store Concurrent

/-! ## Inputs -/

/-- What a process is started with. -/
inductive Input
  | createEnvironment (name : String) (actor : Actor)
  | create (request : CreateRequest)
  | update (request : UpdateRequest)
  | archive (request : ArchiveSecretInput)
  | agentUpdate (request : AgentSecretWriteInput)
  | revoke (consumerId secretId : String) (actor : Actor) (idempotencyKey : String)
  | reconcile (request : ReconcileAgentReadAccessInput)
  | read (consumerId environment secretId : String) (ifNoneMatch : Option String)
      (correlationId : String)
  | agentRead (consumerId environment secretId : String) (ifNoneMatch : Option String)
      (correlationId : String)
  | adminRead (environment secretId : String) (actor : Actor) (correlationId : String)
  | follow (follower : Controller.Follower) (cycles : ℕ)
  | recovery
  | releaseLease (secretUid operationId : String)
  | retention
  | backfill (apply : Bool)
  | admin (request : AdminRequest) (correlationId : String)
  | recoverEnrollments
  | grant (request : GrantRequest) (correlationId : String)

/-- What a process returns. -/
inductive Output
  | done
  | released (released : Bool)
  | control (control : ControlRevision)
  | read (result : SecretReadResult)
  | followed (cycles : List Controller.Synchronized)
  | backfilled (heads environments : ℕ)
  | admin (response : AdminResponse)
  | grant (response : GrantResponse)

/-- The program of a process. -/
def Input.code : Input → Service Output
  | .createEnvironment name actor => do
      let _ ← EnvironmentService.create name actor
      return .done
  | .create request => .control <$> Admin.create request
  | .update request => .control <$> Admin.update request
  | .archive request => .control <$> SecretService.archive request
  | .agentUpdate request => .control <$> AgentService.update request
  | .revoke consumerId secretId actor idempotencyKey =>
      .control <$> SecretService.revokeConsumerSecretGrant
        { consumerId := consumerId
          secretId := secretId
          actor := actor
          idempotencyKey := idempotencyKey
          allowAgentAcl := false }
  | .reconcile request => do
      SecretService.reconcileAgentReadAccess request
      return .done
  | .read consumerId environment secretId ifNoneMatch correlationId =>
      .read <$> Consumer.read consumerId environment secretId ifNoneMatch correlationId
  | .agentRead consumerId environment secretId ifNoneMatch correlationId =>
      .read <$> Consumer.agentRead consumerId environment secretId ifNoneMatch correlationId
  | .adminRead environment secretId actor correlationId =>
      .read <$> Admin.readPayload environment secretId actor correlationId
  | .follow follower cycles =>
      .followed <$> Controller.follow follower cycles []
  | .recovery => do
      Recovery.handler
      return .done
  | .releaseLease secretUid operationId =>
      .released <$> DynamoRepository.releaseLease secretUid operationId
  | .retention => do
      Retention.handler
      return .done
  | .backfill apply => do
      let (heads, environments) ← BackfillAgentSync.backfillAgentSync apply
      return .backfilled heads environments
  | .admin request correlationId => .admin <$> Admin.operate request.authenticated correlationId
  | .recoverEnrollments => do
      Recovery.enrollments
      return .done
  | .grant request correlationId => .grant <$> AgentGrants.operate request correlationId

/-- The revision that an administrator names. -/
def AdminRequest.ifMatch : AdminRequest → Option String
  | .updateSecret request => some request.ifMatch
  | .archiveSecret request => some request.expectedControlVersionId
  | _ => none

theorem AdminRequest.authenticated_ifMatch (request : AdminRequest) :
    request.authenticated.ifMatch = request.ifMatch := by
  cases request <;> rfl

/-- The revision a request names in its `If-Match`. -/
def Input.ifMatch : Input → Option String
  | .update request => some request.ifMatch
  | .archive request => some request.expectedControlVersionId
  | .agentUpdate request => request.expectedControlVersionId
  | .admin request _ => request.ifMatch
  | _ => none

/-- An identifier that a request names is known from then on. -/
def Input.register (input : Input) (s : Cloud) : Cloud :=
  { s with known := input.ifMatch.toList ++ s.known }

/-! ## The environment -/

/-- The items that other parts of the service write. -/
def Key.foreign : Key → Bool
  | .notification _ | .truststoreRoot _ => true
  | _ => false

inductive EnvironmentEvent
  /-- Time passes. -/
  | tick (elapsed : Time)
  /-- The due indexes receive a row as it is now. -/
  | replicate (secretUid : String) (sk : WorkflowSk)
  /-- The index of identities receives one as it is now. -/
  | replicateIdentity (fingerprint : String)
  /-- DynamoDB removes a row whose TTL has passed. -/
  | expireChange (environment sk : String)
  | expireCursor (token : String)
  | expireCapability (tokenHash : String)
  /-- Another part of the service writes one of its items. -/
  | foreign (key : Key) (item : Option (Item key))

/-- What an event does, if it can happen. -/
def EnvironmentEvent.apply (s : Cloud) : EnvironmentEvent → Option Cloud
  | .tick elapsed => some { s with now := s.now + elapsed }
  | .replicate secretUid sk =>
      some { s with index := fun uid sk' =>
        if uid = secretUid ∧ sk' = sk then s.workflow uid sk' else s.index uid sk' }
  | .replicateIdentity fingerprint =>
      some { s with identityIndex := fun fingerprint' =>
        if fingerprint' = fingerprint then s.identity fingerprint'
        else s.identityIndex fingerprint' }
  | .expireChange environment sk =>
      if (s.change environment sk).any fun row => row.ttl.any (· ≤ s.now / 1000) then
        some ({ s with table := s.table.set (.change environment sk) none }.record
          (.expired environment sk))
      else none
  | .expireCursor token =>
      if (s.table.get (.cursor token)).any fun cursor => cursor.expiresAt ≤ s.now then
        some { s with table := s.table.set (.cursor token) none }
      else none
  | .expireCapability tokenHash =>
      if (s.capability tokenHash).any fun capability => capability.record.ttl ≤ s.now / 1000 then
        some { s with table := s.table.set (.bootstrap tokenHash) none }
      else none
  | .foreign key item =>
      if key.foreign then some { s with table := s.table.set key item } else none

/-! ## Runs -/

/-- The service as a system of processes. -/
def service : System Request Response Failure Output Cloud Choice Input EnvironmentEvent where
  exec := exec
  code := Input.code
  register := Input.register
  environment := fun event s => event.apply s

/-- A cloud and the processes that share it. -/
abbrev ServiceWorld := World Request Response Failure Output Cloud Input

/-- One step of a run of the service. -/
abbrev ServiceAction := Action Choice Input EnvironmentEvent

end Hemlig
