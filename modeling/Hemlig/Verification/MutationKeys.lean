import Hemlig.Concurrent.Awaiting
import Hemlig.System

/-!
# The key of a mutation

Every way into a mutation of a secret leads through the transaction of `prepareMutation`, which
claims the idempotency key of the request.  A request of a mutation therefore returns only after
that transaction has been made in its own process.
-/

namespace Hemlig

open Concurrent DynamoRepository SecretService

/-- The transaction that prepares a mutation under the key has been made. -/
def PreparedUnder (actor : Actor) (idempotencyKey : String) (q : Request) (response : Response q) :
    Prop :=
  ∃ mutation now, q = .transactWrite (prepareWrites mutation now) (some (.prepared mutation)) ∧
    mutation.actor = actor ∧ mutation.idempotencyKey = idempotencyKey ∧
      ∃ answer, response = .ok answer

/-- The key of a request on a secret. -/
def AdminRequest.mutationKey (request : AdminRequest) : Option (Actor × String) :=
  match request with
  | .createSecret _ | .updateSecret _ | .archiveSecret _ | .revokeGrant _ =>
      some (request.actor, request.idempotencyKey)
  | _ => none

/-- The actor and the key of a mutation. -/
def Input.mutationKey : Input → Option (Actor × String)
  | .create request => some (request.actor, request.idempotencyKey)
  | .update request => some (request.actor, request.idempotencyKey)
  | .archive request => some (request.actor, request.idempotencyKey)
  | .agentUpdate request => some (request.actor, request.idempotencyKey)
  | .revoke _ _ actor idempotencyKey => some (actor, idempotencyKey)
  | .admin request _ => request.authenticated.mutationKey
  | _ => none

variable {actor : Actor} {idempotencyKey : String}

/-! ## The programs -/

theorem awaits_prepareMutation (mutation : PreparedMutation) :
    (prepareMutation mutation).Awaits
      (PreparedUnder mutation.actor mutation.idempotencyKey) := by
  refine .recover (.after fun now response hresponse => ?_) fun failure => trivial
  cases response with
  | ok answer => exact (hresponse ⟨mutation, now, rfl, rfl, rfl, answer, rfl⟩).elim
  | error failure => trivial

theorem awaits_persistMutation (input : MutationInput) :
    (persistMutation input).Awaits (PreparedUnder input.actor input.idempotencyKey) := by
  refine .after fun idempotency => .ite trivial ?_
  refine .after fun secretUid => .after fun operationId => .after fun now => .before ?_
  exact awaits_prepareMutation (preparedMutation input secretUid operationId now)

theorem awaits_create (input : CreateSecretInput) :
    (SecretService.create input).Awaits (PreparedUnder input.actor input.idempotencyKey) := by
  refine .after fun _ => .after fun _ => .after fun _ => .after fun now => .after fun secretUid =>
    .after fun controlVersionId => .before ?_
  exact awaits_persistMutation _

theorem awaits_updateFromSnapshot (input : UpdateSecretInput) (snapshot : SecretControlSnapshot) :
    (updateFromSnapshot input snapshot).Awaits
      (PreparedUnder input.actor input.idempotencyKey) := by
  refine .after fun _ => .after fun _ => .after fun createdAt => .after fun payload =>
    .after fun controlVersionId => .after fun prior => .before ?_
  exact awaits_persistMutation _

theorem awaits_update (input : UpdateSecretInput) :
    (SecretService.update input).Awaits (PreparedUnder input.actor input.idempotencyKey) :=
  .after fun snapshot => awaits_updateFromSnapshot input snapshot

theorem awaits_archive (input : ArchiveSecretInput) :
    (SecretService.archive input).Awaits (PreparedUnder input.actor input.idempotencyKey) := by
  refine .after fun head => .after fun _ => .after fun current => .after fun controlVersionId =>
    .after fun createdAt => .after fun prior => .before ?_
  exact awaits_persistMutation _

theorem awaits_revokeConsumerSecretGrant (input : RevokeConsumerSecretGrantInput) :
    (revokeConsumerSecretGrant input).Awaits
      (PreparedUnder input.actor input.idempotencyKey) := by
  refine .after fun _ => .after fun _ => .after fun _ => .after fun consumer => .after fun _ =>
    .after fun head => .after fun current => .ite trivial ?_
  exact awaits_update _

/-- A revocation that an administrator asks for. -/
theorem awaits_revoke (consumerId secretId : String) (actor : Actor) (idempotencyKey : String) :
    (revokeConsumerSecretGrant
      { consumerId := consumerId
        secretId := secretId
        actor := actor
        idempotencyKey := idempotencyKey
        allowAgentAcl := false }).Awaits (PreparedUnder actor idempotencyKey) :=
  awaits_revokeConsumerSecretGrant ⟨consumerId, secretId, actor, idempotencyKey, false⟩

theorem awaits_adminCreate (request : CreateRequest) :
    (Admin.create request).Awaits (PreparedUnder request.actor request.idempotencyKey) :=
  .after fun acl => awaits_create
    { secretId := request.secretId
      environment := request.environment
      metadata := request.metadata
      acl := acl
      actor := request.actor
      idempotencyKey := request.idempotencyKey }

theorem awaits_adminUpdate (request : UpdateRequest) :
    (Admin.update request).Awaits (PreparedUnder request.actor request.idempotencyKey) :=
  .after fun _ => awaits_update _

theorem awaits_agentUpdate (request : AgentSecretWriteInput) :
    (AgentService.update request).Awaits
      (PreparedUnder request.actor request.idempotencyKey) := by
  refine .after fun expected => .after fun grant => .after fun secretUid =>
    .after fun snapshot => .ite trivial (.ite trivial (.after fun _ => ?_))
  exact awaits_updateFromSnapshot (AgentService.updateInput request expected) snapshot

theorem awaits_operate {request : AdminRequest} (correlationId : String)
    (hkey : request.mutationKey = some (actor, idempotencyKey)) :
    (Admin.operate request correlationId).Awaits (PreparedUnder actor idempotencyKey) := by
  cases request with
  | createSecret request =>
      cases hkey
      exact .before (awaits_adminCreate request)
  | updateSecret request =>
      cases hkey
      exact .before (awaits_adminUpdate request)
  | archiveSecret request =>
      cases hkey
      exact .before (awaits_archive request)
  | revokeGrant request =>
      cases hkey
      exact .before (awaits_revoke _ _ _ _)
  | enrollConsumer _ | rotateIdentity _ | revokeIdentity _ | registerIssuer _ _ => cases hkey

/-- **A mutation returns only once its own transaction has claimed the key.** -/
theorem awaits_code {input : Input} (hkey : input.mutationKey = some (actor, idempotencyKey)) :
    input.code.Awaits (PreparedUnder actor idempotencyKey) := by
  cases input with
  | create request =>
      cases hkey
      exact .before (awaits_adminCreate request)
  | update request =>
      cases hkey
      exact .before (awaits_adminUpdate request)
  | archive request =>
      cases hkey
      exact .before (awaits_archive request)
  | agentUpdate request =>
      cases hkey
      exact .before (awaits_agentUpdate request)
  | revoke consumerId secretId actor idempotencyKey =>
      cases hkey
      exact .before (awaits_revoke _ _ _ _)
  | admin request correlationId => exact .before (awaits_operate correlationId hkey)
  | _ => cases hkey

end Hemlig
