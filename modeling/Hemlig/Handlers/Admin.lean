import Hemlig.Services.Secrets

/-!
# The administrative handler

The routes of `src/handlers/admin.ts` that create and change secrets: the body
names the ACL, which is parsed before the service sees it.
-/

namespace Hemlig

open Concurrent

structure CreateRequest where
  secretId : String
  environment : String
  metadata : SecretMetadata
  acl : List RawGrant
  actor : Actor
  idempotencyKey : String
  deriving DecidableEq, Repr

structure UpdateRequest where
  secretId : String
  environment : String
  ifMatch : String
  metadata : Option SecretMetadata
  acl : Option (List RawGrant)
  payload : Option SecretPayload
  actor : Actor
  idempotencyKey : String
  deriving DecidableEq, Repr

namespace Admin

/-- `POST /v1/admin/secrets`. -/
def create (request : CreateRequest) : Service ControlRevision := do
  let acl ← assertOk (parseGrants request.acl)
  SecretService.create
    { secretId := request.secretId
      environment := request.environment
      metadata := request.metadata
      acl := acl
      actor := request.actor
      idempotencyKey := request.idempotencyKey }

def parseOptionalGrants : Option (List RawGrant) → Except ApiError (Option (List Grant))
  | none => .ok none
  | some acl => (parseGrants acl).map some

/-- `PUT /v1/admin/secrets/<id>` and `PUT /v1/admin/secrets/<id>/payload`. -/
def update (request : UpdateRequest) : Service ControlRevision := do
  let acl ← assertOk (parseOptionalGrants request.acl)
  SecretService.update
    { secretId := request.secretId
      environment := request.environment
      expectedControlVersionId := request.ifMatch
      metadata := request.metadata
      acl := acl
      payload := request.payload
      actor := request.actor
      idempotencyKey := request.idempotencyKey
      allowAgentAcl := false }

end Admin

end Hemlig
