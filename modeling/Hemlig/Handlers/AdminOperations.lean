import Hemlig.Handlers.Admin
import Hemlig.Handlers.Enrollments
import Hemlig.Services.Operations

/-!
# The human operations of the administrator

The routes of `src/handlers/admin.ts` that carry an idempotency key, with the evidence
that each of them leaves.  The path of a route stands for the raw path of its request.
-/

namespace Hemlig

open Concurrent

structure RevokeGrantRequest where
  consumerId : String
  secretId : String
  actor : Actor
  idempotencyKey : String
  deriving DecidableEq, Repr

inductive AdminRequest
  /-- `POST /v1/admin/secrets`. -/
  | createSecret (request : CreateRequest)
  /-- `PUT /v1/admin/secrets/<id>`, or `…/payload` when there is a payload. -/
  | updateSecret (request : UpdateRequest)
  /-- `POST /v1/admin/secrets/<id>/archive`. -/
  | archiveSecret (request : ArchiveSecretInput)
  /-- `DELETE /v1/admin/consumers/<id>/grants/<secret>`. -/
  | revokeGrant (request : RevokeGrantRequest)
  /-- `POST /v1/admin/consumers`. -/
  | enrollConsumer (request : EnrollmentInput)
  /-- `POST /v1/admin/consumers/<id>/api-identities`. -/
  | rotateIdentity (request : ApiIdentityInput)
  /-- `DELETE /v1/admin/consumers/<id>/api-identities/<fingerprint>`. -/
  | revokeIdentity (request : RevocationInput)
  /-- `POST /v1/admin/issuer`. -/
  | registerIssuer (actor : Actor) (idempotencyKey : String)
  deriving DecidableEq, Repr

inductive AdminResponse
  | control (control : ControlRevision)
  | enrollment (result : ConsumerProvisioningResult)
  | identity (result : ApiIdentityResult)
  | issuer (issuer : IssuerRecord) (created : Bool) (truststore : Option TruststoreState)
  deriving DecidableEq, Repr

namespace AdminRequest

def actor : AdminRequest → Actor
  | .createSecret request => request.actor
  | .updateSecret request => request.actor
  | .archiveSecret request => request.actor
  | .revokeGrant request => request.actor
  | .enrollConsumer request => request.actor
  | .rotateIdentity request => request.actor
  | .revokeIdentity request => request.actor
  | .registerIssuer actor _ => actor

def idempotencyKey : AdminRequest → String
  | .createSecret request => request.idempotencyKey
  | .updateSecret request => request.idempotencyKey
  | .archiveSecret request => request.idempotencyKey
  | .revokeGrant request => request.idempotencyKey
  | .enrollConsumer request => request.idempotencyKey
  | .rotateIdentity request => request.idempotencyKey
  | .revokeIdentity request => request.idempotencyKey
  | .registerIssuer _ idempotencyKey => idempotencyKey

/-- `admin<method>:<path>`. -/
def operation : AdminRequest → String
  | .createSecret _ => "adminpost:/v1/admin/secrets"
  | .updateSecret request => "adminput:/v1/admin/secrets/" ++ request.secretId ++
      if request.payload.isSome then "/payload" else ""
  | .archiveSecret request => "adminpost:/v1/admin/secrets/" ++ request.secretId ++ "/archive"
  | .revokeGrant request =>
      "admindelete:/v1/admin/consumers/" ++ request.consumerId ++ "/grants/" ++ request.secretId
  | .enrollConsumer _ => "adminpost:/v1/admin/consumers"
  | .rotateIdentity request =>
      "adminpost:/v1/admin/consumers/" ++ request.consumerId ++ "/api-identities"
  | .revokeIdentity request =>
      "admindelete:/v1/admin/consumers/" ++ request.consumerId ++ "/api-identities/" ++
        request.apiFingerprint
  | .registerIssuer _ _ => "adminpost:/v1/admin/issuer"

/-- `humanActorFromEvent`: whoever a token names is a human. -/
def humanActor (actor : Actor) : Actor := { actor with type := .human }

/-- The request, made in the name of the human that its token names. -/
def authenticated : AdminRequest → AdminRequest
  | .createSecret request => .createSecret { request with actor := humanActor request.actor }
  | .updateSecret request => .updateSecret { request with actor := humanActor request.actor }
  | .archiveSecret request => .archiveSecret { request with actor := humanActor request.actor }
  | .revokeGrant request => .revokeGrant { request with actor := humanActor request.actor }
  | .enrollConsumer request => .enrollConsumer { request with actor := humanActor request.actor }
  | .rotateIdentity request => .rotateIdentity { request with actor := humanActor request.actor }
  | .revokeIdentity request => .revokeIdentity { request with actor := humanActor request.actor }
  | .registerIssuer actor idempotencyKey => .registerIssuer (humanActor actor) idempotencyKey

theorem authenticated_actor (request : AdminRequest) :
    request.authenticated.actor = humanActor request.actor := by
  cases request <;> rfl

end AdminRequest

namespace Admin

def controlTarget (control : ControlRevision) : List (String × String) :=
  [("environment", control.environment), ("secretId", control.secretId),
    ("controlVersionId", control.controlVersionId)]

/-- A write of a payload also names the payload. -/
def updateTarget (request : UpdateRequest) (control : ControlRevision) :
    List (String × String) :=
  controlTarget control ++
    if request.payload.isSome then [("payloadVersionId", control.payloadVersionId.getD "")]
    else []

def enrollmentTarget (result : ConsumerProvisioningResult) : List (String × String) :=
  [("consumerId", result.consumerId), ("rootFingerprint", result.rootFingerprint),
    ("apiFingerprint", result.apiFingerprint)]

def identityTarget (result : ApiIdentityResult) : List (String × String) :=
  [("consumerId", result.consumerId), ("apiFingerprint", result.apiFingerprint)]

/-- The evidence of a request. -/
def conclude (request : AdminRequest) (correlationId : String)
    (target : List (String × String)) : Service Unit :=
  humanOperation request.actor request.idempotencyKey correlationId request.operation target

/-- The evidence of a request, unless it was left before. -/
def concludeUnless (audited : Bool) (request : AdminRequest) (correlationId : String)
    (target : List (String × String)) : Service Unit :=
  if audited then pure () else conclude request correlationId target

def operate (admin : AdminRequest) (correlationId : String) : Service AdminResponse :=
  match admin with
  | .createSecret request => do
      let control ← create request
      conclude admin correlationId (controlTarget control)
      return .control control
  | .updateSecret request => do
      let control ← update request
      conclude admin correlationId (updateTarget request control)
      return .control control
  | .archiveSecret request => do
      let control ← SecretService.archive request
      conclude admin correlationId (controlTarget control)
      return .control control
  | .revokeGrant request => do
      let control ← SecretService.revokeConsumerSecretGrant
        { consumerId := request.consumerId
          secretId := request.secretId
          actor := request.actor
          idempotencyKey := request.idempotencyKey
          allowAgentAcl := false }
      conclude admin correlationId (("consumerId", request.consumerId) :: controlTarget control)
      return .control control
  | .enrollConsumer request => do
      let enrollment ← ConsumerService.enroll request
      concludeUnless (!enrollment.shouldWriteTerminalAudit) admin correlationId
        (enrollmentTarget enrollment.result)
      return .enrollment enrollment.result
  | .rotateIdentity request => do
      let identity ← ConsumerService.rotateApiIdentity request
      concludeUnless (!identity.shouldWriteTerminalAudit) admin correlationId
        (identityTarget identity)
      return .identity identity
  | .revokeIdentity request => do
      let identity ← ConsumerService.revokeApiIdentity request
      concludeUnless (!identity.shouldWriteTerminalAudit) admin correlationId
        (identityTarget identity)
      return .identity identity
  | .registerIssuer _ _ => do
      let (issuer, created) ← IssuerService.ensureIssuer
      let truststore ← DynamoRepository.getTruststoreState
      conclude admin correlationId [("rootFingerprint", issuer.fingerprint)]
      return .issuer issuer created truststore

/-- `GET /v1/admin/secrets/<id>/payload`. -/
def readPayload (environment secretId : String) (actor : Actor) (correlationId : String) :
    Service SecretReadResult := do
  let payload ← SecretService.readAdminPayload environment secretId
  let _ ← Recovery.writeEvent
    { correlationId := correlationId
      outcome := .succeeded
      actor := AdminRequest.humanActor actor
      operation := "adminget:/v1/admin/secrets/" ++ secretId ++ "/payload"
      target := [("environment", environment), ("secretId", secretId),
        ("controlVersionId", payload.controlVersionId),
        ("payloadVersionId", payload.payloadVersionId.getD "")]
      reasonCode := none }
  return payload

end Admin

end Hemlig
