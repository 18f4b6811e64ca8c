import Hemlig.Handlers.Enrollments
import Hemlig.Services.AgentGrants

/-!
# The routes of agent grants

The routes of `src/handlers/admin.ts` for agent grants, which carry no idempotency key,
the redemption of `src/handlers/bootstrap.ts`, and the maintenance script that
reconciles one active grant.
-/

namespace Hemlig

open Concurrent

inductive GrantRequest
  /-- `POST /v1/admin/agent-grants`. -/
  | create (input : CreateAgentGrantInput)
  /-- `PUT /v1/admin/agent-grants/<id>`. -/
  | update (input : UpdateAgentGrantInput)
  /-- `POST /v1/admin/agent-grants/<id>/bootstrap-capabilities`. -/
  | issue (grantId : String) (actor : Actor)
  /-- `POST /v1/bootstrap/redeem`. -/
  | redeem (token : String) (csr : CertificateRequest)
  /-- `src/scripts/reconcile-agent-grant-access.ts`, for one grant. -/
  | reconcile (grantId : String) (actor : Actor)
  deriving DecidableEq, Repr

inductive GrantResponse
  | grant (grant : AgentGrantRecord)
  | capability (capability : BootstrapCapabilityResult)
  | redeemed (redemption : BootstrapRedemptionResult)
  | reconciled
  deriving DecidableEq, Repr

namespace AgentGrants

def maximumCsrCharacters : ℕ := 16384

def grantTarget (grant : AgentGrantRecord) : List (String × String) :=
  [("grantId", grant.grantId), ("consumerId", grant.consumerId)]

def auditEvent (outcome : Outcome) (actor : Actor) (correlationId operation : String)
    (target : List (String × String)) : AuditEvent where
  correlationId := correlationId
  outcome := outcome
  actor := actor
  operation := operation
  target := target
  reasonCode := none

/-- The audit of a redemption is written when it is over. -/
def auditRedemption (correlationId : String) (redemption : BootstrapRedemptionResult) :
    Service Unit :=
  let actor : Actor := { type := .consumer, id := redemption.result.apiFingerprint }
  let target := [("grantId", redemption.grantId), ("consumerId", redemption.result.consumerId)]
  [Outcome.attempted, .authorized, .succeeded].forM fun outcome => do
    let _ ← Recovery.writeEvent
      (auditEvent outcome actor correlationId "bootstrap.redeem" target)
    return ()

def redeem (token : String) (csr : CertificateRequest) (correlationId : String) :
    Service BootstrapRedemptionResult := do
  if csr.pem.length > maximumCsrCharacters then
    reject (badRequest "apiCertificateSigningRequestPem is too large.")
  else
    let redemption ← AgentGrantService.redeem token csr
    auditRedemption correlationId redemption
    return redemption

def operate (request : GrantRequest) (correlationId : String) : Service GrantResponse :=
  match request with
  | .create input => do
      let grant ← AgentGrantService.create input
      let _ ← Recovery.writeEvent (auditEvent .succeeded input.actor correlationId
        "adminpost:/v1/admin/agent-grants" (grantTarget grant))
      return .grant grant
  | .update input => do
      let grant ← AgentGrantService.update input
      let _ ← Recovery.writeEvent (auditEvent .succeeded input.actor correlationId
        ("adminput:/v1/admin/agent-grants/" ++ input.grantId) (grantTarget grant))
      return .grant grant
  | .issue grantId actor => do
      let capability ← AgentGrantService.issueBootstrapCapability grantId actor
      let _ ← Recovery.writeEvent (auditEvent .succeeded actor correlationId
        ("adminpost:/v1/admin/agent-grants/" ++ grantId ++ "/bootstrap-capabilities")
        [("grantId", grantId)])
      return .capability capability
  | .redeem token csr => .redeemed <$> redeem token csr correlationId
  | .reconcile grantId actor => do
      AgentGrantService.reconcileActiveGrant grantId actor
      return .reconciled

end AgentGrants

end Hemlig
