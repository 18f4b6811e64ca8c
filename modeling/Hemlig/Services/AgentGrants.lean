import Hemlig.Services.Consumers

/-!
# The agent grant service

`src/services/agent-grants.ts`: the policy of an agent, the capability that its owner
redeems for a first identity, and the projection of the policy onto the ACLs of the
secrets it names.
-/

namespace Hemlig

open Concurrent

/-- One entry of `secretGrants` of a request, before it is parsed. -/
structure RawSecretGrant where
  secretId : String
  permissions : List String
  deriving DecidableEq, Repr

structure ParsedSecretGrant where
  secretId : String
  permissions : List AgentCapability
  deriving DecidableEq, Repr

structure CreateAgentGrantInput where
  consumerId : String
  environment : String
  capabilities : List String
  secretGrants : List RawSecretGrant
  displayName : Option String
  actor : Actor
  deriving DecidableEq, Repr

structure UpdateAgentGrantInput where
  grantId : String
  capabilities : List String
  secretGrants : List RawSecretGrant
  displayName : Option String
  actor : Actor
  deriving DecidableEq, Repr

structure BootstrapCapabilityResult where
  grantId : String
  token : String
  expiresAt : Time
  deriving DecidableEq, Repr

/-- The certificate and the grant it was redeemed for. -/
structure BootstrapRedemptionResult where
  result : ConsumerProvisioningResult
  grantId : String
  consumerId : String
  environment : String
  capabilities : List AgentCapability
  secretGrants : List AgentSecretGrant
  deriving DecidableEq, Repr

namespace AgentGrantService

open DynamoRepository

/-! ## Parsing a policy -/

/-- `MAX_AGENT_SECRET_GRANTS`. -/
def maxAgentSecretGrants : ℕ := 1000

def parseSecretGrant (capabilities : List AgentCapability) (grant : RawSecretGrant) :
    Except ApiError ParsedSecretGrant := do
  assertSecretIdentifier grant.secretId "secretGrants.secretId"
  let permissions ← parseAgentCapabilities grant.permissions false
  if permissions.any fun permission => permission ∉ capabilities then
    .error (badRequest "Every secret grant permission must be an agent capability.")
  else return { secretId := grant.secretId, permissions := permissions }

def AgentCapability.text : AgentCapability → String
  | .read => "read"
  | .write => "write"

/-- Every capability is used by some grant. -/
def assertUsed (grants : List ParsedSecretGrant) : List AgentCapability → Except ApiError Unit
  | [] => .ok ()
  | capability :: rest =>
      if grants.any fun grant => capability ∈ grant.permissions then assertUsed grants rest
      else .error (badRequest ("secretGrants must include at least one " ++
        AgentCapability.text capability ++ " permission."))

def parseSecretGrants (value : List RawSecretGrant) (capabilities : List AgentCapability)
    (allowEmpty : Bool) : Except ApiError (List ParsedSecretGrant) := do
  if (!allowEmpty && value.isEmpty) || value.length > maxAgentSecretGrants then
    .error (badRequest ("secretGrants must contain between one and " ++
      toString maxAgentSecretGrants ++ " grants."))
  else
    let grants ← value.mapM (parseSecretGrant capabilities)
    if ¬ (grants.map ParsedSecretGrant.secretId).Nodup then
      .error (badRequest "secretGrants must not contain duplicate secret IDs.")
    else
      assertUsed grants capabilities
      return grants.insertionSort fun left right => left.secretId ≤ right.secretId

def assertDisplayName (displayName : Option String) : Except ApiError Unit :=
  if displayName.any fun name => name.length = 0 ∨ name.length > 256 then
    .error (badRequest "displayName must be a non-empty string of at most 256 characters.")
  else .ok ()

/-- The name of a grant, resolved to the secret that has it now. -/
def resolveSecretGrant (environment : String) (grant : ParsedSecretGrant) :
    Service AgentSecretGrant := do
  let head ← requireHead environment grant.secretId
  return {
    secretId := grant.secretId
    secretUid := head.secretUid
    permissions := grant.permissions }

/-- Public names are resolved once, when the policy is written. -/
def resolveSecretGrants (environment : String) (grants : List ParsedSecretGrant) :
    Service (List AgentSecretGrant) :=
  grants.mapM (resolveSecretGrant environment)

def reconcileReadAccess (grant : AgentGrantRecord) (actor : Actor) : Service Unit :=
  SecretService.reconcileAgentReadAccess
    { consumerId := grant.consumerId
      environment := grant.environment
      secretGrants := grant.secretGrants
      actor := actor }

/-! ## Policies -/

def create (input : CreateAgentGrantInput) : Service AgentGrantRecord := do
  assertOk (assertIdentifier input.consumerId "consumerId")
  let _ ← SecretService.requireEnvironment input.environment
  if (← getConsumer input.consumerId).isSome then
    reject (conflict "An agent grant requires a consumer ID that has not been enrolled.")
  else
    let capabilities ← assertOk (parseAgentCapabilities input.capabilities false)
    let parsed ← assertOk (parseSecretGrants input.secretGrants capabilities false)
    let secretGrants ← resolveSecretGrants input.environment parsed
    assertOk (assertDisplayName input.displayName)
    let grantId ← send (.newId "grant-")
    let now ← send .now
    let grant : AgentGrantRecord :=
      { grantId := grantId
        consumerId := input.consumerId
        environment := input.environment
        capabilities := capabilities
        secretGrants := secretGrants
        displayName := input.displayName
        status := .pending
        createdAt := now
        createdBy := input.actor }
    createAgentGrant grant
    return grant

/-- The policy that an update asks for. -/
def updatedGrant (existing : AgentGrantRecord) (input : UpdateAgentGrantInput)
    (capabilities : List AgentCapability) (secretGrants : List AgentSecretGrant) :
    AgentGrantRecord :=
  { existing with
    capabilities := capabilities
    secretGrants := secretGrants
    displayName := input.displayName.or existing.displayName }

/-- Updates only the remote policy; consumer, identity and grant stay. -/
def update (input : UpdateAgentGrantInput) : Service AgentGrantRecord := do
  let existing ← requireSome (notFound "The requested agent grant was not found.")
    (← getAgentGrant input.grantId)
  let capabilities ← assertOk (parseAgentCapabilities input.capabilities true)
  let parsed ← assertOk (parseSecretGrants input.secretGrants capabilities true)
  let secretGrants ← resolveSecretGrants existing.environment parsed
  assertOk (assertDisplayName input.displayName)
  let updated := updatedGrant existing input capabilities secretGrants
  if existing.status = .active then reconcileReadAccess updated input.actor else pure ()
  updateAgentGrant updated input.displayName.isNone
  return updated

/-- Repairs the derived projection after a migration or retry. -/
def reconcileActiveGrant (grantId : String) (actor : Actor) : Service Unit := do
  let grant ← requireSome (notFound "The requested agent grant was not found.")
    (← getAgentGrant grantId)
  if grant.status ≠ .active then return ()
  else reconcileReadAccess grant actor

/-! ## Bootstrap -/

def issuedCapability (grantId token : String) (actor : Actor) (expiresAt createdAt : Time) :
    BootstrapCapabilityRecord where
  tokenHash := token
  grantId := grantId
  expiresAt := expiresAt
  ttl := expiresAt / 1000
  status := .pending
  createdAt := createdAt
  createdBy := actor

def issueBootstrapCapability (grantId : String) (actor : Actor) :
    Service BootstrapCapabilityResult := do
  let grant ← requireSome (notFound "The requested agent grant was not found.")
    (← getAgentGrant grantId)
  if grant.status ≠ .pending then
    reject (conflict "A bootstrap capability may only be issued for a pending grant.")
  else
    let token ← send (.newId "hmlb_")
    let now ← send .now
    let expiresAt := now + 30 * 60 * 1000
    let createdAt ← send .now
    createBootstrapCapability (issuedCapability grantId token actor expiresAt createdAt)
    return { grantId := grantId, token := token, expiresAt := expiresAt }

/-- The actor of a redemption. -/
def bootstrapActor (grant : AgentGrantRecord) : Actor where
  type := .system
  id := "bootstrap:" ++ grant.grantId

/-- A pending capability whose time has passed; the clock is read for no other. -/
def capabilityExpired (capability : BootstrapCapabilityRecord) : Service Bool := do
  if capability.status = .pending then
    let now ← send .now
    return capability.expiresAt ≤ now
  else return false

/-- The capability and the grant it may be redeemed for. -/
def redeemable (token : String) : Service (BootstrapCapabilityRecord × AgentGrantRecord) := do
  let capability ← requireSome
    (forbidden "The bootstrap capability is invalid, expired, or already consumed.")
    (← getBootstrapCapability token)
  if ← capabilityExpired capability then
    reject (forbidden "The bootstrap capability is invalid, expired, or already consumed.")
  else
    let grant ← requireSome (forbidden "The bootstrap capability does not name an agent grant.")
      (← getAgentGrant capability.grantId)
    if capability.status = .consumed ∧ grant.status ≠ .active then
      reject (forbidden "The bootstrap capability does not name an active agent grant.")
    else return (capability, grant)

/-- The identity of an active consumer, or a first enrollment under the token. -/
def enrollOrRecover (grant : AgentGrantRecord) (token : String) (csr : CertificateRequest) :
    Service ConsumerProvisioningResult := do
  match ← ConsumerService.recoverActiveIdentity grant.consumerId grant.environment csr with
  | some recovered => return recovered
  | none =>
      let enrollment ← ConsumerService.enroll
        { consumerId := grant.consumerId
          environment := grant.environment
          apiCertificateSigningRequestPem := csr
          actor := bootstrapActor grant
          idempotencyKey := "redeem-" ++ token }
      return enrollment.result

/-- A consumed capability is for the fingerprint that it was consumed with. -/
def assertBound (capability : BootstrapCapabilityRecord) (fingerprint : String) :
    Except ApiError Unit :=
  if capability.status = .consumed ∧ capability.consumedFingerprint ≠ some fingerprint then
    .error (forbidden "The bootstrap capability does not match this certificate request.")
  else .ok ()

def redemption (grant : AgentGrantRecord) (result : ConsumerProvisioningResult) :
    BootstrapRedemptionResult where
  result := result
  grantId := grant.grantId
  consumerId := grant.consumerId
  environment := grant.environment
  capabilities := grant.capabilities
  secretGrants := grant.secretGrants

/-- What a redemption does once it has an identity. -/
def bind (capability : BootstrapCapabilityRecord) (grant : AgentGrantRecord)
    (result : ConsumerProvisioningResult) : Service Unit := do
  assertOk (assertBound capability result.apiFingerprint)
  send (.provision grant.consumerId result.apiFingerprint result.apiCertificatePem)
  reconcileReadAccess grant (bootstrapActor grant)
  activateAgentGrant grant.grantId result.apiFingerprint
  if capability.status = .pending then
    consumeBootstrapCapability capability.tokenHash result.apiFingerprint
  else return ()

def redeem (token : String) (csr : CertificateRequest) : Service BootstrapRedemptionResult := do
  let (capability, grant) ← redeemable token
  let result ← enrollOrRecover grant token csr
  bind capability grant result
  return redemption grant result

end AgentGrantService

end Hemlig
