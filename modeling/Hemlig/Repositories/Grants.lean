import Hemlig.Repositories.Registry

/-!
# Agent grants

The part of `src/repositories/dynamo.ts` for the grants of agents and the bootstrap
capabilities that activate them.
-/

namespace Hemlig.DynamoRepository

open Store Concurrent

/-! ## Grants -/

def createAgentGrantWrites (grant : AgentGrantRecord) : List TableWrite :=
  [ .create (.agentGrant grant.grantId) ⟨grant, rfl⟩,
    .create (.agentGrantOf grant.consumerId) grant.grantId ]

def createAgentGrant (grant : AgentGrantRecord) : Service Unit :=
  orConflict "Could not create agent grant: "
    (send (.transactWrite (createAgentGrantWrites grant) (some (.granted grant))))

/-- The policy fields of a grant are replaced; without a display name the old one goes. -/
def applyPolicy (grant : AgentGrantRecord) (removeDisplayName : Bool) {grantId : String}
    (stored : StoredGrant grantId) : StoredGrant grantId where
  record := { stored.record with
    capabilities := grant.capabilities
    secretGrants := grant.secretGrants
    displayName := if removeDisplayName then none else grant.displayName }
  named := stored.named

/-- The write asks only that the grant exists. -/
def updateAgentGrantWrite (grant : AgentGrantRecord) (removeDisplayName : Bool) : TableWrite :=
  .update (.agentGrant grant.grantId) (fun _ => true) (applyPolicy grant removeDisplayName)

/-- Updates policy fields without racing an enrollment status transition. -/
def updateAgentGrant (grant : AgentGrantRecord) (removeDisplayName : Bool) : Service Unit :=
  orConflict "Could not update agent grant: "
    (send (.write (updateAgentGrantWrite grant removeDisplayName)))

/-- The grant belongs to the identity of the fingerprint from now on. -/
def activateGrant (fingerprint : String) (activatedAt : Time) {grantId : String}
    (stored : StoredGrant grantId) : StoredGrant grantId where
  record := { stored.record with
    status := .active
    activatedAt := some activatedAt
    activatedFingerprint := some fingerprint }
  named := stored.named

def activateAgentGrantWrite (grantId fingerprint : String) (activatedAt : Time) : TableWrite :=
  .update (.agentGrant grantId) (fun stored => stored.record.status = .pending)
    (activateGrant fingerprint activatedAt)

/-- The grant is active with this fingerprint already. -/
def activatedWith (grant : AgentGrantRecord) (fingerprint : String) : Bool :=
  grant.status = .active ∧ grant.activatedFingerprint = some fingerprint

def activateAgentGrant (grantId fingerprint : String) : Service Unit := do
  let grant ← getAgentGrant grantId
  if grant.any fun grant => activatedWith grant fingerprint then return ()
  else
    orConflict "Could not activate agent grant: " do
      let now ← send .now
      send (.writeNoted (activateAgentGrantWrite grantId fingerprint now)
        (.activated grantId fingerprint))

/-! ## Bootstrap capabilities -/

def createBootstrapCapabilityWrite (capability : BootstrapCapabilityRecord) : TableWrite :=
  .create (.bootstrap capability.tokenHash) ⟨capability, rfl⟩

def createBootstrapCapability (capability : BootstrapCapabilityRecord) : Service Unit :=
  orConflict "Could not create bootstrap capability: "
    (send (.writeNoted (createBootstrapCapabilityWrite capability) (.issued capability)))

def getBootstrapCapability (tokenHash : String) : Service (Option BootstrapCapabilityRecord) :=
  Option.map StoredCapability.record <$> send (.get (.bootstrap tokenHash))

/-- The capability is bound to the fingerprint. -/
def consumeCapability (fingerprint : String) (consumedAt : Time) {tokenHash : String}
    (stored : StoredCapability tokenHash) : StoredCapability tokenHash where
  record := { stored.record with
    status := .consumed
    consumedAt := some consumedAt
    consumedFingerprint := some fingerprint }
  named := stored.named

def consumeBootstrapCapabilityWrite (tokenHash fingerprint : String) (consumedAt : Time) :
    TableWrite :=
  .update (.bootstrap tokenHash) (fun stored => stored.record.status = .pending)
    (consumeCapability fingerprint consumedAt)

/-- The capability is bound to this fingerprint already. -/
def consumedWith (capability : BootstrapCapabilityRecord) (fingerprint : String) : Bool :=
  capability.status = .consumed ∧ capability.consumedFingerprint = some fingerprint

def consumeBootstrapCapability (tokenHash fingerprint : String) : Service Unit := do
  let record ← getBootstrapCapability tokenHash
  if record.any fun record => consumedWith record fingerprint then return ()
  else
    orConflict "Could not consume bootstrap capability: " do
      let now ← send .now
      send (.writeNoted (consumeBootstrapCapabilityWrite tokenHash fingerprint now)
        (.consumed tokenHash fingerprint))

/-! ## Identities -/

/-- The first page of the identities of a consumer, newest first. -/
def listConsumerApiIdentities (consumerId : String) : Service (List IdentityRecord) :=
  send (.identityPage consumerId)

end Hemlig.DynamoRepository
