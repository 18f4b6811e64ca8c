import Hemlig.Domain.Validation
import Hemlig.Repositories.Dynamo
import Hemlig.Repositories.ObjectStore

/-!
# The secret service

`src/services/secrets.ts`: every mutation of a secret reads a snapshot of its
head and control revision, derives the next control revision, and hands both to
`persistMutation`, which prepares, stores the objects, extends the locks of the
replaced ones and commits.
-/

namespace Hemlig

open Concurrent

def controlKey (secretUid controlVersionId : String) : ObjectKey :=
  .control secretUid controlVersionId

def payloadKey (secretUid payloadVersionId : String) : ObjectKey :=
  .payload secretUid payloadVersionId

structure CreateSecretInput where
  secretId : String
  environment : String
  metadata : SecretMetadata
  acl : List Grant
  actor : Actor
  idempotencyKey : String
  deriving DecidableEq, Repr

structure UpdateSecretInput where
  secretId : String
  environment : String
  expectedControlVersionId : String
  metadata : Option SecretMetadata
  acl : Option (List Grant)
  payload : Option SecretPayload
  actor : Actor
  idempotencyKey : String
  allowAgentAcl : Bool
  deriving DecidableEq, Repr

structure ArchiveSecretInput where
  secretId : String
  environment : String
  expectedControlVersionId : String
  actor : Actor
  idempotencyKey : String
  deriving DecidableEq, Repr

structure RevokeConsumerSecretGrantInput where
  consumerId : String
  secretId : String
  actor : Actor
  idempotencyKey : String
  allowAgentAcl : Bool
  deriving DecidableEq, Repr

structure ReconcileAgentReadAccessInput where
  consumerId : String
  environment : String
  secretGrants : List AgentSecretGrant
  actor : Actor
  deriving DecidableEq, Repr

structure SecretReadResult where
  notModified : Bool
  controlVersionId : String
  payloadVersionId : Option String
  payload : Option SecretPayload
  deriving DecidableEq, Repr

/-- A head and the control revision it names. -/
structure SecretControlSnapshot where
  head : HeadRecord
  control : ControlRevision
  deriving DecidableEq, Repr

/-- What `persistMutation` is given. -/
structure MutationInput where
  control : ControlRevision
  payload : Option PayloadRevision
  actor : Actor
  idempotencyKey : String
  expectedControlVersionId : Option String
  priorHead : Option HeadRecord
  priorAccess : List AccessRecord
  archive : Bool
  deriving DecidableEq, Repr

/-! ## The envelope -/

namespace EnvelopeCrypto

/-- A payload revision bound to its secret. -/
def encrypt (payload : SecretPayload) (environment secretUid secretId payloadVersionId : String)
    (actor : Actor) (createdAt : Time) : Service PayloadRevision := do
  let sealed ← send (.encrypt payload)
  return {
    schemaVersion := 1
    secretUid := some secretUid
    secretId := secretId
    payloadVersionId := payloadVersionId
    environment := environment
    createdAt := createdAt
    createdBy := actor
    payload := sealed }

def decrypt (revision : PayloadRevision) : Service SecretPayload := send (.decrypt revision)

end EnvelopeCrypto

namespace SecretService

open DynamoRepository

/-! ## Snapshots -/

/-- Where the control revision of a head is stored. -/
def controlReference (head : HeadRecord) : Option ObjectReference :=
  match head.controlObjectVersionId, head.controlObjectKey with
  | some versionId, some key => some { key := key, versionId := versionId }
  | _, _ => none

/-- Where the payload of a head is stored. -/
def payloadReference (head : HeadRecord) : Option ObjectReference :=
  match head.payloadObjectVersionId, head.payloadObjectKey with
  | some versionId, some key => some { key := key, versionId := versionId }
  | _, _ => none

/-- The document under a key is read as a control revision. -/
def asControl : ObjectBody → Service ControlRevision
  | .control control => pure control
  | .payload _ => throw (.error "not a control revision")

def asPayload : ObjectBody → Service PayloadRevision
  | .payload payload => pure payload
  | .control _ => throw (.error "not a payload revision")

def getControl (head : HeadRecord) : Service ControlRevision := do
  let reference ← requireSome (serviceUnavailable
    "The secret control revision does not have an immutable object version.")
    (controlReference head)
  let control ← asControl (← ObjectStore.getJson reference)
  return { control with secretUid := some head.secretUid }

def controlSnapshotFromHead (head : HeadRecord) : Service SecretControlSnapshot := do
  let control ← getControl head
  return { head := head, control := control }

def getControlSnapshot (environment secretId : String) : Service SecretControlSnapshot := do
  controlSnapshotFromHead (← requireHead environment secretId)

def getControlSnapshotBySecretUid (secretUid : String) : Service SecretControlSnapshot := do
  controlSnapshotFromHead (← requireHeadBySecretUid secretUid)

def assertExpectedVersion (head : HeadRecord) (expected : String) : Service Unit :=
  if head.controlVersionId ≠ expected then
    reject (preconditionFailed "If-Match does not name the current control revision.")
  else pure ()

/-! ## The grants of an ACL -/

def sameGrant (left right : Grant) : Bool :=
  left.consumerId = right.consumerId ∧ left.permissions = right.permissions

/-- A grant of an agent is its own affair: it neither comes, goes nor changes here. -/
def agentGrantKept (acl priorAcl : List Grant) (consumerId : String) : Bool :=
  match acl.find? (·.consumerId = consumerId), priorAcl.find? (·.consumerId = consumerId) with
  | some current, some prior => sameGrant current prior
  | _, _ => false

/-- Every grant names an active consumer of the environment, and those of agents
are left alone.  The reads of one round have no effect and run one after the other. -/
def assertAclEnvironment (acl : List Grant) (environment : String) (allowAgentAcl : Bool)
    (priorAcl : List Grant) : Service Unit := do
  let records ← acl.mapM fun grant => getConsumer grant.consumerId
  if records.all fun consumer =>
      consumer.any fun consumer => consumer.status = .active ∧ consumer.environment = environment then
    if allowAgentAcl then return ()
    else
      let consumerIds := distinct (acl.map Grant.consumerId ++ priorAcl.map Grant.consumerId)
      let agentGrants ← consumerIds.mapM fun consumerId => do
        let grant ← getAgentGrantForConsumer consumerId
        return (consumerId, grant)
      if agentGrants.all fun agentGrant =>
          agentGrant.2.isNone || agentGrantKept acl priorAcl agentGrant.1 then
        return ()
      else reject (conflict
        "Agent consumer access is managed by its AgentGrant, not the secret ACL.")
  else reject (forbidden
    "Every ACL grant must name an active consumer in the secret environment.")

/-! ### The prior access records -/

/-- How far the read of one access record has come. -/
inductive PriorAccess
  | name (consumerId : String)
  | record (consumerId secretUid : String)
  | settled (access : Option AccessRecord)
  deriving DecidableEq, Repr

/-- The next request of one read. -/
def PriorAccess.advance (environment secretId : String) : PriorAccess → Service PriorAccess
  | .name consumerId => do
      match ← getSecretUid environment secretId with
      | none => return .settled none
      | some secretUid => return .record consumerId secretUid
  | .record consumerId secretUid => do
      return .settled (← getAccessBySecretUid consumerId environment secretUid)
  | .settled access => return .settled access

def PriorAccess.pending : PriorAccess → Bool
  | .settled _ => false
  | _ => true

def PriorAccess.settled? : PriorAccess → Option AccessRecord
  | .settled access => access
  | _ => none

/-- The positions of the reads that are still pending. -/
def pendingReads (reads : List PriorAccess) : List ℕ :=
  (List.range reads.length).filter fun index => reads[index]?.any PriorAccess.pending

/-- Let the pending reads advance in any order, until all are settled. -/
def settleAll (environment secretId : String) : ℕ → List PriorAccess → Service (List PriorAccess)
  | 0, reads => pure reads
  | steps + 1, reads => do
      if pendingReads reads = [] then return reads
      else
        let next ← send .choose
        let index := (pendingReads reads).getD (next % (pendingReads reads).length) 0
        match reads[index]? with
        | none => return reads
        | some read =>
            let read ← read.advance environment secretId
            settleAll environment secretId steps (reads.set index read)

/-- The access records of the consumers of an ACL, found by the name of the
secret.  Each takes two requests. -/
def priorAccess (acl : List Grant) (environment secretId : String) :
    Service (List AccessRecord) := do
  let resolved ← settleAll environment secretId (2 * acl.length)
    (acl.map fun grant => .name grant.consumerId)
  return resolved.filterMap PriorAccess.settled?

/-! ## Persisting a mutation -/

def extendIfStored (reference : Option ObjectReference) (retainUntil : Time) : Service Unit :=
  match reference with
  | none => pure ()
  | some reference => ObjectStore.extendComplianceRetention reference retainUntil

/-- Keep the replaced objects for 91 more days.  The result, when that was, is for
the history only. -/
def extendPriorRetention : Option HeadRecord → Service (Option Time)
  | none => pure none
  | some head => do
      let now ← send .now
      let retainUntil := now + 91 * day
      extendIfStored (controlReference head) retainUntil
      extendIfStored (head.payloadVersionId.bind fun _ => payloadReference head) retainUntil
      return some now

/-- The mutation that is prepared. -/
def preparedMutation (input : MutationInput) (secretUid operationId : String) (now : Time) :
    PreparedMutation where
  operationId := operationId
  idempotencyKey := input.idempotencyKey
  actor := input.actor
  requestDigest := { control := input.control, hasPayload := input.payload.isSome }
  secretId := input.control.secretId
  secretUid := secretUid
  environment := input.control.environment
  expectedControlVersionId := input.expectedControlVersionId
  archive := input.archive
  control := input.control
  controlKey := controlKey secretUid input.control.controlVersionId
  payload := input.payload.map fun payload =>
    { revision := payload, key := payloadKey secretUid payload.payloadVersionId }
  expiresAt := now + 10 * 60 * 1000

def putPayload : Option PreparedPayload → Service (Option ObjectReference)
  | none => pure none
  | some payload => some <$> ObjectStore.putImmutable payload.key (.payload payload.revision)

def persistMutation (input : MutationInput) : Service Unit := do
  let idempotency ← getIdempotency input.actor input.idempotencyKey
  if idempotency.isSome then reject (conflict "This idempotency key has already been used.")
  else
    let secretUid ← requireSome
      (serviceUnavailable "The secret mutation does not have an internal ID.")
      input.control.secretUid
    let operationId ← send (.newId "")
    let now ← send .now
    let prepared := preparedMutation input secretUid operationId now
    prepareMutation prepared
    let controlObject ← ObjectStore.putImmutable prepared.controlKey (.control prepared.control)
    let payloadObject ← putPayload prepared.payload
    let extendedAt ← extendPriorRetention input.priorHead
    completeMutation
      { prepared := prepared
        controlObject := controlObject
        payloadObject := payloadObject
        priorHead := input.priorHead
        priorAccess := input.priorAccess } extendedAt

/-! ## The mutations -/

/-- `EnvironmentService.require`. -/
def requireEnvironment (name : String) : Service EnvironmentRecord := do
  assertOk (assertEnvironmentName name)
  DynamoRepository.requireEnvironment name

def create (input : CreateSecretInput) : Service ControlRevision := do
  let _ ← requireEnvironment input.environment
  assertOk (assertSecretIdentifier input.secretId "secretId")
  assertAclEnvironment input.acl input.environment false []
  let now ← send .now
  let secretUid ← send (.newId "sec-")
  let controlVersionId ← send (.newId "ctl-")
  let control : ControlRevision :=
    { schemaVersion := 1
      secretUid := some secretUid
      secretId := input.secretId
      controlVersionId := controlVersionId
      payloadVersionId := none
      payloadKeyCount := none
      environment := input.environment
      state := .pendingValue
      createdAt := now
      createdBy := input.actor
      metadata := input.metadata
      acl := input.acl }
  persistMutation
    { control := control
      payload := none
      actor := input.actor
      idempotencyKey := input.idempotencyKey
      expectedControlVersionId := none
      priorHead := none
      priorAccess := []
      archive := false }
  return control

/-- The new payload of an update, with a version of its own. -/
def sealPayload (input : UpdateSecretInput) (head : HeadRecord) (createdAt : Time) :
    Service (Option PayloadRevision) := do
  match input.payload with
  | none => return none
  | some payload =>
      let payloadVersionId ← send (.newId "pay-")
      some <$> EnvelopeCrypto.encrypt payload head.environment head.secretUid input.secretId
        payloadVersionId input.actor createdAt

/-- The control revision an update writes. -/
def updatedControl (input : UpdateSecretInput) (snapshot : SecretControlSnapshot)
    (payload : Option PayloadRevision) (controlVersionId : String) (createdAt : Time) :
    ControlRevision where
  schemaVersion := 1
  secretUid := some snapshot.head.secretUid
  secretId := input.secretId
  controlVersionId := controlVersionId
  payloadVersionId := match payload with
    | none => snapshot.control.payloadVersionId
    | some revision => some revision.payloadVersionId
  payloadKeyCount := match input.payload with
    | none => snapshot.control.payloadKeyCount
    | some entries => some entries.length
  environment := snapshot.head.environment
  state := if input.payload.isSome then .active else snapshot.control.state
  createdAt := createdAt
  createdBy := input.actor
  metadata := input.metadata.getD snapshot.control.metadata
  acl := input.acl.getD snapshot.control.acl

def updateFromSnapshot (input : UpdateSecretInput) (snapshot : SecretControlSnapshot) :
    Service ControlRevision := do
  assertExpectedVersion snapshot.head input.expectedControlVersionId
  assertAclEnvironment (input.acl.getD snapshot.control.acl) snapshot.head.environment
    input.allowAgentAcl snapshot.control.acl
  let createdAt ← send .now
  let payload ← sealPayload input snapshot.head createdAt
  let controlVersionId ← send (.newId "ctl-")
  let control := updatedControl input snapshot payload controlVersionId createdAt
  let prior ← priorAccess snapshot.control.acl snapshot.head.environment input.secretId
  persistMutation
    { control := control
      payload := payload
      actor := input.actor
      idempotencyKey := input.idempotencyKey
      expectedControlVersionId := some input.expectedControlVersionId
      priorHead := some snapshot.head
      priorAccess := prior
      archive := false }
  return control

def update (input : UpdateSecretInput) : Service ControlRevision := do
  let snapshot ← getControlSnapshot input.environment input.secretId
  updateFromSnapshot input snapshot

/-- The control revision an archive writes: no grant is left. -/
def archivedControl (input : ArchiveSecretInput) (head : HeadRecord) (current : ControlRevision)
    (controlVersionId : String) (createdAt : Time) : ControlRevision :=
  { current with
    secretUid := some head.secretUid
    controlVersionId := controlVersionId
    state := .archived
    createdAt := createdAt
    createdBy := input.actor
    acl := [] }

def archive (input : ArchiveSecretInput) : Service ControlRevision := do
  let head ← requireHead input.environment input.secretId
  assertExpectedVersion head input.expectedControlVersionId
  let current ← getControl head
  let controlVersionId ← send (.newId "ctl-")
  let createdAt ← send .now
  let control := archivedControl input head current controlVersionId createdAt
  let prior ← priorAccess current.acl head.environment input.secretId
  persistMutation
    { control := control
      payload := none
      actor := input.actor
      idempotencyKey := input.idempotencyKey
      expectedControlVersionId := some input.expectedControlVersionId
      priorHead := some head
      priorAccess := prior
      archive := true }
  return control

/-- Unless the grant of an agent is applied, the consumer is not an agent. -/
def assertNotAgent (allowAgentAcl : Bool) (consumerId : String) : Service Unit :=
  if allowAgentAcl then pure ()
  else do
    let agentGrant ← getAgentGrantForConsumer consumerId
    if agentGrant.isSome then
      reject (conflict "Agent consumer access is managed by its AgentGrant, not the secret ACL.")
    else return ()

def revokeConsumerSecretGrant (input : RevokeConsumerSecretGrantInput) :
    Service ControlRevision := do
  assertOk (assertIdentifier input.consumerId "consumerId")
  assertOk (assertSecretIdentifier input.secretId "secretId")
  let consumer ← requireSome (notFound "The requested consumer was not found.")
    (← getConsumer input.consumerId)
  assertNotAgent input.allowAgentAcl input.consumerId
  let head ← requireHead consumer.environment input.secretId
  let current ← getControl head
  let acl := current.acl.filter fun grant => grant.consumerId ≠ input.consumerId
  if acl.length = current.acl.length then
    reject (notFound "The consumer does not have access to this secret.")
  else
    update
      { secretId := input.secretId
        environment := consumer.environment
        expectedControlVersionId := current.controlVersionId
        metadata := none
        acl := some acl
        payload := none
        actor := input.actor
        idempotencyKey := input.idempotencyKey
        allowAgentAcl := input.allowAgentAcl }

/-! ## The grants of an agent -/

def listAllConsumerSecretGrants.pages (consumerId environment : String) :
    ℕ → Option String → Service (List ConsumerSecretGrant)
  | 0, _ => throw .timeout
  | left + 1, cursor => do
      let page ← listConsumerSecretGrants consumerId environment cursor
      match page.lastEvaluatedKey with
      | none => return page.items
      | some key => return page.items ++ (← pages consumerId environment left (some key))

/-- All live grants of a consumer, over as many pages as there are. -/
def listAllConsumerSecretGrants (consumerId environment : String) :
    Service (List ConsumerSecretGrant) := do
  let most ← send .choose
  listAllConsumerSecretGrants.pages consumerId environment most none

def grantAgentConsumerReadAccess (consumerId environment secretId secretUid : String)
    (actor : Actor) : Service Unit := do
  let head ← requireHead environment secretId
  -- The name may belong to another secret by now.
  if head.secretUid ≠ secretUid then return ()
  else
    let current ← getControl head
    if current.acl.any (·.consumerId = consumerId) then return ()
    else
      let idempotencyKey ← send (.newId "agent-acl-grant-")
      let _ ← update
        { secretId := secretId
          environment := environment
          expectedControlVersionId := current.controlVersionId
          metadata := none
          acl := some (current.acl ++ [{ consumerId := consumerId, permissions := [.read] }])
          payload := none
          actor := actor
          idempotencyKey := idempotencyKey
          allowAgentAcl := true }
      return ()

/-- The last grant of each secret with `read`. -/
def desiredGrants (secretGrants : List AgentSecretGrant) : List AgentSecretGrant :=
  let reading := secretGrants.filter fun grant => .read ∈ grant.permissions
  (distinct (reading.map AgentSecretGrant.secretUid)).filterMap fun secretUid =>
    reading.reverse.find? (·.secretUid = secretUid)

/-- Remove the consumer from a secret that its agent grant does not name. -/
def revokeUnless (input : ReconcileAgentReadAccessInput) (desired : List AgentSecretGrant)
    (grant : ConsumerSecretGrant) : Service Unit := do
  if desired.any (·.secretUid = grant.secretUid) then return ()
  else
    let idempotencyKey ← send (.newId "agent-acl-revoke-")
    let _ ← revokeConsumerSecretGrant
      { consumerId := input.consumerId
        secretId := grant.secretId
        actor := input.actor
        idempotencyKey := idempotencyKey
        allowAgentAcl := true }
    return ()

/-- Add the consumer to a secret that its agent grant names. -/
def grantUnless (input : ReconcileAgentReadAccessInput) (current : List ConsumerSecretGrant)
    (grant : AgentSecretGrant) : Service Unit :=
  if current.any (·.secretUid = grant.secretUid) then pure ()
  else grantAgentConsumerReadAccess input.consumerId input.environment grant.secretId
    grant.secretUid input.actor

def reconcileAgentReadAccess (input : ReconcileAgentReadAccessInput) : Service Unit := do
  let desired := desiredGrants input.secretGrants
  let current ← listAllConsumerSecretGrants input.consumerId input.environment
  current.forM (revokeUnless input desired)
  desired.forM (grantUnless input current)

/-! ## Reads -/

/-- The control revision and the head agree. -/
def controlAgrees (control : ControlRevision) (head : HeadRecord) (secretId : String) : Bool :=
  control.schemaVersion = 1 ∧ control.secretUid.all (· = head.secretUid) ∧
    control.secretId = secretId ∧ control.environment = head.environment ∧
    control.controlVersionId = head.controlVersionId ∧
    control.payloadVersionId = head.payloadVersionId ∧ control.state = head.state

/-- The payload revision and the head agree. -/
def payloadAgrees (payload : PayloadRevision) (head : HeadRecord) (secretId : String) : Bool :=
  payload.schemaVersion = 1 ∧ payload.secretUid.all (· = head.secretUid) ∧
    payload.secretId = secretId ∧ payload.environment = head.environment ∧
    head.payloadVersionId = some payload.payloadVersionId

def readActivePayload (secretId : String) (head : HeadRecord) : Service SecretReadResult := do
  if head.payloadVersionId.isNone then
    reject (notFound "The secret has no active payload.")
  else
    let control ← getControl head
    if controlAgrees control head secretId then
      let reference ← requireSome (serviceUnavailable
        "The secret payload does not have an immutable object version.") (payloadReference head)
      let payload ← asPayload (← ObjectStore.getJson reference)
      if payloadAgrees payload head secretId then
        let plaintext ← EnvelopeCrypto.decrypt payload
        return {
          notModified := false
          controlVersionId := head.controlVersionId
          payloadVersionId := head.payloadVersionId
          payload := some plaintext }
      else reject (serviceUnavailable
        "The secret payload revision does not match the authorized head.")
    else reject (serviceUnavailable "The secret head and control revision do not agree.")

/-- The access record lets the consumer read the secret of that name. -/
def accessGrants (access : AccessRecord) (environment secretId : String) : Bool :=
  access.environment = environment ∧ access.secretId = secretId ∧ .read ∈ access.permissions ∧
    access.state ≠ .revoked

/-- The head is the active one of the access record. -/
def headServes (head : HeadRecord) (access : AccessRecord) (secretId : String) : Bool :=
  head.environment = access.environment ∧ head.secretId = secretId ∧
    head.secretUid = access.secretUid ∧ head.state = .active

def read (consumerId consumerEnvironment secretId : String) (ifNoneMatch : Option String)
    (onAuthorized : Service Unit) : Service SecretReadResult := do
  match ← getAccessAndHead consumerId consumerEnvironment secretId with
  | (some access, some head) =>
      if accessGrants access consumerEnvironment secretId && headServes head access secretId then
        onAuthorized
        if ifNoneMatch = some head.controlVersionId then
          return {
            notModified := true
            controlVersionId := head.controlVersionId
            payloadVersionId := head.payloadVersionId
            payload := none }
        else readActivePayload secretId head
      else reject (forbidden)
  | _ => reject (forbidden)

/-- An active payload, for an administrator. -/
def readAdminPayload (environment secretId : String) : Service SecretReadResult := do
  let head ← requireHead environment secretId
  if head.state ≠ .active then reject (notFound "The secret has no active payload.")
  else readActivePayload secretId head

end SecretService

end Hemlig
