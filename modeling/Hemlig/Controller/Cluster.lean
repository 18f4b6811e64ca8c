import Hemlig.Concurrent.Interleaving
import Hemlig.Controller.Exports
import Hemlig.Controller.Reconcile
import Hemlig.Controller.Synchronize

/-!
# The cluster and the sites a pass works on

What `packages/kubernetes-controller/src/v1beta.ts` talks to: the Kubernetes API, with the four
kinds of resource of the controller and the Secrets of the cluster, and the sites that agents read
and write.  A request of a pass is one step; what users, other controllers and the sites do between
two requests are events of the environment.

A name in a namespace is written `namespace/name` in the source, and neither part contains a slash.
The digest that identifies who synchronizes is represented by what it is a digest of, and the
opaque cursors of a site by what they stand for.
-/

namespace Hemlig.Kubernetes

open Concurrent Controller Store

/-! ## Names and errors -/

structure NamespacedName where
  inNamespace : String
  name : String
  deriving DecidableEq, Repr

/-- The namespace and the name of a resource. -/
def keyOf (metadata : ObjectMeta) : NamespacedName := ⟨metadata.inNamespace, metadata.name⟩

/-- What a pass throws: a `ReconcileError`, a `HemligError`, an error of the Kubernetes API, or
any other one. -/
inductive PassFailure
  | reconcileError (reason message : String)
  | hemligError (status : ℕ)
  | kubernetesError (code : ℕ)
  | error (message : String)
  deriving DecidableEq, Repr

namespace PassFailure

/-- What the retries distinguish. -/
def kind : PassFailure → Reconcile.ErrorKind
  | reconcileError _ _ => .reconcileError
  | hemligError status => .hemligError status
  | kubernetesError code => .other (some code)
  | error _ => .other none

def isNotFound (failure : PassFailure) : Bool := failure = kubernetesError 404

def isAlreadyExists (failure : PassFailure) : Bool := failure = kubernetesError 409

/-- `error instanceof HemligError && (error.status === 403 || error.status === 404)`. -/
def isRevocation (failure : PassFailure) : Bool :=
  failure = hemligError 403 ∨ failure = hemligError 404

/-- The reason of the condition that reports a failure. -/
def reason : PassFailure → String
  | reconcileError reason _ => reason
  | _ => "ReconcileFailed"

def message : PassFailure → String
  | reconcileError _ message => message
  | hemligError status => "Hemlig returned " ++ toString status ++ "."
  | _ => "The reconciliation attempt failed."

end PassFailure

/-! ## Resources -/

/-- A condition of a status, without the time of its last transition. -/
structure Condition where
  type : String
  status : Bool
  reason : String
  message : String
  deriving DecidableEq, Repr

/-- `syncIdentity`: who synchronizes, and where. -/
structure SyncIdentity where
  apiUrl : String
  certificate : String
  deriving DecidableEq, Repr

/-- What the digest of a grant is a digest of. -/
abbrev GrantDigest := List AgentCapability × List AgentSecretGrant × String

/-- What the cursor of a completed cycle stands for. -/
structure Checkpoint where
  consumerId : String
  environment : String
  digest : GrantDigest
  through : ℕ
  deriving DecidableEq, Repr

structure ReconciliationStatus where
  secretUid : Option String := none
  syncCursor : Option Checkpoint := none
  syncIdentity : Option SyncIdentity := none
  observedGeneration : Option ℕ := none
  controlVersionId : Option String := none
  payloadVersionId : Option String := none
  sourceChecksum : Option String := none
  consumerId : Option String := none
  environment : Option String := none
  grantId : Option String := none
  conditions : Option (List Condition) := none
  deriving DecidableEq, Repr

structure ProviderSpec where
  bootstrapUrl : String
  apiUrl : String
  /-- `allowedNamespaces.matchLabels`. -/
  matchLabels : List (String × String)
  deriving DecidableEq, Repr

structure Provider where
  name : String
  spec : ProviderSpec
  deriving DecidableEq, Repr

structure ConsumerSpec where
  providerRef : String
  bootstrapTokenName : String
  bootstrapTokenKey : String
  /-- `identity.secretName`. -/
  identityName : String
  allowCrossNamespaceReferences : Bool
  deriving DecidableEq, Repr

structure ImportSpec where
  consumerRef : String
  consumerNamespace : Option String
  secretId : String
  targetName : Option String
  targetType : Option String
  deriving DecidableEq, Repr

structure ExportSpec where
  consumerRef : String
  consumerNamespace : Option String
  secretId : String
  sourceName : String
  metadata : SecretMetadata
  deriving DecidableEq, Repr

/-- A resource as a list of the Kubernetes API returns it. -/
structure Resource (Spec : Type) where
  metadata : ObjectMeta
  spec : Spec
  status : Option ReconciliationStatus

/-- A resource of a namespace as it is stored under its name.  The generation counts the changes of
the specification. -/
structure Stored (Spec : Type) where
  uid : String
  generation : ℕ
  spec : Spec
  status : Option ReconciliationStatus

abbrev Resources (Spec : Type) := Table NamespacedName fun _ => Stored Spec

variable {Spec : Type}

/-- What a list returns for a stored resource. -/
def Stored.resource (stored : Stored Spec) (key : NamespacedName) : Resource Spec where
  metadata :=
    { uid := some stored.uid
      generation := some stored.generation
      inNamespace := key.inNamespace
      name := key.name }
  spec := stored.spec
  status := stored.status

/-- All resources of a kind. -/
def Resources.list (resources : Resources Spec) : List (Resource Spec) :=
  resources.keys.dedup.filterMap fun key => (resources.get key).map (·.resource key)

/-- A user creates a resource, changes its specification, or removes it. -/
def Resources.apply (resources : Resources Spec) (key : NamespacedName) (uid : String)
    (spec : Option Spec) : Resources Spec :=
  resources.set key <| spec.map fun spec =>
    match resources.get key with
    | some stored => { stored with generation := stored.generation + 1, spec := spec }
    | none => { uid := uid, generation := 1, spec := spec, status := none }

/-- The status of a resource is replaced. -/
def Resources.patch (resources : Resources Spec) (key : NamespacedName)
    (status : ReconciliationStatus) : Except PassFailure Unit × Resources Spec :=
  match resources.get key with
  | some stored => (.ok (), resources.set key (some { stored with status := some status }))
  | none => (.error (.kubernetesError 404), resources)

/-! ## Secrets -/

/-- The annotations that the controller writes. -/
structure Annotations where
  consumerOwner : Option String := none
  provider : Option String := none
  identityState : Option String := none
  grantId : Option String := none
  apiFingerprint : Option String := none
  importOwner : Option String := none
  secretId : Option String := none
  secretUid : Option String := none
  controlVersionId : Option String := none
  payloadVersionId : Option String := none
  dataChecksum : Option String := none
  deriving DecidableEq, Repr

/-- A Secret without its resource version; `managedBy` is the label `hemlig.io/managed-by`, and the
values of `data` are base64 texts. -/
structure SecretBody where
  managedBy : Option String
  annotations : Annotations
  type : String
  data : List (String × String)
  deriving DecidableEq, Repr

structure IdentitySecret where
  resourceVersion : ℕ
  body : SecretBody
  deriving DecidableEq, Repr

/-- An imported target is changed only by the importing resource. -/
def isOwnedByImport (body : SecretBody) (importOwner : String) : Bool :=
  body.managedBy = some "import" ∧ body.annotations.importOwner = some importOwner

/-! ## Sites -/

/-- A secret as a site has published it. -/
structure Published where
  site : String
  sequence : ℕ
  environment : String
  record : AgentSyncRecord
  payload : SecretPayload
  deriving DecidableEq, Repr

/-- A secret that is neither archived nor revoked. -/
def isLive (record : AgentSyncRecord) : Bool :=
  record.state = .active ∨ record.state = .pendingValue

/-- A page cursor: it remembers where its cycle began. -/
structure PageCursor where
  checkpoint : Checkpoint
  after : ℕ
  last : ℕ
  snapshot : Bool
  deriving DecidableEq, Repr

inductive SyncQuery
  | syncCursor (checkpoint : Option Checkpoint)
  | cursor (cursor : PageCursor)
  deriving DecidableEq, Repr

structure SyncPage where
  config : AgentGrantRecord
  snapshot : Bool
  changes : List AgentSyncEntry
  nextCursor : Option PageCursor
  syncCursor : Option Checkpoint

/-- What an agent reads of a secret. -/
structure AgentSecret where
  secretId : String
  controlVersionId : String
  payloadVersionId : Option String
  payload : SecretPayload
  deriving DecidableEq, Repr

structure AgentControl where
  controlVersionId : String
  payloadVersionId : Option String
  metadata : SecretMetadata
  deriving DecidableEq, Repr

/-- What the sites hold: the secrets by UID, the counter of each environment, the grant of each
agent, and the answers to the writes of agents by idempotency key.  `versions`, `payloads` and
`requests` record the secret and the payload of a control version, and the request that a
certificate answers. -/
structure Sites where
  index : Table String fun _ => Published
  counter : String → String → ℕ
  agents : SyncIdentity → Option AgentGrantRecord
  replies : SyncIdentity → String → Option AgentControl
  versions : String → Option String
  payloads : String → Option SecretPayload
  requests : String → Option String

namespace Sites

/-- The secrets of an environment that the site lists. -/
def published (sites : Sites) (site environment : String) : List Published :=
  (sites.index.keys.dedup.filterMap sites.index.get).filter fun published =>
    published.site = site ∧ published.environment = environment

/-- The live secret of a name. -/
def find (sites : Sites) (site environment secretId : String) : Option Published :=
  (sites.published site environment).find? fun published =>
    isLive published.record ∧ published.record.secretId = secretId

/-- A publication is the first one of a secret, or changes neither its environment nor its name;
its version is new, and no other live secret of the environment has its name. -/
def publishable (sites : Sites) (site environment : String) (record : AgentSyncRecord) : Bool :=
  ((sites.index.get record.secretUid).all fun earlier =>
      earlier.site = site ∧ earlier.environment = environment ∧
        earlier.record.secretId = record.secretId) ∧
    sites.versions record.controlVersionId = none ∧
    (isLive record → (sites.published site environment).all fun other =>
      isLive other.record → other.record.secretId = record.secretId →
        other.record.secretUid = record.secretUid)

/-- A publication takes the next number of its environment. -/
def publish (sites : Sites) (site environment : String) (record : AgentSyncRecord)
    (payload : SecretPayload) : Sites :=
  let sequence := sites.counter site environment + 1
  { sites with
    index := sites.index.set record.secretUid
      (some ⟨site, sequence, environment, record, payload⟩)
    counter := Function.update sites.counter site
      (Function.update (sites.counter site) environment sequence)
    versions := Function.update sites.versions record.controlVersionId (some record.secretUid)
    payloads := Function.update sites.payloads record.controlVersionId (some payload) }

/-- A grant names secrets of its environment by UID and name, and an agent stays with its consumer
and environment. -/
def grantable (sites : Sites) (identity : SyncIdentity) (grant : AgentGrantRecord) : Bool :=
  (grant.secretGrants.all fun entry => (sites.index.get entry.secretUid).any fun published =>
      published.site = identity.apiUrl ∧ published.environment = grant.environment ∧
        published.record.secretId = entry.secretId) ∧
    (sites.agents identity).all fun earlier =>
      earlier.consumerId = grant.consumerId ∧ earlier.environment = grant.environment

/-! ### What agents are answered -/

/-- The active grant of an agent. -/
def activeGrant (sites : Sites) (identity : SyncIdentity) : Except PassFailure AgentGrantRecord :=
  match sites.agents identity with
  | some grant => if grant.status = .active then .ok grant else .error (.hemligError 403)
  | none => .error (.hemligError 403)

/-- A position still fits the grant and the counter of the site. -/
def cursorFits (checkpoint : Checkpoint) (grant : AgentGrantRecord) (through : ℕ) :
    Except PassFailure Unit :=
  if checkpoint.consumerId ≠ grant.consumerId ∨ checkpoint.environment ≠ grant.environment then
    .error (.hemligError 400)
  else if checkpoint.digest ≠ AgentSyncService.grantDigest grant ∨ checkpoint.through > through then
    .error (.hemligError 410)
  else .ok ()

/-- Where a request starts to read. -/
def startCursor (query : SyncQuery) (grant : AgentGrantRecord) (through : ℕ) :
    Except PassFailure PageCursor :=
  let checkpoint : Checkpoint :=
    ⟨grant.consumerId, grant.environment, AgentSyncService.grantDigest grant, through⟩
  match query with
  | .cursor cursor => (cursorFits cursor.checkpoint grant through).map fun _ => cursor
  | .syncCursor (some earlier) => (cursorFits earlier grant through).map fun _ =>
      { checkpoint := checkpoint, after := earlier.through, last := earlier.through
        snapshot := false }
  | .syncCursor none =>
      .ok { checkpoint := checkpoint, after := 0, last := 0, snapshot := true }

/-- One page: what was published after the last number of the cursor and up to `last`, a number the
site chooses.  A client keeps the entries by UID, so that their order does not matter. -/
def pageAt (sites : Sites) (identity : SyncIdentity) (grant : AgentGrantRecord)
    (cursor : PageCursor) (last : ℕ) : SyncPage :=
  let last := max cursor.last last
  let records := (sites.published identity.apiUrl grant.environment).filter fun published =>
    cursor.last < published.sequence ∧ published.sequence ≤ min last cursor.checkpoint.through
  let done : Bool := cursor.checkpoint.through ≤ last
  { config := grant
    snapshot := cursor.snapshot
    changes := AgentSyncService.visibleEntries grant (records.map Published.record)
    nextCursor := if done then none else some { cursor with last := last }
    syncCursor := if done then some cursor.checkpoint else none }

def syncAgent (sites : Sites) (identity : SyncIdentity) (query : SyncQuery) (last : ℕ) :
    Except PassFailure SyncPage := do
  let grant ← sites.activeGrant identity
  let cursor ← startCursor query grant (sites.counter identity.apiUrl grant.environment)
  return sites.pageAt identity grant cursor last

/-- A secret for which an agent has a permission. -/
def permitted (sites : Sites) (identity : SyncIdentity) (secretId : String)
    (permission : AgentCapability) : Except PassFailure (AgentGrantRecord × Published) := do
  let grant ← sites.activeGrant identity
  if permission ∉ grant.capabilities then throw (.hemligError 403)
  match sites.find identity.apiUrl grant.environment secretId with
  | none => throw (.hemligError 404)
  | some published =>
      if AgentService.hasSecretPermission grant published.record.secretUid permission then
        return (grant, published)
      else throw (.hemligError 403)

/-- The payload of a secret, unless the agent has its current version already. -/
def getAgentSecret (sites : Sites) (identity : SyncIdentity) (secretId : String)
    (ifNoneMatch : Option String) : Except PassFailure (Option AgentSecret) := do
  let (grant, published) ← sites.permitted identity secretId .read
  let record := published.record
  if grant.consumerId ∉ record.readConsumerIds ∨ record.state ≠ .active then
    throw (.hemligError 403)
  if ifNoneMatch = some record.controlVersionId then return none
  return some
    ⟨record.secretId, record.controlVersionId, record.payloadVersionId, published.payload⟩

def controlOf (record : AgentSyncRecord) : AgentControl :=
  ⟨record.controlVersionId, record.payloadVersionId, record.metadata⟩

def getAgentControl (sites : Sites) (identity : SyncIdentity) (secretId : String) :
    Except PassFailure AgentControl := do
  let (_, published) ← sites.permitted identity secretId .write
  return controlOf published.record

/-- A write of an agent against a control version; an answered one is answered again. -/
def write (sites : Sites) (identity : SyncIdentity) (secretId expected operationKey : String)
    (change : AgentSyncRecord → AgentSyncRecord) (payload : Option SecretPayload) :
    Except PassFailure AgentControl × Sites :=
  match sites.replies identity operationKey with
  | some control => (.ok control, sites)
  | none =>
      match sites.permitted identity secretId .write with
      | .error failure => (.error failure, sites)
      | .ok (grant, published) =>
          let record := change published.record
          if published.record.controlVersionId ≠ expected then (.error (.hemligError 412), sites)
          else if sites.publishable identity.apiUrl grant.environment record then
            let sites := sites.publish identity.apiUrl grant.environment record
              (payload.getD published.payload)
            (.ok (controlOf record),
              { sites with
                replies := Function.update sites.replies identity
                  (Function.update (sites.replies identity) operationKey
                    (some (controlOf record))) })
          else (.error (.hemligError 503), sites)

end Sites

/-! ## The cluster -/

structure Cluster where
  providers : Table String fun _ => ProviderSpec
  consumers : Resources ConsumerSpec
  imports : Resources ImportSpec
  exports : Resources ExportSpec
  secrets : NamespacedName → Option IdentitySecret
  /-- The labels of the namespaces. -/
  namespaces : String → Option (List (String × String))
  /-- The resource version of the last write of a Secret. -/
  revision : ℕ
  /-- The pass that has set `reconciling`.  The chart runs one replica, and an update starts the
  new Pod when the old one is gone. -/
  reconciling : Option ℕ
  sites : Sites

namespace Cluster

def listProviders (s : Cluster) : List Provider :=
  s.providers.keys.dedup.filterMap fun name => (s.providers.get name).map (⟨name, ·⟩)

/-- A Secret is written, under a new resource version. -/
def putSecret (s : Cluster) (key : NamespacedName) (body : SecretBody) : Cluster :=
  { s with
    secrets := Function.update s.secrets key (some ⟨s.revision + 1, body⟩)
    revision := s.revision + 1 }

def removeSecret (s : Cluster) (key : NamespacedName) : Cluster :=
  { s with secrets := Function.update s.secrets key none }

theorem secrets_putSecret (s : Cluster) (key : NamespacedName) (body : SecretBody)
    (other : NamespacedName) : (s.putSecret key body).secrets other =
      if other = key then some ⟨s.revision + 1, body⟩ else s.secrets other :=
  Function.update_apply ..

theorem secrets_removeSecret (s : Cluster) (key other : NamespacedName) :
    (s.removeSecret key).secrets other = if other = key then none else s.secrets other :=
  Function.update_apply ..

end Cluster

/-! ## Requests -/

inductive Plural
  | consumers
  | imports
  | exports
  deriving DecidableEq, Repr

/-- What `redeemBootstrap` returns of a new identity. -/
structure EnrolledIdentity where
  apiCertificatePem : String
  apiFingerprint : String
  grantId : String
  deriving DecidableEq, Repr

inductive Request
  /-- `reconciling = true`, unless another pass has set it. -/
  | start
  /-- `reconciling = false`. -/
  | finish
  | listProviders
  | listConsumers
  | listImports
  | listExports
  | readNamespace (name : String)
  | readNamespacedSecret (key : NamespacedName)
  | createNamespacedSecret (key : NamespacedName) (body : SecretBody)
  | replaceNamespacedSecret (key : NamespacedName) (resourceVersion : ℕ) (body : SecretBody)
  | deleteNamespacedSecret (key : NamespacedName)
  | patchStatus (plural : Plural) (key : NamespacedName) (status : ReconciliationStatus)
  | generateKeyPair
  | redeemBootstrap (bootstrapUrl token csr : String)
  | syncAgent (identity : SyncIdentity) (query : SyncQuery)
  | getAgentSecret (identity : SyncIdentity) (secretId : String) (ifNoneMatch : Option String)
  | getAgentControl (identity : SyncIdentity) (secretId : String)
  | updateAgentSecret (identity : SyncIdentity) (secretId controlVersionId : String)
      (metadata : SecretMetadata) (operationKey : String)
  | putAgentPayload (identity : SyncIdentity) (secretId controlVersionId : String)
      (payload : SecretPayload) (operationKey : String)

/-- What a request returns. -/
def Request.Reply : Request → Type
  | .start => Bool
  | .listProviders => List Provider
  | .listConsumers => List (Resource ConsumerSpec)
  | .listImports => List (Resource ImportSpec)
  | .listExports => List (Resource ExportSpec)
  | .readNamespace _ => List (String × String)
  | .readNamespacedSecret _ => IdentitySecret
  | .createNamespacedSecret _ _ => IdentitySecret
  | .generateKeyPair => String
  | .redeemBootstrap _ _ _ => EnrolledIdentity
  | .syncAgent _ _ => SyncPage
  | .getAgentSecret _ _ _ => Option AgentSecret
  | .getAgentControl _ _ => AgentControl
  | .updateAgentSecret _ _ _ _ _ => AgentControl
  | .putAgentPayload _ _ _ _ _ => AgentControl
  | .finish | .replaceNamespacedSecret _ _ _ | .deleteNamespacedSecret _ | .patchStatus _ _ _ =>
      Unit

/-- A request returns, or it fails. -/
abbrev Request.Answer (q : Request) : Type := Except PassFailure q.Reply

abbrev Pass (α : Type) : Type := Program Request Request.Answer PassFailure α

/-- Issue a request, and throw what it fails with. -/
def send (q : Request) : Pass q.Reply :=
  (Program.request q).bind Program.ofExcept

/-! ## What requests do -/

/-- A request can fail before it has any effect, or after it. -/
inductive Fault
  | none
  | refused (failure : PassFailure)
  | unanswered (failure : PassFailure)

/-- What the environment decides about a request: whether it fails, where a page ends, and the new
versions, keys and certificates. -/
structure Choice where
  fault : Fault := .none
  last : ℕ := 0
  controlVersionId : String := ""
  payloadVersionId : String := ""
  privateKeyPem : String := ""
  enrolled : EnrolledIdentity := ⟨"", "", ""⟩

/-- The record of a secret whose metadata is changed. -/
def Choice.withMetadata (choice : Choice) (metadata : SecretMetadata) (record : AgentSyncRecord) :
    AgentSyncRecord :=
  { record with
    controlVersionId := choice.controlVersionId
    metadata := metadata }

/-- The record of a secret that gets a payload. -/
def Choice.withPayload (choice : Choice) (record : AgentSyncRecord) : AgentSyncRecord :=
  { record with
    controlVersionId := choice.controlVersionId
    payloadVersionId := some choice.payloadVersionId
    state := .active }

namespace Cluster

def patchStatus (s : Cluster) (key : NamespacedName) (status : ReconciliationStatus) :
    Plural → Except PassFailure Unit × Cluster
  | .consumers =>
      (s.consumers.patch key status).map id fun consumers => { s with consumers := consumers }
  | .imports => (s.imports.patch key status).map id fun imports => { s with imports := imports }
  | .exports => (s.exports.patch key status).map id fun exports => { s with exports := exports }

/-- A Secret is replaced if it still has the resource version that was read.  Its type cannot be
changed. -/
def replaceSecret (s : Cluster) (key : NamespacedName) (resourceVersion : ℕ) (body : SecretBody) :
    Except PassFailure Unit × Cluster :=
  match s.secrets key with
  | none => (.error (.kubernetesError 404), s)
  | some current =>
      if current.resourceVersion ≠ resourceVersion then (.error (.kubernetesError 409), s)
      else if current.body.type ≠ body.type then (.error (.kubernetesError 422), s)
      else (.ok (), s.putSecret key body)

def createSecret (s : Cluster) (key : NamespacedName) (body : SecretBody) :
    Except PassFailure IdentitySecret × Cluster :=
  match s.secrets key with
  | some _ => (.error (.kubernetesError 409), s)
  | none => (.ok ⟨s.revision + 1, body⟩, s.putSecret key body)

def deleteSecret (s : Cluster) (key : NamespacedName) : Except PassFailure Unit × Cluster :=
  match s.secrets key with
  | some _ => (.ok (), s.removeSecret key)
  | none => (.error (.kubernetesError 404), s)

/-- A site signs a request, and answers it again with the same certificate. -/
def redeem (s : Cluster) (csr : String) (enrolled : EnrolledIdentity) :
    Except PassFailure EnrolledIdentity × Cluster :=
  let certificate := enrolled.apiCertificatePem
  if (s.sites.requests certificate).all (· = csr) then
    (.ok enrolled,
      { s with
        sites := { s.sites with
          requests := Function.update s.sites.requests certificate (some csr) } })
  else (.error (.hemligError 503), s)

/-- Fill in what a value does not have, as a request that was not found. -/
def found {α : Type} : Option α → Except PassFailure α
  | some value => .ok value
  | none => .error (.kubernetesError 404)

/-- The effect of a request of the pass that runs. -/
def perform (s : Cluster) (choice : Choice) : (q : Request) → q.Answer × Cluster
  | .start => (.ok false, s)
  | .finish => (.ok (), { s with reconciling := none })
  | .listProviders => (.ok s.listProviders, s)
  | .listConsumers => (.ok s.consumers.list, s)
  | .listImports => (.ok s.imports.list, s)
  | .listExports => (.ok s.exports.list, s)
  | .readNamespace name => (found (s.namespaces name), s)
  | .readNamespacedSecret key => (found (s.secrets key), s)
  | .createNamespacedSecret key body => s.createSecret key body
  | .replaceNamespacedSecret key resourceVersion body => s.replaceSecret key resourceVersion body
  | .deleteNamespacedSecret key => s.deleteSecret key
  | .patchStatus plural key status => s.patchStatus key status plural
  | .generateKeyPair => (.ok choice.privateKeyPem, s)
  | .redeemBootstrap _ _ csr => s.redeem csr choice.enrolled
  | .syncAgent identity query => (s.sites.syncAgent identity query choice.last, s)
  | .getAgentSecret identity secretId ifNoneMatch =>
      (s.sites.getAgentSecret identity secretId ifNoneMatch, s)
  | .getAgentControl identity secretId => (s.sites.getAgentControl identity secretId, s)
  | .updateAgentSecret identity secretId controlVersionId metadata operationKey =>
      (s.sites.write identity secretId controlVersionId operationKey
        (choice.withMetadata metadata) none).map id
        fun sites => { s with sites := sites }
  | .putAgentPayload identity secretId controlVersionId payload operationKey =>
      (s.sites.write identity secretId controlVersionId operationKey
        choice.withPayload (some payload)).map id
        fun sites => { s with sites := sites }

/-- One step of a pass.  Only the pass that has set `reconciling` runs; the others have ended with
their Pod. -/
def exec (pid : ℕ) (q : Request) (choice : Choice) (s : Cluster) : Option (q.Answer × Cluster) :=
  match q with
  | .start =>
      if s.reconciling.isSome then some (.ok false, s)
      else some (.ok true, { s with reconciling := some pid })
  | .finish => if s.reconciling = some pid then some (s.perform choice .finish) else none
  | q =>
      if s.reconciling = some pid then
        match choice.fault with
        | .none => some (s.perform choice q)
        | .refused failure => some (.error failure, s)
        | .unanswered failure => some (.error failure, (s.perform choice q).2)
      else none

end Cluster

/-! ## What happens without a pass -/

inductive Event
  | provider (name : String) (spec : Option ProviderSpec)
  | consumer (key : NamespacedName) (uid : String) (spec : Option ConsumerSpec)
  | secretImport (key : NamespacedName) (uid : String) (spec : Option ImportSpec)
  | secretExport (key : NamespacedName) (uid : String) (spec : Option ExportSpec)
  | secret (key : NamespacedName) (body : Option SecretBody)
  | labels (name : String) (labels : Option (List (String × String)))
  /-- The Pod restarts. -/
  | restart
  | publish (site environment : String) (record : AgentSyncRecord) (payload : SecretPayload)
  /-- An agent is enrolled, or its grant is changed. -/
  | agent (identity : SyncIdentity) (grant : AgentGrantRecord)

/-- The effect of an event, if it is possible. -/
def Cluster.environment (event : Event) (s : Cluster) : Option Cluster :=
  match event with
  | .provider name spec => some { s with providers := s.providers.set name spec }
  | .consumer key uid spec => some { s with consumers := s.consumers.apply key uid spec }
  | .secretImport key uid spec => some { s with imports := s.imports.apply key uid spec }
  | .secretExport key uid spec => some { s with exports := s.exports.apply key uid spec }
  | .secret key (some body) => some (s.putSecret key body)
  | .secret key none => some (s.removeSecret key)
  | .labels name labels => some { s with namespaces := Function.update s.namespaces name labels }
  | .restart => some { s with reconciling := none }
  | .publish site environment record payload =>
      if s.sites.publishable site environment record then
        some { s with sites := s.sites.publish site environment record payload }
      else none
  | .agent identity grant =>
      if s.sites.grantable identity grant then
        some { s with
          sites := { s.sites with
            agents := Function.update s.sites.agents identity (some grant) } }
      else none

end Hemlig.Kubernetes
