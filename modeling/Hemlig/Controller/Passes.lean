import Hemlig.Controller.Cluster

/-!
# A pass of the Kubernetes controller

`reconcileAll` of `packages/kubernetes-controller/src/v1beta.ts` with everything it calls: the
consumers are enrolled and synchronized one after the other, then each import and each export is
reconciled with what its consumer has synchronized, and last the cursors of the completed cycles
are stored, for the consumers of which nothing failed.

The lists that are read at once are read one after the other, and a pass returns the error for
which another one is to be scheduled.
-/

namespace Hemlig.Kubernetes

open Concurrent Controller

abbrev Consumer := Resource ConsumerSpec
abbrev SecretImport := Resource ImportSpec
abbrev SecretExport := Resource ExportSpec

/-- The functions of the runtime: the encoding of Secret data, the signed request for a certificate,
and digests. -/
structure Runtime where
  encodeBase64 : String → String
  decodeBase64 : String → String
  certificationRequest : String → String
  sha256Hex : String → String
  payloadChecksum : SecretPayload → String
  stringMapChecksum : List (String × String) → String

variable (runtime : Runtime)

/-! ## Status -/

def readyCondition (reason message : String) : Condition := ⟨"Ready", true, reason, message⟩

def falseCondition (reason message : String) : Condition := ⟨"Ready", false, reason, message⟩

/-- Replace the status of a resource, unless it was listed with that status. -/
def setStatus (plural : Plural) (metadata : ObjectMeta) (status : ReconciliationStatus)
    (currentStatus : Option ReconciliationStatus) : Pass Unit :=
  if currentStatus = some status then return ()
  else send (.patchStatus plural (keyOf metadata) status)

def setFailure (plural : Plural) (metadata : ObjectMeta)
    (currentStatus : Option ReconciliationStatus) (failure : PassFailure) : Pass Unit :=
  setStatus plural metadata
    { observedGeneration := metadata.generation
      conditions := some [falseCondition failure.reason failure.message] }
    currentStatus

/-- The failure for which another pass is scheduled. -/
def transient (failure : PassFailure) : Option PassFailure :=
  if Reconcile.isTransientResourceError ⟨failure.kind, none⟩ then some failure else none

/-! ## Identities -/

structure AgentIdentity where
  certificate : String
  privateKey : String
  deriving DecidableEq, Repr

def identityCsrDataKey : String := "hemlig.io.csr"

def assertNamespaceAllowed (inNamespace : String) (provider : Provider) : Pass Unit := do
  let labels ← send (.readNamespace inNamespace)
  if provider.spec.matchLabels.all fun entry => labels.lookup entry.1 = some entry.2 then return ()
  else
    throw (.reconcileError "ProviderNotPermitted"
      "This namespace does not match the provider selector.")

def assertIdentityOwnership (secret : SecretBody) (owner : String) : Pass Unit :=
  if secret.managedBy ≠ some "consumer" ∨ secret.annotations.consumerOwner ≠ some owner then
    throw (.reconcileError "IdentityOwnershipConflict"
      "The identity Secret is not owned by this HemligConsumer.")
  else return ()

def requiredData (secret : SecretBody) (key : String) : Pass String :=
  match secret.data.lookup key with
  | some value => return value
  | none =>
      throw (.reconcileError "IdentityOwnershipConflict"
        ("The managed identity Secret is missing " ++ key ++ "."))

/-- Where the identity of a consumer is kept. -/
def identityKey (resource : Consumer) : NamespacedName :=
  ⟨resource.metadata.inNamespace, resource.spec.identityName⟩

structure GeneratedCsr where
  privateKeyPem : String
  csrPem : String
  deriving DecidableEq, Repr

/-- A new key, and the request that is signed with it. -/
def generateCsr : Pass GeneratedCsr := do
  let privateKeyPem ← send .generateKeyPair
  return ⟨privateKeyPem, runtime.certificationRequest privateKeyPem⟩

/-- A Secret that holds a private key and a request for a certificate. -/
def pendingBody (resource : Consumer) (provider : Provider) (generated : GeneratedCsr) :
    SecretBody where
  managedBy := some "consumer"
  annotations :=
    { consumerOwner := some (resourceKey resource.metadata)
      provider := some provider.name
      identityState := some "pending-bootstrap" }
  type := "Opaque"
  data := [("tls.key", runtime.encodeBase64 generated.privateKeyPem),
    (identityCsrDataKey, runtime.encodeBase64 generated.csrPem)]

def createPendingIdentity (resource : Consumer) (provider : Provider) : Pass IdentitySecret := do
  let generated ← generateCsr runtime
  tryCatch
    (send (.createNamespacedSecret (identityKey resource)
      (pendingBody runtime resource provider generated)))
    fun failure =>
      if failure.isAlreadyExists then do
        let current ← send (.readNamespacedSecret (identityKey resource))
        assertIdentityOwnership current.body (resourceKey resource.metadata)
        return current
      else throw failure

def bootstrapToken (resource : Consumer) : Pass String := do
  let secret ← send (.readNamespacedSecret
    ⟨resource.metadata.inNamespace, resource.spec.bootstrapTokenName⟩)
  match secret.body.data.lookup resource.spec.bootstrapTokenKey with
  | some value => return runtime.decodeBase64 value
  | none =>
      throw (.reconcileError "BootstrapTokenUnavailable"
        "The referenced bootstrap token key is absent.")

/-- The Secret of an identity, once its request is answered. -/
def enrolledBody (resource : Consumer) (provider : Provider) (pending : IdentitySecret)
    (privateKey : String) (enrolled : EnrolledIdentity) : SecretBody where
  managedBy := some "consumer"
  annotations :=
    { consumerOwner := some (resourceKey resource.metadata)
      provider := some provider.name
      grantId := some enrolled.grantId
      apiFingerprint := some enrolled.apiFingerprint }
  type := pending.body.type
  data := [("tls.crt", runtime.encodeBase64 enrolled.apiCertificatePem), ("tls.key", privateKey)]

/-- The identity that a Secret holds. -/
def storedIdentity (secret : IdentitySecret) : Option AgentIdentity := do
  let certificate ← secret.body.data.lookup "tls.crt"
  let privateKey ← secret.body.data.lookup "tls.key"
  return ⟨runtime.decodeBase64 certificate, runtime.decodeBase64 privateKey⟩

/-- The Secret of an identity, if there is one; it belongs to the consumer. -/
def findIdentity (resource : Consumer) : Pass (Option IdentitySecret) :=
  tryCatch
    (do
      let identity ← send (.readNamespacedSecret (identityKey resource))
      assertIdentityOwnership identity.body (resourceKey resource.metadata)
      return some identity)
    fun failure => if failure.isNotFound then return none else throw failure

/-- The certificate for the pending request. -/
def bootstrapIdentity (resource : Consumer) (provider : Provider) (pending : IdentitySecret) :
    Pass AgentIdentity := do
  let privateKey ← requiredData pending.body "tls.key"
  let csr ← requiredData pending.body identityCsrDataKey
  let token ← bootstrapToken runtime resource
  let enrolled ← send (.redeemBootstrap provider.spec.bootstrapUrl token
    (runtime.decodeBase64 csr))
  send (.replaceNamespacedSecret (identityKey resource) pending.resourceVersion
    (enrolledBody runtime resource provider pending privateKey enrolled))
  return ⟨enrolled.apiCertificatePem, runtime.decodeBase64 privateKey⟩

def loadOrBootstrapIdentity (resource : Consumer) (provider : Provider) : Pass AgentIdentity := do
  let identity ← findIdentity resource
  match identity.bind (storedIdentity runtime) with
  | some stored => return stored
  | none =>
      let pending ← match identity with
        | some identity => pure identity
        | none => createPendingIdentity runtime resource provider
      bootstrapIdentity runtime resource provider pending

/-! ## Synchronization -/

/-- What a completed cycle has collected. -/
structure Synchronization where
  config : AgentGrantRecord
  entries : Entries
  snapshot : Bool
  checkpoint : Checkpoint

def pageLimit : ℕ := 1000

/-- The pages of one cycle. -/
def synchronize.pages (identity : SyncIdentity) : ℕ → SyncQuery → Entries → Pass Synchronization
  | 0, _, _ => throw (.error "Hemlig sync exceeded its page limit.")
  | left + 1, query, entries => do
      let page ← send (.syncAgent identity query)
      let entries := setAll entries page.changes
      match page.nextCursor, page.syncCursor with
      | some cursor, _ => pages identity left (.cursor cursor) entries
      | none, some checkpoint => return ⟨page.config, entries, page.snapshot, checkpoint⟩
      | none, none => throw (.error "Hemlig sync did not return a completed checkpoint.")

/-- One cycle; an expired or outdated cursor is given up for a snapshot, once. -/
def synchronize (identity : SyncIdentity) (syncCursor : Option Checkpoint) :
    Pass Synchronization :=
  tryCatch (synchronize.pages identity pageLimit (.syncCursor syncCursor) fun _ => none)
    fun failure =>
      if failure = .hemligError 410 then
        synchronize.pages identity pageLimit (.syncCursor none) fun _ => none
      else throw failure

/-! ## Consumers -/

structure ReadyConsumer where
  resource : Consumer
  syncIdentity : SyncIdentity
  sync : Synchronization
  readyStatus : ReconciliationStatus

def consumerReferenceKey (resourceNamespace consumerRef : String)
    (consumerNamespace : Option String) : NamespacedName :=
  ⟨consumerNamespace.getD resourceNamespace, consumerRef⟩

def allowsConsumerReference (resourceNamespace : String) (consumerNamespace : Option String)
    (consumer : Option Consumer) : Bool :=
  consumerNamespace = none ∨ consumerNamespace = some resourceNamespace ∨
    consumer.any (·.spec.allowCrossNamespaceReferences)

/-- The cursor of the consumer, if it was stored for the identity. -/
def storedCursor (status : Option ReconciliationStatus) (identity : SyncIdentity) :
    Option Checkpoint :=
  if status.bind ReconciliationStatus.syncIdentity = some identity then
    status.bind ReconciliationStatus.syncCursor
  else none

def readyStatus (resource : Consumer) (config : AgentGrantRecord) : ReconciliationStatus :=
  { resource.status.getD {} with
    observedGeneration := resource.metadata.generation
    consumerId := some config.consumerId
    environment := some config.environment
    grantId := some config.grantId
    conditions := some [readyCondition "IdentityReady"
      "Bootstrap identity is active and scoped by Hemlig."] }

/-- A consumer is enrolled and synchronized. -/
def readyConsumer (resource : Consumer) (providers : List Provider) : Pass ReadyConsumer := do
  let provider ← match providers.find? (·.name = resource.spec.providerRef) with
    | some provider => pure provider
    | none => throw (.reconcileError "ProviderNotFound"
        "The referenced HemligProvider was not found.")
  assertNamespaceAllowed resource.metadata.inNamespace provider
  let identity ← loadOrBootstrapIdentity runtime resource provider
  let syncIdentity : SyncIdentity := ⟨provider.spec.apiUrl, identity.certificate⟩
  let sync ← synchronize syncIdentity (storedCursor resource.status syncIdentity)
  let readyStatus := readyStatus resource sync.config
  setStatus .consumers resource.metadata readyStatus resource.status
  return ⟨resource, syncIdentity, sync, readyStatus⟩

/-- A consumer that cannot be made ready is reported, and the pass goes on without it. -/
def reconcileConsumer (resource : Consumer) (providers : List Provider) :
    Pass (Option ReadyConsumer × Option PassFailure) :=
  tryCatch
    (do
      let consumer ← readyConsumer runtime resource providers
      return (some consumer, none))
    fun failure => do
      setFailure .consumers resource.metadata resource.status failure
      return (none, transient failure)

/-! ## Imports -/

def targetKey (resource : SecretImport) : NamespacedName :=
  ⟨resource.metadata.inNamespace, resource.spec.targetName.getD resource.metadata.name⟩

def targetType (resource : SecretImport) : String := resource.spec.targetType.getD "Opaque"

def payloadToKubernetesData (payload : SecretPayload) : List (String × String) :=
  payload.map fun entry =>
    (entry.1, match entry.2.encoding with
      | .base64 => entry.2.value
      | .utf8 => runtime.encodeBase64 entry.2.value)

/-- The target of an import is the recorded version. -/
def holdsVersion (resource : SecretImport) (status : ReconciliationStatus) (secretUid : String)
    (current : SecretBody) : Bool :=
  isOwnedByImport current (resourceKey resource.metadata) ∧ current.type = targetType resource ∧
    current.annotations.secretUid = some secretUid ∧
    current.annotations.controlVersionId = status.controlVersionId ∧
    current.annotations.payloadVersionId = status.payloadVersionId ∧
    current.annotations.dataChecksum = some (runtime.stringMapChecksum current.data)

/-- The recorded version, if the target still holds it. -/
def currentImportVersion (resource : SecretImport) (secretUid : String) : Pass (Option String) :=
  match resource.status with
  | none => return none
  | some status =>
      if status.secretUid ≠ some secretUid ∨ status.controlVersionId = none ∨
          status.payloadVersionId = none then
        return none
      else
        tryCatch
          (do
            let current ← send (.readNamespacedSecret (targetKey resource))
            return if holdsVersion runtime resource status secretUid current.body then
              status.controlVersionId else none)
          fun failure => if failure.isNotFound then return none else throw failure

/-- What is to be stored for an import. -/
def importBody (resource : SecretImport) (secretUid : String) (remote : AgentSecret) :
    SecretBody :=
  let data := payloadToKubernetesData runtime remote.payload
  { managedBy := some "import"
    annotations :=
      { importOwner := some (resourceKey resource.metadata)
        secretId := some remote.secretId
        secretUid := some secretUid
        controlVersionId := some remote.controlVersionId
        payloadVersionId := remote.payloadVersionId
        dataChecksum := some (runtime.stringMapChecksum data) }
    type := targetType resource
    data := data }

def applyImport (resource : SecretImport) (desired : SecretBody) : Pass Unit :=
  tryCatch
    (do
      let current ← send (.readNamespacedSecret (targetKey resource))
      if isOwnedByImport current.body (resourceKey resource.metadata) then
        send (.replaceNamespacedSecret (targetKey resource) current.resourceVersion desired)
      else
        throw (.reconcileError "TargetOwnershipConflict"
          "The import target is owned by another resource."))
    fun failure =>
      if failure.isNotFound then do
        let _ ← send (.createNamespacedSecret (targetKey resource) desired)
        return ()
      else throw failure

def removeOwnedImport (resource : SecretImport) : Pass Unit :=
  tryCatch
    (do
      let current ← send (.readNamespacedSecret (targetKey resource))
      if isOwnedByImport current.body (resourceKey resource.metadata) then
        send (.deleteNamespacedSecret (targetKey resource))
      else return ())
    fun failure => if failure.isNotFound then return () else throw failure

def materializedStatus (resource : SecretImport) (secretUid : String) (remote : AgentSecret) :
    ReconciliationStatus where
  observedGeneration := resource.metadata.generation
  secretUid := some secretUid
  controlVersionId := some remote.controlVersionId
  payloadVersionId := remote.payloadVersionId
  conditions := some [readyCondition "TargetReady" "Secret materialized from Hemlig."]

/-- The secret that a grant selects by name for an operation, unless the cycle has reported that
the operation is revoked. -/
def selectGrant (sync : Synchronization) (secretId : String) (capability : AgentCapability) :
    Pass AgentSecretGrant :=
  match sync.config.secretGrants.find? (·.secretId = secretId) with
  | none => throw (.hemligError 403)
  | some selected =>
      if capability ∉ sync.config.capabilities ∨ capability ∉ selected.permissions then
        throw (.hemligError 403)
      else if (sync.entries selected.secretUid).any (capability ∉ ·.permissions) then
        throw (.hemligError 403)
      else return selected

/-- The cycle reports the version, or no change. -/
def agrees (sync : Synchronization) (secretUid : String) (version : Option String) : Bool :=
  match sync.entries secretUid with
  | some indexed => some indexed.controlVersionId = version
  | none => !sync.snapshot

/-- The import is up to date: its target holds the recorded version, and the cycle does not report
another one. -/
def isCurrent (resource : SecretImport) (sync : Synchronization) (secretUid : String)
    (localVersion : Option String) : Bool :=
  localVersion.isSome ∧
    resource.status.bind ReconciliationStatus.observedGeneration = resource.metadata.generation ∧
    agrees sync secretUid localVersion

/-- The import is read from the site and stored. -/
def materialize (resource : SecretImport) (consumer : ReadyConsumer) : Pass Unit := do
  let selected ← selectGrant consumer.sync resource.spec.secretId .read
  let localVersion ← currentImportVersion runtime resource selected.secretUid
  if isCurrent resource consumer.sync selected.secretUid localVersion then return ()
  else
    let currentGeneration :=
      resource.status.bind ReconciliationStatus.observedGeneration = resource.metadata.generation
    let remote ← send (.getAgentSecret consumer.syncIdentity resource.spec.secretId
      (if currentGeneration then localVersion else none))
    match remote with
    | none => return ()
    | some remote =>
        applyImport resource (importBody runtime resource selected.secretUid remote)
        setStatus .imports resource.metadata
          (materializedStatus resource selected.secretUid remote) resource.status

def revokedStatus (resource : SecretImport) : ReconciliationStatus where
  observedGeneration := resource.metadata.generation
  conditions := some [falseCondition "AccessRevoked" "Hemlig no longer grants this import."]

def consumerNotReady : PassFailure :=
  .reconcileError "ConsumerNotReady" "The referenced HemligConsumer is not ready."

/-- Whether the resource keeps the consumer from storing its cursor, and the failure to retry. -/
abbrev Outcome := Bool × Option PassFailure

def reconcileImport (resource : SecretImport) (consumer : Option ReadyConsumer) : Pass Outcome :=
  match consumer with
  | none => do
      setFailure .imports resource.metadata resource.status consumerNotReady
      return (false, none)
  | some consumer =>
      tryCatch
        (do
          materialize runtime resource consumer
          return (false, none))
        fun failure =>
          if failure.isRevocation then do
            removeOwnedImport resource
            setStatus .imports resource.metadata (revokedStatus resource) resource.status
            return (false, none)
          else do
            setFailure .imports resource.metadata resource.status failure
            return (true, transient failure)

/-! ## Exports -/

def kubernetesDataToPayload (data : List (String × String)) : SecretPayload :=
  data.map fun entry => (entry.1, ⟨.base64, entry.2⟩)

/-- `stableJson` sorts the tags. -/
def metadataEqual (left right : SecretMetadata) : Bool :=
  left.description = right.description ∧
    left.tags.map (·.mergeSort fun first second => first.1 ≤ second.1) =
      right.tags.map (·.mergeSort fun first second => first.1 ≤ second.1)

/-- The control revision of the secret to write. -/
def exportControl (resource : SecretExport) (consumer : ReadyConsumer)
    (indexed : Option AgentSyncEntry) : Pass AgentControl :=
  tryCatch
    (match indexed.bind fun indexed => indexed.metadata.map fun metadata =>
        (⟨indexed.controlVersionId, indexed.payloadVersionId, metadata⟩ : AgentControl) with
    | some control => return control
    | none => send (.getAgentControl consumer.syncIdentity resource.spec.secretId))
    fun failure =>
      if failure = .hemligError 404 then
        throw (.reconcileError "RemoteSecretNotFound"
          ("An administrator must create this secret and add it to the AgentGrant " ++
            "before export."))
      else throw failure

/-- The export was written as it is now, and the cycle reports no change. -/
def isExported (resource : SecretExport) (sync : Synchronization) (secretUid checksum : String) :
    Bool :=
  sync.entries secretUid = none ∧ ¬ sync.snapshot ∧ resource.status.any fun status =>
    status.secretUid = some secretUid ∧
    status.observedGeneration = resource.metadata.generation ∧
    status.sourceChecksum = some checksum ∧
    (status.conditions.getD []).any fun condition => condition.type = "Ready" ∧ condition.status

def exportedStatus (resource : SecretExport) (secretUid checksum : String)
    (written : AgentControl) : ReconciliationStatus where
  observedGeneration := resource.metadata.generation
  secretUid := some secretUid
  controlVersionId := some written.controlVersionId
  payloadVersionId := written.payloadVersionId
  sourceChecksum := some checksum
  conditions := some [readyCondition "RemoteReady"
    "Source Secret was written through the scoped agent API."]

/-- The payload is at the site already. -/
def payloadMatches (resource : SecretExport) (secretUid checksum : String)
    (control : AgentControl) : Bool :=
  resource.status.any fun status =>
    status.secretUid = some secretUid ∧ status.sourceChecksum = some checksum ∧
      status.payloadVersionId = control.payloadVersionId

/-- The metadata and the payload of an export are written. -/
def writeExport (resource : SecretExport) (consumer : ReadyConsumer) (secretUid : String)
    (payload : SecretPayload) (checksum : String) : Pass AgentControl := do
  let current ← exportControl resource consumer (consumer.sync.entries secretUid)
  let control ←
    if metadataEqual current.metadata resource.spec.metadata then pure current
    else send (.updateAgentSecret consumer.syncIdentity resource.spec.secretId
      current.controlVersionId resource.spec.metadata
      (operationKey runtime.sha256Hex resource.metadata ("metadata:" ++ current.controlVersionId)))
  if payloadMatches resource secretUid checksum control then return control
  else send (.putAgentPayload consumer.syncIdentity resource.spec.secretId
    control.controlVersionId payload
    (operationKey runtime.sha256Hex resource.metadata
      ("payload:" ++ checksum ++ ":" ++ control.controlVersionId)))

def publishExport (resource : SecretExport) (consumer : ReadyConsumer) : Pass Unit := do
  let selected ← selectGrant consumer.sync resource.spec.secretId .write
  let source ← send (.readNamespacedSecret
    ⟨resource.metadata.inNamespace, resource.spec.sourceName⟩)
  if source.body.managedBy = some "import" then
    throw (.reconcileError "SourceIsImportManaged"
      "An export cannot source a Hemlig-managed import.")
  else
    let payload := kubernetesDataToPayload source.body.data
    let checksum := runtime.payloadChecksum payload
    if isExported resource consumer.sync selected.secretUid checksum then return ()
    else
      let written ← writeExport runtime resource consumer selected.secretUid payload checksum
      setStatus .exports resource.metadata
        (exportedStatus resource selected.secretUid checksum written) resource.status

def reconcileExport (resource : SecretExport) (consumer : Option ReadyConsumer) : Pass Outcome :=
  match consumer with
  | none => do
      setFailure .exports resource.metadata resource.status consumerNotReady
      return (false, none)
  | some consumer =>
      tryCatch
        (do
          publishExport runtime resource consumer
          return (false, none))
        fun failure => do
          setFailure .exports resource.metadata resource.status failure
          return (!failure.isRevocation, transient failure)

/-! ## The pass -/

/-- The consumers of which something failed, and the failure to retry. -/
structure Progress where
  syncFailed : List NamespacedName := []
  passRetryError : Option PassFailure := none

/-- What a resource of a consumer leaves; a later failure replaces an earlier one. -/
def Progress.add (progress : Progress) (consumer : Option ReadyConsumer) (outcome : Outcome) :
    Progress where
  syncFailed := progress.syncFailed ++
    if outcome.1 then (consumer.map (keyOf ·.resource.metadata)).toList else []
  passRetryError := outcome.2.or progress.passRetryError

/-- The consumer that a resource refers to. -/
def referenced (readyConsumers : List ReadyConsumer) (metadata : ObjectMeta)
    (consumerRef : String) (consumerNamespace : Option String) : Option ReadyConsumer :=
  readyConsumers.find? fun consumer => keyOf consumer.resource.metadata =
    consumerReferenceKey metadata.inNamespace consumerRef consumerNamespace

/-- That consumer, if it allows the reference. -/
def usable (metadata : ObjectMeta) (consumerNamespace : Option String)
    (consumer : Option ReadyConsumer) : Option ReadyConsumer :=
  if allowsConsumerReference metadata.inNamespace consumerNamespace
      (consumer.map ReadyConsumer.resource) then consumer else none

def reconcileConsumers (providers : List Provider) :
    List Consumer → List ReadyConsumer → Option PassFailure →
      Pass (List ReadyConsumer × Option PassFailure)
  | [], readyConsumers, passRetryError => return (readyConsumers, passRetryError)
  | resource :: rest, readyConsumers, passRetryError => do
      let (ready, failure) ← reconcileConsumer runtime resource providers
      reconcileConsumers providers rest (readyConsumers ++ ready.toList) (failure.or passRetryError)

def reconcileImports (readyConsumers : List ReadyConsumer) :
    List SecretImport → Progress → Pass Progress
  | [], progress => return progress
  | resource :: rest, progress => do
      let consumer := referenced readyConsumers resource.metadata resource.spec.consumerRef
        resource.spec.consumerNamespace
      let usableConsumer := usable resource.metadata resource.spec.consumerNamespace consumer
      -- A reference that is no longer allowed is a revocation.
      if consumer.isSome ∧ usableConsumer.isNone then removeOwnedImport resource
      let outcome ← reconcileImport runtime resource usableConsumer
      reconcileImports readyConsumers rest (progress.add usableConsumer outcome)

def reconcileExports (readyConsumers : List ReadyConsumer) :
    List SecretExport → Progress → Pass Progress
  | [], progress => return progress
  | resource :: rest, progress => do
      let consumer := usable resource.metadata resource.spec.consumerNamespace
        (referenced readyConsumers resource.metadata resource.spec.consumerRef
          resource.spec.consumerNamespace)
      let outcome ← reconcileExport runtime resource consumer
      reconcileExports readyConsumers rest (progress.add consumer outcome)

/-- The status of a consumer whose cycle is applied. -/
def completedStatus (consumer : ReadyConsumer) : ReconciliationStatus :=
  { consumer.readyStatus with
    syncCursor := some consumer.sync.checkpoint
    syncIdentity := some consumer.syncIdentity }

/-- The cursors of the completed cycles are stored. -/
def storeCheckpoints (syncFailed : List NamespacedName) : List ReadyConsumer → Pass Unit
  | [] => return ()
  | consumer :: rest => do
      if keyOf consumer.resource.metadata ∉ syncFailed then
        setStatus .consumers consumer.resource.metadata (completedStatus consumer)
          (some consumer.readyStatus)
      storeCheckpoints syncFailed rest

/-- What a pass does once it has set `reconciling`. -/
def reconcileResources : Pass (Option PassFailure) := do
  let providers ← send .listProviders
  let consumers ← send .listConsumers
  let imports ← send .listImports
  let secretExports ← send .listExports
  let (readyConsumers, failure) ← reconcileConsumers runtime providers consumers [] none
  let imported ← reconcileImports runtime readyConsumers imports ⟨[], failure⟩
  let progress ← reconcileExports runtime readyConsumers secretExports imported
  storeCheckpoints progress.syncFailed readyConsumers
  return progress.passRetryError

/-- One pass; while another one runs, only a rerun is requested. -/
def reconcileAll : Pass (Option PassFailure) := do
  let started : Bool ← send .start
  if started then
    let failure ← tryCatch (reconcileResources runtime) fun failure => do
      send .finish
      throw failure
    send .finish
    return failure
  else return none

/-! ## The system -/

/-- Any number of passes over one cluster. -/
def controller : System Request Request.Answer PassFailure (Option PassFailure) Cluster Choice Unit
    Event where
  exec pid q choice s := s.exec pid q choice
  code _ := reconcileAll runtime
  register _ s := s
  environment event s := s.environment event

abbrev ControllerWorld :=
  World Request Request.Answer PassFailure (Option PassFailure) Cluster Unit

abbrev ControllerAction := Action Choice Unit Event

end Hemlig.Kubernetes
