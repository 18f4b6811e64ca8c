import Hemlig.Repositories.Grants

/-!
# The registry as a state machine

The consumers, their identities, their enrollments, the idempotency records, the
truststore lease and the grants of agents, apart from everything else: a registry, the
moves it can make, and what every move keeps.  A move is one transaction of the
repository, with the conditions that its writes test; of an enrollment and of a rotation
it also says what the process that sends them has made sure of.

The rows only ever grow more definite (`Extends`): an enrollment that has ended stays as
it is, so does an identity that was revoked or failed; an idempotency record never
passes to another operation, and neither an active grant nor a consumed capability to
another identity.
-/

namespace Hemlig

/-! ## Registries -/

structure Registry where
  identities : String → Option IdentityRecord
  enrollments : (operationId : String) → Option (StoredEnrollment operationId)
  consumers : String → Option ConsumerRecord
  records : Actor × String → Option IdempotencyRecord
  truststore : Option TruststoreState
  grants : (grantId : String) → Option (StoredGrant grantId)
  grantOf : String → Option String
  capabilities : (tokenHash : String) → Option (StoredCapability tokenHash)

/-- The rows of a table that belong to the registry. -/
def Registry.ofTable (table : Store.Table Key Item) : Registry where
  identities fingerprint := table.get (.identity fingerprint)
  enrollments operationId := table.get (.enrollment operationId)
  consumers consumerId := table.get (.consumer consumerId)
  records key := table.get (.idempotency key.1 key.2)
  truststore := table.get .truststoreState
  grants grantId := table.get (.agentGrant grantId)
  grantOf consumerId := table.get (.agentGrantOf consumerId)
  capabilities tokenHash := table.get (.bootstrap tokenHash)

/-- The registry in the control table. -/
def Cloud.registry (s : Cloud) : Registry := .ofTable s.table

/-- The items a registry is made of. -/
def Key.ofRegistry : Key → Bool
  | .identity _ | .enrollment _ | .consumer _ | .idempotency _ _ | .truststoreState
  | .agentGrant _ | .agentGrantOf _ | .bootstrap _ => true
  | _ => false

namespace Registry

open Store

theorem ofTable_congr {table table' : Table Key Item}
    (h : ∀ key, key.ofRegistry = true → table'.get key = table.get key) :
    ofTable table' = ofTable table := by
  simp only [ofTable, Registry.mk.injEq]
  exact ⟨funext fun _ => h _ rfl, funext fun _ => h _ rfl, funext fun _ => h _ rfl,
    funext fun _ => h _ rfl, h _ rfl, funext fun _ => h _ rfl, funext fun _ => h _ rfl,
    funext fun _ => h _ rfl⟩

/-- A transaction on other items. -/
theorem ofTable_of_transact {table table' : Table Key Item} {conflicts : List ℕ}
    {writes : List TableWrite} (h : transact table conflicts writes = .ok table')
    (hwrites : ∀ write ∈ writes, write.key.ofRegistry = false) :
    ofTable table' = ofTable table := by
  refine ofTable_congr fun key hkey => get_of_not_mem h fun hmem => ?_
  obtain ⟨write, hwrite, rfl⟩ := List.mem_map.mp hmem
  simp [hwrites write hwrite] at hkey

/-! ### One row -/

theorem ofTable_set_other (table : Table Key Item) {key : Key} (item : Option (Item key))
    (hkey : key.ofRegistry = false) : ofTable (table.set key item) = ofTable table :=
  ofTable_congr fun other hother =>
    Table.get_set_of_ne _ _ fun h => by simp [h, hkey] at hother

/-- The key of an idempotency record. -/
private def recordKey (key : Actor × String) : Key := .idempotency key.1 key.2

section Rows

variable {α : Type} [DecidableEq α] (key : α → Key) (table : Table Key Item)

/-- A family of rows, when one of them is set. -/
private theorem rows_set (hkey : Function.Injective key) (changed : α)
    (item : Option (Item (key changed))) :
    (fun row => (table.set (key changed) item).get (key row)) =
      Function.update (fun row => table.get (key row)) changed item := by
  funext row
  by_cases hrow : row = changed
  · subst hrow
    rw [Function.update_self]
    exact Table.get_set_self _ _ _
  · rw [Function.update_of_ne hrow]
    exact Table.get_set_of_ne _ _ fun h => hrow (hkey h)

omit [DecidableEq α] in
/-- A family of rows, when another row is set. -/
private theorem rows_set_other (changed : Key) (item : Option (Item changed))
    (hkey : ∀ row, key row ≠ changed) :
    (fun row => (table.set changed item).get (key row)) = fun row => table.get (key row) :=
  funext fun row => Table.get_set_of_ne _ _ (hkey row)

end Rows

@[simp] theorem ofTable_set_identity (table : Table Key Item) (fingerprint : String)
    (item : Option IdentityRecord) :
    ofTable (table.set (.identity fingerprint) item) =
      { ofTable table with
        identities := Function.update (ofTable table).identities fingerprint item } := by
  simp only [ofTable, Registry.mk.injEq]
  exact ⟨rows_set .identity table (fun _ _ h => by simpa using h) fingerprint item,
    rows_set_other .enrollment table (.identity fingerprint) item (by simp),
    rows_set_other .consumer table (.identity fingerprint) item (by simp),
    rows_set_other recordKey table (.identity fingerprint) item (by simp [recordKey]),
    Table.get_set_of_ne _ _ (by simp),
    rows_set_other .agentGrant table (.identity fingerprint) item (by simp),
    rows_set_other .agentGrantOf table (.identity fingerprint) item (by simp),
    rows_set_other .bootstrap table (.identity fingerprint) item (by simp)⟩

@[simp] theorem ofTable_set_enrollment (table : Table Key Item) (operationId : String)
    (item : Option (StoredEnrollment operationId)) :
    ofTable (table.set (.enrollment operationId) item) =
      { ofTable table with
        enrollments := Function.update (ofTable table).enrollments operationId item } := by
  simp only [ofTable, Registry.mk.injEq]
  exact ⟨rows_set_other .identity table (.enrollment operationId) item (by simp),
    rows_set .enrollment table (fun _ _ h => by simpa using h) operationId item,
    rows_set_other .consumer table (.enrollment operationId) item (by simp),
    rows_set_other recordKey table (.enrollment operationId) item (by simp [recordKey]),
    Table.get_set_of_ne _ _ (by simp),
    rows_set_other .agentGrant table (.enrollment operationId) item (by simp),
    rows_set_other .agentGrantOf table (.enrollment operationId) item (by simp),
    rows_set_other .bootstrap table (.enrollment operationId) item (by simp)⟩

@[simp] theorem ofTable_set_consumer (table : Table Key Item) (consumerId : String)
    (item : Option ConsumerRecord) :
    ofTable (table.set (.consumer consumerId) item) =
      { ofTable table with
        consumers := Function.update (ofTable table).consumers consumerId item } := by
  simp only [ofTable, Registry.mk.injEq]
  exact ⟨rows_set_other .identity table (.consumer consumerId) item (by simp),
    rows_set_other .enrollment table (.consumer consumerId) item (by simp),
    rows_set .consumer table (fun _ _ h => by simpa using h) consumerId item,
    rows_set_other recordKey table (.consumer consumerId) item (by simp [recordKey]),
    Table.get_set_of_ne _ _ (by simp),
    rows_set_other .agentGrant table (.consumer consumerId) item (by simp),
    rows_set_other .agentGrantOf table (.consumer consumerId) item (by simp),
    rows_set_other .bootstrap table (.consumer consumerId) item (by simp)⟩

@[simp] theorem ofTable_set_idempotency (table : Table Key Item) (actor : Actor)
    (idempotencyKey : String)
    (item : Option IdempotencyRecord) :
    ofTable (table.set (.idempotency actor idempotencyKey) item) =
      { ofTable table with
        records := Function.update (ofTable table).records (actor, idempotencyKey) item } := by
  simp only [ofTable, Registry.mk.injEq]
  exact ⟨rows_set_other .identity table (.idempotency actor idempotencyKey) item (by simp),
    rows_set_other .enrollment table (.idempotency actor idempotencyKey) item (by simp),
    rows_set_other .consumer table (.idempotency actor idempotencyKey) item (by simp),
    rows_set recordKey table
        (fun _ _ h => by simpa [recordKey, Prod.ext_iff] using h) (actor, idempotencyKey) item,
    Table.get_set_of_ne _ _ (by simp),
    rows_set_other .agentGrant table (.idempotency actor idempotencyKey) item (by simp),
    rows_set_other .agentGrantOf table (.idempotency actor idempotencyKey) item (by simp),
    rows_set_other .bootstrap table (.idempotency actor idempotencyKey) item (by simp)⟩

@[simp] theorem ofTable_set_truststoreState (table : Table Key Item)
    (item : Option TruststoreState) :
    ofTable (table.set .truststoreState item) =
      { ofTable table with
        truststore := item } := by
  simp only [ofTable, Registry.mk.injEq]
  exact ⟨rows_set_other .identity table .truststoreState item (by simp),
    rows_set_other .enrollment table .truststoreState item (by simp),
    rows_set_other .consumer table .truststoreState item (by simp),
    rows_set_other recordKey table .truststoreState item (by simp [recordKey]),
    Table.get_set_self _ _ _,
    rows_set_other .agentGrant table .truststoreState item (by simp),
    rows_set_other .agentGrantOf table .truststoreState item (by simp),
    rows_set_other .bootstrap table .truststoreState item (by simp)⟩

@[simp] theorem ofTable_set_agentGrant (table : Table Key Item) (grantId : String)
    (item : Option (StoredGrant grantId)) :
    ofTable (table.set (.agentGrant grantId) item) =
      { ofTable table with
        grants := Function.update (ofTable table).grants grantId item } := by
  simp only [ofTable, Registry.mk.injEq]
  exact ⟨rows_set_other .identity table (.agentGrant grantId) item (by simp),
    rows_set_other .enrollment table (.agentGrant grantId) item (by simp),
    rows_set_other .consumer table (.agentGrant grantId) item (by simp),
    rows_set_other recordKey table (.agentGrant grantId) item (by simp [recordKey]),
    Table.get_set_of_ne _ _ (by simp),
    rows_set .agentGrant table (fun _ _ h => by simpa using h) grantId item,
    rows_set_other .agentGrantOf table (.agentGrant grantId) item (by simp),
    rows_set_other .bootstrap table (.agentGrant grantId) item (by simp)⟩

@[simp] theorem ofTable_set_agentGrantOf (table : Table Key Item) (consumerId : String)
    (item : Option String) :
    ofTable (table.set (.agentGrantOf consumerId) item) =
      { ofTable table with
        grantOf := Function.update (ofTable table).grantOf consumerId item } := by
  simp only [ofTable, Registry.mk.injEq]
  exact ⟨rows_set_other .identity table (.agentGrantOf consumerId) item (by simp),
    rows_set_other .enrollment table (.agentGrantOf consumerId) item (by simp),
    rows_set_other .consumer table (.agentGrantOf consumerId) item (by simp),
    rows_set_other recordKey table (.agentGrantOf consumerId) item (by simp [recordKey]),
    Table.get_set_of_ne _ _ (by simp),
    rows_set_other .agentGrant table (.agentGrantOf consumerId) item (by simp),
    rows_set .agentGrantOf table (fun _ _ h => by simpa using h) consumerId item,
    rows_set_other .bootstrap table (.agentGrantOf consumerId) item (by simp)⟩

@[simp] theorem ofTable_set_bootstrap (table : Table Key Item) (tokenHash : String)
    (item : Option (StoredCapability tokenHash)) :
    ofTable (table.set (.bootstrap tokenHash) item) =
      { ofTable table with
        capabilities := Function.update (ofTable table).capabilities tokenHash item } := by
  simp only [ofTable, Registry.mk.injEq]
  exact ⟨rows_set_other .identity table (.bootstrap tokenHash) item (by simp),
    rows_set_other .enrollment table (.bootstrap tokenHash) item (by simp),
    rows_set_other .consumer table (.bootstrap tokenHash) item (by simp),
    rows_set_other recordKey table (.bootstrap tokenHash) item (by simp [recordKey]),
    Table.get_set_of_ne _ _ (by simp),
    rows_set_other .agentGrant table (.bootstrap tokenHash) item (by simp),
    rows_set_other .agentGrantOf table (.bootstrap tokenHash) item (by simp),
    rows_set .bootstrap table (fun _ _ h => by simpa using h) tokenHash item⟩

end Registry

/-! ## What stays -/

/-- The fields of an enrollment that its end does not touch. -/
def EnrollmentRecord.fixed (operation : EnrollmentRecord) : EnrollmentRecord :=
  { operation with workflowState := .prepared, workflowDue := none }

/-- An identity, whatever its status. -/
def IdentityRecord.fixed (identity : IdentityRecord) : IdentityRecord :=
  identity.withStatus .pending

/-- What a record says of the operation that claimed its key. -/
def IdempotencyRecord.fixed (record : IdempotencyRecord) : IdempotencyRecord :=
  { record with status := .prepared, terminalAuditEventId := none }

/-- A grant, whatever its policy and whoever it was activated for. -/
def AgentGrantRecord.fixed (grant : AgentGrantRecord) : AgentGrantRecord :=
  { grant with
    capabilities := []
    secretGrants := []
    displayName := none
    status := .pending
    activatedAt := none
    activatedFingerprint := none }

/-- The grant is active for the identity of the fingerprint. -/
def AgentGrantRecord.ActiveFor (grant : AgentGrantRecord) (fingerprint : String) : Prop :=
  grant.status = .active ∧ grant.activatedFingerprint = some fingerprint

/-- The identity of an enrollment is for the consumer and the key of its request. -/
structure PreparedEnrollment.Matches (enrollment : PreparedEnrollment) : Prop where
  consumerId : enrollment.apiIdentity.consumerId = enrollment.consumerId
  environment : enrollment.apiIdentity.environment = enrollment.environment
  kind : enrollment.apiIdentity.kind = .api
  key : ∃ rootFingerprint csr, enrollment.requestDigest =
      .enroll enrollment.consumerId enrollment.environment rootFingerprint csr ∧
    enrollment.apiIdentity.certificatePem.publicKey = csr.publicKey

/-- An enrollment that has ended stays as it is. -/
structure EnrollmentStep (operation operation' : EnrollmentRecord) : Prop where
  fixed : operation'.fixed = operation.fixed
  ended : operation.workflowState ≠ .prepared → operation' = operation

/-- A revoked or failed identity stays as it is. -/
structure IdentityStep (identity identity' : IdentityRecord) : Prop where
  fixed : identity'.fixed = identity.fixed
  ended : identity.status ≠ .pending → identity.status ≠ .active → identity' = identity

/-- A succeeded record stays succeeded. -/
structure RecordStep (record record' : IdempotencyRecord) : Prop where
  fixed : record'.fixed = record.fixed
  succeeded : record.status = .succeeded → record'.status = .succeeded

theorem RecordStep.refl (record : IdempotencyRecord) : RecordStep record record := ⟨rfl, id⟩

theorem RecordStep.trans {first second third : IdempotencyRecord} (h : RecordStep first second)
    (h' : RecordStep second third) : RecordStep first third :=
  ⟨h'.fixed.trans h.fixed, fun hsucceeded => h'.succeeded (h.succeeded hsucceeded)⟩

/-- An active grant stays active for the same identity. -/
structure GrantStep (grant grant' : AgentGrantRecord) : Prop where
  fixed : grant'.fixed = grant.fixed
  active : ∀ {fingerprint}, grant.ActiveFor fingerprint → grant'.ActiveFor fingerprint

theorem GrantStep.refl (grant : AgentGrantRecord) : GrantStep grant grant := ⟨rfl, id⟩

theorem GrantStep.trans {first second third : AgentGrantRecord} (h : GrantStep first second)
    (h' : GrantStep second third) : GrantStep first third :=
  ⟨h'.fixed.trans h.fixed, fun hactive => h'.active (h.active hactive)⟩

theorem EnrollmentStep.refl (operation : EnrollmentRecord) : EnrollmentStep operation operation :=
  ⟨rfl, fun _ => rfl⟩

theorem EnrollmentStep.trans {first second third : EnrollmentRecord}
    (h : EnrollmentStep first second) (h' : EnrollmentStep second third) :
    EnrollmentStep first third := by
  refine ⟨h'.fixed.trans h.fixed, fun hended => ?_⟩
  have hsame : second = first := h.ended hended
  exact (h'.ended (hsame ▸ hended)).trans hsame

theorem IdentityStep.refl (identity : IdentityRecord) : IdentityStep identity identity :=
  ⟨rfl, fun _ _ => rfl⟩

theorem IdentityStep.trans {first second third : IdentityRecord}
    (h : IdentityStep first second) (h' : IdentityStep second third) :
    IdentityStep first third := by
  refine ⟨h'.fixed.trans h.fixed, fun hpending hactive => ?_⟩
  have hsame : second = first := h.ended hpending hactive
  exact (h'.ended (hsame ▸ hpending) (hsame ▸ hactive)).trans hsame

theorem EnrollmentStep.settle {operationId : String} {row : StoredEnrollment operationId}
    (hprepared : row.record.workflowState = .prepared) (state : WorkflowState) :
    EnrollmentStep row.record (row.settle state).record :=
  ⟨rfl, fun hended => absurd hprepared hended⟩

theorem IdentityStep.withStatus {identity : IdentityRecord}
    (hactive : identity.status = .pending ∨ identity.status = .active) (status : IdentityStatus) :
    IdentityStep identity (identity.withStatus status) :=
  ⟨rfl, fun hpending hnot => (hactive.elim hpending hnot).elim⟩

namespace Registry

/-- What one registry may become. -/
structure Extends (r r' : Registry) : Prop where
  enrollments : ∀ {operationId row}, r.enrollments operationId = some row →
    ∃ row', r'.enrollments operationId = some row' ∧ EnrollmentStep row.record row'.record
  identities : ∀ {fingerprint identity}, r.identities fingerprint = some identity →
    ∃ identity', r'.identities fingerprint = some identity' ∧ IdentityStep identity identity'
  consumers : ∀ {consumerId consumer}, r.consumers consumerId = some consumer →
    consumer.status = .active → r'.consumers consumerId = some consumer
  records : ∀ {key record}, r.records key = some record →
    ∃ record', r'.records key = some record' ∧ RecordStep record record'
  grants : ∀ {grantId grant}, r.grants grantId = some grant →
    ∃ grant', r'.grants grantId = some grant' ∧ GrantStep grant.record grant'.record
  grantOf : ∀ {consumerId grantId}, r.grantOf consumerId = some grantId →
    r'.grantOf consumerId = some grantId

theorem Extends.refl (r : Registry) : Extends r r where
  enrollments h := ⟨_, h, .refl _⟩
  identities h := ⟨_, h, .refl _⟩
  consumers h _ := h
  records h := ⟨_, h, .refl _⟩
  grants h := ⟨_, h, .refl _⟩
  grantOf := id

theorem Extends.of_eq {r r' : Registry} (h : r' = r) : Extends r r' := h ▸ .refl r

theorem Extends.trans {r r' r'' : Registry} (h : Extends r r') (h' : Extends r' r'') :
    Extends r r'' where
  enrollments hrow := by
    obtain ⟨row', hrow', hstep⟩ := h.enrollments hrow
    obtain ⟨row'', hrow'', hstep'⟩ := h'.enrollments hrow'
    exact ⟨row'', hrow'', hstep.trans hstep'⟩
  identities hidentity := by
    obtain ⟨identity', hidentity', hstep⟩ := h.identities hidentity
    obtain ⟨identity'', hidentity'', hstep'⟩ := h'.identities hidentity'
    exact ⟨identity'', hidentity'', hstep.trans hstep'⟩
  consumers hconsumer hactive := h'.consumers (h.consumers hconsumer hactive) hactive
  records hrecord := by
    obtain ⟨record', hrecord', hstep⟩ := h.records hrecord
    obtain ⟨record'', hrecord'', hstep'⟩ := h'.records hrecord'
    exact ⟨record'', hrecord'', hstep.trans hstep'⟩
  grants hgrant := by
    obtain ⟨grant', hgrant', hstep⟩ := h.grants hgrant
    obtain ⟨grant'', hgrant'', hstep'⟩ := h'.grants hgrant'
    exact ⟨grant'', hgrant'', hstep.trans hstep'⟩
  grantOf hconsumer := h'.grantOf (h.grantOf hconsumer)

/-- The consumer is active. -/
def ActiveConsumer (r : Registry) (consumerId : String) : Prop :=
  ∃ consumer, r.consumers consumerId = some consumer ∧ consumer.status = .active

theorem ActiveConsumer.mono {r r' : Registry} {consumerId : String}
    (h : r.ActiveConsumer consumerId) (hextends : Extends r r') : r'.ActiveConsumer consumerId := by
  obtain ⟨consumer, hconsumer, hactive⟩ := h
  exact ⟨consumer, hextends.consumers hconsumer hactive, hactive⟩

/-- The operation was enrolled as it is given. -/
def Enrolled (r : Registry) (operation : EnrollmentRecord) : Prop :=
  ∃ row, r.enrollments operation.operationId = some row ∧ row.record.fixed = operation.fixed

/-- The key was claimed by the operation of the record. -/
def Claimed (r : Registry) (claim : (Actor × String) × IdempotencyRecord) : Prop :=
  ∃ record, r.records claim.1 = some record ∧ record.fixed = claim.2.fixed

theorem Claimed.mono {r r' : Registry} {claim : (Actor × String) × IdempotencyRecord}
    (h : r.Claimed claim) (hextends : Extends r r') : r'.Claimed claim := by
  obtain ⟨record, hrecord, hfixed⟩ := h
  obtain ⟨record', hrecord', hstep⟩ := hextends.records hrecord
  exact ⟨record', hrecord', hstep.fixed.trans hfixed⟩

theorem Enrolled.mono {r r' : Registry} {operation : EnrollmentRecord} (h : r.Enrolled operation)
    (hextends : Extends r r') : r'.Enrolled operation := by
  obtain ⟨row, hrow, hfixed⟩ := h
  obtain ⟨row', hrow', hstep⟩ := hextends.enrollments hrow
  exact ⟨row', hrow', hstep.fixed.trans hfixed⟩

end Registry

/-! ## Moves -/

/-- The moves of a registry, with what each of them writes. -/
inductive RegistryMove
  | start (enrollment : PreparedEnrollment)
  | complete (operation : EnrollmentRecord) (truststore : TruststoreReference)
      (rootFingerprints : List String)
  | fail (operation : EnrollmentRecord)
  | rotate (actor : Actor) (idempotencyKey : String) (requestDigest : OperationDigest)
      (identity : ApiIdentity) (rootFingerprint : String)
  | revoke (actor : Actor) (idempotencyKey : String) (requestDigest : OperationDigest)
      (consumerId fingerprint : String)
  | associate (operation : EnrollmentRecord) (actor : Actor) (idempotencyKey : String)
  | claim (mutation : PreparedMutation)
  | mark (actor : Actor) (idempotencyKey eventId : String)
  /-- The truststore state changes; no row does. -/
  | truststore (state : TruststoreState)
  | grant (grant : AgentGrantRecord)
  | policy (grant : AgentGrantRecord) (removeDisplayName : Bool)
  | activate (grantId fingerprint : String) (activatedAt : Time)
  | issue (capability : BootstrapCapabilityRecord)
  | consume (tokenHash fingerprint : String) (consumedAt : Time)
  /-- A capability whose time has passed is removed. -/
  | forget (tokenHash : String)

namespace Registry

open DynamoRepository

/-- The rows of an operation that has not ended, as the holder of the lease finds them. -/
structure Waiting (r : Registry) (operation : EnrollmentRecord) (identity : IdentityRecord)
    (row : StoredEnrollment operation.operationId) (consumer : ConsumerRecord)
    (state : TruststoreState) : Prop where
  storedIdentity : r.identities operation.apiFingerprint = some identity
  pending : identity.status = .pending
  owner : identity.consumerId = operation.consumerId
  storedRow : r.enrollments operation.operationId = some row
  prepared : row.record.workflowState = .prepared
  fixed : row.record.fixed = operation.fixed
  storedConsumer : r.consumers operation.consumerId = some consumer
  waiting : consumer.status = .pending
  storedState : r.truststore = some state
  lease : state.leaseOwner = some operation.operationId

/-- What one move does, and when it can happen. -/
inductive Step (r : Registry) : RegistryMove → Registry → Prop
  | start {enrollment : PreparedEnrollment} (hmatches : enrollment.Matches)
      (hrecord : r.records (enrollment.actor, enrollment.idempotencyKey) = none)
      (hidentity : r.identities enrollment.apiIdentity.fingerprint = none)
      (henrollment : r.enrollments enrollment.operationId = none)
      (hconsumer : r.consumers enrollment.consumerId = none) :
      Step r (.start enrollment)
        { r with
          identities := Function.update r.identities enrollment.apiIdentity.fingerprint
            (some (enrollment.apiIdentity.item .pending))
          enrollments := Function.update r.enrollments enrollment.operationId
            (some ⟨enrollment.operationItem, rfl⟩)
          consumers := Function.update r.consumers enrollment.consumerId
            (some enrollment.consumerItem)
          records := Function.update r.records (enrollment.actor, enrollment.idempotencyKey)
            (some enrollment.idempotencyItem) }
  | complete {operation : EnrollmentRecord} {truststore : TruststoreReference}
      {rootFingerprints : List String} {identity : IdentityRecord}
      {row : StoredEnrollment operation.operationId} {consumer : ConsumerRecord}
      {state : TruststoreState} (h : r.Waiting operation identity row consumer state)
      (henvironment : consumer.environment = operation.environment) :
      Step r (.complete operation truststore rootFingerprints)
        { r with
          identities := Function.update r.identities operation.apiFingerprint
            (some (identity.withStatus .active))
          enrollments := Function.update r.enrollments operation.operationId
            (some (row.settle .ready))
          consumers := Function.update r.consumers operation.consumerId (some consumer.activate)
          truststore := some (state.publish truststore rootFingerprints) }
  | fail {operation : EnrollmentRecord} {identity : IdentityRecord}
      {row : StoredEnrollment operation.operationId} {consumer : ConsumerRecord}
      {state : TruststoreState} (h : r.Waiting operation identity row consumer state) :
      Step r (.fail operation)
        { r with
          identities := Function.update r.identities operation.apiFingerprint
            (some (identity.withStatus .failed))
          enrollments := Function.update r.enrollments operation.operationId
            (some (row.settle .failed))
          consumers := Function.update r.consumers operation.consumerId none
          truststore := some state.release }
  | rotate {actor : Actor} {idempotencyKey : String} {requestDigest : OperationDigest}
      {identity : ApiIdentity} {rootFingerprint : String}
      (hactive : r.ActiveConsumer identity.consumerId)
      (hrecord : r.records (actor, idempotencyKey) = none)
      (hidentity : r.identities identity.fingerprint = none) :
      Step r (.rotate actor idempotencyKey requestDigest identity rootFingerprint)
        { r with
          identities := Function.update r.identities identity.fingerprint
            (some (identity.item .active))
          records := Function.update r.records (actor, idempotencyKey)
            (some (rotatedItem requestDigest identity rootFingerprint)) }
  | revoke {actor : Actor} {idempotencyKey : String} {requestDigest : OperationDigest}
      {consumerId fingerprint : String} {identity : IdentityRecord}
      (hrecord : r.records (actor, idempotencyKey) = none)
      (hidentity : r.identities fingerprint = some identity)
      (howner : identity.consumerId = consumerId) (hkind : identity.kind = .api)
      (hactive : identity.status = .active) :
      Step r (.revoke actor idempotencyKey requestDigest consumerId fingerprint)
        { r with
          identities := Function.update r.identities fingerprint
            (some (identity.withStatus .revoked))
          records := Function.update r.records (actor, idempotencyKey)
            (some (revokedItem requestDigest consumerId fingerprint)) }
  | associate {operation : EnrollmentRecord} {actor : Actor} {idempotencyKey : String}
      (henrolled : r.Enrolled operation) (hrecord : r.records (actor, idempotencyKey) = none) :
      Step r (.associate operation actor idempotencyKey)
        { r with
          records := Function.update r.records (actor, idempotencyKey)
            (some (associatedItem operation)) }
  | claim {mutation : PreparedMutation}
      (hrecord : r.records (mutation.actor, mutation.idempotencyKey) = none) :
      Step r (.claim mutation)
        { r with
          records := Function.update r.records (mutation.actor, mutation.idempotencyKey)
            (some (idempotencyItem mutation)) }
  | mark {actor : Actor} {idempotencyKey eventId : String} :
      Step r (.mark actor idempotencyKey eventId)
        { r with
          records := Function.update r.records (actor, idempotencyKey)
            (some (((r.records (actor, idempotencyKey)).getD { status := .succeeded }).succeed
              eventId)) }
  | truststore {state : TruststoreState} :
      Step r (.truststore state) { r with truststore := some state }
  | grant {grant : AgentGrantRecord} (hgrant : r.grants grant.grantId = none)
      (hconsumer : r.grantOf grant.consumerId = none) :
      Step r (.grant grant)
        { r with
          grants := Function.update r.grants grant.grantId (some ⟨grant, rfl⟩)
          grantOf := Function.update r.grantOf grant.consumerId (some grant.grantId) }
  | policy {grant : AgentGrantRecord} {removeDisplayName : Bool}
      {stored : StoredGrant grant.grantId} (hgrant : r.grants grant.grantId = some stored) :
      Step r (.policy grant removeDisplayName)
        { r with
          grants := Function.update r.grants grant.grantId
            (some (applyPolicy grant removeDisplayName stored)) }
  | activate {grantId fingerprint : String} {activatedAt : Time} {stored : StoredGrant grantId}
      (hgrant : r.grants grantId = some stored) (hpending : stored.record.status = .pending) :
      Step r (.activate grantId fingerprint activatedAt)
        { r with
          grants := Function.update r.grants grantId
            (some (activateGrant fingerprint activatedAt stored)) }
  | issue {capability : BootstrapCapabilityRecord}
      (hcapability : r.capabilities capability.tokenHash = none) :
      Step r (.issue capability)
        { r with
          capabilities := Function.update r.capabilities capability.tokenHash
            (some ⟨capability, rfl⟩) }
  | consume {tokenHash fingerprint : String} {consumedAt : Time}
      {stored : StoredCapability tokenHash} (hcapability : r.capabilities tokenHash = some stored)
      (hpending : stored.record.status = .pending) :
      Step r (.consume tokenHash fingerprint consumedAt)
        { r with
          capabilities := Function.update r.capabilities tokenHash
            (some (consumeCapability fingerprint consumedAt stored)) }
  | forget {tokenHash : String} :
      Step r (.forget tokenHash)
        { r with capabilities := Function.update r.capabilities tokenHash none }

variable {r r' : Registry} {move : RegistryMove}

/-! ## What every move keeps -/

/-- Rows that are kept, when one of them changes as it may or a new one is stored. -/
private theorem kept_update {α : Type} [DecidableEq α] {β : α → Type}
    {rows : (key : α) → Option (β key)} (K : (key : α) → β key → β key → Prop)
    (hrefl : ∀ key row, K key row row) {changed : α} {value : Option (β changed)}
    (h : ∀ row, rows changed = some row → ∃ row', value = some row' ∧ K changed row row')
    {key : α} {row : β key} (hrow : rows key = some row) :
    ∃ row', Function.update rows changed value key = some row' ∧ K key row row' := by
  by_cases hkey : key = changed
  · subst hkey
    rw [Function.update_self]
    exact h row hrow
  · rw [Function.update_of_ne hkey]
    exact ⟨row, hrow, hrefl key row⟩

private theorem enrollments_update
    {rows : (operationId : String) → Option (StoredEnrollment operationId)} {changed : String}
    {value : Option (StoredEnrollment changed)} (h : ∀ row, rows changed = some row →
      ∃ row', value = some row' ∧ EnrollmentStep row.record row'.record)
    {operationId : String} {row : StoredEnrollment operationId}
    (hrow : rows operationId = some row) :
    ∃ row', Function.update rows changed value operationId = some row' ∧
      EnrollmentStep row.record row'.record :=
  kept_update (fun _ row row' => EnrollmentStep row.record row'.record) (fun _ _ => .refl _) h hrow

private theorem identities_update {rows : String → Option IdentityRecord} {changed : String}
    {value : Option IdentityRecord} (h : ∀ identity, rows changed = some identity →
      ∃ identity', value = some identity' ∧ IdentityStep identity identity')
    {fingerprint : String} {identity : IdentityRecord}
    (hidentity : rows fingerprint = some identity) :
    ∃ identity', Function.update rows changed value fingerprint = some identity' ∧
      IdentityStep identity identity' :=
  kept_update (fun _ => IdentityStep) (fun _ => .refl) h hidentity

private theorem records_update {rows : Actor × String → Option IdempotencyRecord}
    {changed : Actor × String} {value : Option IdempotencyRecord}
    (h : ∀ record, rows changed = some record →
      ∃ record', value = some record' ∧ RecordStep record record')
    {key : Actor × String} {record : IdempotencyRecord} (hrecord : rows key = some record) :
    ∃ record', Function.update rows changed value key = some record' ∧
      RecordStep record record' :=
  kept_update (fun _ => RecordStep) (fun _ => .refl) h hrecord

private theorem grants_update {rows : (grantId : String) → Option (StoredGrant grantId)}
    {changed : String} {value : Option (StoredGrant changed)} (h : ∀ grant,
      rows changed = some grant → ∃ grant', value = some grant' ∧
        GrantStep grant.record grant'.record) {grantId : String} {grant : StoredGrant grantId}
    (hgrant : rows grantId = some grant) :
    ∃ grant', Function.update rows changed value grantId = some grant' ∧
      GrantStep grant.record grant'.record :=
  kept_update (fun _ grant grant' => GrantStep grant.record grant'.record) (fun _ _ => .refl _) h
    hgrant

/-- Only a profile that is not active changes. -/
private theorem consumers_update {rows : String → Option ConsumerRecord} {changed : String}
    {value : Option ConsumerRecord} (h : ∀ consumer, rows changed = some consumer →
      consumer.status ≠ .active) {consumerId : String} {consumer : ConsumerRecord}
    (hconsumer : rows consumerId = some consumer) (hactive : consumer.status = .active) :
    Function.update rows changed value consumerId = some consumer := by
  by_cases hkey : consumerId = changed
  · subst hkey
    exact (h consumer hconsumer hactive).elim
  · rw [Function.update_of_ne hkey, hconsumer]

/-- A row is stored where there was none. -/
private theorem absent_kept {α : Type} {stored value : Option α} {kept : α → α → Prop}
    (hnone : stored = none) (row : α) (hrow : stored = some row) :
    ∃ row', value = some row' ∧ kept row row' :=
  absurd (hnone.symm.trans hrow) (by simp)

/-- **Every move keeps the rows.** -/
theorem Step.extends (h : Step r move r') : Extends r r' := by
  cases h with
  | start _ hrecord hidentity henrollment hconsumer =>
      exact { Extends.refl r with
        enrollments := enrollments_update (absent_kept henrollment)
        identities := identities_update (absent_kept hidentity)
        consumers := consumers_update fun _ hother => by cases hconsumer.symm.trans hother
        records := records_update (absent_kept hrecord) }
  | complete h _ =>
      refine { Extends.refl r with
        enrollments := enrollments_update fun row hrow => ?_
        identities := identities_update fun identity hidentity => ?_
        consumers := consumers_update fun consumer hconsumer => ?_ }
      · obtain rfl := Option.some.inj (h.storedRow.symm.trans hrow)
        exact ⟨_, rfl, .settle h.prepared _⟩
      · obtain rfl := Option.some.inj (h.storedIdentity.symm.trans hidentity)
        exact ⟨_, rfl, .withStatus (.inl h.pending) _⟩
      · obtain rfl := Option.some.inj (h.storedConsumer.symm.trans hconsumer)
        exact fun hactive => by cases h.waiting.symm.trans hactive
  | fail h =>
      refine { Extends.refl r with
        enrollments := enrollments_update fun row hrow => ?_
        identities := identities_update fun identity hidentity => ?_
        consumers := consumers_update fun consumer hconsumer => ?_ }
      · obtain rfl := Option.some.inj (h.storedRow.symm.trans hrow)
        exact ⟨_, rfl, .settle h.prepared _⟩
      · obtain rfl := Option.some.inj (h.storedIdentity.symm.trans hidentity)
        exact ⟨_, rfl, .withStatus (.inl h.pending) _⟩
      · obtain rfl := Option.some.inj (h.storedConsumer.symm.trans hconsumer)
        exact fun hactive => by cases h.waiting.symm.trans hactive
  | rotate _ hrecord hidentity =>
      exact { Extends.refl r with
        identities := identities_update (absent_kept hidentity)
        records := records_update (absent_kept hrecord) }
  | revoke hrecord hidentity _ _ hactive =>
      refine { Extends.refl r with
        identities := identities_update fun identity hother => ?_
        records := records_update (absent_kept hrecord) }
      obtain rfl := Option.some.inj (hidentity.symm.trans hother)
      exact ⟨_, rfl, .withStatus (.inr hactive) _⟩
  | associate _ hrecord | claim hrecord =>
      exact { Extends.refl r with records := records_update (absent_kept hrecord) }
  | mark =>
      refine { Extends.refl r with records := records_update fun record hrecord => ?_ }
      rw [hrecord]
      exact ⟨_, rfl, rfl, fun _ => rfl⟩
  | truststore | issue | consume | forget => exact { Extends.refl r with }
  | @grant grant hgrant hconsumer =>
      refine { Extends.refl r with
        grants := grants_update (absent_kept hgrant)
        grantOf := fun {consumerId _} hother => ?_ }
      have hconsumer' : consumerId ≠ grant.consumerId := by
        rintro rfl
        cases hconsumer.symm.trans hother
      show Function.update r.grantOf grant.consumerId (some grant.grantId) consumerId = _
      rw [Function.update_of_ne hconsumer', hother]
  | policy hgrant =>
      refine { Extends.refl r with grants := grants_update fun stored hstored => ?_ }
      obtain rfl := Option.some.inj (hgrant.symm.trans hstored)
      exact ⟨_, rfl, rfl, id⟩
  | activate hgrant hpending =>
      refine { Extends.refl r with grants := grants_update fun stored hstored => ?_ }
      obtain rfl := Option.some.inj (hgrant.symm.trans hstored)
      -- Only a pending grant is activated.
      exact ⟨_, rfl, rfl, fun hactive => by cases hpending.symm.trans hactive.1⟩

/-- A mutation that claims its key leaves its record there. -/
theorem Step.claimed {mutation : PreparedMutation} (h : Step r (.claim mutation) r') :
    r'.Claimed ((mutation.actor, mutation.idempotencyKey), idempotencyItem mutation) := by
  cases h
  exact ⟨_, Function.update_self .., rfl⟩

/-- **The record of a key is claimed once, and then only marked.** -/
theorem Step.record (h : Step r move r') (key : Actor × String) :
    r'.records key = r.records key ∨
      (r.records key = none ∧ ∃ record, r'.records key = some record ∧ record.status ≠ .succeeded) ∨
      ∃ eventId, move = .mark key.1 key.2 eventId := by
  have hupdate : ∀ {changed : Actor × String} {record : IdempotencyRecord},
      r.records changed = none → record.status ≠ .succeeded →
        Function.update r.records changed (some record) key = r.records key ∨
          (r.records key = none ∧ ∃ record',
            Function.update r.records changed (some record) key = some record' ∧
              record'.status ≠ .succeeded) := by
    intro changed record hnone hstatus
    by_cases hkey : key = changed
    · subst hkey
      exact .inr ⟨hnone, record, Function.update_self .., hstatus⟩
    · exact .inl (Function.update_of_ne hkey _ _)
  cases h with
  | start _ hrecord | rotate _ hrecord | revoke hrecord | associate _ hrecord | claim hrecord =>
      exact (hupdate hrecord (fun hstatus => by cases hstatus)).imp id .inl
  | @mark actor idempotencyKey eventId =>
      by_cases hkey : key = (actor, idempotencyKey)
      · subst hkey
        exact .inr (.inr ⟨eventId, rfl⟩)
      · exact .inl (Function.update_of_ne hkey _ _)
  | complete | fail | truststore | grant | policy | activate | issue | consume | forget =>
      exact .inl rfl

theorem Step.capabilities_of_claim {mutation : PreparedMutation}
    (h : Step r (.claim mutation) r') : r'.capabilities = r.capabilities := by
  cases h
  rfl

/-- One move, or none. -/
inductive Changes (r r' : Registry) : Prop
  | same (h : r' = r)
  | moved (move : RegistryMove) (h : Step r move r')

theorem Changes.refl (r : Registry) : Changes r r := .same rfl

theorem Changes.extends (h : Changes r r') : Extends r r' := by
  cases h with
  | same h => exact .of_eq h
  | moved move h => exact h.extends

end Registry

end Hemlig
