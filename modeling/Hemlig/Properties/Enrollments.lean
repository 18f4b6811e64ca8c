import Hemlig.Properties.Chain

/-!
# The state machine of enrollments

The four kinds of rows of an enrollment change in transactions of their own, each of which
tests only some of the others.  What holds of all of them in every state was proved of the
registry (`Registry.Sound`); here it is read off for the rows as they are stored, together
with what a run can still do to them.
-/

namespace Hemlig

open Concurrent Registry

variable {init s s' : Cloud}

/-! ## The states of the rows -/

/-- The consumer is registered and waits. -/
def Cloud.PendingConsumer (s : Cloud) (consumerId : String) : Prop :=
  ∃ consumer, s.consumer consumerId = some consumer ∧ consumer.status = .pending

/-- The enrollment operation that the profile of a consumer names. -/
def Cloud.pendingOperation (s : Cloud) (consumerId : String) : Option String :=
  (s.consumer consumerId).bind ConsumerRecord.pendingEnrollmentOperationId

/-- The operation enrolls the consumer and has not ended. -/
def Cloud.PreparedFor (s : Cloud) (consumerId operationId : String) : Prop :=
  ∃ row, s.enrollment operationId = some row ∧ row.record.consumerId = consumerId ∧
    row.record.workflowState = .prepared

/-- An operation and the identity that it created. -/
structure InStep (operation : EnrollmentRecord) (identity : IdentityRecord) : Prop where
  consumerId : identity.consumerId = operation.consumerId
  certificatePem : identity.certificatePem = some operation.apiCertificatePem
  prepared : operation.workflowState = .prepared ↔ identity.status = .pending
  ready : operation.workflowState = .ready ↔
    identity.status = .active ∨ identity.status = .revoked
  failed : operation.workflowState = .failed ↔ identity.status = .failed

/-- The rows of all enrollments agree. -/
structure EnrollmentStates (s : Cloud) : Prop where
  pending : ∀ consumerId, s.PendingConsumer consumerId ↔
    ∃ operationId, s.pendingOperation consumerId = some operationId ∧
      ∀ other, s.PreparedFor consumerId other ↔ other = operationId
  created : ∀ operationId row, s.enrollment operationId = some row →
    ∃ identity, s.identity row.record.apiFingerprint = some identity ∧ InStep row.record identity

/-- What has ended stays as it is. -/
structure EnrollmentsEnded (s s' : Cloud) : Prop where
  operation : ∀ operationId row, s.enrollment operationId = some row →
    row.record.workflowState = .ready ∨ row.record.workflowState = .failed →
      s'.enrollment operationId = some row
  identity : ∀ fingerprint identity, s.identity fingerprint = some identity →
    identity.status = .revoked ∨ identity.status = .failed →
      s'.identity fingerprint = some identity

/-! ## Every state -/

/-- A prepared operation is the one its consumer waits for. -/
theorem Registry.Sound.preparedFor (h : s.registry.Sound) {consumerId operationId : String}
    (hprepared : s.PreparedFor consumerId operationId) :
    s.PendingConsumer consumerId ∧ s.pendingOperation consumerId = some operationId := by
  obtain ⟨row, hrow, rfl, hstate⟩ := hprepared
  obtain ⟨consumer, hconsumer, hwaits⟩ := h.waiting hrow hstate
  have hstored : s.consumer row.record.consumerId = some consumer := hconsumer
  refine ⟨⟨consumer, hstored, hwaits.pending⟩, ?_⟩
  rw [Cloud.pendingOperation, hstored]
  exact hwaits.names

theorem Registry.Sound.enrollmentStates (h : s.registry.Sound) : EnrollmentStates s := by
  constructor
  · intro consumerId
    constructor
    · rintro ⟨consumer, hconsumer, hpending⟩
      obtain ⟨operationId, row, hwaits, hrow, hstate, hfor⟩ := h.pending hconsumer hpending
      have hnames : s.pendingOperation consumerId = some operationId := by
        rw [Cloud.pendingOperation, hconsumer]
        exact hwaits.names
      refine ⟨operationId, hnames, fun other => ⟨fun hother => ?_, fun hsame => ?_⟩⟩
      · -- The profile names one operation, and every prepared one is named by it.
        have hnamed : s.pendingOperation consumerId = some other := (h.preparedFor hother).2
        exact Option.some.inj (hnamed.symm.trans hnames)
      · subst hsame
        exact ⟨row, hrow, hfor, hstate⟩
    · rintro ⟨operationId, -, honly⟩
      exact (h.preparedFor ((honly operationId).mpr rfl)).1
  · intro operationId row hrow
    obtain ⟨identity, hidentity, hcreated⟩ := h.created hrow
    exact ⟨identity, hidentity, hcreated.consumerId, hcreated.certificatePem,
      hcreated.agrees.pending_iff, hcreated.agrees.ready_iff, hcreated.agrees.failed_iff⟩

/-! ## Every run -/

/-- The registry only grows more definite in a run. -/
theorem extends_of_run (hinit : Initial init) {w w' : ServiceWorld}
    {actions later : List ServiceAction} (hrun : service.run (World.initial init) actions = some w)
    (hlater : service.run w later = some w') : Extends w.store.registry w'.store.registry := by
  refine run_keeps hinit hrun hlater (P := fun s => Extends w.store.registry s.registry) ?_ (.refl _)
  intro s s' hstep hextends
  obtain ⟨actor, hevolves⟩ := hstep.evolves
  exact hextends.trans hevolves.registry

theorem Registry.Extends.enrollmentsEnded (h : Extends s.registry s'.registry) :
    EnrollmentsEnded s s' := by
  constructor
  · intro operationId row hrow hended
    obtain ⟨row', hrow', hstep⟩ := h.enrollments hrow
    have hnot : row.record.workflowState ≠ .prepared := by
      rcases hended with hstate | hstate <;> simp [hstate]
    have hrecord : row'.record = row.record := hstep.ended hnot
    have hsame : row' = row := by
      cases row
      cases row'
      cases hrecord
      rfl
    exact hsame ▸ hrow'
  · intro fingerprint identity hidentity hended
    obtain ⟨identity', hidentity', hstep⟩ := h.identities hidentity
    have hsame : identity' = identity := by
      apply hstep.ended <;> rcases hended with hstatus | hstatus <;> simp [hstatus]
    exact hsame ▸ hidentity'

/-- **The rows of all enrollments agree in every state of every run, and what has ended there
stays as it is.** -/
theorem enrollment_states (hinit : Initial init) {w w' : ServiceWorld}
    {actions later : List ServiceAction} (hrun : service.run (World.initial init) actions = some w)
    (hlater : service.run w later = some w') :
    EnrollmentStates w.store ∧ EnrollmentsEnded w.store w'.store :=
  ⟨(invariant_of_run hinit hrun).identities.sound.enrollmentStates,
    (extends_of_run hinit hrun hlater).enrollmentsEnded⟩

namespace Sample

/-- The environment answers every request of an enrollment; `id` and the certificate are those
of the request that asks for one. -/
def supplying (operationId id : String) : Choice where
  id := id
  number := 1
  certificate := some { pem := id, fingerprint := id, notBefore := 0, notAfter := 100 }
  encryptedKey := some "key"
  domain :=
    { truststoreUri := some (ConsumerService.truststoreUri (ConsumerService.truststoreKey operationId))
      truststoreVersion := some "bundle"
      truststoreWarnings := []
      configurations := [some .available] }

/-- A request for the key `key`. -/
def requestFor (key : String) : CertificateRequest where
  pem := IssuerService.beginCertificateRequest ++ key
  parsed := some { der := key, publicKey := key }

def enrollment (consumerId key idempotencyKey : String) : EnrollmentInput where
  consumerId := consumerId
  environment := "prod"
  apiCertificateSigningRequestPem := requestFor key
  actor := admin
  idempotencyKey := idempotencyKey

/-- A process enrolls the first consumer, up to the prepared operation `op`. -/
def starting : List ServiceAction :=
  founding ++ .start 1 (.admin (.enrollConsumer (enrollment "app" "key" "e1")) "corr") ::
    steps 1 (List.replicate 12 (supplying "op" "root") ++ List.replicate 5 (supplying "op" "op"))

/-- The process publishes the bundle and activates the identity. -/
def publishing : List ServiceAction :=
  steps 1 (List.replicate 13 (supplying "op" "bundle"))

theorem started_checked :
    (service.run (World.initial Cloud.empty) starting).any (fun w => decide
      (w.store.pendingOperation "app" = some "op")) = true ∧
    (service.run (World.initial Cloud.empty) (starting ++ publishing)).any (fun w => decide
      (w.store.pendingOperation "app" = none)) = true := by
  decide +kernel

theorem started : (service.run (World.initial Cloud.empty) starting).isSome = true :=
  Option.isSome_of_any started_checked.1

theorem published :
    (service.run (World.initial Cloud.empty) (starting ++ publishing)).isSome = true :=
  Option.isSome_of_any started_checked.2

end Sample

theorem enrollment_states_started :
    (reached Cloud.empty _ Sample.started).store.pendingOperation "app" = some "op" ∧
      (reached Cloud.empty _ Sample.published).store.pendingOperation "app" = none ∧
      EnrollmentStates (reached Cloud.empty _ Sample.started).store ∧
      EnrollmentsEnded (reached Cloud.empty _ Sample.started).store
        (reached Cloud.empty _ Sample.published).store :=
  ⟨reached_of_any Sample.started_checked.1, reached_of_any Sample.started_checked.2,
    enrollment_states Initial.empty (run_reached Sample.started)
      (run_reached_append Sample.started Sample.published)⟩

end Hemlig
