import Hemlig.Verification.Enrollment

/-!
# Identities

What a process knows when it has created, revoked or found an identity: the record
under its key is the one of its own request, and the certificate that it returns is the
one that is stored under the fingerprint.
-/

namespace Hemlig

open Concurrent Store DynamoRepository ConsumerService

variable {init s s' : Cloud} {pid : ℕ}

/-! ## What stays true of an identity -/

/-- The certificate is stored under the fingerprint. -/
def Cloud.Certified (s : Cloud) (fingerprint : String) (certificatePem : Option LeafCertificate) :
    Prop :=
  ∃ identity, s.identity fingerprint = some identity ∧ identity.certificatePem = certificatePem

theorem lasts_certified {fingerprint : String} {certificatePem : Option LeafCertificate} :
    Lasts init fun s => s.Certified fingerprint certificatePem := by
  rintro s s' actor - - hevolves ⟨identity, hidentity, rfl⟩
  obtain ⟨identity', hidentity', hstep⟩ := hevolves.registry.identities hidentity
  have hfixed := hstep.fixed
  simp only [IdentityRecord.fixed, IdentityRecord.withStatus, IdentityRecord.mk.injEq] at hfixed
  exact ⟨identity', hidentity', hfixed.2.2.2.2.2.2.2⟩

theorem lasts_activeConsumer {consumerId : String} :
    Lasts init fun s => s.registry.ActiveConsumer consumerId :=
  fun _ _ _ _ _ hevolves h => h.mono hevolves.registry

section Specs

variable {issued : Request → Cloud → Prop} {F : Cloud → Prop}

/-- A consumer that is found active. -/
theorem spec_activeConsumer (hF : Persists init pid F) (consumerId : String) :
    Spec init issued pid F (getConsumer consumerId) fun found s => ∀ consumer,
      found.filter (·.status = .active) = some consumer → s.registry.ActiveConsumer consumerId := by
  refine .get hF _ fun s _ _ consumer hconsumer => ?_
  obtain ⟨hsome, hactive⟩ := Option.filter_eq_some_iff.mp hconsumer
  exact ⟨consumer, hsome, of_decide_eq_true hactive⟩

/-! ## Rotation -/

/-- The rotation that claimed the key, with this request, created the identity. -/
def Cloud.RotatedUnder (s : Cloud) (actor : Actor) (idempotencyKey : String)
    (requestDigest : OperationDigest) (result : ApiIdentityResult) : Prop :=
  ∃ record, s.registry.Claimed ((actor, idempotencyKey), record) ∧
    record.requestDigest = some requestDigest ∧ record.operationType = some .rotate ∧
    record.apiFingerprint = some result.apiFingerprint ∧
    s.Certified result.apiFingerprint result.apiCertificatePem

theorem lasts_rotatedUnder {actor : Actor} {idempotencyKey : String}
    {requestDigest : OperationDigest} {result : ApiIdentityResult} :
    Lasts init fun s => s.RotatedUnder actor idempotencyKey requestDigest result :=
  .exists fun _ => lasts_claimed.and ((Lasts.const _).and ((Lasts.const _).and
    ((Lasts.const _).and lasts_certified)))

theorem spec_idempotentApiIdentityResult (hF : Persists init pid F) {record : IdempotencyRecord}
    {actor : Actor} {idempotencyKey : String} (requestDigest : OperationDigest)
    (consumerId environment : String)
    (hunder : ∀ s, F s → s.Under actor idempotencyKey record) :
    Spec init issued pid F
      (idempotentApiIdentityResult record requestDigest consumerId environment) fun result s =>
        result.consumerId = consumerId ∧
          s.RotatedUnder actor idempotencyKey requestDigest result ∧
          s.Covered actor idempotencyKey result.shouldWriteTerminalAudit := by
  refine Spec.bind_fact .assertOk fun _ hassert => ?_
  obtain ⟨hdigest, htype⟩ := assertIdempotency_eq hassert
  refine Spec.bind_fact .assertOk fun fingerprint hfingerprint => ?_
  refine Spec.skip .assertOk fun rootFingerprint => ?_
  refine .bind (R := fun found s => ∀ certificatePem,
    found.bind IdentityRecord.certificatePem = some certificatePem →
      s.Certified fingerprint (some certificatePem)) (.get hF _ ?_) fun found => ?_
  · intro s _ _ certificatePem hpem
    obtain ⟨identity, hidentity, hpem⟩ := Option.bind_eq_some_iff.mp hpem
    exact ⟨identity, hidentity, hpem⟩
  · refine Spec.bind (.requireSome _) fun certificatePem =>
      .ret fun s _ hs => ⟨rfl, ?_, (hunder s hs.1.1).covered⟩
    exact ⟨record, (hunder s hs.1.1).claimed, hdigest, htype, stringField_eq hfingerprint,
      hs.1.2 _ hs.2⟩

theorem spec_rotateNew (hF : Persists init pid F) (input : ApiIdentityInput) (environment : String)
    (requestDigest : OperationDigest)
    (hactive : ∀ s, F s → s.registry.ActiveConsumer input.consumerId) :
    Spec init issued pid F (rotateNew input environment requestDigest) fun result s =>
      result.consumerId = input.consumerId ∧
        s.RotatedUnder input.actor input.idempotencyKey requestDigest result ∧
        s.Covered input.actor input.idempotencyKey result.shouldWriteTerminalAudit := by
  refine Spec.bind_fact (spec_issueApiIdentity hF _ _ _) fun identity hidentity => ?_
  refine .bind (R := fun winner s => (winner = none → s.Certified identity.apiIdentity.fingerprint
      (some identity.apiIdentity.certificatePem)) ∧
      s.Under input.actor input.idempotencyKey (winner.getD
        (rotatedItem requestDigest identity.apiIdentity identity.rootFingerprint))) ?_ fun winner => ?_
  · refine Spec.recover (Spec.bind (R := fun _ s => s.Certified identity.apiIdentity.fingerprint
      (some identity.apiIdentity.certificatePem) ∧
      s.Under input.actor input.idempotencyKey
        (rotatedItem requestDigest identity.apiIdentity identity.rootFingerprint)) ?_
      fun _ => .ret fun _ _ hs => ⟨fun _ => hs.2.1, hs.2.2⟩) fun failure => ?_
    · refine Spec.recover ?_ fun _ => .raise
      refine .send hF rfl (fun s _ hs => .registry (.rotate ?_)) ?_
      · rw [hidentity.consumerId]
        exact hactive s hs
      · rintro s choice _ s' - - hs - hperform
        simp only [perform] at hperform
        split at hperform <;> cases hperform
        rename_i table htransact
        have hready : s.registry.ActiveConsumer identity.apiIdentity.consumerId := by
          rw [hidentity.consumerId]
          exact hactive s hs
        refine ⟨⟨identity.apiIdentity.item .active, ?_, rfl⟩,
          (RegistryTransaction.rotate hready).claimed htransact rfl, fun hnone => by cases hnone⟩
        exact (get_of_create htransact (List.mem_cons_of_mem _ (List.mem_singleton_self _))).2
    · refine .bind_option (spec_getIdempotency hF _ _) .raise fun winner => ?_
      exact .ret fun _ _ hs => ⟨fun hnone => (by cases hnone), hs.2⟩
  · have hknows : Persists init pid fun s => F s ∧ (winner = none →
        s.Certified identity.apiIdentity.fingerprint
          (some identity.apiIdentity.certificatePem)) ∧
        s.Under input.actor input.idempotencyKey (winner.getD
          (rotatedItem requestDigest identity.apiIdentity identity.rootFingerprint)) :=
      hF.and (Lasts.and (.imp lasts_certified) lasts_under).persists
    cases winner with
    | some winner =>
        exact spec_idempotentApiIdentityResult hknows _ _ _ fun s hs => hs.2.2
    | none =>
        refine .ret fun s _ hs => ⟨rfl, ?_, fun hnone => by cases hnone⟩
        exact ⟨_, hs.2.2.claimed, rfl, rfl, rfl, hs.2.1 rfl⟩

/-- The request of a rotation, as it was accepted. -/
def ApiIdentityInput.Accepted (input : ApiIdentityInput) (requestDigest : OperationDigest) : Prop :=
  ∃ rootFingerprint csr,
    IssuerService.parseAndVerifyCsr input.apiCertificateSigningRequestPem = .ok csr ∧
      requestDigest = .rotate input.consumerId rootFingerprint csr

/-- **What a rotation returns is the identity of the operation under its key.** -/
theorem spec_rotateApiIdentity (hF : Persists init pid F) (input : ApiIdentityInput) :
    Spec init issued pid F (rotateApiIdentity input) fun result s =>
      result.consumerId = input.consumerId ∧
      (∃ requestDigest, input.Accepted requestDigest ∧
        s.RotatedUnder input.actor input.idempotencyKey requestDigest result) ∧
      s.Covered input.actor input.idempotencyKey result.shouldWriteTerminalAudit := by
  refine Spec.skip .assertOk fun _ => ?_
  refine .bind (spec_activeConsumer hF input.consumerId) fun found => ?_
  refine .frame (G := fun s => F s ∧ ∀ consumer, found.filter (·.status = .active) = some consumer →
    s.registry.ActiveConsumer input.consumerId) ?_ fun _ => Iff.rfl
  refine Spec.bind_fact (.requireSome _) fun consumer hconsumer => ?_
  have hknows : Persists init pid fun s => F s ∧ ∀ consumer,
      found.filter (·.status = .active) = some consumer →
        s.registry.ActiveConsumer input.consumerId :=
    hF.and (Lasts.forall fun _ => .imp lasts_activeConsumer).persists
  refine Spec.bind_fact .assertOk fun csr hcsr => ?_
  refine Spec.harmless_bind hknows harmless_issuerFingerprint fun rootFingerprint => ?_
  have haccepted : input.Accepted (.rotate input.consumerId rootFingerprint csr) :=
    ⟨rootFingerprint, csr, hcsr, rfl⟩
  refine .bind_option (spec_getIdempotency hknows _ _) ?_ fun prior => ?_
  · exact (spec_rotateNew hknows input _ _ fun s hs => hs.2 consumer hconsumer).post
      fun _ _ _ _ h => ⟨h.1, ⟨_, haccepted, h.2.1⟩, h.2.2⟩
  · exact (spec_idempotentApiIdentityResult (hknows.and lasts_under.persists) _ _ _
      fun _ hs => hs.2).post fun _ _ _ _ h => ⟨h.1, ⟨_, haccepted, h.2.1⟩, h.2.2⟩

/-! ## Revocation -/

/-- The revocation that claimed the key was of this identity. -/
def Cloud.RevokedUnder (s : Cloud) (actor : Actor) (idempotencyKey consumerId : String)
    (fingerprint : String) : Prop :=
  ∃ record, s.registry.Claimed ((actor, idempotencyKey), record) ∧
    record.requestDigest = some (.revoke consumerId fingerprint) ∧
    record.operationType = some .revoke ∧ ∃ certificatePem, s.Certified fingerprint certificatePem

theorem lasts_revokedUnder {actor : Actor} {idempotencyKey consumerId fingerprint : String} :
    Lasts init fun s => s.RevokedUnder actor idempotencyKey consumerId fingerprint :=
  .exists fun _ => lasts_claimed.and ((Lasts.const _).and ((Lasts.const _).and
    (.exists fun _ => lasts_certified)))

/-- **What a revocation returns is the identity of the operation under its key.** -/
theorem spec_revokeApiIdentity (hF : Persists init pid F) (input : RevocationInput) :
    Spec init issued pid F (ConsumerService.revokeApiIdentity input) fun result s =>
      result.consumerId = input.consumerId ∧ result.apiFingerprint = input.apiFingerprint ∧
        s.RevokedUnder input.actor input.idempotencyKey input.consumerId input.apiFingerprint ∧
        s.Covered input.actor input.idempotencyKey result.shouldWriteTerminalAudit := by
  refine Spec.skip .assertOk fun _ => Spec.skip .assertOk fun _ => ?_
  refine .bind (R := fun found s => found.isSome → ∃ certificatePem,
    s.Certified input.apiFingerprint certificatePem) (.get hF _ ?_) fun found => ?_
  · intro s _ _ hsome
    obtain ⟨identity, hidentity⟩ := Option.isSome_iff_exists.mp hsome
    exact ⟨_, identity, hidentity, rfl⟩
  have hknows : Persists init pid fun s => F s ∧ (found.isSome → ∃ certificatePem,
      s.Certified input.apiFingerprint certificatePem) :=
    hF.and (Lasts.imp (.exists fun _ => lasts_certified)).persists
  refine Spec.bind_fact (.requireSome _) fun identity hidentity => ?_
  have hsome : found.isSome := by
    rw [(Option.filter_eq_some_iff.mp hidentity).1]
    rfl
  refine .bind_option (spec_getIdempotency hknows _ _) ?_ fun prior => ?_
  · refine .bind (R := fun _ s => s.registry.Claimed ((input.actor, input.idempotencyKey),
      revokedItem (.revoke input.consumerId input.apiFingerprint) input.consumerId
        input.apiFingerprint)) (Spec.recover ?_ fun _ => .raise) fun _ =>
        .ret fun s _ hs => ⟨rfl, rfl, ⟨_, hs.2, rfl, rfl, hs.1.2 hsome⟩, nofun⟩
    refine .send hknows rfl (fun _ _ _ => .registry .revoke) ?_
    rintro s choice _ s' - - - - hperform
    simp only [perform] at hperform
    split at hperform <;> cases hperform
    exact RegistryTransaction.revoke.claimed ‹_› rfl
  · refine Spec.bind_fact .assertOk fun _ hassert =>
      .ret fun s _ hs => ⟨rfl, rfl, ?_, hs.2.covered⟩
    obtain ⟨hdigest, htype⟩ := assertIdempotency_eq hassert
    exact ⟨prior, hs.2.claimed, hdigest, htype, hs.1.2 hsome⟩

end Specs

end Hemlig
