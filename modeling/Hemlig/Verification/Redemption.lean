import Hemlig.Verification.Evidence

/-!
# Redemptions

What a redemption knows when it returns: its token was issued for the grant, the grant is
active for the identity that is returned, the capability is bound to it, and the
certificate is for the key of the request.  Each of these is established at another
request, by whoever comes first, and lasts from then on.
-/

namespace Hemlig

open Concurrent Store DynamoRepository AgentGrantService

variable {init s s' : Cloud} {pid : ℕ}

/-! ## What lasts -/

/-- The grant is active for the identity of the fingerprint. -/
def Cloud.ActiveFor (s : Cloud) (grantId fingerprint : String) : Prop :=
  ∃ stored, s.agentGrant grantId = some stored ∧ stored.record.ActiveFor fingerprint

theorem lasts_issuedFor {tokenHash grantId : String} :
    Lasts init fun s => s.IssuedFor tokenHash grantId :=
  fun _ _ _ _ _ hevolves h => h.mono hevolves.history

theorem lasts_bound {tokenHash fingerprint : String} :
    Lasts init fun s => s.Bound tokenHash fingerprint :=
  fun _ _ _ _ _ hevolves h => h.mono hevolves.history

theorem lasts_granted {grant : AgentGrantRecord} : Lasts init fun s => s.Granted grant := by
  rintro s s' actor - - hevolves ⟨stored, hstored, hfixed⟩
  obtain ⟨stored', hstored', hstep⟩ := hevolves.registry.grants hstored
  exact ⟨stored', hstored', hstep.fixed.trans hfixed⟩

theorem lasts_activeFor {grantId fingerprint : String} :
    Lasts init fun s => s.ActiveFor grantId fingerprint := by
  rintro s s' actor - - hevolves ⟨stored, hstored, hactive⟩
  obtain ⟨stored', hstored', hstep⟩ := hevolves.registry.grants hstored
  exact ⟨stored', hstored', hstep.active hactive⟩

theorem lasts_redeeming {actor : Actor} {idempotencyKey consumerId : String} :
    Lasts init fun s => s.Redeeming actor idempotencyKey consumerId :=
  .exists fun _ => .exists fun _ => lasts_issuedFor.and (lasts_granted.and (.const _))

/-- The capability was found under the token. -/
structure Cloud.Presented (s : Cloud) (token : String) (capability : BootstrapCapabilityRecord) :
    Prop where
  named : capability.tokenHash = token
  issued : s.IssuedFor token capability.grantId
  bound : capability.status = .consumed → ∃ fingerprint,
    capability.consumedFingerprint = some fingerprint ∧ s.Bound token fingerprint

theorem lasts_presented {token : String} {capability : BootstrapCapabilityRecord} :
    Lasts init fun s => s.Presented token capability := by
  intro s s' actor hinv hinv' hevolves h
  exact ⟨h.named, lasts_issuedFor s s' actor hinv hinv' hevolves h.issued,
    Lasts.imp (.exists fun _ => (Lasts.const _).and lasts_bound) s s' actor hinv hinv' hevolves
      h.bound⟩

/-- The certificate is stored under its fingerprint and is for the key of the request. -/
structure Cloud.CertifiedFor (s : Cloud) (csr : CertificateRequest)
    (result : ConsumerProvisioningResult) : Prop where
  certified : s.Certified result.apiFingerprint (some result.apiCertificatePem)
  key : ∃ parsed, IssuerService.parseAndVerifyCsr csr = .ok parsed ∧
    result.apiCertificatePem.publicKey = parsed.publicKey

theorem lasts_certifiedFor {csr : CertificateRequest} {result : ConsumerProvisioningResult} :
    Lasts init fun s => s.CertifiedFor csr result := by
  intro s s' actor hinv hinv' hevolves h
  exact ⟨lasts_certified s s' actor hinv hinv' hevolves h.certified, h.key⟩

/-- What a redemption has achieved when it returns. -/
structure Cloud.Redeemed (s : Cloud) (token : String) (csr : CertificateRequest)
    (redemption : BootstrapRedemptionResult) : Prop where
  issued : s.IssuedFor token redemption.grantId
  bound : s.Bound token redemption.result.apiFingerprint
  active : s.ActiveFor redemption.grantId redemption.result.apiFingerprint
  certified : s.CertifiedFor csr redemption.result

theorem lasts_redeemed {token : String} {csr : CertificateRequest}
    {redemption : BootstrapRedemptionResult} :
    Lasts init fun s => s.Redeemed token csr redemption := by
  intro s s' actor hinv hinv' hevolves h
  exact ⟨lasts_issuedFor s s' actor hinv hinv' hevolves h.issued,
    lasts_bound s s' actor hinv hinv' hevolves h.bound,
    lasts_activeFor s s' actor hinv hinv' hevolves h.active,
    lasts_certifiedFor s s' actor hinv hinv' hevolves h.certified⟩

/-! ## The certificate of an enrollment -/

/-- What an enrollment returned is stored, and is for the key of the request. -/
theorem Cloud.EnrolledUnder.certifiedFor (hinv : Invariant init s) {input : EnrollmentInput}
    {requestDigest : OperationDigest} {result : ConsumerProvisioningResult}
    (haccepted : input.Accepted requestDigest)
    (h : s.EnrolledUnder input.actor input.idempotencyKey requestDigest result) :
    s.CertifiedFor input.apiCertificateSigningRequestPem result := by
  obtain ⟨rootFingerprint, csr, hcsr, rfl⟩ := haccepted
  obtain ⟨record, operationId, hclaimed, hdigest, htype, hoperation, row, hrow, -, rfl⟩ := h
  have hsound := hinv.identities.sound
  -- The record and the operation are for the same request.
  obtain ⟨current, hcurrent, hfixed⟩ := hclaimed
  have hrecorded : s.registry.Recorded record := (hsound.recorded hcurrent).of_fixed hfixed.symm
  obtain ⟨other, hother, hsame⟩ := hrecorded htype operationId hoperation
  obtain rfl := Option.some.inj (hrow.symm.trans hother)
  obtain ⟨rootFingerprint', csr', hrequest, hkey⟩ := hsound.request hrow
  rw [hdigest, hrequest] at hsame
  obtain ⟨-, -, -, rfl⟩ := OperationDigest.enroll.inj (Option.some.inj hsame)
  obtain ⟨identity, hidentity, hcreated⟩ := hsound.created hrow
  exact ⟨⟨identity, hidentity, hcreated.certificatePem⟩, csr, hcsr, hkey⟩

/-- An identity that a page shows is stored with its certificate. -/
theorem certified_of_page (hinv : Invariant init s) {consumerId : String}
    {identity : IdentityRecord} (hmem : identity ∈ s.identityPage consumerId) :
    s.Certified identity.fingerprint identity.certificatePem := by
  have hshown : ∃ fingerprint, s.identityIndex fingerprint = some identity := by
    have hof := List.mem_of_mem_take (List.mem_filter.mp hmem).1
    rw [Cloud.identitiesOf, List.mem_insertionSort] at hof
    obtain ⟨key, -, hkey⟩ := List.mem_filterMap.mp hof
    cases key with
    | identity fingerprint => exact ⟨fingerprint, (Option.filter_eq_some_iff.mp hkey).1⟩
    | _ => cases hkey
  obtain ⟨fingerprint, hindex⟩ := hshown
  obtain ⟨current, hcurrent, hstep⟩ := hinv.identities.index hindex
  have hfixed := hstep.fixed
  simp only [IdentityRecord.fixed, IdentityRecord.withStatus, IdentityRecord.mk.injEq] at hfixed
  have hname : identity.fingerprint = fingerprint := by
    rw [← hfixed.1]
    exact hinv.identities.sound.named hcurrent
  exact ⟨current, hname ▸ hcurrent, hfixed.2.2.2.2.2.2.2⟩

theorem matched_of_ok {csr : CertificateRequest} {certificate : LeafCertificate} {matched : Bool}
    (h : IssuerService.certificateRequestMatchesCertificate csr certificate = .ok matched) :
    ∃ parsed, IssuerService.parseAndVerifyCsr csr = .ok parsed ∧
      matched = decide (parsed.publicKey = certificate.publicKey) := by
  unfold IssuerService.certificateRequestMatchesCertificate at h
  cases hparsed : IssuerService.parseAndVerifyCsr csr with
  | error error => simp [hparsed, Bind.bind, Except.bind] at h
  | ok parsed =>
      simp only [hparsed, Bind.bind, Except.bind, pure, Except.pure, Except.ok.injEq] at h
      exact ⟨parsed, rfl, h.symm⟩

/-- What is found on a page is active there, for the environment and for the key. -/
theorem findIdentity_ok {environment : String} {csr : CertificateRequest}
    {page : List IdentityRecord} {identity : IdentityRecord} {certificatePem : LeafCertificate}
    (h : ConsumerService.findIdentity environment csr page =
      .ok (some (identity, certificatePem))) :
    identity ∈ page ∧ identity.certificatePem = some certificatePem ∧
      ∃ parsed, IssuerService.parseAndVerifyCsr csr = .ok parsed ∧
        certificatePem.publicKey = parsed.publicKey := by
  induction page with
  | nil => cases h
  | cons candidate rest ih =>
      have hrest : ConsumerService.findIdentity environment csr rest =
          .ok (some (identity, certificatePem)) → identity ∈ candidate :: rest ∧
            identity.certificatePem = some certificatePem ∧ ∃ parsed,
              IssuerService.parseAndVerifyCsr csr = .ok parsed ∧
                certificatePem.publicKey = parsed.publicKey := fun hfound =>
        ⟨List.mem_cons_of_mem _ (ih hfound).1, (ih hfound).2⟩
      unfold ConsumerService.findIdentity at h
      cases hpem : candidate.certificatePem with
      | none =>
          rw [hpem] at h
          exact hrest h
      | some pem =>
          rw [hpem] at h
          simp only at h
          split at h
          · cases hmatch : IssuerService.certificateRequestMatchesCertificate csr pem with
            | error error => simp [hmatch, Bind.bind, Except.bind] at h
            | ok matched =>
                simp only [hmatch, Bind.bind, Except.bind, pure, Except.pure] at h
                split at h
                · rename_i hmatched
                  obtain ⟨rfl, rfl⟩ := Prod.mk.inj (Option.some.inj (Except.ok.inj h))
                  obtain ⟨parsed, hparsed, rfl⟩ := matched_of_ok hmatch
                  exact ⟨List.mem_cons_self, hpem, parsed, hparsed,
                    (of_decide_eq_true hmatched).symm⟩
                · exact hrest h
          · exact hrest h

section Specs

variable {issued : Request → Cloud → Prop} {F : Cloud → Prop}

/-! ## Reading -/

theorem spec_getBootstrapCapability (hF : Persists init pid F) (token : String) :
    Spec init issued pid F (getBootstrapCapability token) fun found s =>
      ∀ capability, found = some capability → s.Presented token capability := by
  refine Spec.bind (R := fun row s => ∀ stored, row = some stored →
    s.Presented token stored.record) (.get hF _ fun s hinv _ stored hstored => ?_) fun row =>
      .ret fun s _ hs capability hcapability => ?_
  · refine ⟨stored.named, hinv.capabilities.stored hstored, fun hconsumed => ?_⟩
    obtain ⟨fingerprint, hbound⟩ := hinv.capabilities.consumed hstored hconsumed
    have hwith := (hinv.capabilities.bound hbound).2 hstored
    exact ⟨fingerprint, (of_decide_eq_true hwith).2, hbound⟩
  · obtain ⟨stored, hstored, rfl⟩ := Option.map_eq_some_iff.mp hcapability
    exact hs.2 stored hstored

theorem spec_getAgentGrant (hF : Persists init pid F) (grantId : String) :
    Spec init issued pid F (getAgentGrant grantId) fun found s =>
      ∀ grant, found = some grant → grant.grantId = grantId ∧ s.Granted grant ∧
        ∀ fingerprint, grant.ActiveFor fingerprint → s.ActiveFor grantId fingerprint := by
  refine Spec.bind (R := fun row s => ∀ stored, row = some stored →
    s.agentGrant grantId = some stored) (.get hF _ fun _ _ _ _ h => h) fun row =>
      .ret fun s _ hs grant hgrant => ?_
  obtain ⟨stored, hstored, rfl⟩ := Option.map_eq_some_iff.mp hgrant
  refine ⟨stored.named, ?_, fun fingerprint hactive => ⟨stored, hs.2 stored hstored, hactive⟩⟩
  obtain ⟨record, rfl⟩ := stored
  exact ⟨⟨record, rfl⟩, hs.2 _ hstored, rfl⟩

/-! ## Binding -/

theorem spec_activateAgentGrant (hF : Persists init pid F) (grantId fingerprint : String) :
    Spec init issued pid F (activateAgentGrant grantId fingerprint) fun _ s =>
      s.ActiveFor grantId fingerprint := by
  refine .bind (spec_getAgentGrant hF grantId) fun found => ?_
  have hknows : Persists init pid fun s => F s ∧ ∀ grant, found = some grant →
      grant.grantId = grantId ∧ s.Granted grant ∧
        ∀ fingerprint, grant.ActiveFor fingerprint → s.ActiveFor grantId fingerprint :=
    hF.and (Lasts.forall fun _ => .imp ((Lasts.const _).and (lasts_granted.and
      (.forall fun _ => .imp lasts_activeFor)))).persists
  refine .ite (fun hany => .ret fun s _ hs => ?_) fun _ => ?_
  · obtain ⟨grant, hgrant, hactive⟩ := (Option.any_eq_true _ _).mp hany
    have hwith : grant.status = .active ∧ grant.activatedFingerprint = some fingerprint :=
      of_decide_eq_true hactive
    exact (hs.2 grant hgrant).2.2 fingerprint hwith
  · refine Spec.recover ((spec_now hknows).skip fun now => ?_) fun _ => .raise
    refine .send hknows rfl (fun _ _ _ => .activate) ?_
    rintro s choice _ s' - - - - hperform
    simp only [perform] at hperform
    split at hperform <;> cases hperform
    obtain ⟨stored, hstored, -⟩ := Write.holds_update.mp ‹_›
    refine ⟨activateGrant fingerprint now stored, ?_, rfl, rfl⟩
    rw [activateAgentGrantWrite, Write.apply_update hstored]
    exact Table.get_set_self _ _ _

theorem spec_consumeBootstrapCapability (hF : Persists init pid F) (token fingerprint : String) :
    Spec init issued pid F (consumeBootstrapCapability token fingerprint) fun _ s =>
      s.Bound token fingerprint := by
  refine .bind (spec_getBootstrapCapability hF token) fun found => ?_
  have hknows : Persists init pid fun s => F s ∧ ∀ capability, found = some capability →
      s.Presented token capability :=
    hF.and (Lasts.forall fun _ => .imp lasts_presented).persists
  refine .ite (fun hany => .ret fun s _ hs => ?_) fun _ => ?_
  · obtain ⟨capability, hcapability, hwith⟩ := (Option.any_eq_true _ _).mp hany
    obtain ⟨hconsumed, hsame⟩ := of_decide_eq_true hwith
    obtain ⟨other, hother, hbound⟩ := (hs.2 capability hcapability).bound hconsumed
    obtain rfl := Option.some.inj (hsame.symm.trans hother)
    exact hbound
  · refine Spec.recover ((spec_now hknows).skip fun now => ?_) fun _ => .raise
    refine .send hknows rfl (fun _ _ _ => .consume) ?_
    rintro s choice _ s' - - - - hperform
    simp only [perform] at hperform
    split at hperform <;> cases hperform
    exact .record _

theorem runs_reconcileReadAccess (grant : AgentGrantRecord) (actor : Actor) :
    Runs init issued pid (fun _ => True) (reconcileReadAccess grant actor) fun _ _ => True :=
  runs_reconcileAgentReadAccess (.const _)

/-- The identity is provisioned, the grant active for it, and the capability bound to it. -/
theorem spec_bind (hF : Lasts init F) (token : String) {capability : BootstrapCapabilityRecord}
    {grant : AgentGrantRecord} {result : ConsumerProvisioningResult}
    (hpresented : ∀ s, F s → s.Presented token capability) :
    Spec init issued pid F (AgentGrantService.bind capability grant result) fun _ s =>
      s.ActiveFor grant.grantId result.apiFingerprint ∧ s.Bound token result.apiFingerprint := by
  refine Spec.bind_fact .assertOk fun _ hassert => ?_
  refine Spec.skip (Spec.send_any (q := .provision grant.consumerId result.apiFingerprint
    result.apiCertificatePem) hF.persists rfl fun _ _ _ => trivial) fun _ => ?_
  refine (Runs.keep hF (runs_reconcileReadAccess _ _)).skip fun _ => ?_
  refine .bind (spec_activateAgentGrant hF.persists _ _) fun _ => ?_
  have hactive : Persists init pid fun s => F s ∧ s.ActiveFor grant.grantId result.apiFingerprint :=
    (hF.and lasts_activeFor).persists
  refine .of_fact (p := capability.tokenHash = token) ?_ fun hnamed => ?_
  · exact fun s _ hs => (hpresented s hs.1).named
  have hconclude : ∀ {program : Service Unit}, Spec init issued pid
      (fun s => F s ∧ s.ActiveFor grant.grantId result.apiFingerprint) program
      (fun _ s => s.Bound token result.apiFingerprint) →
      Spec init issued pid (fun s => F s ∧ s.ActiveFor grant.grantId result.apiFingerprint) program
        fun _ s => s.ActiveFor grant.grantId result.apiFingerprint ∧
          s.Bound token result.apiFingerprint :=
    fun h => h.post fun _ _ _ hs hbound => ⟨hs.2, hbound⟩
  refine hconclude (.ite (fun _ => ?_) fun hnot => .ret fun s hinv hs => ?_)
  · rw [hnamed]
    exact spec_consumeBootstrapCapability hactive token _
  · -- A capability that was consumed before was consumed for this identity.
    have hconsumed : capability.status = .consumed := by
      cases hstatus : capability.status with
      | pending => exact absurd hstatus hnot
      | consumed => rfl
    obtain ⟨fingerprint, hfingerprint, hbound⟩ := (hpresented s hs.1).bound hconsumed
    have hsame : capability.consumedFingerprint = some result.apiFingerprint := by
      unfold assertBound at hassert
      split at hassert
      · cases hassert
      · rename_i hboth
        by_contra hother
        exact hboth ⟨hconsumed, hother⟩
    rw [hfingerprint] at hsame
    exact Option.some.inj hsame ▸ hbound

/-! ## Enrolling -/

theorem spec_recoverActiveIdentity (hF : Persists init pid F) (consumerId environment : String)
    (csr : CertificateRequest) :
    Spec init issued pid F (ConsumerService.recoverActiveIdentity consumerId environment csr)
      fun found s => ∀ result, found = some result → s.CertifiedFor csr result := by
  refine Spec.skip .assertOk fun _ => ?_
  refine Spec.harmless_bind hF (Request.Harmless.get _).send fun found => ?_
  cases found.filter (·.status = .active) with
  | none => exact .ret fun _ _ _ _ hnone => by cases hnone
  | some consumer =>
      refine .ite (fun _ => .raise) fun _ => ?_
      refine .bind (R := fun (page : List IdentityRecord) s => ∀ identity ∈ page,
        s.Certified identity.fingerprint identity.certificatePem)
        (.send hF rfl (fun _ _ _ => trivial) ?_) fun page => ?_
      · rintro s choice page s' hinv - - - hperform
        cases hperform
        exact fun identity hmem => certified_of_page hinv hmem
      have hpage : Persists init pid fun s => F s ∧ ∀ identity ∈ page,
          s.Certified identity.fingerprint identity.certificatePem :=
        hF.and (Lasts.forall fun _ => .imp lasts_certified).persists
      refine Spec.bind_fact .assertOk fun candidate hcandidate => ?_
      refine Spec.bind_fact (.requireSome _) fun ⟨identity, certificatePem⟩ hsome => ?_
      obtain ⟨hmem, hpem, hkey⟩ := findIdentity_ok (hsome ▸ hcandidate)
      refine Spec.harmless_bind hpage harmless_issuerFingerprint fun rootFingerprint => ?_
      refine .ret fun s _ hs result hresult => ?_
      obtain rfl := Option.some.inj hresult
      exact ⟨hpem ▸ hs.2 identity hmem, hkey⟩

theorem spec_enrollOrRecover (hF : Persists init pid F) {grant : AgentGrantRecord} {token : String}
    (hissued : ∀ s, F s → s.IssuedFor token grant.grantId) (hgranted : ∀ s, F s → s.Granted grant)
    (csr : CertificateRequest) :
    Spec init issued pid F (enrollOrRecover grant token csr) fun result s =>
      s.CertifiedFor csr result := by
  refine .bind_option (spec_recoverActiveIdentity hF _ _ _) ?_ fun recovered =>
    .ret fun _ _ hs => hs.2
  refine Spec.bind (spec_enroll hF _ fun s hs => .inr ⟨token, grant, hissued s hs, hgranted s hs,
    rfl, rfl, rfl⟩) fun enrollment => .ret fun s hinv hs => ?_
  obtain ⟨⟨requestDigest, haccepted, henrolled⟩, -⟩ := hs.2
  exact henrolled.certifiedFor hinv haccepted

/-! ## Redeeming -/

theorem spec_capabilityExpired (hF : Persists init pid F) (capability : BootstrapCapabilityRecord) :
    Spec init issued pid F (capabilityExpired capability) fun _ _ => True :=
  .ite (fun _ => (spec_now hF).skip fun _ => .ret fun _ _ _ => trivial) fun _ =>
    .ret fun _ _ _ => trivial

theorem spec_redeemable (hF : Lasts init F) (token : String) :
    Spec init issued pid F (redeemable token) fun found s =>
      s.Presented token found.1 ∧ found.2.grantId = found.1.grantId ∧ s.Granted found.2 := by
  refine Spec.require (spec_getBootstrapCapability hF.persists token) fun capability => ?_
  have hpresented : Persists init pid fun s => F s ∧ s.Presented token capability :=
    (hF.and lasts_presented).persists
  refine (spec_capabilityExpired hpresented capability).skip fun expired => ?_
  refine .ite (fun _ => .raise) fun _ => ?_
  refine Spec.require (spec_getAgentGrant hpresented _) fun grant => ?_
  exact .ite (fun _ => .raise) fun _ => .ret fun s _ hs => ⟨hs.1.2, hs.2.1, hs.2.2.1⟩

/-- **A redemption that returns has bound its token, its grant and its certificate together.** -/
theorem spec_redeem (hF : Lasts init F) (token : String) (csr : CertificateRequest) :
    Spec init issued pid F (AgentGrantService.redeem token csr) fun redemption s =>
      s.Redeemed token csr redemption := by
  refine .bind (spec_redeemable hF token) fun ⟨capability, grant⟩ => ?_
  have hknows : Lasts init fun s => F s ∧ s.Presented token capability ∧
      grant.grantId = capability.grantId ∧ s.Granted grant :=
    hF.and (lasts_presented.and ((Lasts.const _).and lasts_granted))
  have hissued : ∀ s, F s ∧ s.Presented token capability ∧
      grant.grantId = capability.grantId ∧ s.Granted grant → s.IssuedFor token grant.grantId :=
    fun s hs => hs.2.2.1 ▸ hs.2.1.issued
  refine .bind (spec_enrollOrRecover hknows.persists hissued (fun s hs => hs.2.2.2) csr)
    fun result => ?_
  refine .bind (spec_bind (hknows.and lasts_certifiedFor) token fun s hs => hs.1.2.1)
    fun _ => .ret fun s _ hs => ?_
  exact ⟨hissued s hs.1.1, hs.2.2, hs.2.1, hs.1.2⟩

/-! ## Policies -/

theorem harmless_requireHead (environment secretId : String) :
    (requireHead environment secretId).Only Request.Harmless := by
  refine .bind (.bind (.bind (Request.Harmless.get _).send fun _ => trivial) fun secretUid => ?_)
    fun head => ?_
  · cases secretUid with
    | none => trivial
    | some secretUid => exact (Request.Harmless.get _).send
  · cases head <;> trivial

theorem harmless_resolveSecretGrant (environment : String) (grant : ParsedSecretGrant) :
    (resolveSecretGrant environment grant).Only Request.Harmless :=
  .bind (harmless_requireHead _ _) fun _ => trivial

theorem harmless_resolveSecretGrants (environment : String) (grants : List ParsedSecretGrant) :
    (resolveSecretGrants environment grants).Only Request.Harmless :=
  .mapM (harmless_resolveSecretGrant environment) grants

theorem harmless_getAgentGrant (grantId : String) :
    (getAgentGrant grantId).Only Request.Harmless :=
  .bind (Request.Harmless.get _).send fun _ => trivial

theorem spec_createGrant (hF : Persists init pid F) (input : CreateAgentGrantInput) :
    Spec init issued pid F (AgentGrantService.create input) fun _ _ => True := by
  refine Spec.skip .assertOk fun _ => (spec_requireEnvironment hF _).skip fun _ => ?_
  refine Spec.harmless_bind hF (Request.Harmless.get _).send fun consumer => ?_
  refine .ite (fun _ => .raise) fun _ => ?_
  refine Spec.skip .assertOk fun capabilities => Spec.skip .assertOk fun parsed => ?_
  refine Spec.harmless_bind hF (harmless_resolveSecretGrants _ _) fun secretGrants => ?_
  refine Spec.skip .assertOk fun _ => (spec_newId hF "grant-").skip fun grantId => ?_
  refine (spec_now hF).skip fun now => Spec.skip (R := fun _ _ => True)
    (Spec.recover ?_ fun _ => .raise) fun _ => .ret fun _ _ _ => trivial
  exact .send_any hF rfl fun _ _ _ => .registry .grant

theorem spec_updateGrant (hF : Lasts init F) (input : UpdateAgentGrantInput) :
    Spec init issued pid F (AgentGrantService.update input) fun _ _ => True := by
  refine Spec.harmless_bind hF.persists (harmless_getAgentGrant _) fun found => ?_
  refine Spec.skip (.requireSome _) fun existing => ?_
  refine Spec.skip .assertOk fun capabilities => Spec.skip .assertOk fun parsed => ?_
  refine Spec.harmless_bind hF.persists (harmless_resolveSecretGrants _ _) fun secretGrants => ?_
  refine Spec.skip .assertOk fun _ => ?_
  have hwrite : Spec init issued pid F ((updateAgentGrant
      (updatedGrant existing input capabilities secretGrants) input.displayName.isNone).bind
        fun _ => .ret (updatedGrant existing input capabilities secretGrants)) fun _ _ => True := by
    refine Spec.skip (R := fun _ _ => True) (Spec.recover ?_ fun _ => .raise) fun _ =>
      .ret fun _ _ _ => trivial
    exact .send_any hF.persists rfl fun _ _ _ => .registry .policy
  by_cases hactive : existing.status = .active
  · simp only [hactive, if_true]
    exact (Runs.keep hF (runs_reconcileReadAccess _ _)).skip fun _ => hwrite
  · simp only [hactive, if_false]
    exact hwrite

theorem spec_reconcileActiveGrant (hF : Lasts init F) (grantId : String) (actor : Actor) :
    Spec init issued pid F (reconcileActiveGrant grantId actor) fun _ _ => True := by
  refine Spec.harmless_bind hF.persists (harmless_getAgentGrant _) fun found => ?_
  refine Spec.skip (.requireSome _) fun grant => ?_
  refine .ite (fun _ => .ret fun _ _ _ => trivial) fun _ => ?_
  exact (Runs.keep hF (runs_reconcileReadAccess grant actor)).post fun _ _ _ _ _ => trivial

/-! ## Issuing -/

/-- A token that was just drawn is of no grant. -/
theorem spec_newToken (hF : Persists init pid F) (tag : String) :
    Spec init issued pid F (send (.newId tag)) fun token s =>
      s.Owns pid token ∧ ∀ grantId, ¬ s.IssuedFor token grantId := by
  refine .send hF rfl (fun _ _ _ => trivial) ?_
  rintro s choice token s' hinv - - - hperform
  simp only [perform] at hperform
  split at hperform <;> cases hperform
  rename_i hfresh
  refine ⟨(drawn_of_fresh pid hinv hfresh).1.owns, fun grantId hissued => ?_⟩
  exact hfresh (hinv.capabilities.known hissued)

theorem persists_newToken {token : String} :
    Persists init pid fun s => s.Owns pid token ∧ ∀ grantId, ¬ s.IssuedFor token grantId :=
  fun _ _ hinv hinv' hrely h => ⟨lasts_owns.persists _ _ hinv hinv' hrely h.1, fun grantId hissued =>
    h.2 grantId (hrely.tokens h.1 hissued)⟩

theorem runs_issueBootstrapCapability (hF : Persists init pid F) (grantId : String) (actor : Actor) :
    Runs init issued pid F (issueBootstrapCapability grantId actor) fun capability s =>
      capability.grantId = grantId ∧ s.IssuedFor capability.token grantId := by
  refine (Spec.harmless hF (harmless_getAgentGrant _)).next (fun _ _ _ hs _ => hs) fun found => ?_
  refine (Spec.requireSome found).next (fun _ _ _ hs _ => hs) fun grant => ?_
  refine .ite (fun _ => Runs.raise) fun _ => ?_
  refine (spec_newToken hF "hmlb_").next (fun _ _ _ _ h => h) fun token => ?_
  refine (spec_now persists_newToken).next (fun _ _ _ hs _ => hs) fun now => ?_
  refine (spec_now persists_newToken).next (fun _ _ _ hs _ => hs) fun createdAt => ?_
  refine Discipline.Safe.bind (R := fun _ s => s.IssuedFor token grantId) ?_ fun _ =>
    .ret fun _ _ hs => ⟨rfl, hs⟩
  refine Discipline.Safe.recover (E := fun _ _ => True) ?_ fun _ => Runs.raise
  refine safe_send persists_newToken.stable (fun s _ hs => .issue hs.1 hs.2 rfl) ?_
    fun _ _ _ _ _ _ _ _ => trivial
  rintro s choice _ s' - - - - hexec
  have hperform := perform_of_exec hexec
  simp only [perform] at hperform
  split at hperform <;> cases hperform
  exact ⟨_, .record _, rfl, rfl⟩

/-! ## The routes -/

/-- What a request on a grant has achieved when it returns. -/
def GrantRequest.Result : GrantRequest → GrantResponse → Cloud → Prop
  | .redeem token csr, .redeemed redemption, s => s.Redeemed token csr redemption
  | .redeem _ _, _, _ => False
  | _, _, _ => True

theorem lasts_grantResult {request : GrantRequest} {response : GrantResponse} :
    Lasts init (request.Result response) := by
  cases request <;> cases response <;> first | exact .const _ | exact lasts_redeemed

theorem spec_auditRedemption (hF : Persists init pid F) (correlationId : String)
    (redemption : BootstrapRedemptionResult) :
    Spec init issued pid F (AgentGrants.auditRedemption correlationId redemption)
      fun _ _ => True := by
  have hoperation : "bootstrap.redeem" ≠ "workflow.recovery" := by decide
  exact .forM fun outcome _ => (spec_writeEvent hF hoperation).skip fun _ =>
    .ret fun _ _ _ => trivial

/-- **A request on a grant keeps the discipline.** -/
theorem runs_grant (hF : Lasts init F) (request : GrantRequest) (correlationId : String) :
    Runs init issued pid F (AgentGrants.operate request correlationId) request.Result := by
  have hevent : ∀ {G : Cloud → Prop}, Persists init pid G → ∀ {event : AuditEvent},
      event.operation ≠ "workflow.recovery" → ∀ {response : GrantResponse},
        (∀ s, G s → request.Result response s) → Runs init issued pid G
          ((Recovery.writeEvent event).bind fun _ => .ret response) request.Result :=
    fun hG _ hoperation _ hresult => (spec_writeEvent hG hoperation).bind_runs fun _ =>
      .ret fun s _ hs => hresult s hs.1
  cases request with
  | create input =>
      refine (spec_createGrant hF.persists input).next (fun _ _ _ hs _ => hs) fun grant => ?_
      exact hevent hF.persists (show "adminpost:/v1/admin/agent-grants" ≠ _ by decide)
        fun _ _ => trivial
  | update input =>
      refine (spec_updateGrant hF input).next (fun _ _ _ hs _ => hs) fun grant => ?_
      exact hevent hF.persists (operation_ne "adminput:/v1/admin/agent-grants/" _ (by decide))
        fun _ _ => trivial
  | issue grantId actor =>
      refine Discipline.Safe.bind (R := fun _ _ => True)
        ((runs_issueBootstrapCapability hF.persists grantId actor).post fun _ _ _ _ => trivial)
        fun capability => hevent (.const _) ?_ fun _ _ => trivial
      show "adminpost:/v1/admin/agent-grants/" ++ grantId ++ _ ≠ _
      rw [String.append_assoc]
      exact operation_ne "adminpost:/v1/admin/agent-grants/" _ (by decide)
  | redeem token csr =>
      refine Discipline.Safe.bind (R := fun redemption s => s.Redeemed token csr redemption) ?_
        fun _ => .ret fun _ _ hs => hs
      refine .ite (fun _ => Runs.raise) fun _ => ?_
      refine (spec_redeem hF token csr).next (fun _ _ _ _ h => h) fun redemption => ?_
      exact (spec_auditRedemption lasts_redeemed.persists _ _).bind_runs fun _ =>
        .ret fun _ _ hs => hs.1
  | reconcile grantId actor =>
      exact (spec_reconcileActiveGrant hF grantId actor).bind_runs fun _ =>
        .ret fun _ _ _ => trivial

end Specs

end Hemlig
