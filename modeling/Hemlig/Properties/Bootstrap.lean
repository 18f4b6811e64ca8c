import Hemlig.Properties.Enrollments

/-!
# A grant is activated once

Consuming the capability, enrolling the consumer and activating the grant are three steps,
and redemptions of several tokens take them in any order.  What a redemption knows when it
returns (`Cloud.Redeemed`) holds from then on, so that any two of them can be compared in
the state that is reached: both are active for the grant, which is active for one identity
only.
-/

namespace Hemlig

open Concurrent DynamoRepository

variable {init s : Cloud}

/-! ## Redemptions -/

/-- The process has redeemed the token. -/
def ServiceWorld.Redeemed (w : ServiceWorld) (pid : ℕ) (token : String) (csr : CertificateRequest)
    (redemption : BootstrapRedemptionResult) : Prop :=
  ∃ correlationId, w.procs pid = some (.grant (.redeem token csr) correlationId,
    .ret (.grant (.redeemed redemption)))

/-- The request is for the key that the certificate of the identity is for. -/
def Cloud.ForKeyOf (s : Cloud) (fingerprint : String) (csr : CertificateRequest) : Prop :=
  ∃ identity certificatePem parsed, s.identity fingerprint = some identity ∧
    identity.certificatePem = some certificatePem ∧
      IssuerService.parseAndVerifyCsr csr = .ok parsed ∧
        certificatePem.publicKey = parsed.publicKey

/-- A grant is activated for one identity, and every token of it is redeemed for that. -/
structure ActivatedOnce (w : ServiceWorld) (grantId : String) : Prop where
  /-- A redemption returns the identity that the grant is active for. -/
  activated : ∀ pid token csr redemption, w.store.IssuedFor token grantId →
    w.Redeemed pid token csr redemption →
      ∃ stored, w.store.agentGrant grantId = some stored ∧ stored.record.status = .active ∧
        stored.record.activatedFingerprint = some redemption.result.apiFingerprint
  /-- Redemptions return one certificate. -/
  same : ∀ pid pid' token token' csr csr' redemption redemption',
    w.store.IssuedFor token grantId → w.store.IssuedFor token' grantId →
      w.Redeemed pid token csr redemption → w.Redeemed pid' token' csr' redemption' →
        redemption.result.apiFingerprint = redemption'.result.apiFingerprint ∧
          redemption.result.apiCertificatePem = redemption'.result.apiCertificatePem
  /-- A capability is consumed with one key: a request for another one is never redeemed. -/
  rejected : ∀ pid token csr fingerprint redemption, w.store.IssuedFor token grantId →
    w.store.Bound token fingerprint → ¬ w.store.ForKeyOf fingerprint csr →
      ¬ w.Redeemed pid token csr redemption
  /-- A capability is consumed for one identity, and says for which. -/
  bound : ∀ token fingerprint, w.store.IssuedFor token grantId →
    w.store.Bound token fingerprint →
      (∀ other, w.store.Bound token other → other = fingerprint) ∧
        ∀ stored, w.store.capability token = some stored →
          stored.record.status = .consumed ∧ stored.record.consumedFingerprint = some fingerprint

/-- What is bound once stays bound to it. -/
theorem CapabilitiesInv.bound_once (h : CapabilitiesInv s) {token fingerprint : String}
    (hbound : s.Bound token fingerprint) :
    (∀ other, s.Bound token other → other = fingerprint) ∧
      ∀ stored, s.capability token = some stored →
        stored.record.status = .consumed ∧
          stored.record.consumedFingerprint = some fingerprint := by
  refine ⟨fun other hother => h.unique hother hbound, fun stored hstored => ?_⟩
  have hconsumed := (h.bound hbound).2 hstored
  simpa [consumedWith] using hconsumed

/-- The certificate of a redemption is the one of its identity. -/
theorem Cloud.Redeemed.forKeyOf {token : String} {csr : CertificateRequest}
    {redemption : BootstrapRedemptionResult} (h : s.Redeemed token csr redemption) :
    s.ForKeyOf redemption.result.apiFingerprint csr := by
  obtain ⟨identity, hidentity, hpem⟩ := h.certified.certified
  obtain ⟨parsed, hparsed, hkey⟩ := h.certified.key
  exact ⟨identity, _, parsed, hidentity, hpem, hparsed, hkey⟩

/-- A grant is active for one identity. -/
theorem Cloud.ActiveFor.unique {grantId fingerprint fingerprint' : String}
    (h : s.ActiveFor grantId fingerprint) (h' : s.ActiveFor grantId fingerprint') :
    fingerprint = fingerprint' := by
  obtain ⟨stored, hstored, -, hfingerprint⟩ := h
  obtain ⟨stored', hstored', -, hfingerprint'⟩ := h'
  obtain rfl := Option.some.inj (hstored.symm.trans hstored')
  exact Option.some.inj (hfingerprint.symm.trans hfingerprint')

/-- Two redemptions for one grant are for one identity. -/
theorem Cloud.Redeemed.same {token token' : String} {csr csr' : CertificateRequest}
    {redemption redemption' : BootstrapRedemptionResult} (h : s.Redeemed token csr redemption)
    (h' : s.Redeemed token' csr' redemption') (hgrant : redemption.grantId = redemption'.grantId) :
    redemption.result.apiFingerprint = redemption'.result.apiFingerprint ∧
      redemption.result.apiCertificatePem = redemption'.result.apiCertificatePem := by
  have hactive : s.ActiveFor redemption'.grantId redemption.result.apiFingerprint :=
    hgrant ▸ h.active
  have hsame : redemption.result.apiFingerprint = redemption'.result.apiFingerprint :=
    hactive.unique h'.active
  refine ⟨hsame, ?_⟩
  obtain ⟨identity, hidentity, hpem⟩ := h.certified.certified
  obtain ⟨identity', hidentity', hpem'⟩ := h'.certified.certified
  rw [hsame] at hidentity
  obtain rfl := Option.some.inj (hidentity.symm.trans hidentity')
  exact Option.some.inj (hpem.symm.trans hpem')

/-! ## Runs -/

/-- What a redemption has achieved holds from then on. -/
theorem ServiceWorld.Redeemed.achieved (hinit : Initial init) {w : ServiceWorld}
    {actions : List ServiceAction} (hrun : service.run (World.initial init) actions = some w)
    {pid : ℕ} {token : String} {csr : CertificateRequest}
    {redemption : BootstrapRedemptionResult} (h : w.Redeemed pid token csr redemption) :
    w.store.Redeemed token csr redemption := by
  obtain ⟨correlationId, hproc⟩ := h
  exact result_of_run hinit hrun hproc

/-- **Every grant is activated for at most one identity, which all redemptions return.** -/
theorem activated_once (hinit : Initial init) {w : ServiceWorld} {actions : List ServiceAction}
    (hrun : service.run (World.initial init) actions = some w) (grantId : String) :
    ActivatedOnce w grantId := by
  have hinv := (invariant_of_run hinit hrun).capabilities
  -- The token of a redemption is of one grant.
  have hgrant : ∀ {token csr redemption}, w.store.IssuedFor token grantId →
      w.store.Redeemed token csr redemption → redemption.grantId = grantId :=
    fun hissued hredeemed => hinv.issued hredeemed.issued hissued
  refine ⟨?_, ?_, ?_, fun token fingerprint _ hbound => hinv.bound_once hbound⟩
  · intro pid token csr redemption hissued hreturned
    have hredeemed := hreturned.achieved hinit hrun
    obtain ⟨stored, hstored, hactive, hfingerprint⟩ := hredeemed.active
    cases hgrant hissued hredeemed
    exact ⟨stored, hstored, hactive, hfingerprint⟩
  · intro pid pid' token token' csr csr' redemption redemption' hissued hissued' hreturned hreturned'
    have hredeemed := hreturned.achieved hinit hrun
    have hredeemed' := hreturned'.achieved hinit hrun
    have hsame : redemption.grantId = redemption'.grantId :=
      (hgrant hissued hredeemed).trans (hgrant hissued' hredeemed').symm
    exact hredeemed.same hredeemed' hsame
  · intro pid token csr fingerprint redemption hissued hbound hother hreturned
    have hredeemed := hreturned.achieved hinit hrun
    have hsame : redemption.result.apiFingerprint = fingerprint :=
      (hinv.bound_once hbound).1 _ hredeemed.bound
    exact hother (hsame ▸ hredeemed.forKeyOf)

/-- The process returned an identity under the fingerprint. -/
def ServiceWorld.returned (w : ServiceWorld) (pid : ℕ) (fingerprint : String) : Bool :=
  match w.procs pid with
  | some (_, .ret (.grant (.redeemed redemption))) =>
      redemption.result.apiFingerprint = fingerprint
  | _ => false

namespace Sample

def policy : CreateAgentGrantInput where
  consumerId := "agent"
  environment := "prod"
  capabilities := ["write"]
  secretGrants := [{ secretId := "api-key", permissions := ["write"] }]
  displayName := none
  actor := admin

/-- A token of the grant is issued. -/
def issuing (pid : ℕ) (tag : String) : List ServiceAction :=
  .start pid (.grant (.issue "grant-g" admin) "corr") :: steps pid
    [plain, fresh tag, plain, plain, plain, fresh ("issued-" ++ tag), plain]

/-- The grant `grant-g` with two tokens. -/
def granting : List ServiceAction :=
  founding ++ creating 1 "a" "k1" ++
    .start 2 (.grant (.create policy) "corr") :: steps 2
      [plain, plain, plain, plain, fresh "g", plain, plain, fresh "granted", plain] ++
    issuing 3 "t1" ++ issuing 4 "t2"

/-- The events of a redemption are written. -/
def evidencing (pid : ℕ) (tag : String) : List ServiceAction :=
  steps pid [fresh (tag ++ "-1"), plain, fresh (tag ++ "-2"), plain, fresh (tag ++ "-3"), plain]

/-- A first redemption enrolls the agent. -/
def redeeming : List ServiceAction :=
  .start 5 (.grant (.redeem "hmlb_t1" (requestFor "key")) "corr") :: steps 5
    (List.replicate 16 (supplying "op" "root") ++ List.replicate 13 (supplying "op" "op") ++
      List.replicate 14 (supplying "op" "bundle")) ++ evidencing 5 "first"

/-- Another one finds the identity in the index. -/
def redeemingAgain : List ServiceAction :=
  .environment (.replicateIdentity "op") ::
    .start 6 (.grant (.redeem "hmlb_t2" (requestFor "key")) "corr") ::
      steps 6 (List.replicate 15 (supplying "op" "op")) ++ evidencing 6 "second"

theorem redeemed_checked :
    (service.run (World.initial Cloud.empty) (granting ++ redeeming ++ redeemingAgain)).any
      (fun w : ServiceWorld => decide (w.returned 5 "op" = true ∧ w.returned 6 "op" = true)) = true := by
  decide +kernel

theorem redeemed :
    (service.run (World.initial Cloud.empty) (granting ++ redeeming ++ redeemingAgain)).isSome =
      true :=
  Option.isSome_of_any redeemed_checked

end Sample

theorem activated_once_redeemed :
    (reached Cloud.empty _ Sample.redeemed).returned 5 "op" = true ∧
      (reached Cloud.empty _ Sample.redeemed).returned 6 "op" = true ∧
      ActivatedOnce (reached Cloud.empty _ Sample.redeemed) "grant-g" :=
  ⟨(reached_of_any Sample.redeemed_checked).1, (reached_of_any Sample.redeemed_checked).2,
    activated_once Initial.empty (run_reached Sample.redeemed) "grant-g"⟩

end Hemlig
