import Hemlig.Invariant.Passes

/-!
# The programs of a pass

Each program of a pass respects the discipline.  The programs that only read, and write to Secrets
and sites, keep every lasting assertion; those that write a status are followed with what the pass
knows of the imports it has not yet reached.
-/

namespace Hemlig.Kubernetes

open Concurrent Controller Store

variable {runtime : Runtime} {issued : Request → Cluster → Prop} {pid : ℕ} {q : Request}
  {s s' : Cluster} {F : Cluster → Prop}

/-! ## Requests -/

/-- A request that is made while the pass runs, and writes no status of a consumer or an import.
What is known of the answer alone is known whatever happens to the pass. -/
theorem safe_answer {p : q.Reply → Prop} {R : q.Reply → Cluster → Prop} (hF : Lasting F)
    (hquiet : q.Quiet) (hstart : q ≠ .start) (hready : ∀ s, s.Sound → F s → s.Ready runtime q)
    (hanswer : ∀ s (choice : Choice) value, s.Sound → F s →
      (s.perform choice q).1 = .ok value → p value ∧ R value (s.perform choice q).2) :
    (passes runtime).Safe issued pid (Owned pid F) (send q)
      (fun value s => p value ∧ Owned pid (fun s => F s ∧ R value s) s) (fun _ => Owned pid F) := by
  refine .bind (R := fun answer s => (∀ value, answer = .ok value → p value) ∧
      Owned pid (fun s => F s ∧ ∀ value, answer = .ok value → R value s) s)
    (.request hF.stable (fun s hsound hs hrunning => hready s hsound (hs hrunning)) ?_)
    fun answer => .ofExcept (fun value hvalue s _ hs => ⟨hs.1 value hvalue, fun hrunning =>
      ⟨(hs.2 hrunning).1, (hs.2 hrunning).2 value hvalue⟩⟩) fun _ _ s _ hs hrunning => (hs.2 hrunning).1
  intro s choice answer s' hsound hs _ hexec
  by_cases hfinish : q = .finish
  · subst hfinish
    change Cluster.exec pid .finish choice s = _ at hexec
    rw [Cluster.exec.eq_2] at hexec
    obtain ⟨hrunning, hsome⟩ := Option.ite_none_right_eq_some.mp hexec
    obtain ⟨rfl, rfl⟩ := Prod.mk.inj (Option.some.inj hsome)
    refine ⟨fun value hvalue => (hanswer s choice value hsound (hs hrunning) hvalue).1, ?_⟩
    intro hnone
    cases hnone
  · obtain ⟨hrunning, ⟨rfl, failure, rfl⟩ | ⟨rfl, hcases⟩⟩ :=
      Cluster.exec_cases hstart hfinish hexec
    · exact ⟨fun value hvalue => (by cases hvalue), fun _ => ⟨hs hrunning, fun value hvalue =>
        (by cases hvalue)⟩⟩
    · have hF' := hF s _ hsound (hsound.perform choice hquiet).1 (hs hrunning)
      obtain rfl | ⟨failure, rfl⟩ := hcases
      · exact ⟨fun value hvalue => (hanswer s choice value hsound (hs hrunning) hvalue).1, fun _ =>
          ⟨hF', fun value hvalue => (hanswer s choice value hsound (hs hrunning) hvalue).2⟩⟩
      · exact ⟨fun value hvalue => (by cases hvalue), fun _ => ⟨hF', fun value hvalue =>
          (by cases hvalue)⟩⟩

theorem safe_send {R : q.Reply → Cluster → Prop} (hF : Lasting F) (hquiet : q.Quiet)
    (hstart : q ≠ .start) (hready : ∀ s, s.Sound → F s → s.Ready runtime q)
    (hanswer : ∀ s (choice : Choice) value, s.Sound → F s →
      (s.perform choice q).1 = .ok value → R value (s.perform choice q).2) :
    (passes runtime).Safe issued pid (Owned pid F) (send q)
      (fun value => Owned pid fun s => F s ∧ R value s) (fun _ => Owned pid F) :=
  (safe_answer (p := fun _ => True) hF hquiet hstart hready fun s choice value hsound hs hvalue =>
    ⟨trivial, hanswer s choice value hsound hs hvalue⟩).post fun _ _ _ hs => hs.2

/-- Weaken what is known of the pass that runs. -/
theorem Owned.imp {G : Cluster → Prop} (h : Owned pid F s) (himp : F s → G s) : Owned pid G s :=
  fun hrunning => himp (h hrunning)

theorem only_request {p : Request → Prop} (h : p q) : (send q).Only p :=
  ⟨h, fun answer => by cases answer <;> trivial⟩

/-- A program of harmless requests keeps every lasting assertion. -/
theorem safe_only {α : Type} {program : Pass α} (hF : Lasting F)
    (h : program.Only Request.Harmless) :
    (passes runtime).Safe issued pid (Owned pid F) program (fun _ => Owned pid F)
      fun _ => Owned pid F :=
  .only hF.frame h

/-! ## Secrets -/

/-- A Secret that was read stands for its resource version. -/
def Cluster.Holds (s : Cluster) (key : NamespacedName) (secret : IdentitySecret) : Prop :=
  secret.resourceVersion ≤ s.revision ∧ ∀ current, s.secrets key = some current →
    current.resourceVersion = secret.resourceVersion → current = secret

theorem lasting_holds (key : NamespacedName) (secret : IdentitySecret) :
    Lasting fun s => s.Holds key secret := by
  intro s s' _ hlater h
  refine ⟨h.1.trans hlater.revision, fun current hcurrent hversion => ?_⟩
  obtain hbefore | hnew := hlater.secrets hcurrent
  · exact h.2 current hbefore hversion
  · have hle := h.1
    omega

theorem lasting_authentic (body : SecretBody) : Lasting fun s => s.Authentic runtime body := by
  rintro s s' _ hlater ⟨version, payload, hversion, hpayload, hdata⟩
  exact ⟨version, payload, hversion, hlater.sites.payloads hpayload, hdata⟩

theorem lasting_requests (certificate csr : String) :
    Lasting fun s => s.sites.requests certificate = some csr :=
  fun _ _ _ hlater h => hlater.sites.requests h

/-- A Secret is read. -/
theorem safe_read (hF : Lasting F) (key : NamespacedName) :
    (passes runtime).Safe issued pid (Owned pid F) (send (.readNamespacedSecret key))
      (fun secret => Owned pid fun s => F s ∧ s.Holds key secret) (fun _ => Owned pid F) := by
  refine safe_send (q := .readNamespacedSecret key)
    (R := fun secret s => s.Holds key secret) hF trivial (by simp) (fun _ _ _ => trivial) ?_
  intro s choice secret hsound _ hanswer
  have hsecret : s.secrets key = some secret := by
    change Cluster.found (s.secrets key) = _ at hanswer
    cases hread : s.secrets key with
    | none =>
        rw [hread] at hanswer
        cases hanswer
    | some current =>
        rw [hread] at hanswer
        exact congrArg some (Except.ok.inj hanswer)
  exact ⟨hsound.revision hsecret,
    fun current hcurrent _ => Option.some.inj (hcurrent.symm.trans hsecret)⟩

/-- A Secret that was read is replaced. -/
theorem safe_replace (hF : Lasting F) {key : NamespacedName} {resourceVersion : ℕ}
    {body : SecretBody} (hready : ∀ s, s.Sound → F s →
      s.Ready runtime (.replaceNamespacedSecret key resourceVersion body)) :
    (passes runtime).Safe issued pid (Owned pid F)
      (send (.replaceNamespacedSecret key resourceVersion body)) (fun _ => Owned pid F)
      (fun _ => Owned pid F) :=
  (safe_send (q := .replaceNamespacedSecret key resourceVersion body) (R := fun _ _ => True) hF
    trivial (by simp) hready fun _ _ _ _ _ _ => trivial).post fun _ _ _ hs => hs.imp And.left

/-- A Secret is created. -/
theorem safe_create (hF : Lasting F) {key : NamespacedName} {body : SecretBody}
    (hready : ∀ s, s.Sound → F s → s.Ready runtime (.createNamespacedSecret key body)) :
    (passes runtime).Safe issued pid (Owned pid F) (send (.createNamespacedSecret key body))
      (fun secret => Owned pid fun s => F s ∧ s.Holds key secret ∧ secret.body = body)
      (fun _ => Owned pid F) := by
  refine safe_send (q := .createNamespacedSecret key body)
    (R := fun secret s => s.Holds key secret ∧ secret.body = body) hF trivial (by simp) hready ?_
  intro s choice secret _ _ hanswer
  change (s.createSecret key body).1 = _ at hanswer
  show (s.createSecret key body).2.Holds key secret ∧ secret.body = body
  unfold Cluster.createSecret at hanswer ⊢
  cases hsecret : s.secrets key with
  | some current =>
      rw [hsecret] at hanswer
      cases hanswer
  | none =>
      rw [hsecret] at hanswer
      obtain rfl := Except.ok.inj hanswer
      refine ⟨⟨le_rfl, fun current hcurrent _ => ?_⟩, rfl⟩
      dsimp only at hcurrent
      rw [Cluster.secrets_putSecret, if_pos rfl] at hcurrent
      exact (Option.some.inj hcurrent).symm

/-- The target of an import is replaced where it belongs to the import. -/
theorem safe_applyImport (hF : Lasting F) {resource : SecretImport} {desired : SecretBody}
    (hdesired : isOwnedByImport desired (resourceKey resource.metadata) = true)
    (hcontent : ∀ s, F s → s.Authentic runtime desired) :
    (passes runtime).Safe issued pid (Owned pid F) (applyImport resource desired)
      (fun _ => Owned pid F) (fun _ => Owned pid F) := by
  refine .recover (E := fun _ => Owned pid F) (.bind (safe_read hF _) fun current => ?_)
    fun failure => ?_
  · refine .ite (fun howned => ?_) fun _ => ?_
    · refine (safe_replace (hF.and (lasting_holds _ _)) ?_).weaken (fun _ _ h => h)
        (fun _ _ _ hs => hs.imp And.left) fun _ _ _ hs => hs.imp And.left
      intro s _ hs stored hstored hversion
      obtain rfl := hs.2.2 stored hstored hversion
      exact .target howned hdesired (hcontent s hs.1)
    · exact .raise fun s _ hs => hs.imp And.left
  · refine .ite (fun _ => ?_) fun _ => .raise fun _ _ hs => hs
    have hmanaged : desired.managedBy = some "import" := (of_decide_eq_true hdesired).1
    exact .bind (safe_create hF fun s _ hs => .inr ⟨hmanaged, hcontent s hs⟩) fun _ =>
      .ret fun _ _ hs => hs.imp And.left

theorem safe_removeOwnedImport (hF : Lasting F) (resource : SecretImport) :
    (passes runtime).Safe issued pid (Owned pid F) (removeOwnedImport resource)
      (fun _ => Owned pid F) (fun _ => Owned pid F) := by
  refine safe_only hF (.recover (.bind (only_request trivial) fun current => ?_) fun failure => ?_)
  · exact .ite (only_request trivial) trivial
  · exact .ite trivial trivial

/-! ## Identities -/

section

variable {α : Type} {P : Cluster → Prop} {R : α → Cluster → Prop} {E : PassFailure → Cluster → Prop}

theorem safe_assertIdentityOwnership {secret : SecretBody} {owner : String} {next : Unit → Pass α}
    (hfail : ∀ failure s, P s → E failure s)
    (hnext : isOwnedByConsumer secret owner → (passes runtime).Safe issued pid P (next ()) R E) :
    (passes runtime).Safe issued pid P ((assertIdentityOwnership secret owner).bind next) R E := by
  unfold assertIdentityOwnership
  split
  · exact .raise fun s _ hs => hfail _ s hs
  · rename_i howned
    rw [not_or, not_not, not_not] at howned
    exact hnext howned

theorem safe_requiredData {secret : SecretBody} {key : String} {next : String → Pass α}
    (hfail : ∀ failure s, P s → E failure s)
    (hnext : ∀ value, secret.data.lookup key = some value →
      (passes runtime).Safe issued pid P (next value) R E) :
    (passes runtime).Safe issued pid P ((requiredData secret key).bind next) R E := by
  unfold requiredData
  cases hvalue : secret.data.lookup key with
  | none => exact .raise fun s _ hs => hfail _ s hs
  | some value => exact hnext value hvalue

end

/-- What is known of a Secret that keeps the identity of a consumer. -/
def Cluster.Identified (resource : Consumer) (secret : IdentitySecret) (s : Cluster) : Prop :=
  s.Holds (identityKey resource) secret ∧
    isOwnedByConsumer secret.body (resourceKey resource.metadata)

theorem lasting_identified (resource : Consumer) (secret : IdentitySecret) :
    Lasting (Cluster.Identified resource secret) :=
  (lasting_holds _ _).and (.const _)

theorem safe_findIdentity (hF : Lasting F) (resource : Consumer) :
    (passes runtime).Safe issued pid (Owned pid F) (findIdentity resource)
      (fun identity => Owned pid fun s => F s ∧ ∀ secret, identity = some secret →
        s.Identified resource secret) (fun _ => Owned pid F) := by
  refine .recover (E := fun _ => Owned pid F) (.bind (safe_read hF _) fun secret => ?_)
    fun failure => ?_
  · refine safe_assertIdentityOwnership (fun _ _ hs => hs.imp And.left) fun howned =>
      .ret fun s _ hs => hs.imp fun h => ⟨h.1, fun secret' hsecret => ?_⟩
    obtain rfl := Option.some.inj hsecret
    exact ⟨h.2, howned⟩
  · refine .ite (fun _ => .ret fun _ _ hs => hs.imp fun h => ⟨h, ?_⟩) fun _ =>
      .raise fun _ _ hs => hs
    simp

theorem safe_createPendingIdentity (hF : Lasting F) (resource : Consumer) (provider : Provider) :
    (passes runtime).Safe issued pid (Owned pid F)
      (createPendingIdentity runtime resource provider)
      (fun pending => Owned pid fun s => F s ∧ s.Identified resource pending)
      (fun _ => Owned pid F) := by
  refine .bind (R := fun generated s => generated.csrPem =
      runtime.certificationRequest generated.privateKeyPem ∧ Owned pid F s)
    (.bind (safe_only hF (only_request (q := .generateKeyPair) trivial)) fun privateKeyPem =>
      .ret fun _ _ hs => ⟨rfl, hs⟩) fun generated => ?_
  refine .of_fact (fun _ _ hs => hs.1) fun hcsr => Discipline.Safe.of_pre (P := Owned pid F) ?_
    fun _ _ hs => hs.2
  refine .recover (E := fun _ => Owned pid F) ((safe_create hF fun s _ _ => .inl ⟨rfl, ?_⟩).post
    fun pending s _ hs => hs.imp fun h => ⟨h.1, h.2.1, ?_⟩) fun failure => .ite (fun _ => ?_)
    fun _ => .raise fun _ _ hs => hs
  · exact ⟨generated.privateKeyPem, by rw [← hcsr]; rfl⟩
  · rw [h.2.2]
    exact ⟨rfl, rfl⟩
  · refine .bind (safe_read hF _) fun current => safe_assertIdentityOwnership
      (fun _ _ hs => hs.imp And.left) fun howned => .ret fun _ _ hs => hs.imp fun h => ?_
    exact ⟨h.1, h.2, howned⟩

theorem only_bootstrapToken (resource : Consumer) :
    (bootstrapToken runtime resource).Only Request.Harmless := by
  refine .bind (only_request trivial) fun secret => ?_
  cases secret.body.data.lookup resource.spec.bootstrapTokenKey <;> trivial

/-- A certificate is stored beside the key of the request that it answers. -/
theorem safe_bootstrapIdentity (hF : Lasting F) (resource : Consumer) (provider : Provider)
    (pending : IdentitySecret) :
    (passes runtime).Safe issued pid (Owned pid fun s => F s ∧ s.Identified resource pending)
      (bootstrapIdentity runtime resource provider pending) (fun _ => Owned pid F)
      (fun _ => Owned pid F) := by
  have hknown := hF.and (lasting_identified resource pending)
  have hdrop : ∀ (failure : PassFailure) s, Owned pid (fun s => F s ∧ s.Identified resource pending) s →
      Owned pid F s := fun _ _ hs => hs.imp And.left
  refine safe_requiredData hdrop fun privateKey hkey => safe_requiredData hdrop fun csr hcsr => ?_
  refine .bind ((safe_only hknown (only_bootstrapToken resource)).weaken (fun _ _ h => h)
    (fun _ _ _ h => h) fun failure s _ hs => hdrop failure s hs) fun token => ?_
  refine .bind ((safe_send (q := .redeemBootstrap _ _ (runtime.decodeBase64 csr))
    (R := fun (enrolled : EnrolledIdentity) s =>
      s.sites.requests enrolled.apiCertificatePem = some (runtime.decodeBase64 csr)) hknown trivial
    (by simp) (fun _ _ _ => trivial) ?_).weaken (fun _ _ h => h)
    (fun _ _ _ h => h) fun failure s _ hs => hdrop failure s hs) fun (enrolled : EnrolledIdentity) => ?_
  · intro s choice enrolled _ _ hanswer
    change (s.redeem _ _).1 = _ at hanswer
    show (s.redeem _ _).2.sites.requests _ = _
    unfold Cluster.redeem at hanswer ⊢
    dsimp only at hanswer ⊢
    split at hanswer
    · rename_i hall
      obtain rfl := Except.ok.inj hanswer
      rw [if_pos hall]
      exact Function.update_self ..
    · cases hanswer
  · refine .bind ((safe_replace (hknown.and (lasting_requests enrolled.apiCertificatePem
      (runtime.decodeBase64 csr))) ?_).weaken (fun _ _ h => h)
      (fun _ _ _ hs => hs.imp fun h => h.1.1) fun _ _ _ hs => hs.imp fun h => h.1.1) fun _ => ?_
    · intro s _ hs stored hstored hversion
      obtain ⟨⟨-, hholds, howned⟩, hanswered⟩ := hs
      obtain rfl := hholds.2 stored hstored hversion
      exact .identity howned ⟨rfl, rfl⟩ hkey.symm hcsr rfl hanswered rfl
    · exact .ret fun _ _ hs => hs

theorem safe_loadOrBootstrapIdentity (hF : Lasting F) (resource : Consumer) (provider : Provider) :
    (passes runtime).Safe issued pid (Owned pid F)
      (loadOrBootstrapIdentity runtime resource provider) (fun _ => Owned pid F)
      (fun _ => Owned pid F) := by
  refine .bind (safe_findIdentity hF resource) fun identity => ?_
  cases hstored : identity.bind (storedIdentity runtime) with
  | some stored => exact .ret fun _ _ hs => hs.imp And.left
  | none =>
      cases identity with
      | some pending =>
          exact (safe_bootstrapIdentity hF resource provider pending).of_pre fun _ _ hs =>
            hs.imp fun h => ⟨h.1, h.2 pending rfl⟩
      | none =>
          exact .bind ((safe_createPendingIdentity hF resource provider).of_pre fun _ _ hs =>
            hs.imp And.left) fun pending => safe_bootstrapIdentity hF resource provider pending

end Hemlig.Kubernetes
