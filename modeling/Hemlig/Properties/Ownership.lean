import Hemlig.Properties.Checkpoints

/-!
# The Secrets of the controller in every run

A step of a run leaves a Secret as it is, or it is one of three writes (`Cluster.Wrote`): somebody
else's, the creation of a Secret where none was, or the replacement of a Secret by the resource that
owns it.  So a pass overwrites a Secret only for its owner (`secrets_keep_owner`), and what the
controller has labelled stays what it has written: a certificate beside the key of its request
(`identities_match`), and the data of the version that a target names (`targets_authentic`).
-/

namespace Hemlig.Kubernetes

open Concurrent Controller Store

variable {runtime : Runtime} {init s s' : Cluster} {w w' : ControllerWorld}
  {action : ControllerAction} {actions : List ControllerAction} {pid : ℕ} {q : Request}
  {key : NamespacedName} {secret : IdentitySecret}

/-! ## Writes -/

/-- A request starts or ends a pass, leaves everything as it is, or has its effect. -/
theorem Cluster.exec_effect {choice : Choice} {answer : q.Answer}
    (h : Cluster.exec pid q choice s = some (answer, s')) :
    (∃ reconciling, s' = { s with reconciling := reconciling }) ∨
      (s.reconciling = some pid ∧ s' = (s.perform choice q).2) := by
  by_cases hstart : q = .start
  · subst hstart
    rw [Cluster.exec.eq_1] at h
    split at h
    · obtain ⟨-, rfl⟩ := Prod.mk.inj (Option.some.inj h)
      exact .inl ⟨s.reconciling, rfl⟩
    · obtain ⟨-, rfl⟩ := Prod.mk.inj (Option.some.inj h)
      exact .inl ⟨some pid, rfl⟩
  · by_cases hfinish : q = .finish
    · subst hfinish
      rw [Cluster.exec.eq_2] at h
      obtain ⟨-, hsome⟩ := Option.ite_none_right_eq_some.mp h
      obtain ⟨-, rfl⟩ := Prod.mk.inj (Option.some.inj hsome)
      exact .inl ⟨none, rfl⟩
    · obtain ⟨hrunning, ⟨rfl, -⟩ | ⟨rfl, -⟩⟩ := exec_cases hstart hfinish h
      · exact .inl ⟨s'.reconciling, rfl⟩
      · exact .inr ⟨hrunning, rfl⟩

/-- How a Secret has come to what it is after a step. -/
inductive Cluster.Wrote (runtime : Runtime) (s : Cluster) (action : ControllerAction)
    (key : NamespacedName) (secret : IdentitySecret) : Prop
  | foreign (event : action = .environment (.secret key (some secret.body)))
  | created (absent : s.secrets key = none)
      (ready : s.Ready runtime (.createNamespacedSecret key secret.body))
  | replaced {current : IdentitySecret} (present : s.secrets key = some current)
      (replaces : s.Replaces runtime current.body secret.body)

/-- What a pass leaves of the Secrets. -/
theorem Cluster.wrote_of_perform {choice : Choice} (hready : s.Ready runtime q)
    (hsecret : (s.perform choice q).2.secrets key = some secret) :
    s.secrets key = some secret ∨ s.Wrote runtime action key secret := by
  cases q with
  | createNamespacedSecret target body =>
      change (s.createSecret target body).2.secrets key = _ at hsecret
      unfold Cluster.createSecret at hsecret
      cases hcurrent : s.secrets target with
      | some current =>
          rw [hcurrent] at hsecret
          exact .inl hsecret
      | none =>
          rw [hcurrent] at hsecret
          dsimp only at hsecret
          rw [secrets_putSecret] at hsecret
          split at hsecret
          · subst ‹key = target›
            obtain rfl := Option.some.inj hsecret
            exact .inr (.created hcurrent hready)
          · exact .inl hsecret
  | replaceNamespacedSecret target resourceVersion body =>
      change (s.replaceSecret target resourceVersion body).2.secrets key = _ at hsecret
      obtain hsame | ⟨current, hcurrent, hversion, hput⟩ :=
        s.replaceSecret_cases target resourceVersion body
      · rw [hsame] at hsecret
        exact .inl hsecret
      · rw [hput, secrets_putSecret] at hsecret
        split at hsecret
        · subst ‹key = target›
          obtain rfl := Option.some.inj hsecret
          exact .inr (.replaced hcurrent (hready current hcurrent hversion))
        · exact .inl hsecret
  | deleteNamespacedSecret target =>
      change (s.deleteSecret target).2.secrets key = _ at hsecret
      obtain hsame | hremove := s.deleteSecret_cases target
      · rw [hsame] at hsecret
        exact .inl hsecret
      · rw [hremove, secrets_removeSecret] at hsecret
        exact .inl (Option.ite_none_left_eq_some.mp hsecret).2
  | patchStatus plural target status =>
      cases plural <;> exact .inl hsecret
  | redeemBootstrap bootstrapUrl token csr =>
      change (s.redeem csr choice.enrolled).2.secrets key = _ at hsecret
      obtain hsame | ⟨-, hsigned⟩ := s.redeem_cases csr choice.enrolled
      · rw [hsame] at hsecret
        exact .inl hsecret
      · rw [hsigned] at hsecret
        exact .inl hsecret
  | _ => exact .inl hsecret

/-- **A step leaves a Secret as it is, or writes it in one of three ways.** -/
theorem wrote_of_act (hinit : init.Initial)
    (hrun : (controller runtime).run (World.initial init) actions = some w)
    (hact : (controller runtime).act w action = some w')
    (hsecret : w'.store.secrets key = some secret) :
    w.store.secrets key = some secret ∨ w.store.Wrote runtime action key secret := by
  obtain ⟨pid, input, rfl, -, rfl⟩ | ⟨pid, choice, input, q, next, answer, store, rfl, hproc, hexec,
    rfl⟩ | ⟨event, store, rfl, hevent, rfl⟩ := (controller runtime).act_cases hact
  · exact .inl hsecret
  · obtain ⟨reconciling, rfl⟩ | ⟨hrunning, rfl⟩ := Cluster.exec_effect hexec
    · exact .inl hsecret
    · exact Cluster.wrote_of_perform (ready_of_run hinit hrun hproc hrunning) hsecret
  · cases event with
    | secret target body =>
        cases body with
        | some body =>
            obtain rfl := Option.some.inj hevent
            change (w.store.putSecret target body).secrets key = _ at hsecret
            rw [Cluster.secrets_putSecret] at hsecret
            split at hsecret
            · subst ‹key = target›
              obtain rfl := Option.some.inj hsecret
              exact .inr (.foreign rfl)
            · exact .inl hsecret
        | none =>
            obtain rfl := Option.some.inj hevent
            change (w.store.removeSecret target).secrets key = _ at hsecret
            rw [Cluster.secrets_removeSecret] at hsecret
            exact .inl (Option.ite_none_left_eq_some.mp hsecret).2
    | publish site environment record payload =>
        obtain ⟨-, hsome⟩ := Option.ite_none_right_eq_some.mp hevent
        obtain rfl := Option.some.inj hsome
        exact .inl hsecret
    | agent identity grant =>
        obtain ⟨-, hsome⟩ := Option.ite_none_right_eq_some.mp hevent
        obtain rfl := Option.some.inj hsome
        exact .inl hsecret
    | _ =>
        obtain rfl := Option.some.inj hevent
        exact .inl hsecret

/-- **A pass overwrites a Secret only for its owner.**  Where a step of a pass changes a Secret, the
same import or the same consumer owns it before and after. -/
theorem secrets_keep_owner (hinit : init.Initial)
    (hrun : (controller runtime).run (World.initial init) actions = some w) {choice : Choice}
    (hact : (controller runtime).act w (.step pid choice) = some w') {before after : IdentitySecret}
    (hbefore : w.store.secrets key = some before) (hafter : w'.store.secrets key = some after)
    (hchanged : before ≠ after) :
    ∃ owner, (isOwnedByImport before.body owner ∧ isOwnedByImport after.body owner) ∨
      (isOwnedByConsumer before.body owner ∧ isOwnedByConsumer after.body owner) := by
  obtain hsame | hwrote := wrote_of_act hinit hrun hact hafter
  · exact absurd (Option.some.inj (hbefore.symm.trans hsame)) hchanged
  · cases hwrote with
    | foreign event => cases event
    | created absent _ => cases absent.symm.trans hbefore
    | replaced present replaces =>
        obtain rfl := Option.some.inj (present.symm.trans hbefore)
        cases replaces with
        | target howned howned' _ => exact ⟨_, .inl ⟨howned, howned'⟩⟩
        | identity howned howned' _ _ _ _ _ => exact ⟨_, .inr ⟨howned, howned'⟩⟩

namespace Sample

/-- The identity Secret of the sample with its request, and with the answer. -/
def pending : IdentitySecret :=
  ⟨2, some "consumer",
    { consumerOwner := some "team/agent"
      provider := some "site"
      identityState := some "pending-bootstrap" },
    "Opaque", [("tls.key", "a2V5"), ("hemlig.io.csr", "Y3Ny")]⟩

def enrolled : IdentitySecret :=
  ⟨3, some "consumer",
    { consumerOwner := some "team/agent"
      provider := some "site"
      grantId := some "g1"
      apiFingerprint := some "f1" },
    "Opaque", [("tls.crt", "Y3J0"), ("tls.key", "a2V5")]⟩

/-- The target of the sample. -/
def target : IdentitySecret :=
  ⟨4, importBody functions ⟨⟨some "i", some 1, "team", "app"⟩,
    ⟨"agent", none, "app", none, none⟩, none⟩ "u1" ⟨"app", "v1", some "pv1", payload⟩⟩

theorem enrolling_checked :
    ((controller functions).run (World.initial cluster) (enrolling ++ [.step 0 choice])).any (fun w =>
      decide (w.store.secrets identityName = some enrolled)) = true ∧
    ((controller functions).run (World.initial cluster) enrolling).bind
      (fun w => w.store.secrets identityName) = some pending := by
  decide +kernel

theorem enrolling_possible :
    ((controller functions).run (World.initial cluster)
      (enrolling ++ [.step 0 choice])).isSome = true :=
  Option.isSome_of_any enrolling_checked.1

theorem secrets_outdated : outdated.store.secrets identityName = some enrolled ∧
    outdated.store.secrets importKey = some target := by
  decide +kernel

end Sample

open Sample in
theorem secrets_keep_owner_enrolled : ∃ owner,
    (isOwnedByImport pending.body owner ∧ isOwnedByImport enrolled.body owner) ∨
      (isOwnedByConsumer pending.body owner ∧ isOwnedByConsumer enrolled.body owner) := by
  obtain ⟨middle, hmiddle, hact⟩ := (controller functions).run_concat (run_reached enrolling_possible)
  have hbefore := enrolling_checked.2
  rw [hmiddle] at hbefore
  exact secrets_keep_owner initial hmiddle hact hbefore (reached_of_any enrolling_checked.1)
    (by decide)

/-! ## What the controller has labelled -/

/-- What a step of a run does to the sites. -/
theorem later_of_act (hinit : init.Initial)
    (hrun : (controller runtime).run (World.initial init) actions = some w)
    (hact : (controller runtime).act w action = some w') :
    w.store.sites.Later w'.store.sites := by
  have hsound := sound_of_run hinit hrun
  obtain ⟨pid, input, rfl, -, rfl⟩ | ⟨pid, choice, input, q, next, answer, store, rfl, -, hexec,
    rfl⟩ | ⟨event, store, rfl, hevent, rfl⟩ := (controller runtime).act_cases hact
  · exact .refl _
  · obtain ⟨reconciling, rfl⟩ | ⟨-, rfl⟩ := Cluster.exec_effect hexec
    · exact .refl _
    · by_cases hquiet : q.Quiet
      · exact (hsound.perform choice hquiet).1.sites
      · cases q with
        | patchStatus plural key status => cases plural <;> exact .refl _
        | _ => exact absurd trivial hquiet
  · exact (Cluster.environment_later hsound hevent).1.sites

/-- Nobody else writes Secrets with a label of the controller. -/
def Foreign (label : String) (actions : List ControllerAction) : Prop :=
  ∀ key body, .environment (.secret key (some body)) ∈ actions → body.managedBy ≠ some label

/-- A property of the Secrets with a label holds in every run, if later stores keep it and the
writes of the controller establish it. -/
theorem labelled_of_run {label : String} {p : Cluster → SecretBody → Prop} (hinit : init.Initial)
    (hrun : (controller runtime).run (World.initial init) actions = some w)
    (hforeign : Foreign label actions)
    (hfirst : ∀ key secret, init.secrets key = some secret → secret.body.managedBy ≠ some label)
    (hlater : ∀ s s' body, s.sites.Later s'.sites → p s body → p s' body)
    (hcreated : ∀ s key body, s.Ready runtime (.createNamespacedSecret key body) →
      body.managedBy = some label → p s body)
    (hreplaced : ∀ s current body, s.Replaces runtime current body →
      (current.managedBy = some label → p s current) → body.managedBy = some label → p s body)
    (hsecret : w.store.secrets key = some secret)
    (hlabel : secret.body.managedBy = some label) : p w.store secret.body := by
  refine (controller runtime).run_induction (motive := fun _ w => ∀ key secret,
    w.store.secrets key = some secret → secret.body.managedBy = some label →
      p w.store secret.body) hrun (fun key secret hsecret hlabel => ?_) ?_ key secret hsecret hlabel
  · exact absurd hlabel (hfirst key secret hsecret)
  · intro before action middle next hbegins hmiddle hact ih key secret hsecret hlabel
    have hsites := later_of_act hinit hmiddle hact
    obtain hsame | hwrote := wrote_of_act hinit hmiddle hact hsecret
    · exact hlater _ _ _ hsites (ih key secret hsame hlabel)
    · cases hwrote with
      | foreign event =>
          subst event
          exact absurd hlabel
            (hforeign key secret.body (hbegins.subset (List.mem_append_right _ (by simp))))
      | created _ ready => exact hlater _ _ _ hsites (hcreated _ _ _ ready hlabel)
      | replaced present replaces =>
          exact hlater _ _ _ hsites
            (hreplaced _ _ _ replaces (ih key _ present) hlabel)

/-! ### Identities -/

/-- A Secret holds one key, a request only if it is the one signed with that key, and a certificate
only if a site has answered that request with it. -/
def Cluster.Matched (runtime : Runtime) (s : Cluster) (body : SecretBody) : Prop :=
  ∃ privateKeyPem, body.data.lookup "tls.key" = some (runtime.encodeBase64 privateKeyPem) ∧
    (∀ csr, body.data.lookup identityCsrDataKey = some csr →
      csr = runtime.encodeBase64 (runtime.certificationRequest privateKeyPem)) ∧
    ∀ stored, body.data.lookup "tls.crt" = some stored → ∃ certificate,
      stored = runtime.encodeBase64 certificate ∧
      s.sites.requests certificate = some (runtime.certificationRequest privateKeyPem)

theorem SecretBody.Generated.matched {body : SecretBody} (h : body.Generated runtime) :
    s.Matched runtime body := by
  obtain ⟨privateKeyPem, hdata⟩ := h
  refine ⟨privateKeyPem, ?_, fun csr hcsr => ?_, fun stored hstored => ?_⟩
  · rw [hdata]
    rfl
  · rw [hdata] at hcsr
    exact (Option.some.inj hcsr).symm
  · rw [hdata] at hstored
    cases hstored

/-- **A certificate stays with its key.**  In every run, however often a pass was interrupted or
run again: every identity Secret holds one key, and a certificate only if it answers the request
that was signed with that key. -/
theorem identities_match (hdecode : ∀ text, runtime.decodeBase64 (runtime.encodeBase64 text) = text)
    (hinit : init.Initial) (hrun : (controller runtime).run (World.initial init) actions = some w)
    (hforeign : Foreign "consumer" actions) (hsecret : w.store.secrets key = some secret)
    (hlabel : secret.body.managedBy = some "consumer") : w.store.Matched runtime secret.body := by
  refine labelled_of_run (p := fun s body => s.Matched runtime body) hinit hrun hforeign
    (fun key secret h => (hinit.foreign h).1) ?_ ?_ ?_ hsecret hlabel
  · intro s s' body hlater hmatched
    obtain ⟨privateKeyPem, hkey, hrequest, hissued⟩ := hmatched
    refine ⟨privateKeyPem, hkey, hrequest, fun stored hstored => ?_⟩
    obtain ⟨certificate, heq, hanswered⟩ := hissued stored hstored
    exact ⟨certificate, heq, hlater.requests hanswered⟩
  · intro s key body hready hlabel
    obtain ⟨-, hgenerated⟩ | ⟨himport, -⟩ := hready
    · exact hgenerated.matched
    · exact absurd (Option.some.inj (hlabel.symm.trans himport)) (by decide)
  · intro s current body hreplaces hcurrent hlabel
    cases hreplaces with
    | target _ howned _ =>
        have himport := hlabel.symm.trans (of_decide_eq_true howned).1
        exact absurd (Option.some.inj himport) (by decide)
    | @identity owner certificate csr hbefore _ hkey hrequest hissued hanswered hsettled =>
        obtain ⟨privateKeyPem, hcurrentKey, hcurrentRequest, -⟩ := hcurrent hbefore.1
        refine ⟨privateKeyPem, hkey.trans hcurrentKey, fun csr hcsr => ?_, fun stored hstored => ?_⟩
        · cases hsettled.symm.trans hcsr
        · obtain rfl := Option.some.inj (hissued.symm.trans hstored)
          rw [hcurrentRequest csr hrequest, hdecode] at hanswered
          exact ⟨certificate, rfl, hanswered⟩

namespace Sample

theorem exchange_of_not_mem {pairs : List (String × String)} {text : String}
    (h : ∀ pair ∈ pairs, text ≠ pair.1 ∧ text ≠ pair.2) : exchange pairs text = text := by
  induction pairs with
  | nil => rfl
  | cons pair rest ih =>
      obtain ⟨hplain, hencoded⟩ := h pair List.mem_cons_self
      rw [exchange, if_neg hplain, if_neg hencoded]
      exact ih fun other hother => h other (List.mem_cons_of_mem _ hother)

theorem base64_base64 (text : String) : base64 (base64 text) = text := by
  by_cases hmem : text ∈ ["key", "a2V5", "csr", "Y3Ny", "crt", "Y3J0", "token", "dG9rZW4="]
  · simp only [List.mem_cons, List.not_mem_nil, or_false] at hmem
    rcases hmem with rfl | rfl | rfl | rfl | rfl | rfl | rfl | rfl <;> decide
  · have hsame : base64 text = text := exchange_of_not_mem (by simpa [not_or, and_assoc] using hmem)
    rw [hsame, hsame]

/-- Nobody in the sample writes a Secret with a label. -/
theorem foreign (label : String) : Foreign label restarted := by
  intro key body hmem
  simp only [restarted, applied, enrolling, events, List.map_cons, List.map_nil, List.mem_append,
    List.mem_cons, List.mem_replicate, List.not_mem_nil] at hmem
  simp at hmem
  rw [hmem.2]
  simp

end Sample

open Sample in
theorem identities_match_enrolled : outdated.store.Matched functions enrolled.body :=
  identities_match base64_base64 initial (run_reached restarted_possible) (foreign "consumer")
    secrets_outdated.1 rfl

/-! ### Targets -/

/-- **A target holds the version it names.**  In every run, the data of every imported Secret is the
payload that a site has published as the control version of its annotation, never parts of two. -/
theorem targets_authentic (hinit : init.Initial)
    (hrun : (controller runtime).run (World.initial init) actions = some w)
    (hforeign : Foreign "import" actions) (hsecret : w.store.secrets key = some secret)
    (hlabel : secret.body.managedBy = some "import") :
    w.store.Authentic runtime secret.body := by
  refine labelled_of_run (p := fun s body => s.Authentic runtime body) hinit hrun hforeign
    (fun key secret h => (hinit.foreign h).2) ?_ ?_ ?_ hsecret hlabel
  · intro s s' body hlater hauthentic
    obtain ⟨version, payload, hversion, hpayload, hdata⟩ := hauthentic
    exact ⟨version, payload, hversion, hlater.payloads hpayload, hdata⟩
  · intro s key body hready hlabel
    obtain ⟨hconsumer, -⟩ | ⟨-, hauthentic⟩ := hready
    · exact absurd (Option.some.inj (hlabel.symm.trans hconsumer)) (by decide)
    · exact hauthentic
  · intro s current body hreplaces _ hlabel
    cases hreplaces with
    | target _ _ hauthentic => exact hauthentic
    | identity _ howned _ _ _ _ _ =>
        exact absurd (Option.some.inj (hlabel.symm.trans howned.1)) (by decide)

open Sample in
theorem targets_authentic_imported : outdated.store.Authentic functions target.body :=
  targets_authentic initial (run_reached restarted_possible) (foreign "import") secrets_outdated.2 rfl

end Hemlig.Kubernetes
