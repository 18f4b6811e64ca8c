import Hemlig.Invariant.Cluster

/-!
# The discipline of the passes

What a pass must know when it writes a status or replaces a Secret.  A cursor is stored when it
covers what every import records, and a version is recorded when every stored cursor covers it.  A
Secret is replaced only where the one that was read, and that its resource version still stands for,
belonged to the same resource.

Two passes never run at once, so that an assertion of the pass that runs has to survive the events
of the environment only (`Owned`).
-/

namespace Hemlig.Kubernetes

open Concurrent Controller Store

variable (runtime : Runtime)

/-! ## What requests need -/

/-- A Secret holds the identity of a consumer. -/
def isOwnedByConsumer (body : SecretBody) (owner : String) : Prop :=
  body.managedBy = some "consumer" ∧ body.annotations.consumerOwner = some owner

/-- A new key, with the request that is signed with it. -/
def SecretBody.Generated (body : SecretBody) : Prop :=
  ∃ privateKeyPem, body.data = [("tls.key", runtime.encodeBase64 privateKeyPem),
    (identityCsrDataKey, runtime.encodeBase64 (runtime.certificationRequest privateKeyPem))]

/-- The data is the payload that a site has published as the version that the Secret names. -/
def Cluster.Authentic (s : Cluster) (body : SecretBody) : Prop :=
  ∃ version payload, body.annotations.controlVersionId = some version ∧
    s.sites.payloads version = some payload ∧ body.data = payloadToKubernetesData runtime payload

/-- What replaces a Secret.  The target of an import stays one of the same import.  An identity gets
a certificate beside the key it has, and the certificate answers the request that was kept with that
key. -/
inductive Cluster.Replaces (s : Cluster) (current body : SecretBody) : Prop
  | target {owner : String} (before : isOwnedByImport current owner = true)
      (after : isOwnedByImport body owner = true) (content : s.Authentic runtime body)
  | identity {owner certificate csr : String} (before : isOwnedByConsumer current owner)
      (after : isOwnedByConsumer body owner)
      (key : body.data.lookup "tls.key" = current.data.lookup "tls.key")
      (request : current.data.lookup identityCsrDataKey = some csr)
      (issued : body.data.lookup "tls.crt" = some (runtime.encodeBase64 certificate))
      (answered : s.sites.requests certificate = some (runtime.decodeBase64 csr))
      (settled : body.data.lookup identityCsrDataKey = none)

/-- Every stored cursor covers a version. -/
def Cluster.CoversStored (s : Cluster) (secretUid controlVersionId : String) : Prop :=
  ∀ key stored identity checkpoint, s.consumers.get key = some stored →
    stored.status.bind ReconciliationStatus.cursor = some (identity, checkpoint) →
    s.Covers identity checkpoint secretUid controlVersionId

/-- What must hold when a request is issued. -/
def Cluster.Ready (s : Cluster) : Request → Prop
  | .patchStatus .consumers key status => ∀ identity checkpoint,
      status.cursor = some (identity, checkpoint) → s.Synced key identity checkpoint
  | .patchStatus .imports _ status => ∀ version, status.recorded = some version →
      s.CoversStored version.secretUid version.controlVersionId
  | .createNamespacedSecret _ body =>
      (body.managedBy = some "consumer" ∧ body.Generated runtime) ∨
        (body.managedBy = some "import" ∧ s.Authentic runtime body)
  | .replaceNamespacedSecret key resourceVersion body => ∀ current,
      s.secrets key = some current → current.resourceVersion = resourceVersion →
      s.Replaces runtime current.body body
  | _ => True

/-- The discipline of the passes. -/
def passes : Discipline (controller runtime) where
  inv := Cluster.Sound
  pre pid q s := s.reconciling = some pid → s.Ready runtime q

/-- The request writes no status of a consumer or an import. -/
def Request.Quiet : Request → Prop
  | .patchStatus .consumers _ _ => False
  | .patchStatus .imports _ _ => False
  | _ => True

/-- The request needs nothing, and is made while the pass runs. -/
def Request.Harmless : Request → Prop
  | .start => False
  | .finish => False
  | .createNamespacedSecret _ _ => False
  | .replaceNamespacedSecret _ _ _ => False
  | .patchStatus .consumers _ _ => False
  | .patchStatus .imports _ _ => False
  | _ => True

variable {runtime : Runtime} {s s' : Cluster} {pid : ℕ} {q : Request} {Spec : Type}

theorem Request.Harmless.quiet (h : q.Harmless) : q.Quiet := by
  cases q with
  | patchStatus plural key status => cases plural <;> first | exact trivial | exact h
  | _ => trivial

theorem Request.Harmless.ready (h : q.Harmless) : s.Ready runtime q := by
  cases q with
  | patchStatus plural key status => cases plural <;> first | exact trivial | exact h.elim
  | createNamespacedSecret key body => exact h.elim
  | replaceNamespacedSecret key resourceVersion body => exact h.elim
  | _ => trivial

/-! ## What requests do -/

/-- A request of the pass that runs has its effect, or none. -/
theorem Cluster.exec_cases {choice : Choice} {answer : q.Answer} (hstart : q ≠ .start)
    (hfinish : q ≠ .finish) (h : Cluster.exec pid q choice s = some (answer, s')) :
    s.reconciling = some pid ∧
      ((s' = s ∧ ∃ failure, answer = .error failure) ∨
        (s' = (s.perform choice q).2 ∧
          (answer = (s.perform choice q).1 ∨ ∃ failure, answer = .error failure))) := by
  rw [Cluster.exec.eq_3 _ _ _ _ hstart hfinish] at h
  obtain ⟨hrunning, h⟩ := Option.ite_none_right_eq_some.mp h
  refine ⟨hrunning, ?_⟩
  cases hfault : choice.fault with
  | none =>
      rw [hfault] at h
      obtain ⟨hanswer, hstore⟩ := Prod.mk.inj (Option.some.inj h)
      exact .inr ⟨hstore.symm, .inl hanswer.symm⟩
  | refused failure =>
      rw [hfault] at h
      obtain ⟨hanswer, hstore⟩ := Prod.mk.inj (Option.some.inj h)
      exact .inl ⟨hstore.symm, failure, hanswer.symm⟩
  | unanswered failure =>
      rw [hfault] at h
      obtain ⟨hanswer, hstore⟩ := Prod.mk.inj (Option.some.inj h)
      exact .inr ⟨hstore.symm, .inr ⟨failure, hanswer.symm⟩⟩

theorem Cluster.createSecret_cases (s : Cluster) (key : NamespacedName) (body : SecretBody) :
    (s.createSecret key body).2 = s ∨ (s.createSecret key body).2 = s.putSecret key body := by
  unfold Cluster.createSecret
  cases s.secrets key with
  | none => exact .inr rfl
  | some current => exact .inl rfl

theorem Cluster.replaceSecret_cases (s : Cluster) (key : NamespacedName) (resourceVersion : ℕ)
    (body : SecretBody) : (s.replaceSecret key resourceVersion body).2 = s ∨
      (∃ current, s.secrets key = some current ∧ current.resourceVersion = resourceVersion ∧
        (s.replaceSecret key resourceVersion body).2 = s.putSecret key body) := by
  unfold Cluster.replaceSecret
  cases s.secrets key with
  | none => exact .inl rfl
  | some current =>
      dsimp only
      split
      · exact .inl rfl
      · split
        · exact .inl rfl
        · exact .inr ⟨current, rfl, not_not.mp ‹_›, rfl⟩

theorem Cluster.deleteSecret_cases (s : Cluster) (key : NamespacedName) :
    (s.deleteSecret key).2 = s ∨ (s.deleteSecret key).2 = s.removeSecret key := by
  unfold Cluster.deleteSecret
  cases s.secrets key with
  | none => exact .inl rfl
  | some current => exact .inr rfl

/-- A site signs a request, or leaves everything as it is. -/
theorem Cluster.redeem_cases (s : Cluster) (csr : String) (enrolled : EnrolledIdentity) :
    (s.redeem csr enrolled).2 = s ∨
    ((s.sites.requests enrolled.apiCertificatePem).all (· = csr) = true ∧
      (s.redeem csr enrolled).2 = { s with
        sites := { s.sites with
          requests := Function.update s.sites.requests enrolled.apiCertificatePem (some csr) } }) := by
  unfold Cluster.redeem
  dsimp only
  split
  · exact .inr ⟨‹_›, rfl⟩
  · exact .inl rfl

/-- A request of the pass that runs leaves it running. -/
theorem Cluster.reconciling_perform (choice : Choice) (hfinish : q ≠ .finish) :
    (s.perform choice q).2.reconciling = s.reconciling := by
  cases q with
  | finish => exact absurd rfl hfinish
  | createNamespacedSecret key body =>
      show (s.createSecret key body).2.reconciling = _
      obtain hsame | hput := s.createSecret_cases key body
      · rw [hsame]
      · rw [hput]
        rfl
  | replaceNamespacedSecret key resourceVersion body =>
      show (s.replaceSecret key resourceVersion body).2.reconciling = _
      obtain hsame | ⟨current, -, -, hput⟩ := s.replaceSecret_cases key resourceVersion body
      · rw [hsame]
      · rw [hput]
        rfl
  | deleteNamespacedSecret key =>
      show (s.deleteSecret key).2.reconciling = _
      obtain hsame | hremove := s.deleteSecret_cases key
      · rw [hsame]
      · rw [hremove]
        rfl
  | patchStatus plural key status => cases plural <;> rfl
  | redeemBootstrap bootstrapUrl token csr =>
      show (s.redeem csr choice.enrolled).2.reconciling = _
      obtain hsame | ⟨-, hsigned⟩ := s.redeem_cases csr choice.enrolled
      · rw [hsame]
      · rw [hsigned]
  | _ => rfl

theorem Cluster.reconciling_exec {choice : Choice} {answer : q.Answer} (hstart : q ≠ .start)
    (hfinish : q ≠ .finish) (h : Cluster.exec pid q choice s = some (answer, s')) :
    s'.reconciling = some pid := by
  obtain ⟨hrunning, ⟨rfl, -⟩ | ⟨rfl, -⟩⟩ := exec_cases hstart hfinish h
  · exact hrunning
  · rw [reconciling_perform choice hfinish, hrunning]

/-- What a site has signed stays signed. -/
theorem Cluster.Sound.redeem (h : s.Sound) (csr : String) (enrolled : EnrolledIdentity) :
    s.Later (s.redeem csr enrolled).2 ∧ (s.redeem csr enrolled).2.Sound := by
  obtain hsame | ⟨hall, hsigned⟩ := s.redeem_cases csr enrolled
  · rw [hsame]
    exact ⟨.refl s, h⟩
  · rw [hsigned]
    have hlater : s.sites.Later { s.sites with
        requests := Function.update s.sites.requests enrolled.apiCertificatePem (some csr) } := by
      refine ⟨fun _ _ => le_rfl, fun h => .inl ⟨h, fun _ h => h⟩, fun h => h, ?_⟩
      intro certificate other hother
      by_cases hcertificate : certificate = enrolled.apiCertificatePem
      · subst hcertificate
        rw [hother] at hall
        exact (Function.update_self ..).trans (congrArg some (of_decide_eq_true hall).symm)
      · exact (Function.update_of_ne hcertificate _ _).trans hother
    exact ⟨.of_sites hlater, (Cluster.Later.of_sites hlater).sound
      ⟨h.sites.sequence, h.sites.named, h.sites.version, h.sites.payload, h.sites.payloads,
        h.sites.grants⟩ h.revision h⟩

/-- A write of an agent keeps the invariant. -/
theorem Cluster.Sound.write (h : s.Sound) (identity : SyncIdentity)
    (secretId expected operationKey : String) (change : AgentSyncRecord → AgentSyncRecord)
    (payload : Option SecretPayload) :
    let sites := (s.sites.write identity secretId expected operationKey change payload).2
    s.Later { s with sites := sites } ∧ Cluster.Sound { s with sites := sites } := by
  intro sites
  suffices hstep : s.sites.Later sites ∧ sites.Sound from
    ⟨.of_sites hstep.1, (Cluster.Later.of_sites hstep.1).sound hstep.2 h.revision h⟩
  obtain hsame | ⟨environment, record, payload', replies, hpublishable, hwrite⟩ :=
    s.sites.write_cases identity secretId expected operationKey change payload
  · have hsites : sites = s.sites := hsame
    rw [hsites]
    exact ⟨.refl _, h.sites⟩
  · have hsites : sites = _ := hwrite
    rw [hsites]
    have hlater := h.sites.later_publish hpublishable payload'
    have hsound := h.sites.publish hpublishable payload'
    exact ⟨⟨hlater.counter, hlater.index, hlater.payloads, hlater.requests⟩, ⟨hsound.sequence,
      hsound.named, hsound.version, hsound.payload, hsound.payloads, hsound.grants⟩⟩

/-- **Requests keep the invariant**, if they write no status of a consumer or an import. -/
theorem Cluster.Sound.perform (h : s.Sound) (choice : Choice) (hquiet : q.Quiet) :
    s.Later (s.perform choice q).2 ∧ (s.perform choice q).2.Sound := by
  have same : s.Later s ∧ s.Sound := ⟨.refl s, h⟩
  cases q with
  | finish =>
      have hlater : s.Later { s with reconciling := none } :=
        ⟨.refl _, .refl _, .refl _, .inl, le_rfl⟩
      exact ⟨hlater, hlater.sound h.sites h.revision h⟩
  | createNamespacedSecret key body =>
      show s.Later (s.createSecret key body).2 ∧ (s.createSecret key body).2.Sound
      obtain hsame | hput := s.createSecret_cases key body
      · rw [hsame]
        exact same
      · rw [hput]
        exact ⟨s.later_putSecret key body, h.putSecret key body⟩
  | replaceNamespacedSecret key resourceVersion body =>
      show s.Later (s.replaceSecret key resourceVersion body).2 ∧
        (s.replaceSecret key resourceVersion body).2.Sound
      obtain hsame | ⟨current, -, -, hput⟩ := s.replaceSecret_cases key resourceVersion body
      · rw [hsame]
        exact same
      · rw [hput]
        exact ⟨s.later_putSecret key body, h.putSecret key body⟩
  | deleteNamespacedSecret key =>
      show s.Later (s.deleteSecret key).2 ∧ (s.deleteSecret key).2.Sound
      obtain hsame | hremove := s.deleteSecret_cases key
      · rw [hsame]
        exact same
      · rw [hremove]
        exact ⟨s.later_removeSecret key, h.removeSecret key⟩
  | patchStatus plural key status =>
      cases plural with
      | consumers => exact hquiet.elim
      | imports => exact hquiet.elim
      | exports =>
          have hlater : s.Later { s with exports := (s.exports.patch key status).2 } :=
            ⟨.refl _, .refl _, .refl _, .inl, le_rfl⟩
          exact ⟨hlater, hlater.sound h.sites h.revision h⟩
  | redeemBootstrap bootstrapUrl token csr => exact h.redeem csr choice.enrolled
  | updateAgentSecret identity secretId controlVersionId metadata operationKey =>
      exact h.write identity secretId controlVersionId operationKey
        (choice.withMetadata metadata) none
  | putAgentPayload identity secretId controlVersionId payload operationKey =>
      exact h.write identity secretId controlVersionId operationKey choice.withPayload
        (some payload)
  | _ => exact same

/-! ## Writing a status -/

theorem Resources.patch_cases (resources : Resources Spec) (key : NamespacedName)
    (status : ReconciliationStatus) :
    (resources.patch key status).2 = resources ∨ ∃ stored, resources.get key = some stored ∧
      (resources.patch key status).2 = resources.set key (some { stored with status := some status }) := by
  unfold Resources.patch
  cases resources.get key with
  | none => exact .inl rfl
  | some stored => exact .inr ⟨stored, rfl, rfl⟩

/-- What is stored after a status was written: the resource with the new status, or what was
stored before. -/
theorem Resources.get_patch {resources : Resources Spec} {key other : NamespacedName}
    {status : ReconciliationStatus} {stored' : Stored Spec}
    (h : (resources.patch key status).2.get other = some stored') :
    (other = key ∧ stored'.status = some status) ∨
      (resources.get other = some stored' ∧ other ≠ key) := by
  obtain hsame | ⟨stored, hstored, hset⟩ := resources.patch_cases key status
  · by_cases hkey : other = key
    · subst hkey
      unfold Resources.patch at h hsame
      cases hstored : resources.get other with
      | none =>
          rw [hstored] at h
          cases hstored.symm.trans h
      | some stored =>
          rw [hstored] at h
          have hself := (Table.get_set_self _ _ _).symm.trans h
          exact .inl ⟨rfl, congrArg Stored.status (Option.some.inj hself).symm⟩
    · exact .inr ⟨hsame ▸ h, hkey⟩
  · rw [hset] at h
    by_cases hkey : other = key
    · subst hkey
      rw [Table.get_set_self] at h
      exact .inl ⟨rfl, congrArg Stored.status (Option.some.inj h).symm⟩
    · rw [Table.get_set_of_ne _ _ hkey] at h
      exact .inr ⟨h, hkey⟩

/-- A cursor is stored that covers what every import records. -/
theorem Cluster.Sound.patchConsumers (h : s.Sound) {key : NamespacedName}
    {status : ReconciliationStatus} (hready : s.Ready runtime (.patchStatus .consumers key status)) :
    (s.patchStatus key status .consumers).2.Sound where
  sites := h.sites
  revision := h.revision
  synced := by
    intro other stored' identity checkpoint hstored' hcursor
    obtain ⟨rfl, hstatus⟩ | ⟨hstored, -⟩ := Resources.get_patch hstored'
    · rw [hstatus] at hcursor
      exact hready identity checkpoint hcursor
    · exact h.synced hstored hcursor

/-- A version is recorded that every stored cursor covers. -/
theorem Cluster.Sound.patchImports (h : s.Sound) {key : NamespacedName}
    {status : ReconciliationStatus} (hready : s.Ready runtime (.patchStatus .imports key status)) :
    (s.patchStatus key status .imports).2.Sound where
  sites := h.sites
  revision := h.revision
  synced := by
    intro consumerKey consumer identity checkpoint hconsumer hcursor
    refine ⟨(h.synced hconsumer hcursor).1, fun other stored' version hstored' hrecorded => ?_⟩
    obtain ⟨rfl, hstatus⟩ | ⟨hstored, -⟩ := Resources.get_patch hstored'
    · rw [hstatus] at hrecorded
      exact fun _ => hready version hrecorded consumerKey consumer identity checkpoint hconsumer
        hcursor
    · exact (h.synced hconsumer hcursor).2 other stored' version hstored hrecorded

/-- **Requests keep the invariant.** -/
theorem Cluster.Sound.exec (h : s.Sound) {choice : Choice} {answer : q.Answer}
    (hready : s.reconciling = some pid → s.Ready runtime q)
    (hexec : Cluster.exec pid q choice s = some (answer, s')) : s'.Sound := by
  by_cases hstart : q = .start
  · subst hstart
    rw [Cluster.exec.eq_1] at hexec
    split at hexec
    · obtain ⟨-, rfl⟩ := Prod.mk.inj (Option.some.inj hexec)
      exact h
    · obtain ⟨-, rfl⟩ := Prod.mk.inj (Option.some.inj hexec)
      exact ⟨h.sites, h.revision, h.synced⟩
  · by_cases hfinish : q = .finish
    · subst hfinish
      rw [Cluster.exec.eq_2] at hexec
      obtain ⟨-, hsome⟩ := Option.ite_none_right_eq_some.mp hexec
      obtain ⟨-, rfl⟩ := Prod.mk.inj (Option.some.inj hsome)
      exact (h.perform choice (q := .finish) trivial).2
    · obtain ⟨hrunning, ⟨rfl, -⟩ | ⟨rfl, -⟩⟩ := exec_cases hstart hfinish hexec
      · exact h
      · have hready := hready hrunning
        by_cases hquiet : q.Quiet
        · exact (h.perform choice hquiet).2
        · cases q with
          | patchStatus plural key status =>
              cases plural with
              | consumers => exact h.patchConsumers hready
              | imports => exact h.patchImports hready
              | exports => exact absurd trivial hquiet
          | _ => exact absurd trivial hquiet

theorem passes_preserved : (passes runtime).Preserved where
  request hinv hpre hexec := Cluster.Sound.exec hinv hpre hexec
  start _ _ hinv := hinv
  environment hinv hevent := (Cluster.environment_later hinv hevent).2

/-! ## Assertions of the pass that runs -/

/-- An assertion that everything but a status written by a pass keeps. -/
def Lasting (F : Cluster → Prop) : Prop := ∀ s s' : Cluster, s.Sound → s.Later s' → F s → F s'

/-- What the pass knows while it runs. -/
def Owned (pid : ℕ) (F : Cluster → Prop) (s : Cluster) : Prop := s.reconciling = some pid → F s

theorem Lasting.and {F G : Cluster → Prop} (hF : Lasting F) (hG : Lasting G) :
    Lasting fun s => F s ∧ G s :=
  fun s s' hsound hlater h => ⟨hF s s' hsound hlater h.1, hG s s' hsound hlater h.2⟩

theorem Lasting.or {F G : Cluster → Prop} (hF : Lasting F) (hG : Lasting G) :
    Lasting fun s => F s ∨ G s :=
  fun s s' hsound hlater h => h.imp (hF s s' hsound hlater) (hG s s' hsound hlater)

theorem Lasting.const (p : Prop) : Lasting fun _ => p := fun _ _ _ _ h => h

/-- No other pass takes a step while this one runs. -/
theorem Lasting.stable {F : Cluster → Prop} (h : Lasting F) :
    (passes runtime).Stable pid (Owned pid F) := by
  intro s s' hsound hstep hF hrunning'
  cases hstep with
  | @request other q choice answer hne hpre hexec =>
      by_cases hstart : q = .start
      · subst hstart
        change Cluster.exec other .start choice s = _ at hexec
        rw [Cluster.exec.eq_1] at hexec
        split at hexec
        · obtain ⟨-, rfl⟩ := Prod.mk.inj (Option.some.inj hexec)
          exact hF hrunning'
        · obtain ⟨-, rfl⟩ := Prod.mk.inj (Option.some.inj hexec)
          exact absurd (Option.some.inj hrunning') hne
      · by_cases hfinish : q = .finish
        · subst hfinish
          change Cluster.exec other .finish choice s = _ at hexec
          rw [Cluster.exec.eq_2] at hexec
          obtain ⟨-, hsome⟩ := Option.ite_none_right_eq_some.mp hexec
          obtain ⟨-, rfl⟩ := Prod.mk.inj (Option.some.inj hsome)
          cases hrunning'
        · have hother := Cluster.reconciling_exec hstart hfinish hexec
          exact absurd (Option.some.inj (hother.symm.trans hrunning')) hne
  | start hregister =>
      subst hregister
      exact hF hrunning'
  | environment hevent =>
      rename_i event
      have hlater := (Cluster.environment_later hsound hevent).1
      suffices hrunning : s.reconciling = some pid from h s s' hsound hlater (hF hrunning)
      cases event with
      | restart =>
          obtain rfl := Option.some.inj hevent
          cases hrunning'
      | secret key body =>
          cases body <;>
          · obtain rfl := Option.some.inj hevent
            exact hrunning'
      | publish site environment record payload =>
          obtain ⟨-, hsome⟩ := Option.ite_none_right_eq_some.mp hevent
          obtain rfl := Option.some.inj hsome
          exact hrunning'
      | agent identity grant =>
          obtain ⟨-, hsome⟩ := Option.ite_none_right_eq_some.mp hevent
          obtain rfl := Option.some.inj hsome
          exact hrunning'
      | _ =>
          obtain rfl := Option.some.inj hevent
          exact hrunning'

/-- Harmless requests keep every lasting assertion. -/
theorem Lasting.frame {F : Cluster → Prop} (h : Lasting F) :
    (passes runtime).Frame pid Request.Harmless (Owned pid F) where
  stable := h.stable
  pre hharmless _ _ := hharmless.ready
  own := by
    intro q choice answer s s' hharmless hsound hexec hF _
    have hstart : q ≠ .start := by
      rintro rfl
      exact hharmless
    have hfinish : q ≠ .finish := by
      rintro rfl
      exact hharmless
    obtain ⟨hrunning, ⟨rfl, -⟩ | ⟨rfl, -⟩⟩ := Cluster.exec_cases hstart hfinish hexec
    · exact hF hrunning
    · exact h s _ hsound (hsound.perform choice hharmless.quiet).1 (hF hrunning)

end Hemlig.Kubernetes
