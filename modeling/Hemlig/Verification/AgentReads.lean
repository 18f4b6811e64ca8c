import Hemlig.Verification.Verified

/-!
# What an agent reads

`AgentService.read` decides on the secret that the name belongs to, and then reads through
`SecretService.read`, which looks the name up again.  Its specification therefore speaks about two
secrets: the one that the first lookup found, on which the grant had read permission at the start,
and the one that the second lookup found, whose payload is returned.
-/

namespace Hemlig

open Concurrent Store DynamoRepository SecretService

variable {init s : Cloud} {pid : ℕ} {issued : Request → Cloud → Prop} {F : Cloud → Prop}
  {consumerId environment secretId u : String} {result : SecretReadResult}

/-- The active grant of the consumer has read permission on the secret. -/
def Cloud.MayRead (s : Cloud) (consumerId u : String) : Prop :=
  ∃ grantId stored, s.agentGrantOf consumerId = some grantId ∧ s.agentGrant grantId = some stored ∧
    stored.record.status = .active ∧ .read ∈ stored.record.capabilities ∧
      AgentService.hasSecretPermission stored.record u .read = true

/-- At some request of the process the name belonged to the secret. -/
def LookedUp (issued : Request → Cloud → Prop) (environment secretId u : String) : Prop :=
  ∃ s lookup, issued (.get (.lookup environment secretId)) s ∧
    s.lookup environment secretId = some lookup ∧ lookup.secretUid = u

/-- The grant had read permission at some request of the process. -/
def PermittedAt (issued : Request → Cloud → Prop) (consumerId u : String) : Prop :=
  ∃ q s, issued q s ∧ s.MayRead consumerId u

/-- The payload was decrypted from a revision that was fetched from the object of the head. -/
def DecryptedFrom (issued : Request → Cloud → Prop) (head : HeadRecord) : Prop :=
  ∃ reference revision s s', payloadReference head = some reference ∧
    issued (.getObject reference) s ∧
      (s.object reference).map StoredObject.body = some (.payload revision) ∧
        issued (.decrypt revision) s'

/-- What was returned is a version of the secret: its head was got with the access record, and a
payload was decrypted from the object that this head names. -/
def DeliveredFrom (issued : Request → Cloud → Prop) (consumerId environment u : String)
    (result : SecretReadResult) : Prop :=
  ∃ s head, issued (.transactGet (.access consumerId environment u) (.head u)) s ∧
    s.head u = some head ∧ head.secretUid = u ∧ head.controlVersionId = result.controlVersionId ∧
      (result.payload.isSome = true → DecryptedFrom issued head)

/-- The secret that the agent was allowed and the one that it was given. -/
def AgentReadBy (issued : Request → Cloud → Prop) (consumerId environment secretId : String)
    (result : SecretReadResult) : Prop :=
  (∃ u, LookedUp issued environment secretId u ∧ PermittedAt issued consumerId u) ∧
    ∃ u, LookedUp issued environment secretId u ∧
      DeliveredFrom issued consumerId environment u result

/-! ## The permission -/

/-- The item under a key, with the request that got it. -/
theorem Spec.get_issued (hF : Persists init pid F) (key : Key)
    {R : Option (Item key) → Cloud → Prop}
    (h : ∀ s, Invariant init s → F s → issued (.get key) s → R (s.table.get key) s) :
    Spec init issued pid F (Hemlig.send (.get key)) R := by
  refine .send hF rfl (fun _ _ _ => True.intro) fun s choice answer s' hinv _ hs hissued hperform => ?_
  cases hperform
  exact h s hinv hs hissued

/-- The grant of a consumer stays its grant. -/
theorem lasts_agentGrantOf {grantId : String} :
    Lasts init fun s => s.agentGrantOf consumerId = some grantId :=
  fun _ _ _ _ _ hevolves h => hevolves.registry.grantOf h

/-- The grant was stored as that of the consumer when it was read. -/
def GrantRead (issued : Request → Cloud → Prop) (consumerId : String) (grant : AgentGrantRecord) :
    Prop :=
  ∃ q s grantId stored, issued q s ∧ s.agentGrantOf consumerId = some grantId ∧
    s.agentGrant grantId = some stored ∧ stored.record = grant

theorem GrantRead.permittedAt {grant : AgentGrantRecord} (h : GrantRead issued consumerId grant)
    (hactive : grant.status = .active) (hread : .read ∈ grant.capabilities)
    (hpermission : AgentService.hasSecretPermission grant u .read = true) :
    PermittedAt issued consumerId u := by
  obtain ⟨q, s, grantId, stored, hissued, hgrantOf, hstored, rfl⟩ := h
  exact ⟨q, s, hissued, grantId, stored, hgrantOf, hstored, hactive, hread, hpermission⟩

theorem spec_getAgentGrantForConsumer (hF : Persists init pid F) (consumerId : String) :
    Spec init issued pid F (getAgentGrantForConsumer consumerId) fun result _ =>
      ∀ grant, result = some grant → GrantRead issued consumerId grant := by
  refine .bind (R := fun grantId s => ∀ id, grantId = some id → s.agentGrantOf consumerId = some id)
    (.get hF _ fun s _ _ id h => h) fun grantId => ?_
  cases grantId with
  | none => exact .ret fun _ _ _ _ h => (nomatch h)
  | some grantId =>
      have hpersists : Persists init pid fun s => F s ∧
          ∀ id, some grantId = some id → s.agentGrantOf consumerId = some id :=
        hF.and (Lasts.forall fun _ => .imp lasts_agentGrantOf).persists
      refine .bind (R := fun stored _ => ∀ found, stored = some found →
        GrantRead issued consumerId found.record) (.get_issued hpersists _ ?_) fun stored => .ret ?_
      · intro s _ hs hissued found hfound
        exact ⟨_, s, grantId, found, hissued, hs.2 grantId rfl, hfound, rfl⟩
      · rintro s - ⟨-, hread⟩ grant hgrant
        obtain ⟨found, rfl, rfl⟩ := Option.map_eq_some_iff.mp hgrant
        exact hread found rfl

theorem spec_requireReadCapability (hF : Persists init pid F) (consumerId environment : String) :
    Spec init issued pid F (AgentService.requireCapability consumerId environment .read)
      fun grant _ => GrantRead issued consumerId grant ∧ grant.status = .active ∧
        .read ∈ grant.capabilities := by
  refine .bind_fact (p := fun grant => GrantRead issued consumerId grant ∧ grant.status = .active)
    ?_ fun grant hgrant => ?_
  · refine .bind_fact (spec_getAgentGrantForConsumer hF consumerId) fun found hfound => ?_
    refine (Spec.requireSome _).post fun grant _ _ _ hsome => ?_
    obtain ⟨hmem, hcheck⟩ := Option.filter_eq_some_iff.mp hsome
    exact ⟨hfound grant hmem, (of_decide_eq_true hcheck).1⟩
  · exact .ite (fun hmem => .ret fun _ _ _ => ⟨hgrant.1, hgrant.2, hmem⟩) fun _ => .raise

/-! ## The two lookups -/

theorem spec_lookedUp (hF : Persists init pid F) (environment secretId : String) :
    Spec init issued pid F (getSecretUid environment secretId) fun result _ =>
      ∀ u, result = some u → LookedUp issued environment secretId u := by
  refine .bind (R := fun lookup _ => ∀ found, lookup = some found →
    LookedUp issued environment secretId found.secretUid) (.get_issued hF _ ?_) fun lookup => .ret ?_
  · exact fun s _ _ hissued found hfound => ⟨s, found, hissued, hfound, rfl⟩
  · rintro s - ⟨-, hfound⟩ u hu
    obtain ⟨found, rfl, rfl⟩ := Option.map_eq_some_iff.mp hu
    exact hfound found rfl

/-- The control revision that the permission is checked on is one of the secret that the name was
found to belong to. -/
theorem spec_checkedSnapshot (hF : Persists init pid F) (environment secretId : String) :
    Spec init issued pid F (getControlSnapshot environment secretId) fun snapshot _ =>
      ∀ u, snapshot.control.secretUid = some u → LookedUp issued environment secretId u := by
  have hhead : Spec init issued pid F (requireHead environment secretId) fun head s =>
      s.HeadRead head.secretUid head ∧ LookedUp issued environment secretId head.secretUid := by
    refine .bind (R := fun found s => ∀ head, found = some head →
      s.HeadRead head.secretUid head ∧ LookedUp issued environment secretId head.secretUid) ?_
      fun found => (Spec.requireSome found).post fun head s _ hs hsome => hs.2 head hsome
    refine .bind_fact (spec_lookedUp hF environment secretId) fun found hfound => ?_
    cases found with
    | none => exact .ret fun _ _ _ _ h => (nomatch h)
    | some u =>
        refine (spec_getHeadBySecretUid hF u).post fun result s _ _ hread head hhead => ?_
        have huid := (hread head hhead).uid
        exact ⟨huid.symm ▸ hread head hhead, huid.symm ▸ hfound u rfl⟩
  refine .bind hhead fun head => ?_
  have hpersists : Persists init pid fun s => F s ∧ s.HeadRead head.secretUid head ∧
      LookedUp issued environment secretId head.secretUid :=
    hF.and (lasts_headRead.and (.const _)).persists
  refine (spec_controlSnapshotFromHead hpersists fun s hs => hs.2.1).post ?_
  rintro snapshot s - ⟨-, -, hlooked⟩ ⟨rfl, document, -, hcontrol⟩ u hu
  rw [hcontrol] at hu
  exact Option.some.inj hu ▸ hlooked

/-! ## What is delivered -/

/-- The head came with the access record, under the UID that the name was found to belong to. -/
def HeadGot (issued : Request → Cloud → Prop) (consumerId environment u : String)
    (head : HeadRecord) : Prop :=
  ∃ s, issued (.transactGet (.access consumerId environment u) (.head u)) s ∧
    s.head u = some head ∧ head.secretUid = u

theorem HeadGot.delivered {head : HeadRecord} (h : HeadGot issued consumerId environment u head)
    (hversion : head.controlVersionId = result.controlVersionId)
    (hpayload : result.payload.isSome = true → DecryptedFrom issued head) :
    DeliveredFrom issued consumerId environment u result := by
  obtain ⟨s, hissued, hhead, huid⟩ := h
  exact ⟨s, head, hissued, hhead, huid, hversion, hpayload⟩

theorem spec_headGot (hF : Persists init pid F) (consumerId environment secretId : String) :
    Spec init issued pid F (getAccessAndHead consumerId environment secretId) fun result _ =>
      ∀ head, result.2 = some head → ∃ u, LookedUp issued environment secretId u ∧
        HeadGot issued consumerId environment u head := by
  refine .bind_fact (spec_lookedUp hF environment secretId) fun found hfound => ?_
  cases found with
  | none => exact .ret fun _ _ _ _ h => (nomatch h)
  | some u =>
      refine .send hF rfl (fun _ _ _ => trivial) ?_
      intro s choice result s' hinv _ _ hissued hperform head hhead
      cases hperform
      exact ⟨u, hfound u rfl, s, hissued, hhead, (hinv.heads.uid hhead).1⟩

/-- The object under a reference, with the request that got it. -/
theorem spec_getObject (hF : Persists init pid F) (reference : ObjectReference) :
    Spec init issued pid F (ObjectStore.getJson reference) fun body _ =>
      ∃ s, issued (.getObject reference) s ∧
        (s.object reference).map StoredObject.body = some body := by
  refine .send hF rfl (fun _ _ _ => trivial) fun s choice body s' _ _ _ hissued hperform => ?_
  simp only [perform] at hperform
  split at hperform <;> cases hperform
  have hobject : s.object reference = some _ := ‹_›
  exact ⟨s, hissued, by rw [hobject]; rfl⟩

theorem spec_decryptedFrom (hF : Persists init pid F) (secretId : String) (head : HeadRecord) :
    Spec init issued pid F (readActivePayload secretId head) fun result _ =>
      head.controlVersionId = result.controlVersionId ∧ DecryptedFrom issued head := by
  refine .ite (fun _ => .raise) fun _ => ?_
  refine Spec.skip (R := fun _ _ => True) ?_ fun control => .ite (fun _ => ?_) fun _ => .raise
  · refine Spec.skip (Spec.requireSome _) fun reference => ?_
    refine Spec.skip (spec_getObject hF reference) fun body => ?_
    cases body with
    | control control => exact .ret fun _ _ _ => trivial
    | payload payload => exact .raise
  refine .bind_fact (Spec.requireSome _) fun reference hreference => ?_
  refine .bind_fact (spec_getObject hF reference) fun body hbody => ?_
  cases body with
  | control control => exact .raise
  | payload revision =>
      obtain ⟨s, hissued, hobject⟩ := hbody
      refine .ite (fun _ => ?_) fun _ => .raise
      refine .bind_fact (p := fun _ => ∃ s, issued (.decrypt revision) s) ?_
        fun plaintext hdecrypt => .ret fun _ _ _ => ?_
      · exact .send hF rfl (fun _ _ _ => trivial) fun s _ _ _ _ _ _ hissued _ => ⟨s, hissued⟩
      · obtain ⟨s', hdecrypted⟩ := hdecrypt
        exact ⟨rfl, reference, revision, s, s', hreference, hissued, hobject, hdecrypted⟩

theorem spec_delivered (hF : Persists init pid F) {ifNoneMatch : Option String}
    {onAuthorized : Service Unit}
    (hauthorized : Spec init issued pid F onAuthorized fun _ _ => True) :
    Spec init issued pid F
      (SecretService.read consumerId environment secretId ifNoneMatch onAuthorized)
      fun result _ => ∃ u, LookedUp issued environment secretId u ∧
        DeliveredFrom issued consumerId environment u result := by
  refine .bind_fact (spec_headGot hF consumerId environment secretId) ?_
  rintro ⟨access, head⟩ hfound
  cases access with
  | none => exact .raise
  | some access =>
      cases head with
      | none => exact .raise
      | some head =>
          obtain ⟨u, hlooked, hgot⟩ := hfound head rfl
          refine .ite (fun _ => ?_) fun _ => .raise
          refine hauthorized.skip fun _ => .ite (fun _ => .ret fun _ _ _ => ?_) fun _ => ?_
          · exact ⟨u, hlooked, hgot.delivered rfl nofun⟩
          · refine (spec_decryptedFrom hF secretId head).post fun result _ _ _ hresult => ?_
            exact ⟨u, hlooked, hgot.delivered hresult.1 fun _ => hresult.2⟩

/-- **What an agent read promises.** -/
theorem spec_agentReadBy (hF : Persists init pid F) {correlationId : String}
    {ifNoneMatch : Option String} :
    Spec init issued pid F
      (Consumer.agentRead consumerId environment secretId ifNoneMatch correlationId)
      fun result _ => AgentReadBy issued consumerId environment secretId result := by
  refine .bind_fact (spec_requireReadCapability hF consumerId environment) ?_
  rintro grant ⟨hgrant, hactive, hread⟩
  refine .bind_fact (spec_checkedSnapshot hF environment secretId) fun snapshot hsnapshot => ?_
  have hscope : Spec init issued pid F (AgentService.requireReadScope snapshot.control grant)
      fun _ _ => ∃ u, snapshot.control.secretUid = some u ∧
        AgentService.hasSecretPermission grant u .read = true :=
    .ite (fun hany => .ret fun _ _ _ => (Option.any_eq_true _ _).mp hany) fun _ => .raise
  refine .bind_fact hscope fun _ hallowed => ?_
  obtain ⟨u, huid, hpermission⟩ := hallowed
  refine (spec_delivered hF (spec_auditWrite hF (operation_ne _ _ (by decide)))).post ?_
  intro result _ _ _ hdelivered
  exact ⟨⟨u, hsnapshot u huid, hgrant.permittedAt hactive hread hpermission⟩, hdelivered⟩

/-! ## Runs -/

/-- What holds when an agent read has returned. -/
def Input.Read (issued : Request → Cloud → Prop) : Input → Output → Prop
  | .agentRead consumerId environment secretId _ _, .read result =>
      AgentReadBy issued consumerId environment secretId result
  | _, _ => True

/-- **Every program is verified against what agent reads promise.** -/
theorem verifiedReads (init : Cloud) :
    (discipline init).Verified (fun issued _ input output _ => input.Read issued output)
      fun _ _ _ _ _ => True where
  safe issued pid input s hinv := by
    have hrest := (verified init).safe issued pid input s hinv
    cases input with
    | agentRead consumerId environment secretId ifNoneMatch correlationId =>
        have hread : Runs init issued pid (fun _ => True)
            (Input.agentRead consumerId environment secretId ifNoneMatch correlationId).code
            fun output _ => (Input.agentRead consumerId environment secretId ifNoneMatch
              correlationId).Read issued output :=
          (spec_agentReadBy (.const _)).bind_runs fun _ => .ret fun _ _ hs => hs.2
        exact hread.of_pre fun _ _ _ => trivial
    | _ => exact hrest.weaken (fun _ _ hs => hs) (fun _ _ _ _ => trivial) fun _ _ _ _ => trivial
  stable _ _ _ _ := .const _ _
  failure _ _ _ _ := .const _ _

theorem agentReadBy_of_run (hinit : Initial init) {w : ServiceWorld} {actions : List ServiceAction}
    (hrun : service.run (World.initial init) actions = some w) {ifNoneMatch : Option String}
    {correlationId : String} (hproc : w.procs pid = some
      (.agentRead consumerId environment secretId ifNoneMatch correlationId, .ret (.read result))) :
    AgentReadBy (Discipline.Issued service (World.initial init) actions pid) consumerId environment
      secretId result := by
  obtain ⟨hinv, hstanding⟩ :=
    Discipline.sound (preserved init) (verifiedReads init) hinit.invariant hrun
  exact (hstanding pid _ _ hproc).returned hinv

end Hemlig
