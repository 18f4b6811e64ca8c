import Hemlig.Verification.Persist

/-!
# The mutations

Each mutation reads its snapshot, derives the next control revision and persists it.
An update that names an ACL, and every archive, must have found the secret by its
name: only then the prior access records it looks up by that name are its own.
-/

namespace Hemlig

open Concurrent Store DynamoRepository SecretService

variable {init s s' : Cloud} {pid : ℕ}

/-! ## Harmless reads -/

theorem Request.Harmless.get (key : Key) : (Request.get key).Harmless :=
  ⟨rfl, fun _ _ => trivial⟩

theorem Request.Harmless.send {q : Request} (h : q.Harmless) :
    (Hemlig.send q).Only Request.Harmless := by
  refine .bind (.request h) fun response => ?_
  cases response <;> trivial

theorem harmless_getAgentGrantForConsumer (consumerId : String) :
    (getAgentGrantForConsumer consumerId).Only Request.Harmless := by
  refine .bind (Request.Harmless.get _).send fun grantId => ?_
  cases grantId with
  | none => trivial
  | some grantId => exact .bind (Request.Harmless.get _).send fun _ => trivial

theorem harmless_assertAclEnvironment (acl : List Grant) (environment : String)
    (allowAgentAcl : Bool) (priorAcl : List Grant) :
    (assertAclEnvironment acl environment allowAgentAcl priorAcl).Only Request.Harmless := by
  refine .bind (.mapM (fun grant => (Request.Harmless.get (.consumer grant.consumerId)).send) _)
    fun records => ?_
  refine .ite (.ite trivial ?_) trivial
  refine .bind (.mapM (fun consumerId => ?_) _) fun agentGrants => .ite trivial trivial
  exact .bind (harmless_getAgentGrantForConsumer _) fun _ => trivial

section Specs

variable {issued : Request → Cloud → Prop} {F : Cloud → Prop}

theorem lasts_aclFrom {expected : Option String} {acl : List Grant} :
    Lasts init fun s => s.AclFrom expected acl :=
  fun _ _ _ _ _ hevolves h => hevolves.aclFrom h

theorem lasts_environment {name : String} : Lasts init fun s => (s.environment name).isSome :=
  fun _ _ _ _ _ hevolves h => hevolves.environments h

theorem spec_requireEnvironment (hF : Persists init pid F) (name : String) :
    Spec init issued pid F (SecretService.requireEnvironment name)
      fun _ s => (s.environment name).isSome := by
  refine .bind .assertOk fun _ => ?_
  refine .bind (R := fun found s => found.isSome → (s.environment name).isSome)
    (.get (hF.and (.const _)) _ fun _ _ _ h => h) fun found => ?_
  refine (Spec.requireSome found).post fun record s _ hs hfound => hs.2 ?_
  rw [hfound]
  rfl

theorem spec_assertExpectedVersion (head : HeadRecord) (expected : String) :
    Spec init issued pid F (assertExpectedVersion head expected)
      fun _ _ => head.controlVersionId = expected :=
  .ite (fun _ => .raise) fun hsame => .ret fun _ _ _ => not_not.mp hsame

/-! ## Creating a secret -/

/-- What a process knows before it persists a new secret. -/
structure Born (pid : ℕ) (s : Cloud) (environment secretUid controlVersionId : String) : Prop where
  environment : (s.environment environment).isSome
  uid : s.Drawn pid secretUid
  tag : ∃ suffix, secretUid = "sec-" ++ suffix
  control : controlVersionId ∈ s.known

theorem persists_born {environment secretUid controlVersionId : String} :
    Persists init pid fun s => Born pid s environment secretUid controlVersionId := by
  intro s s' hinv hinv' hrely h
  obtain ⟨actor, -, hevolves⟩ := hrely.evolves
  exact ⟨hevolves.environments h.environment, persists_drawn s s' hinv hinv' hrely h.uid, h.tag,
    hevolves.known h.control⟩

theorem runs_create {input : CreateSecretInput} (hF : Persists init pid F)
    (hacl : WellFormedAcl input.acl) (hlimit : input.acl.length ≤ maximumAclGrants) :
    Runs init issued pid F (SecretService.create input) fun control s =>
      s.Achieved input.actor input.idempotencyKey control := by
  have hplace : Persists init pid fun s => (s.environment input.environment).isSome :=
    lasts_environment.persists
  refine (spec_requireEnvironment hF _).next (fun _ _ _ _ h => h) fun _ => ?_
  refine Spec.assertOk.next (fun _ _ _ hs _ => hs) fun _ => ?_
  refine (Spec.harmless hplace (harmless_assertAclEnvironment _ _ _ _)).next
    (fun _ _ _ hs _ => hs) fun _ => ?_
  refine (spec_now hplace).next (fun _ _ _ hs _ => hs) fun now => ?_
  refine (spec_newId hplace "sec-").bind_runs fun secretUid => ?_
  have hdrawn : Persists init pid fun s => (s.environment input.environment).isSome ∧
      s.Drawn pid secretUid ∧ ∃ suffix, secretUid = "sec-" ++ suffix :=
    hplace.and (persists_drawn.and (.const _))
  refine Discipline.Safe.of_pre (R := fun (control : ControlRevision) (s : Cloud) =>
    s.Achieved input.actor input.idempotencyKey control) ?_ fun s _ hs =>
    (⟨hs.1, hs.2.1, hs.2.2.2.1⟩ : (s.environment input.environment).isSome ∧
      s.Drawn pid secretUid ∧ ∃ suffix, secretUid = "sec-" ++ suffix)
  refine (spec_newId hdrawn "ctl-").next (fun controlVersionId s _ hs h =>
    Born.mk hs.1 hs.2.1 hs.2.2 h.1.known) fun controlVersionId => ?_
  refine Discipline.Safe.bind (runs_persistMutation persists_born ?_) fun _ =>
    .ret fun _ _ hs => hs
  intro u operationId now s hborn huid hoperation
  cases huid
  exact
    { operation := hoperation
      wellFormed :=
        { secretId := rfl
          environment := rfl
          sound := ⟨by simp [preparedMutation], nofun, hacl⟩
          uid := rfl
          key := rfl
          payload := nofun
          belongs := nofun }
      control := hborn.control
      payload := nofun
      acl := .inl hlimit
      based := .inl
        ⟨{ secretUid := hborn.tag
           expected := rfl
           archive := rfl
           payload := rfl
           state := nofun
           payloadVersionId := rfl
           schemaVersion := rfl
           inactive := nofun }, rfl, rfl⟩
      born := fun _ => ⟨hborn.uid, hborn.environment⟩ }

/-! ## Updating a secret -/

theorem spec_sealPayload (hF : Persists init pid F) (input : UpdateSecretInput) (head : HeadRecord)
    (createdAt : Time) :
    Spec init issued pid F (sealPayload input head createdAt) fun payload s =>
      payload.isSome = input.payload.isSome ∧ ∀ revision, payload = some revision →
        revision.payloadVersionId ∈ s.known ∧
          revision.Belongs head.secretUid input.secretId head.environment := by
  unfold sealPayload
  cases input.payload with
  | none => exact .ret fun _ _ _ => ⟨rfl, nofun⟩
  | some payload =>
      refine .bind (R := fun payloadVersionId s => payloadVersionId ∈ s.known)
        ((spec_newId hF "pay-").post fun _ _ _ _ h => h.1.known) fun payloadVersionId => ?_
      refine .bind (R := fun revision s => revision.payloadVersionId ∈ s.known ∧
        revision.Belongs head.secretUid input.secretId head.environment) ?_ fun revision =>
          .ret fun s _ hs => ⟨rfl, fun other hother => Option.some.inj hother ▸ hs.2⟩
      refine .bind (R := fun _ _ => True) (.send_any (hF.and lasts_known.persists) rfl
        fun _ _ _ => trivial) fun _ => .ret fun s _ hs => ⟨hs.1.2, rfl, rfl, rfl, rfl⟩

/-- What a process knows about the snapshot of its mutation and the ACL that it will have,
and about the name it was found by if it will look up the access records. -/
structure Grounded (s : Cloud) (head : HeadRecord) (document : ControlRevision) (exact : Prop)
    (secretId expected : String) (acl : List Grant) : Prop where
  loaded : s.Loaded head.secretUid head document
  named : exact → s.Named head.environment secretId head.secretUid expected
  acl : s.AclFrom (some expected) acl

theorem lasts_grounded {head : HeadRecord} {document : ControlRevision} {exact : Prop}
    {secretId expected : String} {acl : List Grant} :
    Lasts init fun s => Grounded s head document exact secretId expected acl :=
  fun s s' actor hinv hinv' hevolves h => ⟨lasts_loaded s s' actor hinv hinv' hevolves h.loaded,
    fun hexact => hevolves.named (h.named hexact), hevolves.aclFrom h.acl⟩

/-- What the process knows when the next control revision has its identifier. -/
structure Derived (s : Cloud) (head : HeadRecord) (document : ControlRevision) (exact : Prop)
    (secretId expected : String) (acl : List Grant) (controlVersionId : String) : Prop where
  grounded : Grounded s head document exact secretId expected acl
  control : controlVersionId ∈ s.known
  later : s.DrawnLater head.secretUid head.controlVersionId controlVersionId

theorem lasts_derived {head : HeadRecord} {document : ControlRevision} {exact : Prop}
    {secretId expected : String} {acl : List Grant} {controlVersionId : String} :
    Lasts init fun s => Derived s head document exact secretId expected acl controlVersionId := by
  intro s s' actor hinv hinv' hevolves h
  exact ⟨lasts_grounded s s' actor hinv hinv' hevolves h.grounded, hevolves.known h.control,
    hevolves.drawnLater hinv.rows h.grounded.loaded.snapshot.settled h.later⟩

/-- The identifier of the next control revision. -/
theorem spec_controlVersionId (hF : Persists init pid F) {head : HeadRecord}
    {document : ControlRevision} {exact : Prop} {secretId expected : String} {acl : List Grant}
    (hgrounded : ∀ s, F s → Grounded s head document exact secretId expected acl) :
    Spec init issued pid F (send (.newId "ctl-")) fun controlVersionId s =>
      Derived s head document exact secretId expected acl controlVersionId :=
  (spec_newId hF "ctl-").post fun _ s _ hs h =>
    ⟨hgrounded s hs, h.1.known, h.2.1.drawnLater _ _⟩

/-- The prior access records of a mutation. -/
theorem spec_priorAccess_of_derived (hF : Persists init pid F) {head : HeadRecord}
    {document : ControlRevision} {exact : Prop} {secretId expected controlVersionId : String}
    {acl : List Grant} (hexpected : head.controlVersionId = expected)
    (hderived : ∀ s, F s → Derived s head document exact secretId expected acl controlVersionId) :
    Spec init issued pid F (priorAccess document.acl head.environment secretId) fun prior s =>
      (∀ access ∈ prior, access.consumerId ∈ document.acl.map Grant.consumerId) ∧
        (exact → PriorAccessOk s head.secretUid head document prior) :=
  spec_priorAccess hF (fun s hs => (hderived s hs).grounded.loaded) fun hexact s hs =>
    ⟨hexpected ▸ (hderived s hs).grounded.named hexact, rfl⟩

/-- What the process knows when all is read that the mutation needs. -/
structure Drafted (s : Cloud) (head : HeadRecord) (document : ControlRevision) (exact : Prop)
    (acl : List Grant) (controlVersionId : String) (prior : List AccessRecord) : Prop where
  snapshot : s.Snapshot head.secretUid head document
  acl : s.AclFrom (some head.controlVersionId) acl
  control : controlVersionId ∈ s.known
  later : s.DrawnLater head.secretUid head.controlVersionId controlVersionId
  consumer : ∀ access ∈ prior, access.consumerId ∈ document.acl.map Grant.consumerId
  access : exact → PriorAccessOk s head.secretUid head document prior

theorem lasts_drafted {head : HeadRecord} {document : ControlRevision} {exact : Prop}
    {acl : List Grant} {controlVersionId : String} {prior : List AccessRecord} :
    Lasts init fun s => Drafted s head document exact acl controlVersionId prior :=
  fun _ _ _ hinv _ hevolves h =>
    { snapshot := hevolves.snapshot h.snapshot
      acl := hevolves.aclFrom h.acl
      control := hevolves.known h.control
      later := hevolves.drawnLater hinv.rows h.snapshot.settled h.later
      consumer := h.consumer
      access := fun hexact => (h.access hexact).mono hevolves hinv h.snapshot.settled }

theorem Derived.drafted {head : HeadRecord} {document : ControlRevision} {exact : Prop}
    {secretId expected controlVersionId : String} {acl : List Grant} {prior : List AccessRecord}
    (h : Derived s head document exact secretId expected acl controlVersionId)
    (hexpected : head.controlVersionId = expected)
    (hprior : (∀ access ∈ prior, access.consumerId ∈ document.acl.map Grant.consumerId) ∧
      (exact → PriorAccessOk s head.secretUid head document prior)) :
    Drafted s head document exact acl controlVersionId prior where
  snapshot := h.grounded.loaded.snapshot
  acl := hexpected ▸ h.grounded.acl
  control := h.control
  later := h.later
  consumer := hprior.1
  access := hprior.2

/-- A mutation that was derived from a head and the control revision it names. -/
structure MutationInput.Succeeds (input : MutationInput) (head : HeadRecord)
    (document : ControlRevision) : Prop where
  secretUid : input.control.secretUid = some head.secretUid
  secretId : input.control.secretId = head.secretId
  environment : input.control.environment = head.environment
  state : input.control.state ≠ .revoked
  acl : WellFormedAcl input.control.acl
  expected : input.expectedControlVersionId = some head.controlVersionId
  priorHead : input.priorHead = some head
  payload : ∀ payload, input.payload = some payload →
    input.control.payloadVersionId = some payload.payloadVersionId
  noPayload : input.payload = none → input.control.payloadVersionId = document.payloadVersionId
  archived : input.archive = false → input.control.state = .archived → document.state = .archived
  archive : input.archive = true → input.control.state = .archived ∧ input.control.acl = [] ∧
    input.payload = none
  schemaVersion : input.control.schemaVersion = 1 ∨
    input.control.schemaVersion = document.schemaVersion
  active : input.control.state = .active → input.payload.isSome ∨ document.state = .active
  belongs : ∀ payload, input.payload = some payload →
    payload.Belongs head.secretUid head.secretId head.environment

namespace MutationInput.Succeeds

variable {input : MutationInput} {head : HeadRecord} {document : ControlRevision}

theorem wellFormed (h : input.Succeeds head document) (operationId : String) (now : Time) :
    (preparedMutation input head.secretUid operationId now).WellFormed where
  secretId := rfl
  environment := rfl
  sound := ⟨by simp [preparedMutation, h.secretUid], h.state, h.acl⟩
  uid := h.secretUid
  key := rfl
  payload prepared hprepared := by
    obtain ⟨payload, hpayload, rfl⟩ := Option.map_eq_some_iff.mp hprepared
    exact ⟨rfl, h.payload payload hpayload⟩
  belongs prepared hprepared := by
    obtain ⟨payload, hpayload, rfl⟩ := Option.map_eq_some_iff.mp hprepared
    have hsecretId : (preparedMutation input head.secretUid operationId now).secretId =
      head.secretId := h.secretId
    have henvironment : (preparedMutation input head.secretUid operationId now).environment =
      head.environment := h.environment
    rw [hsecretId, henvironment]
    exact h.belongs payload hpayload

theorem updates (h : input.Succeeds head document) (operationId : String) (now : Time) :
    (preparedMutation input head.secretUid operationId now).Updates head document where
  expected := h.expected
  secretId := h.secretId
  environment := h.environment
  payloadVersionId hnone := h.noPayload (Option.map_eq_none_iff.mp hnone)
  state := h.archived
  archive harchive := by
    obtain ⟨hstate, hacl, hpayload⟩ := h.archive harchive
    exact ⟨hstate, hacl, Option.map_eq_none_iff.mpr hpayload⟩
  schemaVersion := h.schemaVersion
  active hactive := (h.active hactive).imp_left fun hpayload => by
    simpa [preparedMutation] using hpayload

/-- A derived mutation may be prepared. -/
theorem preparable (h : input.Succeeds head document) {exact : Prop}
    (hdrafted : Drafted s head document exact input.control.acl input.control.controlVersionId
      input.priorAccess)
    (hacl : input.control.acl = document.acl ∨ exact)
    (hpayload : ∀ payload, input.payload = some payload → payload.payloadVersionId ∈ s.known)
    {operationId : String} (hoperation : s.Drawn pid operationId) (now : Time) :
    Preparable pid s (preparedMutation input head.secretUid operationId now) input.priorHead
      input.priorAccess where
  operation := hoperation
  wellFormed := h.wellFormed operationId now
  control := hdrafted.control
  payload prepared hprepared := by
    obtain ⟨payload, hsome, rfl⟩ := Option.map_eq_some_iff.mp hprepared
    exact hpayload payload hsome
  acl := by
    have hfrom := hdrafted.acl
    rw [← h.expected] at hfrom
    exact hfrom
  based := .inr ⟨head, document, h.priorHead,
    { snapshot := hdrafted.snapshot
      updates := h.updates operationId now
      consumer := hdrafted.consumer
      access := hacl.imp_right hdrafted.access
      later := hdrafted.later }⟩
  born hcreates := by cases hcreates.expected.symm.trans h.expected

end MutationInput.Succeeds

theorem runs_persist_drafted {input : MutationInput} {head : HeadRecord}
    {document : ControlRevision} {exact : Prop} (h : input.Succeeds head document)
    (hacl : input.control.acl = document.acl ∨ exact) {F : Cloud → Prop}
    (hdrafted : ∀ s, F s →
      Drafted s head document exact input.control.acl input.control.controlVersionId
        input.priorAccess ∧
        ∀ payload, input.payload = some payload → payload.payloadVersionId ∈ s.known) :
    Runs init issued pid F (persistMutation input) fun _ s =>
      s.Achieved input.actor input.idempotencyKey input.control := by
  refine Discipline.Safe.of_pre (runs_persistMutation (lasts_drafted.and
    (.forall fun _ => .imp lasts_known)).persists ?_) fun s _ hs => hdrafted s hs
  intro u operationId now s hs huid hoperation
  obtain rfl : head.secretUid = u := Option.some.inj (h.secretUid.symm.trans huid)
  exact h.preparable hs.1 hacl hs.2 hoperation now

theorem succeeds_updatedControl {input : UpdateSecretInput} {head : HeadRecord}
    {document : ControlRevision} {payload : Option PayloadRevision} {controlVersionId : String}
    {createdAt : Time} {prior : List AccessRecord} {u : String} (hsound : document.Sound u)
    (hsecretId : head.secretId = input.secretId)
    (hexpected : head.controlVersionId = input.expectedControlVersionId)
    (hacl : ∀ acl, input.acl = some acl → WellFormedAcl acl)
    (hpayload : payload.isSome = input.payload.isSome)
    (hbelongs : ∀ revision, payload = some revision →
      revision.Belongs head.secretUid input.secretId head.environment) :
    MutationInput.Succeeds
      { control := updatedControl input ⟨head, { document with secretUid := some head.secretUid }⟩
          payload controlVersionId createdAt
        payload := payload
        actor := input.actor
        idempotencyKey := input.idempotencyKey
        expectedControlVersionId := some input.expectedControlVersionId
        priorHead := some head
        priorAccess := prior
        archive := false } head document where
  secretUid := rfl
  secretId := hsecretId.symm
  environment := rfl
  state := by
    simp only [updatedControl]
    split
    · nofun
    · exact hsound.state
  acl := by
    simp only [updatedControl]
    cases hnamed : input.acl with
    | none => exact hsound.acl
    | some acl => exact hacl acl hnamed
  expected := congrArg some hexpected.symm
  priorHead := rfl
  payload revision hsome := by
    obtain rfl : payload = some revision := hsome
    rfl
  noPayload hnone := by
    obtain rfl : payload = none := hnone
    rfl
  archived _ harchived := by
    simp only [updatedControl] at harchived
    split at harchived
    · cases harchived
    · exact harchived
  archive := nofun
  schemaVersion := .inl rfl
  active hactive := by
    simp only [updatedControl] at hactive
    split at hactive
    · exact .inl (hpayload.trans ‹_›)
    · exact .inr hactive
  belongs := hsecretId ▸ hbelongs

/-- The ACL of an update that may name one. -/
theorem Cloud.Loaded.aclFrom_getD {head : HeadRecord} {document : ControlRevision}
    {expected : String} {named : Option (List Grant)}
    (h : s.Loaded head.secretUid head document) (hexpected : head.controlVersionId = expected)
    (hnamed : ∀ acl, named = some acl → s.AclFrom (some expected) acl) :
    s.AclFrom (some expected) (named.getD document.acl) := by
  cases named with
  | some acl => exact hnamed acl rfl
  | none =>
      exact .inr ⟨head.secretUid, expected, document, rfl, hexpected ▸ h.snapshot.settled,
        .inl le_rfl⟩

theorem runs_updateFromSnapshot {input : UpdateSecretInput} {head : HeadRecord}
    {document : ControlRevision}
    (hloaded : ∀ s, F s → s.Loaded head.secretUid head document)
    (hnamed : ∀ s, F s → input.acl ≠ none →
      s.Named head.environment input.secretId head.secretUid input.expectedControlVersionId)
    (hfrom : ∀ s, F s → ∀ acl, input.acl = some acl →
      s.AclFrom (some input.expectedControlVersionId) acl)
    (hsecretId : head.secretId = input.secretId)
    (hacl : ∀ acl, input.acl = some acl → WellFormedAcl acl) :
    Runs init issued pid F (updateFromSnapshot input
      ⟨head, { document with secretUid := some head.secretUid }⟩) fun control s =>
        s.Achieved input.actor input.idempotencyKey control := by
  have hground : Persists init pid fun s => Grounded s head document (input.acl ≠ none)
      input.secretId input.expectedControlVersionId (input.acl.getD document.acl) :=
    lasts_grounded.persists
  refine (spec_assertExpectedVersion head _).next (fun _ s _ hs h => And.intro
    (Grounded.mk (hloaded s hs) (hnamed s hs) ((hloaded s hs).aclFrom_getD h (hfrom s hs))) h)
    fun _ => ?_
  refine .of_fact (fun s _ hs => hs.2) fun hexpected => ?_
  refine (Spec.harmless (hground.and (.const _)) (harmless_assertAclEnvironment _ _ _ _)).next
    (fun _ _ _ hs _ => hs.1) fun _ => ?_
  refine (spec_now hground).next (fun _ _ _ hs _ => hs) fun createdAt => ?_
  refine (spec_sealPayload hground input head createdAt).bind_runs fun payload => ?_
  have hsealed : Lasts init fun s => payload.isSome = input.payload.isSome ∧
      ∀ revision, payload = some revision → revision.payloadVersionId ∈ s.known ∧
        revision.Belongs head.secretUid input.secretId head.environment :=
    (Lasts.const _).and (.forall fun _ => .imp (lasts_known.and (.const _)))
  refine (spec_controlVersionId (hground.and hsealed.persists) fun s hs => hs.1).next
    (fun _ s _ hs h => And.intro hs.2 h) fun controlVersionId => ?_
  refine (spec_priorAccess_of_derived (hsealed.and lasts_derived).persists hexpected
    fun s hs => hs.2).next (fun prior s _ hs h => And.intro hs.1 (And.intro
      (hs.2.drafted hexpected h) hs.2.grounded.loaded.sound)) fun prior => ?_
  refine .of_fact (p := payload.isSome = input.payload.isSome ∧ document.Sound head.secretUid ∧
    ∀ revision, payload = some revision →
      revision.Belongs head.secretUid input.secretId head.environment)
    (fun s _ hs => ⟨hs.1.1, hs.2.2, fun revision hsome => (hs.1.2 revision hsome).2⟩)
    fun ⟨hpayload, hsound, hbelongs⟩ => ?_
  refine Discipline.Safe.bind (runs_persist_drafted
    (succeeds_updatedControl hsound hsecretId hexpected hacl hpayload hbelongs) ?_
      fun s hs => ⟨hs.2.1, fun revision hsome => (hs.1.2 revision hsome).1⟩) fun _ =>
        .ret fun _ _ hs => hs
  simp only [updatedControl]
  cases input.acl with
  | none => exact .inl rfl
  | some acl => exact .inr nofun

/-- An update of a secret that is found by its name. -/
theorem runs_update {input : UpdateSecretInput} (hF : Persists init pid F)
    (hknown : ∀ s, F s → input.expectedControlVersionId ∈ s.known)
    (hacl : ∀ acl, input.acl = some acl → WellFormedAcl acl)
    (hfrom : ∀ s, F s → ∀ acl, input.acl = some acl →
      s.AclFrom (some input.expectedControlVersionId) acl) :
    Runs init issued pid F (SecretService.update input) fun control s =>
      s.Achieved input.actor input.idempotencyKey control := by
  refine (spec_getControlSnapshot hF [input.expectedControlVersionId] (by simpa using hknown)).next
    (fun _ s _ hs h => And.intro (And.intro h.1 (hfrom s hs)) h.2) ?_
  rintro ⟨head, control⟩
  refine runs_of_snapped fun document hdocument => ?_
  simp only at hdocument
  subst hdocument
  refine .of_fact (fun s _ hs => hs.1.1.secretId) fun hsecretId => ?_
  refine runs_updateFromSnapshot (fun s hs => hs.2) (fun s hs _ => ?_) (fun s hs => hs.1.2)
    hsecretId hacl
  exact hs.1.1.environment ▸ hs.1.1.found.named _ (by simp)

/-! ## Archiving a secret -/

theorem succeeds_archivedControl {input : ArchiveSecretInput} {head : HeadRecord}
    {document : ControlRevision} {controlVersionId : String} {createdAt : Time}
    {prior : List AccessRecord} (hloaded : s.Loaded head.secretUid head document)
    (hexpected : head.controlVersionId = input.expectedControlVersionId) :
    MutationInput.Succeeds
      { control := archivedControl input head
          { document with secretUid := some head.secretUid } controlVersionId createdAt
        payload := none
        actor := input.actor
        idempotencyKey := input.idempotencyKey
        expectedControlVersionId := some input.expectedControlVersionId
        priorHead := some head
        priorAccess := prior
        archive := true } head document where
  secretUid := rfl
  secretId := hloaded.secretId
  environment := hloaded.environment
  state := nofun
  acl := .nil
  expected := congrArg some hexpected.symm
  priorHead := rfl
  payload := nofun
  noPayload _ := rfl
  archived := nofun
  archive _ := ⟨rfl, rfl, rfl⟩
  schemaVersion := .inr rfl
  active := nofun
  belongs := nofun

theorem runs_archive {input : ArchiveSecretInput} (hF : Persists init pid F)
    (hknown : ∀ s, F s → input.expectedControlVersionId ∈ s.known) :
    Runs init issued pid F (SecretService.archive input) fun control s =>
      s.Achieved input.actor input.idempotencyKey control := by
  have hfound : ∀ head : HeadRecord, Persists init pid fun s => s.FoundHead input.environment
      input.secretId [input.expectedControlVersionId] head := fun _ => lasts_foundHead.persists
  refine (spec_requireHead hF [input.expectedControlVersionId] (by simpa using hknown)).next
    (fun _ _ _ _ h => h) fun head => ?_
  refine (spec_assertExpectedVersion head _).bind_runs fun _ => ?_
  refine .of_fact (fun s _ hs => hs.2) fun hexpected => ?_
  refine (spec_getControl ((hfound head).and (.const _)) fun s hs => hs.1.read).bind_runs
    fun current => runs_of_snapped fun document hdocument => ?_
  obtain rfl : current = _ := hdocument
  have hground : Persists init pid fun s => Grounded s head document True input.secretId
      input.expectedControlVersionId [] := lasts_grounded.persists
  refine Discipline.Safe.of_pre (P := fun s => Grounded s head document True input.secretId
    input.expectedControlVersionId []) ?_ fun s _ hs => ⟨hs.2, fun _ =>
      hs.1.1.environment ▸ hs.1.1.found.named _ (by simp), .inl (Nat.zero_le _)⟩
  refine (spec_controlVersionId hground fun s hs => hs).next (fun _ _ _ _ h => h)
    fun controlVersionId => ?_
  refine (spec_now lasts_derived.persists).next (fun _ _ _ hs _ => hs) fun createdAt => ?_
  refine (spec_priorAccess_of_derived lasts_derived.persists hexpected fun s hs => hs).next
    (fun prior s _ hs h => And.intro (hs.drafted hexpected h) hs.grounded.loaded) fun prior => ?_
  refine .of_fact (p := ∃ s : Cloud, s.Loaded head.secretUid head document)
    (fun s _ hs => ⟨s, hs.2⟩) fun ⟨_, hloaded⟩ => ?_
  exact Discipline.Safe.bind (runs_persist_drafted (succeeds_archivedControl hloaded hexpected)
    (.inr trivial) fun s hs => ⟨hs.1, nofun⟩) fun _ => .ret fun _ _ hs => hs

end Specs

end Hemlig
