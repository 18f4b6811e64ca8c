import Hemlig.Verification.Rules

/-!
# What a process reads

The specifications of the reads of the repositories: what a process knows about a
new identifier, a name, a head or a control revision, and goes on knowing whatever
the others do.
-/

namespace Hemlig

open Concurrent Store DynamoRepository SecretService

variable {init s s' : Cloud} {pid : ℕ}

/-! ## Identifiers -/

/-- An identifier that the process drew and has not used yet. -/
structure Cloud.Drawn (s : Cloud) (pid : ℕ) (id : String) : Prop where
  owns : s.Owns pid id
  known : id ∈ s.known
  unused : s.Unused id
  unborn : s.Unborn id

/-- No archive committed when the identifier was known. -/
def Cloud.Latest (s : Cloud) (id : String) : Prop :=
  ∀ u known, s.ArchivedAt u known → id ∉ known

theorem Cloud.Latest.drawnLater {id : String} (h : s.Latest id) (u version : String) :
    s.DrawnLater u version id :=
  fun known harchived hmem => (h u known harchived hmem).elim

theorem lasts_known {id : String} : Lasts init fun s => id ∈ s.known :=
  fun _ _ _ _ _ hevolves h => hevolves.known h

theorem lasts_owns {id : String} : Lasts init fun s => s.Owns pid id :=
  fun _ _ _ _ _ hevolves h => hevolves.owns h

theorem persists_drawn {id : String} : Persists init pid fun s => s.Drawn pid id := by
  intro s s' hinv hinv' hrely h
  obtain ⟨actor, hactor, hevolves⟩ := hrely.evolves
  exact ⟨hevolves.owns h.owns, hevolves.known h.known, hevolves.unused hactor h.owns h.unused,
    hevolves.unborn hactor h.owns h.unborn⟩

theorem drawn_of_fresh (pid : ℕ) (hinv : Invariant init s) {id : String} (hfresh : id ∉ s.known) :
    Cloud.Drawn { s with known := id :: s.known
                         drawnBy := Function.update s.drawnBy id (some pid) } pid id ∧
      Cloud.Latest { s with known := id :: s.known
                            drawnBy := Function.update s.drawnBy id (some pid) } id := by
  refine ⟨⟨Function.update_self .., List.mem_cons_self, ?_, ?_⟩, ?_⟩
  · intro mutation hprepared heq
    exact hfresh (heq ▸ hinv.known.operation hprepared)
  · intro mutation hprepared hexpected heq
    exact hfresh (heq ▸ hinv.known.born hprepared hexpected)
  · rintro u known ⟨entry, hentry, rfl, -⟩ hmem
    exact hfresh (hinv.known.entry hentry id hmem)

section Specs

variable {issued : Request → Cloud → Prop} {F : Cloud → Prop}

theorem spec_newId (hF : Persists init pid F) (tag : String) :
    Spec init issued pid F (send (.newId tag)) fun id s =>
      s.Drawn pid id ∧ s.Latest id ∧ (∃ suffix, id = tag ++ suffix) ∧
        ∀ other, (∀ s, F s → other ∈ s.known) → id ≠ other := by
  refine .send hF rfl (fun _ _ _ => trivial) ?_
  rintro s choice id s' hinv - hs - hperform
  simp only [perform] at hperform
  split at hperform <;> cases hperform
  rename_i hfresh
  obtain ⟨hdrawn, hlatest⟩ := drawn_of_fresh pid hinv hfresh
  exact ⟨hdrawn, hlatest, ⟨choice.id, rfl⟩, fun other hother heq => hfresh (heq ▸ hother s hs)⟩

theorem spec_now (hF : Persists init pid F) :
    Spec init issued pid F (send .now) fun _ _ => True :=
  .send_any hF rfl fun _ _ _ => trivial

end Specs

/-! ## Names -/

/-- The secret that a name was found to belong to, when some versions were known. -/
structure Cloud.Found (s : Cloud) (environment secretId u : String) (versions : List String) :
    Prop where
  named : ∀ version ∈ versions, s.Named environment secretId u version
  identified : (∃ head, s.head u = some head ∧ head.environment = environment ∧
    head.secretId = secretId) ∨ s.Buried u

/-- A head that disappears was undone. -/
theorem Evolves.buried_of_gone {actor : Option ℕ} (h : Evolves actor s s')
    (hinv : Invariant init s) (hinv' : Invariant init s') {u : String} {head : HeadRecord}
    (hhead : s.head u = some head) (hgone : s'.head u = none) : s'.Buried u := by
  by_cases hcommitted : head.Committed
  · obtain ⟨head', hhead', -⟩ := h.heads hhead hcommitted
    simp [hgone] at hhead'
  obtain ⟨lookup, hlookup, rfl⟩ := hinv.names.creating hhead hcommitted
  rcases h.lookups hlookup with hkept | ⟨known, harchived, -⟩ | hburied
  · obtain ⟨head', hhead', -⟩ := hinv'.names.lookup hkept
    simp [hgone] at hhead'
  · rcases h.archived harchived with harchived | ⟨-, head', hhead', -⟩
    · exact (hinv.names.archived harchived hlookup rfl).elim
    · simp [hgone] at hhead'
  · exact hburied

theorem lasts_found {environment secretId u : String} {versions : List String} :
    Lasts init fun s => s.Found environment secretId u versions := by
  intro s s' actor hinv hinv' hevolves h
  refine ⟨fun version hmem => hevolves.named (h.named version hmem), ?_⟩
  rcases h.identified with ⟨head, hhead, henvironment, hsecretId⟩ | hburied
  · cases hhead' : s'.head u with
    | none => exact .inr (hevolves.buried_of_gone hinv hinv' hhead hhead')
    | some head' =>
        obtain ⟨henvironment', hsecretId'⟩ := hevolves.identity hhead hhead'
        exact .inl ⟨head', rfl, henvironment'.trans henvironment, hsecretId'.trans hsecretId⟩
  · exact .inr (hevolves.buried hburied)

theorem Cloud.Found.of_head {environment secretId u : String} {versions : List String}
    (h : s.Found environment secretId u versions) {head : HeadRecord} (hhead : s.head u = some head) :
    head.environment = environment ∧ head.secretId = secretId := by
  rcases h.identified with ⟨other, hother, hidentity⟩ | ⟨hnone, -⟩
  · obtain rfl : head = other := by simpa [hhead] using hother
    exact hidentity
  · simp [hhead] at hnone

/-! ## Heads -/

/-- What a committed head that was read says, and the control revision it names. -/
structure Cloud.Loaded (s : Cloud) (u : String) (head : HeadRecord) (control : ControlRevision) :
    Prop where
  snapshot : s.Snapshot u head control
  sound : control.Sound u
  version : control.controlVersionId = head.controlVersionId
  secretId : control.secretId = head.secretId
  environment : control.environment = head.environment
  state : control.state = head.state
  payloadVersionId : control.payloadVersionId = head.payloadVersionId
  known : head.controlVersionId ∈ s.known
  object : ∃ versionId, controlReference head =
      some ⟨controlKey u head.controlVersionId, versionId⟩ ∧ versionId ∈ s.known ∧
    ∀ object, s.object ⟨controlKey u head.controlVersionId, versionId⟩ = some object →
      object.body = .control control

theorem lasts_loaded {u : String} {head : HeadRecord} {control : ControlRevision} :
    Lasts init fun s => s.Loaded u head control := by
  intro s s' actor hinv hinv' hevolves h
  obtain ⟨versionId, hreference, hknown, hbody⟩ := h.object
  refine { h with snapshot := hevolves.snapshot h.snapshot
                  known := hevolves.known h.known
                  object := ⟨versionId, hreference, hevolves.known hknown, ?_⟩ }
  intro object' hobject'
  obtain ⟨object, hobject, hsame⟩ := hevolves.bodies hknown hobject'
  exact hsame ▸ hbody object hobject

theorem controlReference_of_creating {mutation : PreparedMutation} :
    controlReference (createdHead mutation) = none ∧
      controlReference (unleasedHead (createdHead mutation)) = none :=
  ⟨rfl, rfl⟩

/-- **A head that is read is either committed, with its revision, or names no object.** -/
theorem loaded_of_head (hinv : Invariant init s) {u : String} {head : HeadRecord}
    (hhead : s.head u = some head) :
    (∃ control, s.Loaded u head control) ∨ controlReference head = none := by
  by_cases hcommitted : head.Committed
  · obtain ⟨control, hdescribes⟩ := hinv.heads.described hhead hcommitted
    obtain ⟨versionId, hversion, hkey, ⟨row, hrow, hready, -, hserialized⟩,
      object, hobject, hobjectVersion, hbody⟩ := hdescribes.stored
    have hok := hinv.rows.ok hrow
    have hdocument := hok.documents
    rw [hserialized] at hdocument
    have hsettled : ∀ sk body, (∃ versionId, s.Holds u sk versionId body) →
        s.SettledDocument u sk body := by
      rintro sk body ⟨versionId, ⟨row, hrow, hready, -, hserialized⟩, -⟩
      exact ⟨row, hrow, .inl hready, hserialized⟩
    refine .inl ⟨control, ?_⟩
    exact
      { snapshot :=
          { settled := ⟨row, hrow, .inl hready, hserialized⟩
            payload := fun payloadVersionId hpayload => by
              obtain ⟨versionId, revision, -, -, hholds⟩ := hdescribes.payload _ hpayload
              exact ⟨_, hsettled _ _ ⟨versionId, hholds⟩⟩
            current := ⟨head, hhead, hcommitted, rfl, rfl, fun _ => rfl⟩ }
        sound := hdocument.2
        version := hdocument.1
        secretId := hdescribes.secretId
        environment := hdescribes.environment
        state := hdescribes.state
        payloadVersionId := hdescribes.payloadVersionId
        known := hok.version
        object := by
          refine ⟨versionId, by simp [controlReference, hversion, hkey], ?_, ?_⟩
          · exact hobjectVersion ▸ hinv.known.object hobject
          · intro other hother
            obtain ⟨hstored, -⟩ := Option.filter_eq_some_iff.mp hother
            obtain rfl : object = other := Option.some.inj (hobject.symm.trans hstored)
            exact hbody }
  · obtain ⟨mutation, -, -, -, -, rfl | rfl⟩ := hinv.heads.creating hhead hcommitted
    · exact .inr controlReference_of_creating.1
    · exact .inr controlReference_of_creating.2

/-- What a process knows about a head it has read. -/
structure Cloud.HeadRead (s : Cloud) (u : String) (head : HeadRecord) : Prop where
  uid : head.secretUid = u
  loaded : (∃ control, s.Loaded u head control) ∨ controlReference head = none

theorem lasts_headRead {u : String} {head : HeadRecord} :
    Lasts init fun s => s.HeadRead u head := by
  intro s s' actor hinv hinv' hevolves h
  refine ⟨h.uid, h.loaded.imp_left fun ⟨control, hloaded⟩ => ⟨control, ?_⟩⟩
  exact lasts_loaded s s' actor hinv hinv' hevolves hloaded

/-- A head found by a name. -/
structure Cloud.FoundHead (s : Cloud) (environment secretId : String) (versions : List String)
    (head : HeadRecord) : Prop where
  found : s.Found environment secretId head.secretUid versions
  read : s.HeadRead head.secretUid head
  environment : head.environment = environment
  secretId : head.secretId = secretId

theorem lasts_foundHead {environment secretId : String} {versions : List String}
    {head : HeadRecord} :
    Lasts init fun s => s.FoundHead environment secretId versions head := by
  intro s s' actor hinv hinv' hevolves h
  exact ⟨lasts_found s s' actor hinv hinv' hevolves h.found,
    lasts_headRead s s' actor hinv hinv' hevolves h.read, h.environment, h.secretId⟩

section Specs

variable {issued : Request → Cloud → Prop} {F : Cloud → Prop}

theorem spec_getSecretUid (hF : Persists init pid F) {environment secretId : String}
    (versions : List String)
    (hknown : ∀ s, F s → ∀ version ∈ versions, version ∈ s.known) :
    Spec init issued pid F (getSecretUid environment secretId) fun result s =>
      ∀ u, result = some u → s.Found environment secretId u versions := by
  refine .bind (R := fun lookup s => ∀ found, lookup = some found →
    s.Found environment secretId found.secretUid versions) (.get hF _ ?_) fun lookup => .ret ?_
  · intro s hinv hs lookup hlookup
    refine ⟨fun version hmem => ⟨hknown s hs version hmem, .inl ⟨lookup, hlookup, rfl⟩⟩, ?_⟩
    obtain ⟨head, hhead, henvironment, hsecretId, -⟩ := hinv.names.lookup hlookup
    exact .inl ⟨head, hhead, henvironment, hsecretId⟩
  · rintro s - ⟨-, hfound⟩ u hu
    obtain ⟨found, rfl, rfl⟩ := Option.map_eq_some_iff.mp hu
    exact hfound found rfl

theorem spec_getHeadBySecretUid (hF : Persists init pid F) (u : String) :
    Spec init issued pid F (getHeadBySecretUid u) fun result s =>
      ∀ head, result = some head → s.HeadRead u head :=
  .get hF _ fun _ hinv _ _ hhead => ⟨(hinv.heads.uid hhead).1, loaded_of_head hinv hhead⟩

theorem spec_getHead (hF : Persists init pid F) {environment secretId : String}
    (versions : List String)
    (hknown : ∀ s, F s → ∀ version ∈ versions, version ∈ s.known) :
    Spec init issued pid F (getHead environment secretId) fun result s =>
      ∀ head, result = some head → s.FoundHead environment secretId versions head := by
  refine .bind (spec_getSecretUid hF versions hknown) fun found => ?_
  cases found with
  | none => exact .ret fun s _ _ head hnone => by cases hnone
  | some u =>
      have hpersists : Persists init pid fun s => F s ∧
          ∀ u', some u = some u' → s.Found environment secretId u' versions :=
        hF.and (.forall fun u' => .imp lasts_found.persists)
      refine .get hpersists _ fun s hinv hs head hhead => ?_
      have hfound := hs.2 u rfl
      obtain ⟨rfl, -⟩ := hinv.heads.uid hhead
      obtain ⟨henvironment, hsecretId⟩ := hfound.of_head hhead
      exact ⟨hfound, ⟨rfl, loaded_of_head hinv hhead⟩, henvironment, hsecretId⟩

theorem spec_requireHead (hF : Persists init pid F) {environment secretId : String}
    (versions : List String)
    (hknown : ∀ s, F s → ∀ version ∈ versions, version ∈ s.known) :
    Spec init issued pid F (requireHead environment secretId) fun head s =>
      s.FoundHead environment secretId versions head := by
  refine .bind (spec_getHead hF versions hknown) fun found => ?_
  exact (Spec.requireSome found).post fun head s _ hs hsome => hs.2 head hsome

theorem spec_requireHeadBySecretUid (hF : Persists init pid F) (u : String) :
    Spec init issued pid F (requireHeadBySecretUid u) fun head s => s.HeadRead u head := by
  refine .bind (spec_getHeadBySecretUid hF u) fun found => ?_
  exact (Spec.requireSome found).post fun head s _ hs hsome => hs.2 head hsome

/-! ## Control revisions -/

/-- The control revision of a head, with the UID that old documents lack. -/
def Cloud.Snapped (s : Cloud) (head : HeadRecord) (control : ControlRevision) : Prop :=
  ∃ document, s.Loaded head.secretUid head document ∧
    control = { document with secretUid := some head.secretUid }

theorem lasts_snapped {head : HeadRecord} {control : ControlRevision} :
    Lasts init fun s => s.Snapped head control :=
  .exists fun _ => lasts_loaded.and (.const _)

/-- The control revision that was read is known to the rest of a program. -/
theorem runs_of_snapped {α : Type} {head : HeadRecord} {control : ControlRevision}
    {program : Service α} {R : α → Cloud → Prop}
    (h : ∀ document, control = { document with secretUid := some head.secretUid } →
      Runs init issued pid (fun s => F s ∧ s.Loaded head.secretUid head document) program R) :
    Runs init issued pid (fun s => F s ∧ s.Snapped head control) program R := by
  refine Discipline.Safe.of_pre (P := fun s => ∃ document,
      (F s ∧ s.Loaded head.secretUid head document) ∧
        control = { document with secretUid := some head.secretUid })
    (.exists fun document => .of_fact (fun s _ hs => hs.2) fun hcontrol => ?_)
    fun s _ ⟨hs, document, hloaded, hcontrol⟩ => ⟨document, ⟨hs, hloaded⟩, hcontrol⟩
  exact Discipline.Safe.of_pre (h document hcontrol) fun s _ hs => hs.1

theorem spec_getControl (hF : Persists init pid F) {head : HeadRecord}
    (hread : ∀ s, F s → s.HeadRead head.secretUid head) :
    Spec init issued pid F (getControl head) fun control s => s.Snapped head control := by
  refine .bind (Spec.requireSome _) fun reference => ?_
  have hpersists : Persists init pid fun s => F s ∧ controlReference head = some reference :=
    hF.and (.const _)
  refine .bind (R := fun body s => ∃ document, s.Loaded head.secretUid head document ∧
    body = .control document) ?_ fun body => ?_
  · refine .send hpersists rfl (fun _ _ _ => trivial) ?_
    rintro s choice body s' - - hs - hperform
    obtain ⟨document, hloaded⟩ | hnone := (hread s hs.1).loaded
    · obtain ⟨versionId, hreference, -, hbody⟩ := hloaded.object
      obtain rfl : reference = _ := Option.some.inj (hs.2.symm.trans hreference)
      simp only [perform] at hperform
      split at hperform <;> cases hperform
      rename_i object hobject
      exact ⟨document, hloaded, hbody object hobject⟩
    · cases hs.2.symm.trans hnone
  · cases body with
    | payload payload => exact .raise
    | control control =>
        refine .ret ?_
        rintro s - ⟨-, document, hloaded, hbody⟩
        cases hbody
        exact ⟨control, hloaded, rfl⟩

theorem spec_controlSnapshotFromHead (hF : Persists init pid F) {head : HeadRecord}
    (hread : ∀ s, F s → s.HeadRead head.secretUid head) :
    Spec init issued pid F (controlSnapshotFromHead head) fun snapshot s =>
      snapshot.head = head ∧ s.Snapped snapshot.head snapshot.control := by
  refine .bind (spec_getControl hF hread) fun control => .ret ?_
  exact fun s _ hs => ⟨rfl, hs.2⟩

theorem spec_getControlSnapshot (hF : Persists init pid F) {environment secretId : String}
    (versions : List String)
    (hknown : ∀ s, F s → ∀ version ∈ versions, version ∈ s.known) :
    Spec init issued pid F (getControlSnapshot environment secretId) fun snapshot s =>
      s.FoundHead environment secretId versions snapshot.head ∧
        s.Snapped snapshot.head snapshot.control := by
  refine .bind (spec_requireHead hF versions hknown) fun head => ?_
  have hpersists : Persists init pid fun s =>
      F s ∧ s.FoundHead environment secretId versions head := hF.and lasts_foundHead.persists
  refine (spec_controlSnapshotFromHead hpersists fun s hs => hs.2.read).post ?_
  rintro snapshot s - ⟨-, hfound⟩ ⟨rfl, hsnapped⟩
  exact ⟨hfound, hsnapped⟩

theorem spec_getControlSnapshotBySecretUid (hF : Persists init pid F) (u : String) :
    Spec init issued pid F (getControlSnapshotBySecretUid u) fun snapshot s =>
      s.Snapped snapshot.head snapshot.control := by
  refine .bind (spec_requireHeadBySecretUid hF u) fun head => ?_
  have hpersists : Persists init pid fun s => F s ∧ s.HeadRead u head :=
    hF.and lasts_headRead.persists
  have hread : ∀ s, F s ∧ s.HeadRead u head → s.HeadRead head.secretUid head := by
    rintro s ⟨-, hread⟩
    rwa [hread.uid]
  exact (spec_controlSnapshotFromHead hpersists hread).post fun _ _ _ _ h => h.2

end Specs

end Hemlig
