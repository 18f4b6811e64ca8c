import Hemlig.Verification.IdentityRuns
import Mathlib.Data.List.Dedup

/-!
# When the identity migration succeeds

A run succeeds exactly on the tables and buckets that are `Sound`, and leaves what its steps
write.  Neither depends on the order in which the rows are read.
-/

namespace Hemlig.Scripts.MigrateSecretIdentity

open Store (Rewrite)
open Store.Rewrite (After Coherent)

variable {copyVersionId : String → String} {table table' : Table} {bucket bucket' : Bucket}
  {items rows : List Item} {plan : MigrationPlan}

/-- The name under which a copy is planned. -/
def ObjectCopy.name (copy : ObjectCopy) : String := objectId copy.sourceKey copy.sourceVersionId

/-- A run can be made to its end. -/
structure Sound (copyVersionId : String → String) (table : Table) (bucket : Bucket) : Prop where
  plannable : Plannable table
  exact : ∀ {copy copy' move move'}, Requests table copy move → Requests table copy' move' →
    copy.name = copy'.name → copy = copy'
  copyable : ∀ {copy move}, Requests table copy move → ∃ source, Copyable bucket copy source
  agree : ∀ {copy copy' move move'}, Requests table copy move → Requests table copy' move' →
    Agree bucket copy copy'
  resolvable : ∀ {move}, IsMove table move →
    ∃ target, migratedSecretItem (destinationAt copyVersionId bucket move) move = .ok target
  ready : ∀ {step}, IsStep table step → (rowAt copyVersionId bucket step).Ready table
  compatible : ∀ {step step'}, IsStep table step → IsStep table step' → step ≠ step' →
    (rowAt copyVersionId bucket step).Compatible (rowAt copyVersionId bucket step')
  filled : ∀ {item}, table item.key = some item → isPendingNotification item = true →
    item.stringField "environment" = none →
      ∃ backfill, IsBackfill table backfill ∧ notificationKey backfill.eventId = item.key

/-- No copy has a version id that a row names. -/
def NoneFresh (copyVersionId : String → String) (table : Table) : Prop :=
  ∀ copy move, Requests table copy move → Fresh copyVersionId copy

/-! ## Copies -/

/-- What a row names is requested. -/
theorem requests_of_mem {move : SecretMove} {reference : String × String} {found : String}
    (hmove : IsMove table move) (hmem : reference ∈ referencesOf move)
    (hfound : destinationKey move reference.1 = some found) :
    Requests table
      { sourceKey := reference.1, sourceVersionId := reference.2, destinationKey := found
        destinationVersionId := none } move :=
  ⟨hmove, hmem, hfound, rfl⟩

/-- Copies of a plan with one name are one copy. -/
theorem PlanOf.copy_unique (h : PlanOf table plan) {copy copy' : ObjectCopy}
    (hmem : copy ∈ plan.copies) (hmem' : copy' ∈ plan.copies) (hname : copy.name = copy'.name) :
    copy = copy' :=
  List.inj_on_of_nodup_map h.copiesNodup hmem hmem' hname

/-- What is requested is copied, if names are exact. -/
theorem PlanOf.mem_copies (h : PlanOf table plan)
    (hexact : ∀ {copy copy' move move'}, Requests table copy move → Requests table copy' move' →
      copy.name = copy'.name → copy = copy') {copy : ObjectCopy} :
    copy ∈ plan.copies ↔ ∃ move, Requests table copy move := by
  constructor
  · exact h.copies
  · intro ⟨move, hrequest⟩
    obtain ⟨found, hfound, hname, -⟩ := h.requested hrequest.moved hrequest.reference
    obtain ⟨move', hrequest'⟩ := h.copies hfound
    rw [hexact hrequest hrequest' hname.symm]
    exact hfound

/-- The run finds where an object went. -/
theorem PlanOf.destination_eq (h : PlanOf table plan)
    (hexact : ∀ {copy copy' move move'}, Requests table copy move → Requests table copy' move' →
      copy.name = copy'.name → copy = copy')
    (hrequests : ∀ {move reference}, IsMove table move → reference ∈ referencesOf move →
      destinationKey move reference.1 ≠ none)
    {move : SecretMove} {reference : String × String} (hmove : IsMove table move)
    (hmem : reference ∈ referencesOf move) :
    destination (plan.copies.map (located copyVersionId bucket)) reference.1 reference.2 =
      destinationAt copyVersionId bucket move reference.1 reference.2 := by
  obtain ⟨found, hfound⟩ := Option.ne_none_iff_exists'.mp (hrequests hmove hmem)
  have hrequest := requests_of_mem hmove hmem hfound
  have hcopy := (h.mem_copies hexact).mpr ⟨move, hrequest⟩
  unfold destination requiredCopy
  cases hfind : (plan.copies.map (located copyVersionId bucket)).find? (fun candidate =>
      candidate.sourceKey = reference.1 ∧ candidate.sourceVersionId = reference.2) with
  | none =>
      exfalso
      have hnot := List.find?_eq_none.mp hfind _ (List.mem_map.mpr ⟨_, hcopy, rfl⟩)
      simp [located] at hnot
  | some candidate =>
      obtain ⟨copy, hmem', hlocated⟩ := List.mem_map.mp (List.mem_of_find?_eq_some hfind)
      have hsource : candidate.sourceKey = reference.1 ∧
          candidate.sourceVersionId = reference.2 := by
        simpa using List.find?_some hfind
      subst hlocated
      have hsame : copy = _ := h.copy_unique hmem' hcopy (by
        show objectId copy.sourceKey copy.sourceVersionId = objectId reference.1 reference.2
        rw [← hsource.1, ← hsource.2]
        rfl)
      subst hsame
      unfold destinationAt
      rw [hfound]
      rfl

theorem mem_of_destination {copies : List ObjectCopy} {sourceKey versionId : String}
    {found : String × String}
    (h : destination (copies.map (located copyVersionId bucket)) sourceKey versionId = .ok found) :
    ∃ copy ∈ copies, copy.sourceKey = sourceKey ∧ copy.sourceVersionId = versionId := by
  unfold destination requiredCopy at h
  obtain ⟨copy, hcopy, -⟩ := bind_eq_ok.mp h
  split at hcopy
  · rename_i candidate hfind
    obtain ⟨copy, hmem, hlocated⟩ := List.mem_map.mp (List.mem_of_find?_eq_some hfind)
    have hsource : candidate.sourceKey = sourceKey ∧ candidate.sourceVersionId = versionId := by
      simpa using List.find?_some hfind
    subst hlocated
    exact ⟨copy, hmem, hsource⟩
  · cases hcopy

/-- Copies that can be made are made. -/
theorem PlanOf.copies_ok (h : PlanOf table plan) (hfresh : NoneFresh copyVersionId table) :
    (∃ bucket', plan.copies.foldlM (performCopy copyVersionId) bucket = .ok bucket') ↔
      (∀ copy ∈ plan.copies, ∃ source, Copyable bucket copy source) ∧
        plan.copies.Pairwise (Agree bucket) := by
  refine (checked_copies bucket).foldlM_ok ?_ ?_
  · intro copy hmem
    obtain ⟨move, hrequest⟩ := h.copies hmem
    exact ⟨hfresh copy move hrequest, rfl⟩
  · exact List.pairwise_of_forall fun _ _ => trivial

/-! ## Rows -/

theorem mapM_eq_ok {ε α β : Type} {f : α → Except ε β} {g : α → β} {P : α → Prop}
    {list : List α} {results : List β}
    (h : ∀ a ∈ list, ∀ result, f a = .ok result ↔ P a ∧ result = g a) :
    list.mapM f = .ok results ↔ (∀ a ∈ list, P a) ∧ results = list.map g := by
  induction list generalizing results with
  | nil => simp [pure, Except.pure, eq_comm]
  | cons a rest ih =>
      have hrest : ∀ {results}, rest.mapM f = .ok results ↔
          (∀ b ∈ rest, P b) ∧ results = rest.map g :=
        ih fun b hb => h b (List.mem_cons_of_mem _ hb)
      simp only [List.mapM_cons, bind_eq_ok, h a List.mem_cons_self, hrest, List.forall_mem_cons,
        List.map_cons]
      constructor
      · rintro ⟨first, ⟨hfirst, hvalue⟩, others, ⟨hothers, hvalues⟩, hall⟩
        refine ⟨⟨hfirst, hothers⟩, ?_⟩
        rw [← hvalue, ← hvalues]
        exact (Except.ok.inj hall).symm
      · rintro ⟨⟨hfirst, hothers⟩, hall⟩
        exact ⟨g a, ⟨hfirst, rfl⟩, rest.map g, ⟨hothers, rfl⟩, congrArg Except.ok hall.symm⟩

/-- The step can be resolved once the objects are copied. -/
def Resolvable (copyVersionId : String → String) (bucket : Bucket) : Step → Prop
  | .secret move =>
      ∃ target, migratedSecretItem (destinationAt copyVersionId bucket move) move = .ok target
  | _ => True

theorem targetOf_eq {move : SecretMove} {target : Item}
    (h : migratedSecretItem (destinationAt copyVersionId bucket move) move = .ok target) :
    targetOf copyVersionId bucket move = target := by
  unfold targetOf
  rw [h]

/-- What the steps do to the rows, whatever was copied first. -/
theorem mapM_rowOf {copies : List ObjectCopy} {steps : List Step} {found : List RowStep}
    (hsteps : ∀ step ∈ steps, IsStep table step)
    (hcopies : ∀ {move reference}, IsMove table move → reference ∈ referencesOf move →
      destination copies reference.1 reference.2 =
        destinationAt copyVersionId bucket move reference.1 reference.2) :
    steps.mapM (rowOf copies) = .ok found ↔
      (∀ step ∈ steps, Resolvable copyVersionId bucket step) ∧
        found = steps.map (rowAt copyVersionId bucket) := by
  refine mapM_eq_ok fun step hmem result => ?_
  have hstep := hsteps step hmem
  cases step with
  | copy object => exact absurd hstep id
  | secret move =>
      have hmove : IsMove table move := hstep
      have hcongr : migratedSecretItem (destination copies) move =
          migratedSecretItem (destinationAt copyVersionId bucket move) move :=
        migratedSecretItem_congr fun reference hreference => hcopies hmove hreference
      simp only [rowOf, rowAt, Resolvable]
      rw [bind_eq_ok, hcongr]
      constructor
      · intro ⟨target, htarget, hresult⟩
        rw [targetOf_eq htarget]
        exact ⟨⟨target, htarget⟩, (Except.ok.inj hresult).symm⟩
      · intro ⟨⟨target, htarget⟩, hresult⟩
        rw [targetOf_eq htarget] at hresult
        exact ⟨target, htarget, congrArg Except.ok hresult.symm⟩
  | access move =>
      refine ⟨fun h => ⟨trivial, (Except.ok.inj h).symm⟩, fun h => congrArg Except.ok h.2.symm⟩
  | notification backfill =>
      refine ⟨fun h => ⟨trivial, (Except.ok.inj h).symm⟩, fun h => congrArg Except.ok h.2.symm⟩

theorem RowStep.Compatible.symm {row row' : RowStep} (h : row.Compatible row') :
    row'.Compatible row := by
  cases row with
  | move sourceKey targetKey target =>
      cases row' with
      | move sourceKey' targetKey' target' => exact Ne.symm h
      | fill backfill => trivial
  | fill backfill =>
      cases row' with
      | move sourceKey targetKey target => trivial
      | fill backfill' => exact fun hid => (h hid.symm).symm

/-! ## The final check -/

theorem forM_eq_ok {ε α : Type} {f : α → Except ε Unit} {list : List α} :
    list.forM f = .ok () ↔ ∀ a ∈ list, f a = .ok () := by
  induction list with
  | nil => simp [pure, Except.pure]
  | cons a rest ih =>
      have hcons : (a :: rest).forM f = f a >>= fun _ => rest.forM f := rfl
      rw [hcons, bind_eq_ok, List.forall_mem_cons, ← ih]
      constructor
      · intro ⟨_, hfirst, hrest⟩
        exact ⟨hfirst, hrest⟩
      · intro ⟨hfirst, hrest⟩
        exact ⟨(), hfirst, hrest⟩

/-- The check of one copy. -/
def verifyCopy (bucket : Bucket) (copy : ObjectCopy) : Except String Unit := do
  let versionId ← requiredDestinationVersionId copy
  match headVersion bucket copy.destinationKey versionId with
  | none => .error "NotFound"
  | some destination =>
      if destination.checksumSHA256 = none then
        .error ("Destination object " ++ copy.destinationKey ++ " has no checksum.")
      else return ()

/-- What the final check asks. -/
theorem verifyMigration_eq_ok {copies : List ObjectCopy} :
    verifyMigration copies bucket rows = .ok () ↔
      (∀ copy ∈ copies, ∃ versionId version, copy.destinationVersionId = some versionId ∧
        headVersion bucket copy.destinationKey versionId = some version ∧
          version.checksumSHA256 ≠ none) ∧
      (∀ item ∈ rows, isLegacySecretItem item = false) ∧
      (∀ item ∈ rows, isLegacyAccessItem item = false) ∧
      ∀ item ∈ rows, isPendingNotification item = true →
        item.stringField "environment" ≠ none := by
  have hcopy : ∀ copy : ObjectCopy, verifyCopy bucket copy = .ok () ↔
        ∃ versionId version, copy.destinationVersionId = some versionId ∧
          headVersion bucket copy.destinationKey versionId = some version ∧
            version.checksumSHA256 ≠ none := by
    intro copy
    unfold verifyCopy
    rw [bind_eq_ok]
    unfold requiredDestinationVersionId
    cases copy.destinationVersionId with
    | none => simp
    | some versionId =>
        cases hversion : headVersion bucket copy.destinationKey versionId with
        | none => simp [hversion]
        | some version =>
            by_cases hchecksum : version.checksumSHA256 = none
            · simp [hversion, hchecksum]
            · simp [hversion, hchecksum, pure, Except.pure]
  unfold verifyMigration
  rw [bind_eq_ok]
  constructor
  · rintro ⟨⟨⟩, hcopies, h⟩
    rw [forM_eq_ok] at hcopies
    refine ⟨fun copy hmem => (hcopy copy).mp (hcopies copy hmem), ?_⟩
    dsimp only at h
    split at h
    · cases h
    · rename_i hlegacy
      rw [not_or, not_not, not_not, List.length_eq_zero_iff, List.length_eq_zero_iff,
        List.filter_eq_nil_iff, List.filter_eq_nil_iff] at hlegacy
      split at h
      · cases h
      · rename_i hpending
        rw [not_not, List.length_eq_zero_iff, List.filter_eq_nil_iff] at hpending
        refine ⟨fun item hmem => by simpa using hlegacy.1 item hmem,
          fun item hmem => by simpa using hlegacy.2 item hmem, fun item hmem hitem hnone => ?_⟩
        exact hpending item hmem (decide_eq_true ⟨hitem, hnone⟩)
  · rintro ⟨hcopies, hsecret, haccess, hpending⟩
    have hnoSecret : rows.filter isLegacySecretItem = [] :=
      List.filter_eq_nil_iff.mpr fun item hmem => by simp [hsecret item hmem]
    have hnoAccess : rows.filter isLegacyAccessItem = [] :=
      List.filter_eq_nil_iff.mpr fun item hmem => by simp [haccess item hmem]
    have hnoPending : rows.filter (fun item =>
        isPendingNotification item ∧ item.stringField "environment" = none) = [] := by
      refine List.filter_eq_nil_iff.mpr fun item hmem htest => ?_
      obtain ⟨hitem, hnone⟩ := of_decide_eq_true htest
      exact hpending item hmem hitem hnone
    refine ⟨(), forM_eq_ok.mpr fun copy hmem => (hcopy copy).mpr (hcopies copy hmem), ?_⟩
    rw [hnoSecret, hnoAccess, hnoPending]
    rfl

/-! ## Successful runs -/

/-- What the steps write. -/
def Writes (copyVersionId : String → String) (table : Table) (bucket : Bucket) :
    Set (Rewrite Key Item) :=
  {write | ∃ step, IsStep table step ∧ write = (rowAt copyVersionId bucket step).write table}

/-- The steps of a plan, as what they do to the rows. -/
def MigrationPlan.rowSteps (copyVersionId : String → String) (bucket : Bucket)
    (plan : MigrationPlan) : List RowStep :=
  plan.rest.map (rowAt copyVersionId bucket)

theorem PlanOf.writes_eq (h : PlanOf table plan) :
    {write | ∃ row ∈ plan.rowSteps copyVersionId bucket, write = row.write table} =
      Writes copyVersionId table bucket := by
  ext write
  constructor
  · rintro ⟨row, hrow, rfl⟩
    obtain ⟨step, hstep, rfl⟩ := List.mem_map.mp hrow
    exact ⟨step, h.mem_rest.mp hstep, rfl⟩
  · rintro ⟨step, hstep, rfl⟩
    exact ⟨_, List.mem_map.mpr ⟨step, h.mem_rest.mpr hstep, rfl⟩, rfl⟩

namespace Sound

variable (h : Sound copyVersionId table bucket)
include h

theorem resolvable_step {step : Step} (hstep : IsStep table step) :
    Resolvable copyVersionId bucket step := by
  cases step with
  | copy object => trivial
  | secret move => exact h.resolvable hstep
  | access move => trivial
  | notification backfill => trivial

theorem rows_compatible (hplan : PlanOf table plan) :
    (plan.rowSteps copyVersionId bucket).Pairwise RowStep.Compatible := by
  unfold MigrationPlan.rowSteps
  rw [List.pairwise_map]
  refine hplan.rest_pairwise.imp_of_mem fun {step step'} hmem hmem' hsame => ?_
  by_cases heq : step = step'
  · obtain ⟨backfill, rfl⟩ := hsame heq
    subst heq
    exact fun _ => rfl
  · exact h.compatible (hplan.mem_rest.mp hmem) (hplan.mem_rest.mp hmem') heq

theorem coherent (hplan : PlanOf table plan) : Coherent (Writes copyVersionId table bucket) := by
  rw [← hplan.writes_eq]
  exact RowStep.coherent hplan.distinct (h.rows_compatible hplan)

theorem copies_ok (hfresh : NoneFresh copyVersionId table) (hplan : PlanOf table plan) :
    ∃ bucket', plan.copies.foldlM (performCopy copyVersionId) bucket = .ok bucket' := by
  refine (hplan.copies_ok hfresh).mpr ⟨fun copy hmem => ?_, ?_⟩
  · obtain ⟨move, hrequest⟩ := hplan.copies hmem
    exact h.copyable hrequest
  · refine List.Pairwise.imp_of_mem (fun {copy copy'} hmem hmem' _ => ?_)
      (List.pairwise_of_forall fun _ _ => trivial : plan.copies.Pairwise fun _ _ => True)
    obtain ⟨move, hrequest⟩ := hplan.copies hmem
    obtain ⟨move', hrequest'⟩ := hplan.copies hmem'
    exact h.agree hrequest hrequest'

/-- Every step of a plan can be made, in the order of the plan. -/
theorem steps_ok (hfresh : NoneFresh copyVersionId table) (hplan : PlanOf table plan) :
    ∃ bucket', plan.copies.foldlM (performCopy copyVersionId) bucket = .ok bucket' ∧
      (plan.copies.map Step.copy ++ plan.rest).foldlM (Step.perform copyVersionId)
        { table, bucket, copies := [] } = .ok
          { table := Rewrite.applyAll
              ((plan.rowSteps copyVersionId bucket).map fun row => row.write table) table
            bucket := bucket'
            copies := plan.copies.map (located copyVersionId bucket) } := by
  obtain ⟨bucket', hbucket⟩ := h.copies_ok hfresh hplan
  refine ⟨bucket', hbucket, ?_⟩
  rw [List.foldlM_append, bind_eq_ok]
  refine ⟨_, foldlM_copies.mpr ⟨bucket', hbucket, rfl⟩, ?_⟩
  rw [foldlM_rows fun step hmem => not_isCopy_of_isStep (hplan.mem_rest.mp hmem)]
  refine ⟨plan.rowSteps copyVersionId bucket, ?_, _, ?_, rfl⟩
  · have hdestination : ∀ {move reference}, IsMove table move → reference ∈ referencesOf move →
        destination (plan.copies.map (located copyVersionId bucket)) reference.1 reference.2 =
          destinationAt copyVersionId bucket move reference.1 reference.2 :=
      fun hmove hmem => hplan.destination_eq h.exact h.plannable.requests hmove hmem
    refine (mapM_rowOf (fun step hmem => hplan.mem_rest.mp hmem) hdestination).mpr ⟨?_, rfl⟩
    exact fun step hmem => h.resolvable_step (hplan.mem_rest.mp hmem)
  · refine (RowStep.foldlM_eq_ok hplan.given hplan.distinct).mpr ⟨⟨?_, h.rows_compatible hplan⟩, rfl⟩
    intro row hrow
    obtain ⟨step, hstep, rfl⟩ := List.mem_map.mp hrow
    exact h.ready (hplan.mem_rest.mp hstep)

/-- What the steps leave. -/
theorem after (hplan : PlanOf table plan) : After (Writes copyVersionId table bucket) table
    (Rewrite.applyAll ((plan.rowSteps copyVersionId bucket).map fun row => row.write table)
      table) := by
  have hwrites : (∅ : Set (Rewrite Key Item)) ∪ {write | write ∈
      (plan.rowSteps copyVersionId bucket).map fun row => row.write table} =
        Writes copyVersionId table bucket := by
    rw [Set.empty_union, ← hplan.writes_eq]
    ext write
    simp only [List.mem_map, Set.mem_ofPred_eq, eq_comm]
  have hafter := (After.refl table).applyAll (hwrites ▸ h.coherent hplan)
  rwa [hwrites] at hafter

end Sound

/-! ## Tables that are left can be scanned -/

/-- A table that is written under finitely many keys can be scanned. -/
theorem scan_apply (hscan : Scan table items) {write : Rewrite Key Item} {keys : List Key}
    (hkeys : ∀ key, write key ≠ none → key ∈ keys)
    (hkeyed : ∀ key item, write key = some (some item) → item.key = key) :
    ∃ items', Scan (write.apply table) items' := by
  have hput : ∀ {item}, item ∈ keys.dedup.filterMap (fun key => (write key).join) ↔
      write item.key = some (some item) := by
    intro item
    rw [List.mem_filterMap]
    constructor
    · intro ⟨key, _, hitem⟩
      have hwrite : write key = some (some item) := Option.join_eq_some_iff.mp hitem
      rw [hkeyed key item hwrite]
      exact hwrite
    · intro hwrite
      refine ⟨item.key, List.mem_dedup.mpr (hkeys _ (by rw [hwrite]; simp)), ?_⟩
      exact Option.join_eq_some_iff.mpr hwrite
  have hkept : ∀ {item}, item ∈ items.filter (fun item => (write item.key).isNone) ↔
      table item.key = some item ∧ write item.key = none := by
    intro item
    rw [List.mem_filter, hscan.mem, Option.isNone_iff_eq_none]
  refine ⟨items.filter (fun item => (write item.key).isNone) ++
    keys.dedup.filterMap (fun key => (write key).join), ?_, ?_, ?_⟩
  · intro key item hitem
    cases hwrite : write key with
    | none =>
        rw [Rewrite.apply_of_none hwrite] at hitem
        exact hscan.keyed hitem
    | some value =>
        rw [Rewrite.apply_of_some hwrite] at hitem
        exact hkeyed key item (hwrite.trans (congrArg some hitem))
  · intro item
    rw [List.mem_append, hkept, hput]
    cases hwrite : write item.key with
    | none => simp [Rewrite.apply_of_none hwrite]
    | some value => simp [Rewrite.apply_of_some hwrite]
  · rw [List.map_append, List.nodup_append']
    refine ⟨hscan.nodup.sublist (List.filter_sublist.map _), ?_, ?_⟩
    · -- A row that was put is under the key that it was put under.
      have hsame : (keys.dedup.filterMap fun key => (write key).join).map Item.key =
          keys.dedup.filterMap fun key => (write key).join.map Item.key := by
        rw [List.map_filterMap]
      rw [hsame]
      refine (List.nodup_dedup keys).filterMap fun key key' other hkey hkey' => ?_
      obtain ⟨item, hitem, rfl⟩ := Option.map_eq_some_iff.mp hkey
      obtain ⟨item', hitem', hother⟩ := Option.map_eq_some_iff.mp hkey'
      rw [← hkeyed key item (Option.join_eq_some_iff.mp hitem),
        ← hkeyed key' item' (Option.join_eq_some_iff.mp hitem'), hother]
    · intro key hkey hkey'
      obtain ⟨item, hitem, rfl⟩ := List.mem_map.mp hkey
      obtain ⟨item', hitem', hsame⟩ := List.mem_map.mp hkey'
      have hnone := (hkept.mp hitem).2
      rw [← hsame, hput.mp hitem'] at hnone
      cases hnone

/-- The row that a step puts has the key it is put under. -/
theorem key_of_write (hscan : Scan table items) {step : Step} (hstep : IsStep table step)
    (hresolvable : Resolvable copyVersionId bucket step) {key : Key} {item : Item}
    (h : (rowAt copyVersionId bucket step).write table key = some (some item)) :
    item.key = key := by
  cases step with
  | copy object => exact absurd hstep id
  | secret move =>
      obtain ⟨target, htarget⟩ := hresolvable
      simp only [rowAt, RowStep.write_move, targetOf_eq htarget] at h
      split at h
      · rename_i hkey
        obtain rfl := Option.some.inj (Option.some.inj h)
        rw [hkey]
        exact (migratedSecretItem_ok htarget).1
      · split at h <;> cases h
  | access move =>
      have hmove : IsAccessMove table move := hstep
      simp only [rowAt, RowStep.write_move] at h
      split at h
      · rename_i hkey
        obtain rfl := Option.some.inj (Option.some.inj h)
        rw [hkey, hmove.sourcePk]
      · split at h <;> cases h
  | notification backfill =>
      simp only [rowAt, RowStep.write_fill] at h
      split at h
      · obtain ⟨found, hfound, hitem⟩ := Option.map_eq_some_iff.mp h
        rw [← Option.some.inj hitem, Item.key_set]
        exact hscan.keyed hfound
      · cases h

theorem mem_keys_of_write {row : RowStep} {key : Key} (h : row.write table key ≠ none) :
    key ∈ row.keys := by
  cases row with
  | move sourceKey targetKey target =>
      rw [RowStep.write_move] at h
      simp only [RowStep.keys, List.mem_cons, List.not_mem_nil, or_false]
      grind
  | fill backfill =>
      rw [RowStep.write_fill] at h
      simp only [RowStep.keys, List.mem_singleton]
      grind

/-- What some steps of a plan leave can be scanned. -/
theorem scan_rows (hscan : Scan table items) {steps : List Step}
    (hsteps : ∀ step ∈ steps, IsStep table step)
    (hresolvable : ∀ step ∈ steps, Resolvable copyVersionId bucket step) :
    ∃ items', Scan (Rewrite.applyAll
      ((steps.map (rowAt copyVersionId bucket)).map fun row => row.write table) table) items' := by
  have hall : ∀ {steps : List Step} {found : Table} {items'}, Scan found items' →
      (∀ step ∈ steps, IsStep table step) →
      (∀ step ∈ steps, Resolvable copyVersionId bucket step) →
      ∃ items', Scan (Rewrite.applyAll
        ((steps.map (rowAt copyVersionId bucket)).map fun row => row.write table) found) items' := by
    intro steps
    induction steps with
    | nil =>
        intro found items' hfound _ _
        exact ⟨items', hfound⟩
    | cons step rest ih =>
        intro found items' hfound hsteps hresolvable
        obtain ⟨items'', hnext⟩ := scan_apply hfound (fun key => mem_keys_of_write)
          fun key item => key_of_write hscan (hsteps step List.mem_cons_self)
            (hresolvable step List.mem_cons_self)
        exact ih hnext (fun other hmem => hsteps other (List.mem_cons_of_mem _ hmem))
          fun other hmem => hresolvable other (List.mem_cons_of_mem _ hmem)
  exact hall hscan hsteps hresolvable

/-! ## The end of a run -/

/-- A row after all steps is one that a step put, or one that no step touched. -/
theorem row_of_after {final : Table} (h : After (Writes copyVersionId table bucket) table final)
    {key : Key} {item : Item} (hitem : final key = some item) :
    (∃ step, IsStep table step ∧
        (rowAt copyVersionId bucket step).write table key = some (some item)) ∨
      table key = some item ∧ ∀ step, IsStep table step →
        (rowAt copyVersionId bucket step).write table key = none := by
  rcases h.get key with ⟨write, ⟨step, hstep, rfl⟩, hwrite⟩ | ⟨hnone, hsame⟩
  · exact .inl ⟨step, hstep, hwrite.trans (congrArg some hitem)⟩
  · exact .inr ⟨hsame.symm.trans hitem, fun step hstep => hnone _ ⟨step, hstep, rfl⟩⟩

/-- The key that a moved row is put under is no legacy key. -/
theorem not_legacy_of_put {step : Step} (hstep : IsStep table step) {key : Key} {item : Item}
    (hkey : item.key = key)
    (h : (rowAt copyVersionId bucket step).write table key = some (some item)) :
    isLegacySecretItem item = false ∧ isLegacyAccessItem item = false := by
  have hpk : item.pk = key.pk := congrArg Key.pk hkey
  have hfamily : ∀ {c : Char}, key.pk.toList[0]? = some c → c ≠ 'S' →
      isLegacySecretItem item = false := by
    intro c hc hne
    rw [isLegacySecretItem, Option.isSome_eq_false_iff, Option.isNone_iff_eq_none,
      Option.eq_none_iff_forall_ne_some]
    intro secretId hid
    rw [hpk] at hid
    exact hne (Option.some.inj (hc.symm.trans (family_legacy hid)))
  have hfamily' : ∀ {c : Char}, key.pk.toList[0]? = some c → c ≠ 'C' →
      isLegacyAccessItem item = false := by
    intro c hc hne
    by_contra hlegacy
    rw [Bool.not_eq_false] at hlegacy
    have hchar := family_access hlegacy
    rw [hpk] at hchar
    exact hne (Option.some.inj (hc.symm.trans hchar))
  cases step with
  | copy object => exact absurd hstep id
  | secret move =>
      have hmove : IsMove table move := hstep
      simp only [rowAt, RowStep.write_move] at h
      split at h
      · rename_i hthere
        subst hthere
        refine ⟨?_, hfamily' hmove.family_target (by decide)⟩
        rw [isLegacySecretItem, hpk]
        show (legacySecretId move.targetPk).isSome = false
        rw [hmove.targetPk, legacySecretId_secretPk]
        rfl
      · split at h <;> cases h
  | access move =>
      have hmove : IsAccessMove table move := hstep
      simp only [rowAt, RowStep.write_move] at h
      split at h
      · rename_i hthere
        subst hthere
        refine ⟨hfamily hmove.family (by decide), ?_⟩
        have hsk : item.sk = move.targetSk := congrArg Key.sk hkey
        rw [isLegacyAccessItem, hsk, hmove.targetSk, accessSk, legacySecretId_secretPk]
        simp
      · split at h <;> cases h
  | notification backfill =>
      simp only [rowAt, RowStep.write_fill] at h
      split at h
      · rename_i hthere
        rw [hthere] at hfamily hfamily'
        exact ⟨hfamily (family_notification _) (by decide),
          hfamily' (family_notification _) (by decide)⟩
      · cases h

/-- A pending notification is touched only where it is given its environment. -/
theorem backfill_of_write {step : Step} (hstep : IsStep table step) {key : Key}
    (hfamily : key.pk.toList[0]? = some 'N')
    (h : (rowAt copyVersionId bucket step).write table key ≠ none) :
    ∃ backfill, IsBackfill table backfill ∧ notificationKey backfill.eventId = key ∧
      step = .notification backfill := by
  cases step with
  | copy object => exact absurd hstep id
  | secret move =>
      have hmove : IsMove table move := hstep
      exfalso
      simp only [rowAt, RowStep.write_move] at h
      rw [if_neg (key_ne hfamily hmove.family_target (by decide)),
        if_neg (key_ne hfamily hmove.family_source (by decide))] at h
      exact h rfl
  | access move =>
      have hmove : IsAccessMove table move := hstep
      exfalso
      simp only [rowAt, RowStep.write_move] at h
      rw [if_neg (key_ne hfamily hmove.family (by decide)),
        if_neg (key_ne hfamily hmove.family (by decide))] at h
      exact h rfl
  | notification backfill =>
      simp only [rowAt, RowStep.write_fill] at h
      split at h
      · rename_i hkey
        exact ⟨backfill, hstep, hkey.symm, rfl⟩
      · exact absurd rfl h

theorem IsBackfill.ne_empty {backfill : NotificationBackfill} (h : IsBackfill table backfill) :
    backfill.environment ≠ "" := by
  obtain ⟨item, secretId, -, -, -, -, hhome, -⟩ := h
  exact hhome.ne_empty

/-- A step of a move takes the row away from where it was. -/
theorem write_source {step : Step} {sourceKey : Key}
    (h : ∃ targetKey target, rowAt copyVersionId bucket step = .move sourceKey targetKey target) :
    (rowAt copyVersionId bucket step).write table sourceKey ≠ none := by
  obtain ⟨targetKey, target, hrow⟩ := h
  rw [hrow, RowStep.write_move]
  split
  · simp
  · rw [if_pos rfl]
    simp

namespace Sound

variable (h : Sound copyVersionId table bucket)
include h

/-- No legacy row is left. -/
theorem none_legacy {final : Table}
    (hafter : After (Writes copyVersionId table bucket) table final) {item : Item}
    (hitem : final item.key = some item) :
    isLegacySecretItem item = false ∧ isLegacyAccessItem item = false := by
  rcases row_of_after hafter hitem with ⟨step, hstep, hwrite⟩ | ⟨hstored, huntouched⟩
  · exact not_legacy_of_put hstep rfl hwrite
  · constructor
    · by_contra hlegacy
      rw [Bool.not_eq_false] at hlegacy
      obtain ⟨secretId, hid⟩ := Option.isSome_iff_exists.mp hlegacy
      obtain ⟨environment, hhome⟩ := h.plannable.owned hstored hid
      have hmove : IsMove table { source := item, secretId, environment, sourcePk := item.pk
                                  targetPk := secretPk environment secretId } :=
        ⟨hstored, hid, hhome, rfl, rfl⟩
      exact write_source ⟨_, _, rfl⟩ (huntouched (.secret _) hmove)
    · by_contra hlegacy
      rw [Bool.not_eq_false] at hlegacy
      obtain ⟨move, hmove, rfl⟩ := h.plannable.access hstored hlegacy
      have huntouched' := huntouched (.access move) hmove
      rw [← hmove.sourceKey] at huntouched'
      exact write_source ⟨_, _, rfl⟩ huntouched'

/-- Every pending notification has an environment. -/
theorem none_pending {final : Table}
    (hafter : After (Writes copyVersionId table bucket) table final) {item : Item}
    (hitem : final item.key = some item) (hpending : isPendingNotification item = true) :
    item.stringField "environment" ≠ none := by
  rcases row_of_after hafter hitem with ⟨step, hstep, hwrite⟩ | ⟨hstored, huntouched⟩
  · obtain ⟨backfill, hbackfill, -, rfl⟩ := backfill_of_write hstep (family_pending hpending)
      (by rw [hwrite]; simp)
    simp only [rowAt, RowStep.write_fill] at hwrite
    split at hwrite
    · obtain ⟨found, -, hfound⟩ := Option.map_eq_some_iff.mp hwrite
      rw [← Option.some.inj hfound, stringField_set_self hbackfill.ne_empty]
      simp
    · cases hwrite
  · intro hnone
    obtain ⟨backfill, hbackfill, hkey⟩ := h.filled hstored hpending hnone
    have hstep : IsStep table (.notification backfill) := hbackfill
    obtain ⟨found, hfound, -⟩ := h.ready hstep
    have huntouched' := huntouched (.notification backfill) hbackfill
    simp only [rowAt, RowStep.write_fill, hkey, if_true, hstored] at huntouched'
    cases huntouched'

/-- What the final check finds of the copies. -/
theorem copies_verified (hfresh : NoneFresh copyVersionId table) (hplan : PlanOf table plan)
    (hperform : plan.copies.foldlM (performCopy copyVersionId) bucket = .ok bucket') :
    ∀ copy ∈ plan.copies.map (located copyVersionId bucket), ∃ versionId version,
      copy.destinationVersionId = some versionId ∧
        headVersion bucket' copy.destinationKey versionId = some version ∧
          version.checksumSHA256 ≠ none := by
  intro located hlocated
  obtain ⟨copy, hmem, rfl⟩ := List.mem_map.mp hlocated
  have hcopied : CopiedFrom copyVersionId bucket (· ∈ plan.copies) bucket' :=
    CopiedFrom.refl.foldlM (fun _ => id)
      (fun copy hmem => by
        obtain ⟨move, hrequest⟩ := hplan.copies hmem
        exact hfresh copy move hrequest) hperform
  obtain ⟨version, hversion⟩ := Option.ne_none_iff_exists'.mp
    ((headObject_of_foldlM hperform).2 copy hmem)
  refine ⟨_, version, rfl, ?_, ?_⟩
  · have hid : versionAt copyVersionId bucket copy.destinationKey = version.versionId := by
      rw [← hcopied.versionAt, versionAt, hversion]
      rfl
    show headVersion bucket' copy.destinationKey
      (versionAt copyVersionId bucket copy.destinationKey) = some version
    rw [hid]
    exact headVersion_headObject hversion
  · obtain ⟨move, hrequest⟩ := hplan.copies hmem
    obtain ⟨source, hcopyable⟩ := h.copyable hrequest
    rcases hcopied.origin hversion with hold | ⟨other, source', hother, -, hsource', rfl⟩
    · rw [(hcopyable.existing version hold).checksum]
      exact hcopyable.measured.checksum
    · obtain ⟨move', hrequest'⟩ := hplan.copies hother
      obtain ⟨source'', hcopyable'⟩ := h.copyable hrequest'
      obtain rfl := Option.some.inj (hsource'.symm.trans hcopyable'.found)
      exact hcopyable'.measured.checksum

/-- **What is sound is migrated, in whatever order the rows are read.** -/
theorem run_ok (hscan : Scan table items) (hsome : ¬ NoLegacy table)
    (hfresh : NoneFresh copyVersionId table) :
    ∃ progress, After (Writes copyVersionId table bucket) table progress.table ∧
      (∃ rows, Scan progress.table rows) ∧
      ∀ rows, Scan progress.table rows →
        run copyVersionId items rows table bucket = .ok progress := by
  obtain ⟨plan, hbuild⟩ := buildPlan_of_plannable hscan hsome h.plannable
  rcases buildPlan_eq_ok hscan hbuild with ⟨hnone, -⟩ | ⟨-, -, hplan⟩
  · exact absurd hnone hsome
  · have hmoves := hplan.secretMoves_ne_nil h.plannable hsome
    obtain ⟨bucket', hcopies, hsteps⟩ := h.steps_ok hfresh hplan
    have hafter := h.after hplan
    refine ⟨{
      table := Rewrite.applyAll
        ((plan.rowSteps copyVersionId bucket).map fun row => row.write table) table
      bucket := bucket'
      copies := plan.copies.map (located copyVersionId bucket) }, hafter, ?_, fun rows hrows => ?_⟩
    · refine scan_rows hscan (fun step hmem => hplan.mem_rest.mp hmem) fun step hmem => ?_
      exact h.resolvable_step (hplan.mem_rest.mp hmem)
    · unfold run
      rw [bind_eq_ok]
      refine ⟨plan, hbuild, ?_⟩
      rw [plan.steps_eq hmoves, bind_eq_ok]
      refine ⟨_, hsteps, ?_⟩
      have hverify := verifyMigration_eq_ok.mpr
        ⟨h.copies_verified hfresh hplan hcopies,
          fun item hmem => (h.none_legacy hafter (hrows.mem.mp hmem)).1,
          fun item hmem => (h.none_legacy hafter (hrows.mem.mp hmem)).2,
          fun item hmem hpending => h.none_pending hafter (hrows.mem.mp hmem) hpending⟩
      rw [if_pos fun hlength => hmoves (List.length_eq_zero_iff.mp hlength), hverify]
      rfl

end Sound

/-! ## What a successful run shows -/

theorem Agree.symm {copy copy' : ObjectCopy} (h : Agree bucket copy copy') :
    Agree bucket copy' copy := by
  intro hkey source source' hsource hsource'
  have hsame := h hkey.symm source' source hsource' hsource
  exact ⟨hsame.checksum.symm, hsame.length.symm⟩

theorem Agree.refl (copy : ObjectCopy) : Agree bucket copy copy := by
  intro _ source source' hsource hsource'
  obtain rfl := Option.some.inj (hsource.symm.trans hsource')
  exact ⟨rfl, rfl⟩

/-- What holds of any two members in the order of a list holds of any two members. -/
theorem forall_of_pairwise {α : Type} {R : α → α → Prop} {list : List α} (h : list.Pairwise R)
    (hsymm : ∀ {a b}, R a b → R b a) {a b : α} (ha : a ∈ list) (hb : b ∈ list) (hne : a ≠ b) :
    R a b := by
  have : Std.Symm R := ⟨fun _ _ => hsymm⟩
  exact h.forall ha hb hne

/-- What the steps of a plan that were made show, and what they left. -/
structure Made (copyVersionId : String → String) (table : Table) (bucket : Bucket)
    (plan : MigrationPlan) (progress : Progress) : Prop where
  exact : ∀ {copy copy' move move'}, Requests table copy move → Requests table copy' move' →
    copy.name = copy'.name → copy = copy'
  copies : plan.copies.foldlM (performCopy copyVersionId) bucket = .ok progress.bucket
  located : progress.copies = plan.copies.map (located copyVersionId bucket)
  resolvable : ∀ {step}, IsStep table step → Resolvable copyVersionId bucket step
  ready : ∀ {step}, IsStep table step → (rowAt copyVersionId bucket step).Ready table
  compatible : (plan.rowSteps copyVersionId bucket).Pairwise RowStep.Compatible
  table : progress.table =
    Rewrite.applyAll ((plan.rowSteps copyVersionId bucket).map fun row => row.write table) table

theorem made_of_foldlM (hplannable : Plannable table) (hplan : PlanOf table plan)
    {progress : Progress}
    (h : (plan.copies.map Step.copy ++ plan.rest).foldlM (Step.perform copyVersionId)
      { table, bucket, copies := [] } = .ok progress) :
    Made copyVersionId table bucket plan progress := by
  rw [List.foldlM_append, bind_eq_ok] at h
  obtain ⟨middle, hcopied, hmoved⟩ := h
  obtain ⟨bucket', hbucket, hmiddle⟩ := foldlM_copies.mp hcopied
  rw [foldlM_rows fun step hmem => not_isCopy_of_isStep (hplan.mem_rest.mp hmem)] at hmoved
  obtain ⟨rows, hrows, final, hfinal, hprogress⟩ := hmoved
  subst hmiddle
  -- Every object that a row names was found among the copies.
  have hfound : ∀ {copy move}, Requests table copy move →
      ∃ other ∈ plan.copies, other.name = copy.name ∧ other = copy := by
    intro copy move hrequest
    have hstep : Step.secret move ∈ plan.rest := hplan.mem_rest.mpr hrequest.moved
    obtain ⟨row, -, hrow⟩ := ok_of_mapM_ok hrows (.secret move) hstep
    obtain ⟨target, htarget, -⟩ := bind_eq_ok.mp hrow
    obtain ⟨found, hdestination⟩ := (migratedSecretItem_ok htarget).2 _ hrequest.reference
    obtain ⟨other, hmem, hkey, hversion⟩ := mem_of_destination hdestination
    obtain ⟨planned, hplanned, hname, hgoes⟩ := hplan.requested hrequest.moved hrequest.reference
    have hother : other.name = copy.name := by
      unfold ObjectCopy.name
      rw [hkey, hversion]
    have hsame : planned = other := hplan.copy_unique hplanned hmem (hname.trans hother.symm)
    subst hsame
    obtain ⟨move', hrequest'⟩ := hplan.copies hmem
    have hdestinationKey : planned.destinationKey = copy.destinationKey :=
      Option.some.inj (hgoes.symm.trans hrequest.destination)
    have hunknown := hrequest'.unknown.trans hrequest.unknown.symm
    refine ⟨planned, hmem, hother, ?_⟩
    cases planned
    cases copy
    simp only at hkey hversion hdestinationKey hunknown
    subst hkey hversion hdestinationKey hunknown
    rfl
  have hexact : ∀ {copy copy' move move'}, Requests table copy move →
      Requests table copy' move' → copy.name = copy'.name → copy = copy' := by
    intro copy copy' move move' hrequest hrequest' hname
    obtain ⟨other, hmem, hother, rfl⟩ := hfound hrequest
    obtain ⟨other', hmem', hother', rfl⟩ := hfound hrequest'
    exact hplan.copy_unique hmem hmem' hname
  have hdestination : ∀ {move reference}, IsMove table move → reference ∈ referencesOf move →
      destination (plan.copies.map (MigrateSecretIdentity.located copyVersionId bucket)) reference.1
          reference.2 =
        destinationAt copyVersionId bucket move reference.1 reference.2 :=
    fun hmove hmem => hplan.destination_eq hexact hplannable.requests hmove hmem
  have hresolved := (mapM_rowOf (fun step hmem => hplan.mem_rest.mp hmem) hdestination).mp hrows
  rw [hresolved.2] at hfinal
  obtain ⟨⟨hready, hcompatible⟩, htable⟩ :=
    (RowStep.foldlM_eq_ok hplan.given hplan.distinct).mp hfinal
  refine ⟨hexact, ?_, ?_, ?_, ?_, hcompatible, ?_⟩
  · rw [hprogress]
    exact hbucket
  · rw [hprogress]
    rfl
  · exact fun hstep => hresolved.1 _ (hplan.mem_rest.mpr hstep)
  · exact fun hstep => hready _ (List.mem_map.mpr ⟨_, hplan.mem_rest.mpr hstep, rfl⟩)
  · rw [hprogress]
    exact htable

/-- Where the steps of a plan were made, the table was sound. -/
theorem sound_of_made (hplannable : Plannable table) (hplan : PlanOf table plan)
    (hfresh : NoneFresh copyVersionId table) {progress : Progress}
    (hmade : Made copyVersionId table bucket plan progress)
    (hfilled : ∀ {item}, table item.key = some item → isPendingNotification item = true →
      item.stringField "environment" = none →
        ∃ backfill, IsBackfill table backfill ∧ notificationKey backfill.eventId = item.key) :
    Sound copyVersionId table bucket := by
  have hcopyable := (hplan.copies_ok hfresh).mp ⟨_, hmade.copies⟩
  refine ⟨hplannable, hmade.exact, ?_, ?_, ?_, hmade.ready, ?_, hfilled⟩
  · intro copy move hrequest
    exact hcopyable.1 copy ((hplan.mem_copies hmade.exact).mpr ⟨move, hrequest⟩)
  · intro copy copy' move move' hrequest hrequest'
    by_cases hsame : copy = copy'
    · rw [hsame]
      exact Agree.refl copy'
    · exact forall_of_pairwise hcopyable.2 Agree.symm
        ((hplan.mem_copies hmade.exact).mpr ⟨move, hrequest⟩)
        ((hplan.mem_copies hmade.exact).mpr ⟨move', hrequest'⟩) hsame
  · intro move hmove
    have hstep : IsStep table (.secret move) := hmove
    exact hmade.resolvable hstep
  · intro step step' hstep hstep' hne
    have hpairs := hmade.compatible
    unfold MigrationPlan.rowSteps at hpairs
    rw [List.pairwise_map] at hpairs
    exact forall_of_pairwise hpairs RowStep.Compatible.symm (hplan.mem_rest.mpr hstep)
      (hplan.mem_rest.mpr hstep') hne

/-- **What was migrated was sound.** -/
theorem sound_of_run (hscan : Scan table items) (hsome : ¬ NoLegacy table)
    (hfresh : NoneFresh copyVersionId table) {progress : Progress}
    (h : run copyVersionId items rows table bucket = .ok progress)
    (hrows : Scan progress.table rows) :
    Sound copyVersionId table bucket ∧ ∃ plan, buildPlan items = .ok plan ∧ PlanOf table plan ∧
      plan.secretMoves ≠ [] ∧ Made copyVersionId table bucket plan progress := by
  unfold run at h
  obtain ⟨plan, hbuild, h⟩ := bind_eq_ok.mp h
  obtain ⟨progress', hsteps, h⟩ := bind_eq_ok.mp h
  rcases buildPlan_eq_ok hscan hbuild with ⟨hnone, -⟩ | ⟨-, hplannable, hplan⟩
  · exact absurd hnone hsome
  · have hmoves := hplan.secretMoves_ne_nil hplannable hsome
    rw [if_pos fun hlength => hmoves (List.length_eq_zero_iff.mp hlength), bind_eq_ok] at h
    obtain ⟨⟨⟩, hverify, h⟩ := h
    obtain rfl : progress' = progress := Except.ok.inj h
    rw [plan.steps_eq hmoves] at hsteps
    have hmade := made_of_foldlM hplannable hplan hsteps
    refine ⟨sound_of_made hplannable hplan hfresh hmade ?_, plan, hbuild, hplan, hmoves, hmade⟩
    -- A pending notification that no step touches would still be pending.
    intro item hstored hpending hnone
    by_contra hnot
    have huntouched : ∀ write ∈ (plan.rowSteps copyVersionId bucket).map
        (fun row => row.write table), write item.key = none := by
      intro write hwrite
      obtain ⟨row, hrow, rfl⟩ := List.mem_map.mp hwrite
      obtain ⟨step, hstep, rfl⟩ := List.mem_map.mp hrow
      by_contra htouched
      obtain ⟨backfill, hbackfill, hkey, -⟩ := backfill_of_write (hplan.mem_rest.mp hstep)
        (family_pending hpending) htouched
      exact hnot ⟨backfill, hbackfill, hkey⟩
    have hleft : progress'.table item.key = some item := by
      rw [hmade.table, Rewrite.applyAll_of_none huntouched]
      exact hstored
    exact (verifyMigration_eq_ok.mp hverify).2.2.2 item (hrows.mem.mpr hleft) hpending hnone

end Hemlig.Scripts.MigrateSecretIdentity
