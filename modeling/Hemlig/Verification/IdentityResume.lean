import Hemlig.Verification.IdentitySound

/-!
# The identity migration after an interruption

A run that is stopped has made the first of its steps (`Stopped`): rows of secrets that are no
heads come first, then the heads, then the access rows, and the notifications last.  Started
again, the migration goes on (`Continuable`) only if

1. the head of a secret is still to be moved, so that there is something left to plan;
2. no head was moved that the plan would take for another migration's;
3. the heads of the secrets that access rows and pending notifications name are still there.
-/

namespace Hemlig.Scripts.MigrateSecretIdentity

open Store (Rewrite)
open Store.Rewrite (After Coherent)

variable {copyVersionId : String → String} {table : Table} {bucket : Bucket}
  {items rows : List Item} {plan : MigrationPlan} {mid : Progress}

/-! ## The order of the steps -/

/-- Steps are made in the order of their ranks. -/
def rank : Step → ℕ
  | .copy _ => 0
  | .secret move => if isHead move then 2 else 1
  | .access _ => 3
  | .notification _ => 4

theorem rank_secret_le (move : SecretMove) : rank (.secret move) ≤ 2 := by
  unfold rank
  dsimp only
  split <;> omega

theorem rest_sorted (plan : MigrationPlan) :
    plan.rest.Pairwise fun step step' => rank step ≤ rank step' := by
  have hsecret : plan.orderedSecretMoves.Pairwise fun move move' =>
      rank (.secret move) ≤ rank (.secret move') := by
    have hsorted : plan.orderedSecretMoves.Pairwise fun move move' =>
        (!isHead move || isHead move') = true := by
      refine List.pairwise_mergeSort (fun first second third => ?_) (fun first second => ?_) _
      · cases isHead first <;> cases isHead second <;> cases isHead third <;> simp
      · cases isHead first <;> cases isHead second <;> simp
    refine hsorted.imp fun {move move'} hle => ?_
    unfold rank
    cases hfirst : isHead move <;> cases hsecond : isHead move' <;> simp_all
  unfold MigrationPlan.rest
  rw [List.pairwise_append, List.pairwise_append]
  refine ⟨⟨List.pairwise_map.mpr hsecret, ?_, ?_⟩, ?_, ?_⟩
  · exact List.pairwise_map.mpr (List.pairwise_of_forall fun _ _ => le_refl _)
  · intro step hstep step' hstep'
    obtain ⟨move, -, rfl⟩ := List.mem_map.mp hstep
    obtain ⟨move', -, rfl⟩ := List.mem_map.mp hstep'
    have := rank_secret_le move
    show _ ≤ 3
    omega
  · exact List.pairwise_map.mpr (List.pairwise_of_forall fun _ _ => le_refl _)
  · intro step hstep step' hstep'
    obtain ⟨backfill, -, rfl⟩ := List.mem_map.mp hstep'
    show _ ≤ 4
    rcases List.mem_append.mp hstep with hmem | hmem
    · obtain ⟨move, -, rfl⟩ := List.mem_map.mp hmem
      have := rank_secret_le move
      omega
    · obtain ⟨move, -, rfl⟩ := List.mem_map.mp hmem
      show 3 ≤ 4
      omega

/-- What a run did that was stopped. -/
structure Stopped (copyVersionId : String → String) (table : Table) (bucket : Bucket)
    (plan : MigrationPlan) (done : List Step) (mid : Progress) : Prop where
  within : ∀ step ∈ done, IsStep table step
  first : ∀ {step step'}, step ∈ done → IsStep table step' → rank step' < rank step →
    step' ∈ done
  after : After {write | ∃ step ∈ done, write = (rowAt copyVersionId bucket step).write table}
    table mid.table
  copied : CopiedFrom copyVersionId bucket (· ∈ plan.copies) mid.bucket

/-- A run that is stopped made the first of its steps. -/
theorem stopped_of_interrupted (h : Sound copyVersionId table bucket) (hplan : PlanOf table plan)
    (hmoves : plan.secretMoves ≠ []) (hbuild : buildPlan items = .ok plan)
    (hfresh : NoneFresh copyVersionId table) {count : ℕ}
    (hmid : interrupted copyVersionId items count table bucket = .ok mid) :
    ∃ done, Stopped copyVersionId table bucket plan done mid := by
  unfold interrupted at hmid
  rw [hbuild] at hmid
  replace hmid : (plan.steps.take count).foldlM (Step.perform copyVersionId)
    { table, bucket, copies := [] } = .ok mid := hmid
  rw [plan.steps_eq hmoves, List.take_append, ← List.map_take, List.foldlM_append,
    bind_eq_ok] at hmid
  obtain ⟨middle, hcopied, hmoved⟩ := hmid
  obtain ⟨bucket', hbucket, hmiddle⟩ := foldlM_copies.mp hcopied
  rw [List.length_map] at hmoved
  generalize hdone : plan.rest.take (count - plan.copies.length) = done at hmoved
  have hfirst : done <+: plan.rest := hdone ▸ List.take_prefix _ _
  have hwithin : ∀ step ∈ done, IsStep table step := fun step hmem =>
    hplan.mem_rest.mp (hfirst.subset hmem)
  rw [foldlM_rows fun step hmem => not_isCopy_of_isStep (hwithin step hmem)] at hmoved
  obtain ⟨found, hfound, table', htable, hprogress⟩ := hmoved
  subst hmiddle
  -- Rows are moved only once all objects are copied.
  have hrows : found = done.map (rowAt copyVersionId bucket) := by
    by_cases hempty : done = []
    · rw [hempty] at hfound ⊢
      exact (Except.ok.inj hfound).symm
    · have hall : plan.copies.take count = plan.copies := by
        refine List.take_of_length_le ?_
        by_contra hshort
        refine hempty ?_
        rw [← hdone, Nat.sub_eq_zero_of_le (by omega), List.take_zero]
      have hdestination : ∀ {move reference}, IsMove table move →
          reference ∈ referencesOf move →
          destination (plan.copies.map (located copyVersionId bucket)) reference.1 reference.2 =
            destinationAt copyVersionId bucket move reference.1 reference.2 :=
        fun hmove hmem => hplan.destination_eq h.exact h.plannable.requests hmove hmem
      rw [hall] at hfound
      exact ((mapM_rowOf hwithin hdestination).mp hfound).2
  have hsublist : (done.map (rowAt copyVersionId bucket)).Sublist
      (plan.rowSteps copyVersionId bucket) := hfirst.sublist.map _
  have hdistinct : (done.map (rowAt copyVersionId bucket)).Pairwise RowStep.Distinct :=
    hplan.distinct.sublist hsublist
  have hcompatible := (h.rows_compatible hplan).sublist hsublist
  have hgiven : ∀ row ∈ done.map (rowAt copyVersionId bucket), row.Given table :=
    fun row hmem => hplan.given row (hsublist.subset hmem)
  rw [hrows] at htable
  have hend := ((RowStep.foldlM_eq_ok hgiven hdistinct).mp htable).2
  have hwrites : (∅ : Set (Rewrite Key Item)) ∪ {write | write ∈
      (done.map (rowAt copyVersionId bucket)).map fun row => row.write table} =
        {write | ∃ step ∈ done, write = (rowAt copyVersionId bucket step).write table} := by
    rw [Set.empty_union]
    ext write
    simp only [List.map_map, List.mem_map, Set.mem_ofPred_eq, Function.comp, eq_comm]
  have hcoherent : Coherent
      {write | ∃ step ∈ done, write = (rowAt copyVersionId bucket step).write table} := by
    refine (h.coherent hplan).subset ?_
    rintro _ ⟨step, hmem, rfl⟩
    exact ⟨step, hwithin step hmem, rfl⟩
  have hafter := (After.refl table).applyAll (hwrites ▸ hcoherent)
  rw [hwrites, ← hend] at hafter
  refine ⟨done, hwithin, ?_, ?_, ?_⟩
  · intro step step' hmem hstep' hrank
    obtain ⟨others, hothers⟩ := hfirst
    have hmem' := hplan.mem_rest.mpr hstep'
    rw [← hothers] at hmem'
    rcases List.mem_append.mp hmem' with hthere | hlater
    · exact hthere
    · have hsorted := rest_sorted plan
      rw [← hothers] at hsorted
      have hle := (List.pairwise_append.mp hsorted).2.2 step hmem step' hlater
      omega
  · rw [hprogress]
    exact hafter
  · rw [hprogress]
    refine CopiedFrom.refl.foldlM (fun copy hmem => List.mem_of_mem_take hmem) ?_ hbucket
    intro copy hmem
    obtain ⟨move, hrequest⟩ := hplan.copies (List.mem_of_mem_take hmem)
    exact hfresh copy move hrequest

/-- What a stopped run left can be scanned. -/
theorem Stopped.scan {done : List Step} (h : Stopped copyVersionId table bucket plan done mid)
    (hsound : Sound copyVersionId table bucket) (hplan : PlanOf table plan)
    (hscan : Scan table items) : ∃ items', Scan mid.table items' := by
  have hwrites : (∅ : Set (Rewrite Key Item)) ∪ {write | write ∈
      (done.map (rowAt copyVersionId bucket)).map fun row => row.write table} =
        {write | ∃ step ∈ done, write = (rowAt copyVersionId bucket step).write table} := by
    rw [Set.empty_union]
    ext write
    simp only [List.map_map, List.mem_map, Set.mem_ofPred_eq, Function.comp, eq_comm]
  have hcoherent : Coherent
      {write | ∃ step ∈ done, write = (rowAt copyVersionId bucket step).write table} := by
    refine (hsound.coherent hplan).subset ?_
    rintro _ ⟨step, hmem, rfl⟩
    exact ⟨step, h.within step hmem, rfl⟩
  have hafter := (After.refl table).applyAll (hwrites ▸ hcoherent)
  rw [hwrites] at hafter
  rw [h.after.unique hafter]
  refine scan_rows hscan h.within fun step hmem => ?_
  exact hsound.resolvable_step (h.within step hmem)

/-! ## The rows after an interruption -/

/-- What is not of the family of a secret's rows is touched by no move of such a row. -/
theorem write_secret_eq_none {move : SecretMove} (hmove : IsMove table move) {key : Key} {c : Char}
    (hfamily : key.pk.toList[0]? = some c) (hne : c ≠ 'S') :
    (rowAt copyVersionId bucket (.secret move)).write table key = none := by
  simp only [rowAt, RowStep.write_move]
  rw [if_neg (key_ne hfamily hmove.family_target hne),
    if_neg (key_ne hfamily hmove.family_source hne)]

/-- How the head of a secret is moved. -/
def headMove (head : Item) (secretId environment : String) : SecretMove :=
  { source := head, secretId, environment, sourcePk := head.pk
    targetPk := secretPk environment secretId }

/-- The head of a secret is a row to be moved. -/
theorem IsMove.of_headed {head : Item} {secretId environment : String}
    (hstored : table head.key = some head) (hheaded : Headed head secretId environment) :
    IsMove table (headMove head secretId environment) :=
  ⟨hstored, hheaded.pk, ⟨head, hstored, hheaded⟩, rfl, rfl⟩

namespace Stopped

variable {done : List Step} (h : Stopped copyVersionId table bucket plan done mid)
include h

theorem write_mem {step : Step} (hmem : step ∈ done) {key : Key} {value : Option Item}
    (hwrite : (rowAt copyVersionId bucket step).write table key = some value) :
    mid.table key = value :=
  (h.after key).1 _ ⟨step, hmem, rfl⟩ value hwrite

theorem untouched {key : Key}
    (hnone : ∀ step ∈ done, (rowAt copyVersionId bucket step).write table key = none) :
    mid.table key = table key := by
  refine (h.after key).2 ?_
  rintro _ ⟨step, hmem, rfl⟩
  exact hnone step hmem

/-- A row that was moved is gone. -/
theorem source_gone {move : SecretMove} (hmem : .secret move ∈ done) :
    mid.table move.source.key = none := by
  have hmove : IsMove table move := h.within _ hmem
  refine h.write_mem hmem ?_
  rw [← hmove.sourceKey]
  simp only [rowAt, RowStep.write_move]
  have hne : ({ pk := move.sourcePk, sk := move.source.sk } : Key) ≠
      { pk := move.targetPk, sk := move.source.sk } := by
    intro hkey
    have hpk : move.sourcePk = move.targetPk := congrArg Key.pk hkey
    have hlegacy := hmove.legacy
    rw [← hmove.sourcePk, hpk, hmove.targetPk, legacySecretId_secretPk] at hlegacy
    cases hlegacy
  rw [if_neg hne, if_pos trivial]

theorem accessSource_gone {move : AccessMove} (hmem : .access move ∈ done) :
    mid.table move.source.key = none := by
  have hmove : IsAccessMove table move := h.within _ hmem
  refine h.write_mem hmem ?_
  rw [← hmove.sourceKey]
  simp only [rowAt, RowStep.write_move]
  have hne : ({ pk := move.sourcePk, sk := move.sourceSk } : Key) ≠
      { pk := move.sourcePk, sk := move.targetSk } := by
    intro hkey
    have hsk : move.sourceSk = move.targetSk := congrArg Key.sk hkey
    have hlegacy : (legacySecretId move.source.sk).isSome := (of_decide_eq_true hmove.legacy).2
    rw [← hmove.sourceSk, hsk, hmove.targetSk, accessSk, legacySecretId_secretPk] at hlegacy
    cases hlegacy
  rw [if_neg hne, if_pos trivial]

/-- A row that was moved is under its new key. -/
theorem target_put (hsound : Sound copyVersionId table bucket) {move : SecretMove}
    (hmem : .secret move ∈ done) :
    ∃ target, mid.table target.key = some target ∧ target.pk = move.targetPk := by
  have hmove : IsMove table move := h.within _ hmem
  obtain ⟨target, htarget⟩ := hsound.resolvable hmove
  have hkey := (migratedSecretItem_ok htarget).1
  refine ⟨target, h.write_mem hmem ?_, congrArg Key.pk hkey⟩
  simp only [rowAt, RowStep.write_move, targetOf_eq htarget]
  exact if_pos hkey

/-- A row that was not moved is where it was. -/
theorem source_kept {step : Step} (hstep : IsStep table step) (hnot : step ∉ done)
    {sourceKey targetKey : Key} {target : Item}
    (hrow : rowAt copyVersionId bucket step = .move sourceKey targetKey target) :
    mid.table sourceKey = table sourceKey := by
  refine h.untouched fun other hmem => ?_
  have hdistinct : (rowAt copyVersionId bucket other).Distinct (rowAt copyVersionId bucket step) :=
    distinct_of_isStep (h.within other hmem) hstep fun heq => absurd (heq ▸ hmem) hnot
  rw [hrow] at hdistinct
  by_contra htouched
  have hkey := mem_keys_of_write htouched
  cases hother : rowAt copyVersionId bucket other with
  | move sourceKey' targetKey' target' =>
      rw [hother] at hkey hdistinct
      simp only [RowStep.keys, List.mem_cons, List.not_mem_nil, or_false] at hkey
      simp only [RowStep.Distinct] at hdistinct
      rcases hkey with heq | heq
      · exact hdistinct.1 heq.symm
      · exact hdistinct.2.1 heq.symm
  | fill backfill =>
      rw [hother] at hkey hdistinct
      simp only [RowStep.keys, List.mem_singleton] at hkey
      exact hdistinct.1 hkey

theorem secret_kept {move : SecretMove} (hmove : IsMove table move) (hnot : .secret move ∉ done) :
    mid.table move.source.key = some move.source := by
  rw [← hmove.sourceKey]
  have hstep : IsStep table (.secret move) := hmove
  have hkept := h.source_kept hstep hnot rfl
  rw [hkept, hmove.sourceKey]
  exact hmove.stored

theorem access_kept {move : AccessMove} (hmove : IsAccessMove table move)
    (hnot : .access move ∉ done) : mid.table move.source.key = some move.source := by
  rw [← hmove.sourceKey]
  have hstep : IsStep table (.access move) := hmove
  have hkept := h.source_kept hstep hnot rfl
  rw [hkept, hmove.sourceKey]
  exact hmove.stored

theorem not_mem_of_kept {move : SecretMove}
    (hkept : mid.table move.source.key = some move.source) : .secret move ∉ done := fun hmem =>
  absurd (hkept.symm.trans (h.source_gone hmem)) (by simp)

/-- As long as a head is left, only rows of secrets were moved. -/
theorem secret_of_kept {head : Item} {secretId environment : String}
    (hstored : table head.key = some head) (hheaded : Headed head secretId environment)
    (hkept : mid.table head.key = some head) {step : Step} (hmem : step ∈ done) :
    ∃ move, step = .secret move ∧ IsMove table move := by
  have hmove := IsMove.of_headed hstored hheaded
  have hnot : .secret (headMove head secretId environment) ∉ done := h.not_mem_of_kept hkept
  have hrank : ¬ 2 < rank step := by
    intro hlater
    have hle := rank_secret_le (headMove head secretId environment)
    exact hnot (h.first hmem hmove (by omega))
  have hstep := h.within step hmem
  cases step with
  | copy object => exact absurd hstep id
  | secret move => exact ⟨move, rfl, hstep⟩
  | access move => exact absurd (show 2 < 3 by omega) hrank
  | notification backfill => exact absurd (show 2 < 4 by omega) hrank

theorem kept_of_secrets (honly : ∀ step ∈ done, ∃ move, step = .secret move ∧ IsMove table move)
    {key : Key} {c : Char} (hfamily : key.pk.toList[0]? = some c) (hne : c ≠ 'S') :
    mid.table key = table key := by
  refine h.untouched fun step hmem => ?_
  obtain ⟨move, rfl, hmove⟩ := honly step hmem
  exact write_secret_eq_none hmove hfamily hne

/-- A row that was put is no legacy row, so a legacy row that is there was there. -/
theorem stored_of_legacy {item : Item}
    (hstored : mid.table item.key = some item) (hlegacy : isLegacySecretItem item = true) :
    table item.key = some item := by
  rcases h.after.get item.key with ⟨_, ⟨step, hmem, rfl⟩, hwrite⟩ | ⟨-, hsame⟩
  · rw [hstored] at hwrite
    have hnot := (not_legacy_of_put (h.within step hmem) rfl hwrite).1
    rw [hlegacy] at hnot
    cases hnot
  · exact hsame.symm.trans hstored

/-- The heads that are there were there, and no secret got another environment. -/
theorem home {secretId environment : String} :
    InEnvironment mid.table secretId environment ↔
      ∃ head, table head.key = some head ∧ Headed head secretId environment ∧
        mid.table head.key = some head := by
  constructor
  · intro ⟨head, hstored, hheaded⟩
    exact ⟨head, h.stored_of_legacy hstored (isLegacySecretItem_of_eq_some hheaded.pk),
      hheaded, hstored⟩
  · intro ⟨head, _, hheaded, hstored⟩
    exact ⟨head, hstored, hheaded⟩

theorem home_before {secretId environment : String}
    (hhome : InEnvironment mid.table secretId environment) :
    InEnvironment table secretId environment := by
  obtain ⟨head, hstored, hheaded, -⟩ := h.home.mp hhome
  exact ⟨head, hstored, hheaded⟩

theorem move_before {move : SecretMove}
    (hmove : IsMove mid.table move) : IsMove table move ∧ .secret move ∉ done := by
  constructor
  · exact ⟨h.stored_of_legacy hmove.stored (isLegacySecretItem_of_eq_some hmove.legacy),
      hmove.legacy, h.home_before hmove.home, hmove.sourcePk, hmove.targetPk⟩
  · exact h.not_mem_of_kept hmove.stored

/-- A row that is still there has its head there. -/
theorem move_after {move : SecretMove} (hmove : IsMove table move)
    (hnot : .secret move ∉ done) : IsMove mid.table move := by
  have hstored := h.secret_kept hmove hnot
  obtain ⟨head, hheadStored, hheaded⟩ := hmove.home
  refine ⟨hstored, hmove.legacy, ⟨head, ?_, hheaded⟩, hmove.sourcePk, hmove.targetPk⟩
  have hheadMove := IsMove.of_headed hheadStored hheaded
  by_cases hhead : move.source.sk = "HEAD"
  · -- The row is the head.
    have hkey : move.source.key = head.key := by
      rw [hheaded.key]
      exact Key.ext (legacySecretId_eq_some.mp hmove.legacy).1 hhead
    have hsame : move.source = head := Option.some.inj
      (hmove.stored.symm.trans ((congrArg table hkey).trans hheadStored))
    rw [← hsame]
    exact hstored
  · refine h.secret_kept hheadMove fun hmem => hnot ?_
    refine h.first hmem hmove ?_
    have hfirst : isHead move = false := decide_eq_false hhead
    have hsecond : isHead (headMove head move.secretId move.environment) = true :=
      decide_eq_true hheaded.sk
    simp only [rank, hfirst, hsecond]
    decide

theorem isMove_iff {move : SecretMove} :
    IsMove mid.table move ↔ IsMove table move ∧ .secret move ∉ done :=
  ⟨h.move_before, fun hmove => h.move_after hmove.1 hmove.2⟩

end Stopped

/-! ## Where the migration goes on -/

/-- A head that the migration is to move. -/
structure LegacyHead (table : Table) (head : Item) : Prop where
  stored : table head.key = some head
  legacy : isLegacySecretItem head = true
  sk : head.sk = "HEAD"

/-- The migration has a head left to plan with, and finds nothing that it refuses. -/
structure Continuable (before after : Table) : Prop where
  left : ∃ head, LegacyHead before head ∧ after head.key = some head
  unseen : ∀ head, LegacyHead before head → after head.key ≠ some head →
    ∀ environment ∈ head.stringField "environment", '#' ∈ environment.toList
  named : ∀ item, before item.key = some item →
    isLegacyAccessItem item = true ∨ isPendingNotification item = true →
      ∀ secretId ∈ item.stringField "secretId",
        after { pk := "SECRET#" ++ secretId, sk := "HEAD" } ≠ none

theorem LegacyHead.headed (hplannable : Plannable table) {head : Item}
    (hhead : LegacyHead table head) :
    ∃ secretId environment, Headed head secretId environment :=
  hplannable.heads hhead.stored hhead.legacy hhead.sk

theorem LegacyHead.of_headed {head : Item} {secretId environment : String}
    (hstored : table head.key = some head) (hheaded : Headed head secretId environment) :
    LegacyHead table head :=
  ⟨hstored, isLegacySecretItem_of_eq_some hheaded.pk, hheaded.sk⟩

/-- The head of a secret that is named is the row under its key. -/
theorem head_of_key {head : Item} {secretId environment : String}
    (hheaded : Headed head secretId environment) {found : Table}
    (hsome : found { pk := "SECRET#" ++ secretId, sk := "HEAD" } ≠ none) :
    found head.key ≠ none := by
  rw [hheaded.key]
  exact hsome

section Continuing

variable {done : List Step} (h : Stopped copyVersionId table bucket plan done mid)
  (hsound : Sound copyVersionId table bucket) (hcontinuable : Continuable table mid.table)

include h hsound hcontinuable

/-- Nothing but rows of secrets was moved. -/
theorem only_secrets {step : Step} (hmem : step ∈ done) :
    ∃ move, step = .secret move ∧ IsMove table move := by
  obtain ⟨head, hhead, hkept⟩ := hcontinuable.left
  obtain ⟨secretId, environment, hheaded⟩ := hhead.headed hsound.plannable
  exact h.secret_of_kept hhead.stored hheaded hkept hmem

/-- Other rows are as they were. -/
theorem others_kept {key : Key} {c : Char} (hfamily : key.pk.toList[0]? = some c) (hne : c ≠ 'S') :
    mid.table key = table key :=
  h.kept_of_secrets (fun _ hmem => only_secrets h hsound hcontinuable hmem) hfamily hne

omit hsound in
/-- A secret that an access row or a pending notification names is where it was. -/
theorem home_named {item : Item} (hstored : table item.key = some item)
    (hkind : isLegacyAccessItem item = true ∨ isPendingNotification item = true)
    {secretId environment : String} (hid : item.stringField "secretId" = some secretId) :
    InEnvironment mid.table secretId environment ↔ InEnvironment table secretId environment := by
  constructor
  · exact h.home_before
  · intro ⟨head, hheadStored, hheaded⟩
    have hsome := head_of_key hheaded (hcontinuable.named item hstored hkind secretId hid)
    refine ⟨head, h.secret_kept (IsMove.of_headed hheadStored hheaded) fun hmem => ?_, hheaded⟩
    exact hsome (h.source_gone hmem)

theorem isAccessMove_iff {move : AccessMove} :
    IsAccessMove mid.table move ↔ IsAccessMove table move := by
  have hkept : isLegacyAccessItem move.source = true →
      mid.table move.source.key = table move.source.key := fun hlegacy =>
    others_kept h hsound hcontinuable (family_access hlegacy) (by decide)
  constructor
  · intro hmove
    have hstored := (hkept hmove.legacy).symm.trans hmove.stored
    exact { hmove with
      stored := hstored
      home := h.home_before hmove.home }
  · intro hmove
    exact { hmove with
      stored := (hkept hmove.legacy).trans hmove.stored
      home := (home_named h hcontinuable hmove.stored (.inl hmove.legacy)
        hmove.secretId).mpr hmove.home }

theorem isBackfill_iff {backfill : NotificationBackfill} :
    IsBackfill mid.table backfill ↔ IsBackfill table backfill := by
  have hkept : ∀ {item : Item}, isPendingNotification item = true →
      mid.table item.key = table item.key := fun hpending =>
    others_kept h hsound hcontinuable (family_pending hpending) (by decide)
  unfold IsBackfill
  refine exists_congr fun item => exists_congr fun secretId => ?_
  constructor
  · intro ⟨hstored, hpending, heventId, hid, hhome, hnone⟩
    exact ⟨(hkept hpending).symm.trans hstored, hpending, heventId, hid,
      h.home_before hhome, hnone⟩
  · intro ⟨hstored, hpending, heventId, hid, hhome, hnone⟩
    exact ⟨(hkept hpending).trans hstored, hpending, heventId, hid,
      (home_named h hcontinuable hstored (.inr hpending) hid).mpr hhome, hnone⟩

/-- **What is left to do is what was not done.** -/
theorem isStep_iff {step : Step} : IsStep mid.table step ↔ IsStep table step ∧ step ∉ done := by
  have hsecret : ∀ {step : Step}, step ∈ done → ∃ move, step = .secret move := fun hmem => by
    obtain ⟨move, heq, -⟩ := only_secrets h hsound hcontinuable hmem
    exact ⟨move, heq⟩
  cases step with
  | copy object => exact ⟨fun hstep => absurd hstep id, fun hstep => absurd hstep.1 id⟩
  | secret move => exact h.isMove_iff
  | access move =>
      have hnot : .access move ∉ done := fun hmem => by
        obtain ⟨other, heq⟩ := hsecret hmem
        cases heq
      exact (isAccessMove_iff h hsound hcontinuable).trans (and_iff_left hnot).symm
  | notification backfill =>
      have hnot : .notification backfill ∉ done := fun hmem => by
        obtain ⟨other, heq⟩ := hsecret hmem
        cases heq
      exact (isBackfill_iff h hsound hcontinuable).trans (and_iff_left hnot).symm

end Continuing

end Hemlig.Scripts.MigrateSecretIdentity
