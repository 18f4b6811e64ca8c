import Mathlib.Data.Set.Insert
import Mathlib.Logic.Relation

/-!
# Rewriting a table in steps that can be resumed

A write gives values to some keys, or takes them away, whatever is stored there.  Writes that
agree wherever two of them touch the same key can be made in any order, and any of them again:
the table that results is determined by the set of those that were made (`After`).

So a program that plans its writes from the table it finds can be stopped after any of them and
started again, as long as what it plans on a table that it left is part of one coherent set,
and with what was made already is all of it (`Planned`).
-/

namespace Hemlig.Store

variable {K V : Type}

/-- What a write does to each key: nothing, or leave a value or none there. -/
abbrev Rewrite (K V : Type) := K → Option (Option V)

namespace Rewrite

def apply (write : Rewrite K V) (table : K → Option V) : K → Option V := fun key =>
  (write key).getD (table key)

def applyAll (writes : List (Rewrite K V)) (table : K → Option V) : K → Option V :=
  writes.foldl (fun table write => write.apply table) table

@[simp] theorem applyAll_nil (table : K → Option V) : applyAll [] table = table := rfl

@[simp] theorem applyAll_cons (write : Rewrite K V) (writes : List (Rewrite K V))
    (table : K → Option V) :
    applyAll (write :: writes) table = applyAll writes (write.apply table) := rfl

theorem apply_of_some {write : Rewrite K V} {table : K → Option V} {key : K} {value : Option V}
    (h : write key = some value) : write.apply table key = value := by
  rw [apply, h, Option.getD_some]

theorem apply_of_none {write : Rewrite K V} {table : K → Option V} {key : K}
    (h : write key = none) : write.apply table key = table key := by
  rw [apply, h, Option.getD_none]

theorem applyAll_append (writes writes' : List (Rewrite K V)) (table : K → Option V) :
    applyAll (writes ++ writes') table = applyAll writes' (applyAll writes table) :=
  List.foldl_append

/-- A key that holds nothing, and that no write puts anything under, holds nothing after. -/
theorem applyAll_eq_none {writes : List (Rewrite K V)} {table : K → Option V} {key : K}
    (hnone : table key = none) (h : ∀ write ∈ writes, ∀ value, write key ≠ some (some value)) :
    applyAll writes table key = none := by
  induction writes generalizing table with
  | nil => exact hnone
  | cons write writes ih =>
      have hnext : write.apply table key = none := by
        cases hvalue : write key with
        | none => rw [apply_of_none hvalue, hnone]
        | some value =>
            rw [apply_of_some hvalue]
            cases value with
            | none => rfl
            | some found => exact absurd hvalue (h write List.mem_cons_self found)
      exact ih hnext fun other hother => h other (List.mem_cons_of_mem _ hother)

/-- A key that no write touches keeps its value. -/
theorem applyAll_of_none {writes : List (Rewrite K V)} {key : K}
    (h : ∀ write ∈ writes, write key = none) (table : K → Option V) :
    applyAll writes table key = table key := by
  induction writes generalizing table with
  | nil => rfl
  | cons write writes ih =>
      rw [applyAll_cons, ih fun other hother => h other (List.mem_cons_of_mem _ hother)]
      exact apply_of_none (h write List.mem_cons_self)

/-- The writes agree wherever two of them touch the same key. -/
def Coherent (writes : Set (Rewrite K V)) : Prop :=
  ∀ write ∈ writes, ∀ write' ∈ writes, ∀ key value value',
    write key = some value → write' key = some value' → value = value'

theorem Coherent.subset {writes writes' : Set (Rewrite K V)} (h : Coherent writes')
    (hsubset : writes ⊆ writes') : Coherent writes :=
  fun write hwrite write' hwrite' => h write (hsubset hwrite) write' (hsubset hwrite')

/-- The table after some writes were made, in any order and any number of times. -/
def After (done : Set (Rewrite K V)) (table table' : K → Option V) : Prop :=
  ∀ key, (∀ write ∈ done, ∀ value, write key = some value → table' key = value) ∧
    ((∀ write ∈ done, write key = none) → table' key = table key)

variable {done done' : Set (Rewrite K V)} {table table' table'' : K → Option V}

theorem After.refl (table : K → Option V) : After ∅ table table :=
  fun _ => ⟨fun _ h => absurd h (Set.notMem_empty _), fun _ => rfl⟩

/-- One more write. -/
theorem After.insert {write : Rewrite K V} (h : After done table table')
    (hcoherent : Coherent (Insert.insert write done)) :
    After (Insert.insert write done) table (write.apply table') := by
  intro key
  constructor
  · intro write' hwrite' value hvalue
    cases hkey : write key with
    | some found =>
        have hsame : value = found := hcoherent write' hwrite' write (Set.mem_insert _ _) key value
          found hvalue hkey
        rw [apply_of_some hkey, hsame]
    | none =>
        rcases hwrite' with rfl | hwrite'
        · exact absurd (hkey.symm.trans hvalue) (by simp)
        · rw [apply_of_none hkey]
          exact (h key).1 write' hwrite' value hvalue
  · intro hnone
    rw [apply_of_none (hnone write (Set.mem_insert _ _))]
    exact (h key).2 fun write' hwrite' => hnone write' (Set.mem_insert_of_mem _ hwrite')

/-- More writes. -/
theorem After.applyAll {writes : List (Rewrite K V)} (h : After done table table')
    (hcoherent : Coherent (done ∪ {write | write ∈ writes})) :
    After (done ∪ {write | write ∈ writes}) table (applyAll writes table') := by
  induction writes generalizing done table' with
  | nil =>
      have hsame : done ∪ {write | write ∈ ([] : List (Rewrite K V))} = done := by simp
      rw [hsame]
      exact h
  | cons write writes ih =>
      have hsame : done ∪ {other | other ∈ write :: writes} =
          Insert.insert write done ∪ {other | other ∈ writes} := by
        ext other
        simp only [List.mem_cons, Set.mem_union, Set.mem_ofPred_eq, Set.mem_insert_iff]
        grind
      rw [hsame] at hcoherent ⊢
      exact ih (h.insert (hcoherent.subset Set.subset_union_left)) hcoherent

/-- Writes made after others. -/
theorem After.trans (h : After done table table') (h' : After done' table' table'')
    (hcoherent : Coherent (done ∪ done')) : After (done ∪ done') table table'' := by
  intro key
  constructor
  · intro write hwrite value hvalue
    by_cases htouched : ∃ write' ∈ done', ∃ value', write' key = some value'
    · obtain ⟨write', hwrite', value', hvalue'⟩ := htouched
      rw [(h' key).1 write' hwrite' value' hvalue']
      exact (hcoherent write hwrite write' (Set.mem_union_right _ hwrite') key value value' hvalue
        hvalue').symm
    · have hnone : ∀ write' ∈ done', write' key = none := by
        intro write' hwrite'
        cases hkey : write' key with
        | none => rfl
        | some value' => exact absurd ⟨write', hwrite', value', hkey⟩ htouched
      rcases hwrite with hwrite | hwrite
      · rw [(h' key).2 hnone]
        exact (h key).1 write hwrite value hvalue
      · exact absurd ((hnone write hwrite).symm.trans hvalue) (by simp)
  · intro hnone
    rw [(h' key).2 fun write hwrite => hnone write (Set.mem_union_right _ hwrite),
      (h key).2 fun write hwrite => hnone write (Set.mem_union_left _ hwrite)]

/-- **The writes that were made determine the table.** -/
theorem After.unique (h : After done table table') (h' : After done table table'') :
    table' = table'' := by
  funext key
  by_cases htouched : ∃ write ∈ done, ∃ value, write key = some value
  · obtain ⟨write, hwrite, value, hvalue⟩ := htouched
    rw [(h key).1 write hwrite value hvalue, (h' key).1 write hwrite value hvalue]
  · have hnone : ∀ write ∈ done, write key = none := by
      intro write hwrite
      cases hkey : write key with
      | none => rfl
      | some value => exact absurd ⟨write, hwrite, value, hkey⟩ htouched
    rw [(h key).2 hnone, (h' key).2 hnone]

/-- A key after the writes was written, or is as it was. -/
theorem After.get (h : After done table table') (key : K) :
    (∃ write ∈ done, write key = some (table' key)) ∨
      (∀ write ∈ done, write key = none) ∧ table' key = table key := by
  by_cases htouched : ∃ write ∈ done, ∃ value, write key = some value
  · obtain ⟨write, hwrite, value, hvalue⟩ := htouched
    exact .inl ⟨write, hwrite, by rw [hvalue, (h key).1 write hwrite value hvalue]⟩
  · refine .inr ⟨?_, ?_⟩
    · intro write hwrite
      cases hkey : write key with
      | none => rfl
      | some value => exact absurd ⟨write, hwrite, value, hkey⟩ htouched
    · refine (h key).2 fun write hwrite => ?_
      cases hkey : write key with
      | none => rfl
      | some value => exact absurd ⟨write, hwrite, value, hkey⟩ htouched

end Rewrite

/-! ## Programs that plan their writes -/

open Rewrite

section Plans

-- `Plans table writes`: on this table the program makes these writes, in this order.
variable (Plans : (K → Option V) → List (Rewrite K V) → Prop)

/-- The program was started, and stopped after any of its writes. -/
def Stopped (table table' : K → Option V) : Prop :=
  ∃ writes count, Plans table writes ∧ table' = applyAll (writes.take count) table

/-- On every table that some of the writes lead to, the program plans writes of the set, and
all of those that were not made. -/
structure Planned (writes : Set (Rewrite K V)) (table : K → Option V) : Prop where
  coherent : Coherent writes
  within : ∀ {done table' planned}, done ⊆ writes → After done table table' →
    Plans table' planned → ∀ write ∈ planned, write ∈ writes
  rest : ∀ {done table' planned}, done ⊆ writes → After done table table' →
    Plans table' planned → ∀ write ∈ writes, write ∈ done ∨ write ∈ planned

variable {Plans} {writes : Set (Rewrite K V)} {table table' : K → Option V}

/-- What was made however often the program was stopped. -/
theorem Planned.stopped (h : Planned Plans writes table)
    (hstopped : Relation.ReflTransGen (Stopped Plans) table table') :
    ∃ done ⊆ writes, After done table table' := by
  induction hstopped with
  | refl => exact ⟨∅, Set.empty_subset _, After.refl table⟩
  | tail hstopped hnext ih =>
      obtain ⟨done, hdone, hafter⟩ := ih
      obtain ⟨planned, count, hplans, rfl⟩ := hnext
      have hsubset : done ∪ {write | write ∈ planned.take count} ⊆ writes := by
        refine Set.union_subset hdone fun write hwrite => ?_
        exact h.within hdone hafter hplans write (List.mem_of_mem_take hwrite)
      exact ⟨_, hsubset, hafter.applyAll (h.coherent.subset hsubset)⟩

/-- **However often it was stopped, the program ends with all writes made.** -/
theorem Planned.completes (h : Planned Plans writes table)
    (hstopped : Relation.ReflTransGen (Stopped Plans) table table')
    {planned : List (Rewrite K V)} (hplans : Plans table' planned) :
    After writes table (applyAll planned table') := by
  obtain ⟨done, hdone, hafter⟩ := h.stopped hstopped
  have hall : done ∪ {write | write ∈ planned} = writes := by
    ext write
    constructor
    · rintro (hmem | hmem)
      · exact hdone hmem
      · exact h.within hdone hafter hplans write hmem
    · exact h.rest hdone hafter hplans write
  have hend := hafter.applyAll (h.coherent.subset hall.subset)
  rwa [hall] at hend

end Plans

end Hemlig.Store
