import Mathlib.Data.List.Nodup
import Mathlib.Data.List.Induction
import Mathlib.Data.List.Perm.Basic

/-!
# Counting keys

A table of counts grows with every key it is given.  It has each key once, with the number of times
it was given, and the rows are the disjoint union of the rows of its keys.
-/

namespace Hemlig.Paging

variable {α κ : Type} [DecidableEq κ]

/-- One more of a key. -/
def bump (a : κ) : List (κ × ℕ) → List (κ × ℕ)
  | [] => [(a, 1)]
  | (b, n) :: entries => if b = a then (b, n + 1) :: entries else (b, n) :: bump a entries

def tally (keys : List κ) : List (κ × ℕ) := keys.foldl (fun entries a => bump a entries) []

theorem tally_concat (keys : List κ) (a : κ) : tally (keys ++ [a]) = bump a (tally keys) := by
  simp [tally]

theorem keys_bump (a : κ) (entries : List (κ × ℕ)) :
    (bump a entries).map Prod.fst =
      if a ∈ entries.map Prod.fst then entries.map Prod.fst
      else entries.map Prod.fst ++ [a] := by
  induction entries with
  | nil => rfl
  | cons entry entries ih =>
      obtain ⟨b, n⟩ := entry
      unfold bump
      by_cases hb : b = a
      · subst hb
        simp
      · rw [if_neg hb, List.map_cons, ih]
        have hab : a ≠ b := fun h => hb h.symm
        by_cases hmem : a ∈ entries.map Prod.fst
        · simp [hmem, hab]
        · simp only [List.map_cons, List.mem_cons, hab, hmem, or_self, if_false,
            List.cons_append]

theorem mem_bump {a b : κ} {n : ℕ} {entries : List (κ × ℕ)}
    (hnodup : (entries.map Prod.fst).Nodup) (hmem : (b, n) ∈ bump a entries) :
    (b ≠ a ∧ (b, n) ∈ entries) ∨
      (b = a ∧ ((a ∉ entries.map Prod.fst ∧ n = 1) ∨ ∃ m, (a, m) ∈ entries ∧ n = m + 1)) := by
  induction entries with
  | nil =>
      obtain ⟨rfl, rfl⟩ := Prod.mk.inj (List.mem_singleton.mp hmem)
      exact Or.inr ⟨rfl, Or.inl ⟨by simp, rfl⟩⟩
  | cons entry entries ih =>
      obtain ⟨c, k⟩ := entry
      obtain ⟨hc, hrest⟩ := List.nodup_cons.mp hnodup
      unfold bump at hmem
      by_cases hca : c = a
      · subst hca
        rw [if_pos rfl] at hmem
        rcases List.mem_cons.mp hmem with heq | hmem
        · obtain ⟨rfl, rfl⟩ := Prod.mk.inj heq
          exact Or.inr ⟨rfl, Or.inr ⟨k, List.mem_cons_self, rfl⟩⟩
        · have hkey : b ∈ entries.map Prod.fst := List.mem_map_of_mem hmem
          have hbc : b ≠ c := fun h => hc (h ▸ hkey)
          exact Or.inl ⟨hbc, List.mem_cons_of_mem _ hmem⟩
      · rw [if_neg hca] at hmem
        rcases List.mem_cons.mp hmem with heq | hmem
        · obtain ⟨rfl, rfl⟩ := Prod.mk.inj heq
          exact Or.inl ⟨hca, List.mem_cons_self⟩
        · rcases ih hrest hmem with ⟨hba, hold⟩ | ⟨rfl, ⟨hnew, rfl⟩ | ⟨m, hold, rfl⟩⟩
          · exact Or.inl ⟨hba, List.mem_cons_of_mem _ hold⟩
          · refine Or.inr ⟨rfl, Or.inl ⟨?_, rfl⟩⟩
            rw [List.map_cons, List.mem_cons]
            rintro (heq | hmem')
            · exact hca heq.symm
            · exact hnew hmem'
          · exact Or.inr ⟨rfl, Or.inr ⟨m, List.mem_cons_of_mem _ hold, rfl⟩⟩

/-- The keys of the table are the given ones, each once. -/
theorem keys_tally (keys : List κ) :
    ((tally keys).map Prod.fst).Nodup ∧ ∀ a, a ∈ (tally keys).map Prod.fst ↔ a ∈ keys := by
  induction keys using List.reverseRecOn with
  | nil => simp [tally]
  | append_singleton keys a ih =>
      obtain ⟨hnodup, hkeys⟩ := ih
      rw [tally_concat, keys_bump]
      by_cases hmem : a ∈ (tally keys).map Prod.fst
      · rw [if_pos hmem]
        refine ⟨hnodup, fun b => ?_⟩
        rw [hkeys, List.mem_append, List.mem_singleton]
        constructor
        · exact Or.inl
        · rintro (hb | rfl)
          · exact hb
          · exact (hkeys b).mp hmem
      · rw [if_neg hmem]
        refine ⟨List.nodup_append.mpr ⟨hnodup, List.nodup_singleton a, ?_⟩, fun b => ?_⟩
        · intro b hb c hc hbc
          rw [List.mem_singleton.mp hc] at hbc
          exact hmem (hbc ▸ hb)
        · rw [List.mem_append, List.mem_append, hkeys]

/-- **A key is counted as often as it was given.** -/
theorem count_tally {keys : List κ} {a : κ} {n : ℕ} (hmem : (a, n) ∈ tally keys) :
    n = keys.count a := by
  induction keys using List.reverseRecOn generalizing a n with
  | nil => simp [tally] at hmem
  | append_singleton keys b ih =>
      obtain ⟨hnodup, hkeys⟩ := keys_tally keys
      rw [tally_concat] at hmem
      rw [List.count_append, List.count_singleton]
      rcases mem_bump hnodup hmem with ⟨hab, hold⟩ | ⟨rfl, ⟨hnew, rfl⟩ | ⟨m, hold, rfl⟩⟩
      · have hba : (b == a) = false := by simpa using fun h : b = a => hab h.symm
        rw [ih hold, hba]
        rfl
      · have hzero : keys.count a = 0 := List.count_eq_zero.mpr fun h => hnew ((hkeys a).mpr h)
        rw [hzero]
        simp
      · rw [ih hold]
        simp

/-- The rows are the disjoint union of the rows of each key. -/
theorem perm_flatMap_filter {key : α → κ} {keys : List κ} (hnodup : keys.Nodup) {rows : List α}
    (hkeys : ∀ row ∈ rows, key row ∈ keys) :
    rows.Perm (keys.flatMap fun a => rows.filter fun row => key row = a) := by
  induction keys generalizing rows with
  | nil =>
      have hrows : rows = [] := List.eq_nil_iff_forall_not_mem.mpr fun row hrow => by
        simpa using hkeys row hrow
      rw [hrows]
      rfl
  | cons a keys ih =>
      obtain ⟨ha, hnodup⟩ := List.nodup_cons.mp hnodup
      have hothers : ∀ row ∈ rows.filter (fun row => ¬ key row = a), key row ∈ keys := by
        intro row hrow
        obtain ⟨hrow, hne⟩ := List.mem_filter.mp hrow
        exact (List.mem_cons.mp (hkeys row hrow)).resolve_left (by simpa using hne)
      have hsame : ∀ b ∈ keys, (rows.filter fun row => ¬ key row = a).filter (fun row => key row = b) =
          rows.filter fun row => key row = b := by
        intro b hb
        rw [List.filter_filter]
        refine List.filter_congr fun row _ => ?_
        have hba : b ≠ a := fun h => ha (h ▸ hb)
        by_cases hrow : key row = b
        · simp [hrow, hba]
        · simp [hrow]
      have hsplit := List.filter_append_perm (fun row => decide (key row = a)) rows
      have hrest : (rows.filter fun row => ¬ key row = a).Perm
          (keys.flatMap fun b => rows.filter fun row => key row = b) := by
        refine (ih hnodup hothers).trans (List.Perm.of_eq ?_)
        exact List.flatMap_congr hsame
      rw [List.flatMap_cons]
      refine (hsplit.symm.trans ?_)
      refine List.Perm.append_left _ ?_
      simpa using hrest

end Hemlig.Paging
