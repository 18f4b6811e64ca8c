import Mathlib.Data.List.Basic
import Mathlib.Data.List.TakeWhile

/-!
# Segments

Texts whose segments stand between separators: which of them begin with another one up to a
separator, and what their first and last segments are.
-/

namespace Hemlig.Text

variable {α : Type} {sep : α}

/-- What stands before the start of a longer text is in the first part of it, or goes beyond. -/
theorem prefix_append_cases {start front back : List α} (h : start <+: front ++ back) :
    start <+: front ∨ ∃ rest, rest ≠ [] ∧ start = front ++ rest ∧ rest <+: back := by
  rcases List.prefix_or_prefix_of_prefix h (List.prefix_append front back) with hstart | ⟨rest, rfl⟩
  · exact Or.inl hstart
  · have hrest : rest <+: back := (List.prefix_append_right_inj front).mp h
    by_cases hnil : rest = []
    · exact Or.inl (by simp [hnil])
    · exact Or.inr ⟨rest, hnil, rfl, hrest⟩

/-- A text that goes beyond the first part has the character that follows it. -/
theorem prefix_of_not_mem {start front back : List α} {c : α} (hc : c ∉ start)
    (h : start <+: front ++ c :: back) : start <+: front := by
  refine (prefix_append_cases h).resolve_right ?_
  intro ⟨rest, hne, heq, hrest⟩
  obtain ⟨d, rest, rfl⟩ := List.exists_cons_of_ne_nil hne
  obtain ⟨rfl, -⟩ := List.cons_prefix_cons.mp hrest
  exact hc (heq ▸ List.mem_append_right _ List.mem_cons_self)

/-- What ends with a separator does not end within the last segment. -/
theorem prefix_of_leaf {start folder leaf : List α} (hleaf : sep ∉ leaf)
    (h : start ++ [sep] <+: folder ++ sep :: leaf) : start ++ [sep] <+: folder ++ [sep] := by
  have hsplit : folder ++ sep :: leaf = (folder ++ [sep]) ++ leaf := by simp
  rw [hsplit] at h
  refine (prefix_append_cases h).resolve_right ?_
  intro ⟨rest, hne, heq, hrest⟩
  have hlast : rest.getLast hne = sep := by
    have := congrArg List.getLast? heq
    rw [List.getLast?_concat, List.getLast?_append, List.getLast?_eq_some_getLast hne] at this
    exact (Option.some.inj this).symm
  exact hleaf (hrest.subset (hlast ▸ List.getLast_mem hne))

variable [DecidableEq α]

/-- A text with a separator has a last segment. -/
theorem exists_leaf {text : List α} (h : sep ∈ text) :
    ∃ folder leaf, text = folder ++ sep :: leaf ∧ sep ∉ leaf := by
  induction text with
  | nil => cases h
  | cons c rest ih =>
      by_cases hrest : sep ∈ rest
      · obtain ⟨folder, leaf, rfl, hleaf⟩ := ih hrest
        exact ⟨c :: folder, leaf, rfl, hleaf⟩
      · obtain rfl : sep = c := (List.mem_cons.mp h).resolve_right hrest
        exact ⟨[], rest, rfl, hrest⟩

/-- The first segment is found in whatever stands before a separator. -/
theorem takeWhile_append_cons (front back : List α) :
    (front ++ sep :: back).takeWhile (· ≠ sep) = front.takeWhile (· ≠ sep) := by
  induction front with
  | nil => simp
  | cons c front ih =>
      by_cases hc : c = sep
      · simp [hc]
      · simp only [List.cons_append, List.takeWhile_cons, ih]

/-- A first segment is what stands before a separator and has none. -/
theorem takeWhile_eq_iff {text segment : List α} (h : sep ∈ text) :
    text.takeWhile (· ≠ sep) = segment ↔ sep ∉ segment ∧ segment ++ [sep] <+: text := by
  constructor
  · rintro rfl
    refine ⟨fun hmem => by simpa using List.mem_takeWhile_imp hmem, ?_⟩
    have hdrop : text.dropWhile (· ≠ sep) ≠ [] := by
      intro hnil
      have := List.dropWhile_eq_nil_iff.mp hnil sep h
      simp at this
    obtain ⟨c, rest, hrest⟩ := List.exists_cons_of_ne_nil hdrop
    have hc : c = sep := by
      have hfound := List.head?_dropWhile_not (fun c => decide (c ≠ sep)) text
      rw [hrest] at hfound
      simpa using hfound
    subst hc
    refine ⟨rest, ?_⟩
    calc text.takeWhile (· ≠ c) ++ [c] ++ rest
        = text.takeWhile (· ≠ c) ++ (c :: rest) := by simp
      _ = text.takeWhile (· ≠ c) ++ text.dropWhile (· ≠ c) := by rw [hrest]
      _ = text := List.takeWhile_append_dropWhile
  · intro ⟨hsegment, rest, htext⟩
    have hall : ∀ c ∈ segment, decide (c ≠ sep) = true := by
      intro c hc
      exact decide_eq_true fun h => hsegment (h ▸ hc)
    rw [← htext, List.append_assoc, List.singleton_append, takeWhile_append_cons,
      List.takeWhile_eq_self_iff.mpr hall]

/-- The induction is over the characters; the first segment grows with each that is no separator. -/
theorem mem_of_splitOn {P : α → Prop} {text : List α}
    (h : ∀ segment ∈ text.splitOn sep, ∀ c ∈ segment, P c) : ∀ c ∈ text, P c ∨ c = sep := by
  induction text with
  | nil => exact List.forall_mem_nil _
  | cons c rest ih =>
      rw [List.splitOn_cons_eq_if_modifyHead] at h
      by_cases hsep : c = sep
      · rw [if_pos (by simp [hsep])] at h
        exact List.forall_mem_cons.mpr ⟨.inr hsep, ih (List.forall_mem_cons.mp h).2⟩
      · rw [if_neg (by simp [hsep])] at h
        cases hsplit : rest.splitOn sep with
        | nil => exact absurd hsplit (List.splitOn_ne_nil _ _)
        | cons segment segments =>
            rw [hsplit, List.modifyHead_cons] at h
            obtain ⟨hsegment, hsegments⟩ := List.forall_mem_cons.mp h
            obtain ⟨hc, hrest⟩ := List.forall_mem_cons.mp hsegment
            rw [hsplit] at ih
            exact List.forall_mem_cons.mpr
              ⟨.inl hc, ih (List.forall_mem_cons.mpr ⟨hrest, hsegments⟩)⟩

end Hemlig.Text
