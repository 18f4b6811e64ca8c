import Mathlib.Data.List.Nodup
import Mathlib.Data.List.TakeDrop

/-!
# Queries in pages

A query evaluates the rows of a range in their order and keeps some of them.  The store ends a page
where it likes, at the latest at a limit, and then gives the key of the last row it evaluated, from
which the next page goes on.  Rows that are not kept count towards the limit, so that a page can be
empty although others follow.  However the pages are cut, together they hold what is kept, in
order.
-/

namespace Hemlig.Paging

variable {α β κ : Type} [DecidableEq κ] {key : α → κ} {keep : α → Bool} {rows : List α}

/-- Where a page ends: how many rows are evaluated besides the first, and whether a key is given
although no row follows. -/
structure Cut where
  more : ℕ
  trailing : Bool
  deriving DecidableEq, Repr

structure QueryPage (α κ : Type) where
  items : List α
  lastEvaluated : Option κ

/-- The rows behind the one of a key, or all of them. -/
def after (key : α → κ) (rows : List α) : Option κ → List α
  | none => rows
  | some start => (rows.dropWhile fun row => key row ≠ start).tail

def query (key : α → κ) (rows : List α) (keep : α → Bool) (limit : ℕ) (start : Option κ)
    (cut : Cut) : QueryPage α κ :=
  let rest := after key rows start
  let evaluated := rest.take (min limit (cut.more + 1))
  { items := evaluated.filter keep
    lastEvaluated :=
      if evaluated.length < rest.length ∨ cut.trailing then evaluated.getLast?.map key else none }

/-- Asks for page after page until one gives no key; at most `fuel` pages. -/
def follow (next : β → Option κ) (page : Option κ → Cut → β) (cuts : ℕ → Cut) :
    ℕ → Option κ → Option (List β)
  | 0, _ => none
  | fuel + 1, start =>
      let current := page start (cuts fuel)
      match next current with
      | none => some [current]
      | some key => (follow next page cuts fuel (some key)).map (current :: ·)

/-! ## What follows a key -/

theorem after_key {front back : List α} {row : α}
    (hnodup : ((front ++ row :: back).map key).Nodup) :
    after key (front ++ row :: back) (some (key row)) = back := by
  have hfront : ∀ other ∈ front, key other ≠ key row := by
    intro other hother heq
    rw [List.map_append, List.map_cons] at hnodup
    have hdisjoint := (List.nodup_append.mp hnodup).2.2
    exact hdisjoint (key other) (List.mem_map_of_mem hother) (key row) List.mem_cons_self heq
  rw [after, List.dropWhile_append_of_pos fun other hother => by simpa using hfront other hother,
    List.dropWhile_cons_of_neg (by simp), List.tail_cons]

theorem after_suffix (key : α → κ) (rows : List α) (start : Option κ) :
    after key rows start <:+ rows := by
  cases start with
  | none => exact List.suffix_refl rows
  | some start => exact (List.tail_suffix _).trans (List.dropWhile_suffix _)

/-- The key of the last row of a page is followed by what the page left over. -/
theorem after_getLast (hnodup : (rows.map key).Nodup) {rest : List α} (hrest : rest <:+ rows)
    {count : ℕ} {row : α} (hrow : (rest.take count).getLast? = some row) :
    after key rows (some (key row)) = rest.drop count := by
  obtain ⟨before, rfl⟩ := hrest
  obtain ⟨evaluated, hevaluated⟩ := List.getLast?_eq_some_iff.mp hrow
  have hrows : before ++ rest = (before ++ evaluated) ++ row :: rest.drop count := by
    calc before ++ rest
        = before ++ (rest.take count ++ rest.drop count) := by rw [List.take_append_drop]
      _ = before ++ ((evaluated ++ [row]) ++ rest.drop count) := by rw [hevaluated]
      _ = (before ++ evaluated) ++ row :: rest.drop count := by simp
  rw [hrows] at hnodup ⊢
  exact after_key hnodup

/-! ## All the pages -/

/-- A page without a key is the last one. -/
theorem query_last {limit : ℕ} (hlimit : 0 < limit) {start : Option κ} {cut : Cut}
    (hlast : (query key rows keep limit start cut).lastEvaluated = none) :
    (query key rows keep limit start cut).items = (after key rows start).filter keep := by
  simp only [query] at hlast ⊢
  generalize after key rows start = rest at hlast ⊢
  have hcount : 0 < min limit (cut.more + 1) := by omega
  split at hlast
  · -- only a page that evaluates nothing has no last row
    rw [Option.map_eq_none_iff, List.getLast?_eq_none_iff, List.take_eq_nil_iff] at hlast
    have hrest : rest = [] := hlast.resolve_left (by omega)
    rw [hrest, List.take_nil]
  next hfull =>
    have hlength : rest.length ≤ (rest.take (min limit (cut.more + 1))).length :=
      Nat.le_of_not_lt fun hlt => hfull (Or.inl hlt)
    have hall : rest.length ≤ min limit (cut.more + 1) := by
      rw [List.length_take] at hlength
      omega
    rw [List.take_of_length_le hall]

/-- After a page with a key, what is left over is shorter. -/
theorem query_more (hnodup : (rows.map key).Nodup) {limit : ℕ} (hlimit : 0 < limit)
    {start : Option κ} {cut : Cut} {next : κ}
    (hnext : (query key rows keep limit start cut).lastEvaluated = some next) :
    (query key rows keep limit start cut).items ++ (after key rows (some next)).filter keep =
        (after key rows start).filter keep ∧
      (after key rows (some next)).length < (after key rows start).length := by
  simp only [query] at hnext ⊢
  have hsuffix := after_suffix key rows start
  generalize after key rows start = rest at hnext hsuffix ⊢
  have hcount : 0 < min limit (cut.more + 1) := by omega
  split at hnext
  · obtain ⟨row, hrow, rfl⟩ := Option.map_eq_some_iff.mp hnext
    rw [after_getLast hnodup hsuffix hrow]
    refine ⟨by rw [← List.filter_append, List.take_append_drop], ?_⟩
    have hne : rest ≠ [] := by
      rintro rfl
      simp at hrow
    have hpos := List.length_pos_of_ne_nil hne
    rw [List.length_drop]
    omega
  · cases hnext

/-- **However the pages are cut, they hold what is kept.** -/
theorem follow_query (keep : α → Bool) (hnodup : (rows.map key).Nodup) {limit : ℕ} (hlimit : 0 < limit)
    (cuts : ℕ → Cut) {fuel : ℕ} (start : Option κ)
    (hfuel : (after key rows start).length < fuel) :
    ∃ pages, follow (·.lastEvaluated) (query key rows keep limit) cuts fuel start = some pages ∧
      pages.flatMap (·.items) = (after key rows start).filter keep := by
  induction fuel generalizing start with
  | zero => omega
  | succ fuel ih =>
      rw [follow]
      cases hnext : (query key rows keep limit start (cuts fuel)).lastEvaluated with
      | none => exact ⟨_, rfl, by simpa using query_last hlimit hnext⟩
      | some next =>
          obtain ⟨hitems, hshorter⟩ := query_more hnodup hlimit hnext
          obtain ⟨pages, hpages, hflat⟩ := ih (some next) (by omega)
          refine ⟨query key rows keep limit start (cuts fuel) :: pages, ?_, ?_⟩
          · show (follow _ _ cuts fuel (some next)).map _ = _
            rw [hpages]
            rfl
          · rw [List.flatMap_cons, hflat, hitems]

omit [DecidableEq κ] in
/-- Pages may be read in another form. -/
theorem follow_map (next : β → Option κ) (next' : γ → Option κ) {f : β → γ}
    (hnext : ∀ page, next' (f page) = next page) (page : Option κ → Cut → β) (cuts : ℕ → Cut)
    (fuel : ℕ) (start : Option κ) :
    follow next' (fun start cut => f (page start cut)) cuts fuel start =
      (follow next page cuts fuel start).map (List.map f) := by
  induction fuel generalizing start with
  | zero => rfl
  | succ fuel ih =>
      simp only [follow, hnext]
      cases next (page start (cuts fuel)) with
      | none => rfl
      | some key =>
          simp only [ih, Option.map_map]
          rfl

end Hemlig.Paging
