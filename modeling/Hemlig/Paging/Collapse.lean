import Mathlib.Data.List.Dedup
import Mathlib.Data.List.Pairwise

/-!
# Collapsing a list by a key

A list is collapsed to one result for each key, picked from the items of that key.  If the
list is split into cells and each cell is collapsed on its own, a key whose items lie in
several cells has several results; where no key does, nothing is lost.
-/

namespace Hemlig.Paging

variable {α β κ : Type} [DecidableEq κ] {key : α → κ} {pick : κ → List α → Option β} {keyOf : β → κ}
  {rows : List α}

/-- The keys of a list, in the order of their first occurrences. -/
def keys (key : α → κ) (rows : List α) : List κ := (rows.map key).reverse.dedup.reverse

/-- The items of a key. -/
def group (key : α → κ) (rows : List α) (k : κ) : List α := rows.filter fun row => key row = k

/-- One result for each key, if one is picked. -/
def collapse (key : α → κ) (pick : κ → List α → Option β) (rows : List α) : List β :=
  (keys key rows).filterMap fun k => pick k (group key rows k)

@[simp] theorem mem_keys {k : κ} : k ∈ keys key rows ↔ ∃ row ∈ rows, key row = k := by
  simp [keys]

theorem nodup_keys (key : α → κ) (rows : List α) : (keys key rows).Nodup := by
  simp [keys, List.nodup_dedup]

@[simp] theorem mem_group {k : κ} {row : α} : row ∈ group key rows k ↔ row ∈ rows ∧ key row = k := by
  simp [group]

theorem mem_collapse {result : β} :
    result ∈ collapse key pick rows ↔
      ∃ row ∈ rows, pick (key row) (group key rows (key row)) = some result := by
  simp [collapse]

/-- A result is picked for each key, and has it. -/
def Keeps (key : α → κ) (pick : κ → List α → Option β) (keyOf : β → κ) : Prop :=
  ∀ rows, ∀ row ∈ rows, (pick (key row) (group key rows (key row))).map keyOf = some (key row)

theorem map_collapse (hkeeps : Keeps key pick keyOf) (rows : List α) :
    (collapse key pick rows).map keyOf = keys key rows := by
  rw [collapse, List.map_filterMap]
  refine (List.filterMap_congr fun k hmem => ?_).trans (List.filterMap_some)
  obtain ⟨row, hrow, rfl⟩ := mem_keys.mp hmem
  exact hkeeps rows row hrow

/-- The items may be changed before they are collapsed. -/
theorem collapse_map {γ : Type} (f : γ → α) (items : List γ) :
    collapse key pick (items.map f) =
      collapse (fun item => key (f item)) (fun k items => pick k (items.map f)) items := by
  have hgroup : ∀ k, group key (items.map f) k =
      (group (fun item => key (f item)) items k).map f := by
    intro k
    simp [group, List.filter_map, Function.comp_def]
  have hkeys : keys key (items.map f) = keys (fun item => key (f item)) items := by
    simp [keys, Function.comp_def]
  simp [collapse, hgroup, hkeys]

/-! ## Cells -/

/-- The cells of a list, each collapsed on its own. -/
def collapseCells (key : α → κ) (pick : κ → List α → Option β) (rows : List α) (cells : List (α → Bool)) :
    List β :=
  cells.flatMap fun cell => collapse key pick (rows.filter cell)

/-- No key has items in both cells. -/
def Apart (key : α → κ) (rows : List α) (cell cell' : α → Bool) : Prop :=
  ∀ row ∈ rows, ∀ row' ∈ rows, cell row = true → cell' row' = true → key row ≠ key row'

instance : Std.Symm (Apart key rows) where
  symm _ _ h row hrow row' hrow' hcell hcell' hkey := h row' hrow' row hrow hcell' hcell hkey.symm

/-- No key has items in two cells. -/
def Undivided (key : α → κ) (rows : List α) (cells : List (α → Bool)) : Prop :=
  cells.Pairwise (Apart key rows)

/-- **The results of the cells have distinct keys exactly if no key is divided.** -/
theorem nodup_collapseCells_iff (hkeeps : Keeps key pick keyOf) {cells : List (α → Bool)} :
    ((collapseCells key pick rows cells).map keyOf).Nodup ↔ Undivided key rows cells := by
  have hmap : (collapseCells key pick rows cells).map keyOf =
      cells.flatMap fun cell => keys key (rows.filter cell) := by
    rw [collapseCells, List.map_flatMap]
    exact congrArg (cells.flatMap ·) (funext fun cell => map_collapse hkeeps _)
  rw [hmap, List.nodup_flatMap]
  simp only [nodup_keys, implies_true, true_and, Undivided]
  refine List.Pairwise.iff fun cell cell' => ?_
  constructor
  · intro hdisjoint row hrow row' hrow' hcell hcell' hkey
    refine hdisjoint (a := key row) (mem_keys.mpr ⟨row, ?_, rfl⟩) (mem_keys.mpr ⟨row', ?_, hkey.symm⟩)
    · exact List.mem_filter.mpr ⟨hrow, hcell⟩
    · exact List.mem_filter.mpr ⟨hrow', hcell'⟩
  · intro hdivided k hmem hmem'
    obtain ⟨row, hrow, rfl⟩ := mem_keys.mp hmem
    obtain ⟨row', hrow', hkey⟩ := mem_keys.mp hmem'
    obtain ⟨hrow, hcell⟩ := List.mem_filter.mp hrow
    obtain ⟨hrow', hcell'⟩ := List.mem_filter.mp hrow'
    exact hdivided row hrow row' hrow' hcell hcell' hkey.symm

/-- A cell holds all items of a key of which it holds one. -/
theorem group_cell {cells : List (α → Bool)} (hundivided : Undivided key rows cells)
    (hcover : ∀ row ∈ rows, ∃ cell ∈ cells, cell row = true) {cell : α → Bool} (hmem : cell ∈ cells)
    {row : α} (hrow : row ∈ rows) (hcell : cell row = true) :
    group key (rows.filter cell) (key row) = group key rows (key row) := by
  rw [group, group, List.filter_filter]
  refine List.filter_congr fun other hother => ?_
  by_cases hkey : key other = key row
  · obtain ⟨cell', hmem', hcell'⟩ := hcover other hother
    have hsame : cell' = cell := by
      by_contra hne
      exact hundivided.forall hmem' hmem hne other hother row hrow hcell' hcell hkey
    simp [hkey, ← hsame, hcell']
  · simp [hkey]

/-- **Where no key is divided, the cells have the results of the whole list.** -/
theorem mem_collapseCells_iff {cells : List (α → Bool)} (hundivided : Undivided key rows cells)
    (hcover : ∀ row ∈ rows, ∃ cell ∈ cells, cell row = true) {result : β} :
    result ∈ collapseCells key pick rows cells ↔ result ∈ collapse key pick rows := by
  simp only [collapseCells, List.mem_flatMap, mem_collapse, List.mem_filter]
  constructor
  · rintro ⟨cell, hmem, row, ⟨hrow, hcell⟩, hpick⟩
    exact ⟨row, hrow, group_cell hundivided hcover hmem hrow hcell ▸ hpick⟩
  · rintro ⟨row, hrow, hpick⟩
    obtain ⟨cell, hmem, hcell⟩ := hcover row hrow
    exact ⟨cell, hmem, row, ⟨hrow, hcell⟩,
      (group_cell hundivided hcover hmem hrow hcell).symm ▸ hpick⟩

end Hemlig.Paging
