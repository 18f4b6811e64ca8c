import Hemlig.Json.RoundTrip
import Hemlig.Json.WellFormed

/-!
# Stable texts of values

`stableJson` sorts the entries of every object by their keys before the value is written.  The
sorted entries make an object that is enumerated in yet another order, array indices first.
What matters is only that this order depends on the set of entries: values that are the same but
for the order of entries are sorted into one value.

`String.prototype.localeCompare` is a parameter, which is assumed to be a total order of the keys
in question (`Collates`).
-/

namespace Hemlig.Util.Encoding

open Text Json

/-! ## Sorting by some of the elements' order -/

section Sorting

variable {α : Type} {le : α → α → Bool} {items items' : List α}

/-- The order need not be total on other elements than those of the list. -/
theorem pairwise_mergeSort_of_mem
    (htrans : ∀ a ∈ items, ∀ b ∈ items, ∀ c ∈ items, le a b → le b c → le a c)
    (htotal : ∀ a ∈ items, ∀ b ∈ items, le a b || le b a) :
    (items.mergeSort le).Pairwise fun a b => le a b := by
  let le' : {a // a ∈ items} → {a // a ∈ items} → Bool := fun a b => le a b
  have htrans' : ∀ a b c, le' a b → le' b c → le' a c := fun a b c =>
    htrans a a.2 b b.2 c c.2
  have htotal' : ∀ a b, le' a b || le' b a := fun a b => htotal a a.2 b b.2
  have hsorted := List.pairwise_mergeSort htrans' htotal' items.attach
  have hmap : (items.attach.mergeSort le').map Subtype.val = items.mergeSort le := by
    rw [List.map_mergeSort (s := le) fun _ _ _ _ => rfl, List.attach_map_subtype_val]
  rw [← hmap, List.pairwise_map]
  exact hsorted

/-- Lists of the same elements are sorted into the same list. -/
theorem mergeSort_eq_of_perm (hperm : items.Perm items')
    (htrans : ∀ a ∈ items, ∀ b ∈ items, ∀ c ∈ items, le a b → le b c → le a c)
    (htotal : ∀ a ∈ items, ∀ b ∈ items, le a b || le b a)
    (hantisymm : ∀ a ∈ items, ∀ b ∈ items, le a b → le b a → a = b) :
    items.mergeSort le = items'.mergeSort le := by
  have hmem : ∀ {a}, a ∈ items' → a ∈ items := fun h => hperm.mem_iff.mpr h
  have hsorted := pairwise_mergeSort_of_mem htrans htotal
  have hsorted' : (items'.mergeSort le).Pairwise fun a b => le a b :=
    pairwise_mergeSort_of_mem
      (fun a ha b hb c hc => htrans a (hmem ha) b (hmem hb) c (hmem hc))
      (fun a ha b hb => htotal a (hmem ha) b (hmem hb))
  have hsame : (items.mergeSort le).Perm (items'.mergeSort le) :=
    (List.mergeSort_perm _ _).trans (hperm.trans (List.mergeSort_perm _ _).symm)
  have hunique : ∀ a b, a ∈ items.mergeSort le → b ∈ items'.mergeSort le →
      le a b → le b a → a = b := fun a b ha hb =>
    hantisymm a ((List.mergeSort_perm _ _).mem_iff.mp ha) b
      (hmem ((List.mergeSort_perm _ _).mem_iff.mp hb))
  exact List.Perm.eq_of_pairwise hunique hsorted hsorted' hsame

end Sorting

/-! ## The functions -/

section Functions

variable (localeCompare : JsString → JsString → ℤ)

/-- The entries by the order of their keys. -/
def sortEntries {α : Type} (entries : Entries α) : Entries α :=
  entries.mergeSort fun left right => localeCompare left.1 right.1 ≤ 0

mutual

/-- The order of the entries depends on their keys alone, so nested values are sorted first
(`sortValue_object`). -/
def sortValue : Value → Value
  | .array values => .array (sortAll values)
  | .object entries =>
      .object (sortEntries localeCompare (sortNested entries).enumerate).fromEntries
  | .null => .null
  | .bool value => .bool value
  | .number value => .number value
  | .string text => .string text

def sortAll : List Value → List Value
  | [] => []
  | value :: rest => sortValue value :: sortAll rest

def sortNested : Entries Value → Entries Value
  | [] => []
  | (key, value) :: rest => (key, sortValue value) :: sortNested rest

end

def stableJson (value : Value) : JsString := stringify 0 (sortValue localeCompare value)

theorem sortEntries_mapValues {α β : Type} (f : α → β) (entries : Entries α) :
    sortEntries localeCompare (entries.mapValues f) =
      (sortEntries localeCompare entries).mapValues f := by
  unfold sortEntries Entries.mapValues
  rw [List.map_mergeSort]
  exact fun _ _ _ _ => rfl

theorem sortValue_array (values : List Value) :
    sortValue localeCompare (.array values) = .array (values.map (sortValue localeCompare)) := by
  have hall : sortAll localeCompare values = values.map (sortValue localeCompare) := by
    induction values with
    | nil => rfl
    | cons value rest ih => rw [sortAll, ih, List.map_cons]
  rw [sortValue, hall]

theorem sortNested_eq (entries : Entries Value) :
    sortNested localeCompare entries = entries.mapValues (sortValue localeCompare) := by
  induction entries with
  | nil => rfl
  | cons entry rest ih =>
      rw [sortNested, ih]
      rfl

/-- `Object.entries`, sorted, with nested values sorted, are made an object. -/
theorem sortValue_object (entries : Entries Value) :
    sortValue localeCompare (.object entries) =
      .object ((sortEntries localeCompare entries.enumerate).mapValues
        (sortValue localeCompare)).fromEntries := by
  rw [sortValue, sortNested_eq, Entries.enumerate_mapValues, sortEntries_mapValues]

end Functions

/-! ## What is assumed of the order of keys -/

/-- The comparison is a total order of the keys, and zero only for equal keys. -/
structure Collates (localeCompare : JsString → JsString → ℤ) (K : Set JsString) : Prop where
  eq_of_zero : ∀ a ∈ K, ∀ b ∈ K, localeCompare a b = 0 → a = b
  swap : ∀ a ∈ K, ∀ b ∈ K, localeCompare a b < 0 ↔ 0 < localeCompare b a
  trans : ∀ a ∈ K, ∀ b ∈ K, ∀ c ∈ K,
    localeCompare a b ≤ 0 → localeCompare b c ≤ 0 → localeCompare a c ≤ 0

variable {localeCompare : JsString → JsString → ℤ} {K : Set JsString}

namespace Collates

theorem total (h : Collates localeCompare K) {a b : JsString} (ha : a ∈ K) (hb : b ∈ K) :
    localeCompare a b ≤ 0 ∨ localeCompare b a ≤ 0 := by
  have hswap := h.swap b hb a ha
  omega

theorem antisymm (h : Collates localeCompare K) {a b : JsString} (ha : a ∈ K) (hb : b ∈ K)
    (hab : localeCompare a b ≤ 0) (hba : localeCompare b a ≤ 0) : a = b := by
  have hswap := h.swap a ha b hb
  exact h.eq_of_zero a ha b hb (by omega)

end Collates

theorem mem_of_mem_keys {α : Type} {entries : Entries α} (hkeys : ∀ key ∈ entries.keys, key ∈ K)
    {entry : JsString × α} (h : entry ∈ entries) : entry.1 ∈ K :=
  hkeys _ (List.mem_map_of_mem h)

/-- The same entries in another order are sorted into the same ones. -/
theorem sortEntries_eq_of_perm {α : Type} (horder : Collates localeCompare K)
    {entries entries' : Entries α} (hperm : entries.Perm entries') (hnodup : entries.keys.Nodup)
    (hkeys : ∀ key ∈ entries.keys, key ∈ K) :
    sortEntries localeCompare entries = sortEntries localeCompare entries' := by
  refine mergeSort_eq_of_perm hperm ?_ ?_ ?_
  · intro a ha b hb c hc hab hbc
    simp only [decide_eq_true_eq] at hab hbc ⊢
    exact horder.trans _ (mem_of_mem_keys hkeys ha) _ (mem_of_mem_keys hkeys hb) _
      (mem_of_mem_keys hkeys hc) hab hbc
  · intro a ha b hb
    simp only [Bool.or_eq_true, decide_eq_true_eq]
    exact horder.total (mem_of_mem_keys hkeys ha) (mem_of_mem_keys hkeys hb)
  · intro a ha b hb hab hba
    simp only [decide_eq_true_eq] at hab hba
    have hkey : a.1 = b.1 :=
      horder.antisymm (mem_of_mem_keys hkeys ha) (mem_of_mem_keys hkeys hb) hab hba
    exact List.inj_on_of_nodup_map hnodup ha hb hkey

/-! ## Sorted values -/

/-- Values that differ in the order of entries are sorted into one value. -/
theorem sortValue_eq_of_same (horder : Collates localeCompare K) {value value' : Value}
    (h : Same value value') (hkeyed : Keyed K value) :
    sortValue localeCompare value = sortValue localeCompare value' := by
  induction h with
  | refl value => rfl
  | trans hfirst _ ih ih' => exact (ih hkeyed).trans (ih' (hfirst.keyed hkeyed))
  | @perm entries entries' hperm =>
      cases hkeyed with
      | object hnodup hkeys _ =>
          have hentries := Entries.enumerate_perm entries
          have hsame : entries.enumerate.Perm entries'.enumerate :=
            hentries.trans (hperm.trans (Entries.enumerate_perm entries').symm)
          have henumerated := (hentries.map Prod.fst).symm
          have hsorted := sortEntries_eq_of_perm horder hsame (henumerated.nodup_iff.mp hnodup)
            fun key hmem => hkeys key (henumerated.mem_iff.mpr hmem)
          rw [sortValue_object, sortValue_object, hsorted]
  | @element before after value value' _ ih =>
      cases hkeyed with
      | array hvalues =>
          have hvalue := ih (hvalues value (by simp))
          simp only [sortValue_array, List.map_append, List.map_cons, hvalue]
  | @member before after key value value' _ ih =>
      cases hkeyed with
      | object hnodup hkeys hvalues =>
          have hvalue := ih (hvalues (key, value) (by simp))
          have hnested : Entries.mapValues (sortValue localeCompare) (before ++ (key, value) :: after) =
              Entries.mapValues (sortValue localeCompare) (before ++ (key, value') :: after) := by
            simp only [Entries.mapValues, List.map_append, List.map_cons, Prod.map_apply, hvalue]
          rw [sortValue, sortValue, sortNested_eq, sortNested_eq, hnested]

/-- Sorting permutes entries. -/
theorem same_sortValue {value : Value} (h : Keyed K value) :
    Same value (sortValue localeCompare value) := by
  induction value using Value.induct with
  | null => exact .refl _
  | bool value => exact .refl _
  | number value => exact .refl _
  | string text => exact .refl _
  | array values ih =>
      cases h with
      | array hvalues =>
          rw [sortValue_array]
          exact Same.array_map fun value hmem => ih value hmem (hvalues value hmem)
  | object entries ih =>
      cases h with
      | object hnodup _ hvalues =>
          have hnested := Same.object_map fun entry hmem => ih entry hmem (hvalues entry hmem)
          have hkeys := Entries.keys_mapValues (sortValue localeCompare) entries
          rw [sortValue, sortNested_eq]
          generalize Entries.mapValues (sortValue localeCompare) entries = nested at hnested hkeys ⊢
          have hsorted : (sortEntries localeCompare nested.enumerate).Perm nested :=
            (List.mergeSort_perm _ _).trans (Entries.enumerate_perm _)
          have hsortedKeys : (sortEntries localeCompare nested.enumerate).keys.Nodup := by
            refine (hsorted.map Prod.fst).nodup_iff.mpr ?_
            show nested.keys.Nodup
            rw [hkeys]
            exact hnodup
          rw [Entries.fromEntries_eq hsortedKeys]
          exact hnested.trans (.perm hsorted.symm)

/-! ## Stable texts -/

/-- The text of a value is read as the value, with its entries in another order. -/
theorem parse_stableJson (localeCompare : JsString → JsString → ℤ) {value : Value}
    (h : Keyed K value) :
    ∃ read, parse (stableJson localeCompare value) = some read ∧ Same value read := by
  have hsorted : Same value (sortValue localeCompare value) := same_sortValue h
  exact ⟨_, parse_stringify (hsorted.keyed h), hsorted.trans (same_reorder _)⟩

theorem same_of_stableJson_eq {value value' : Value} (h : Keyed K value) (h' : Keyed K value')
    (heq : stableJson localeCompare value = stableJson localeCompare value') :
    Same value value' := by
  obtain ⟨read, hread, hsame⟩ := parse_stableJson localeCompare h
  obtain ⟨read', hread', hsame'⟩ := parse_stableJson localeCompare h'
  rw [heq, hread', Option.some.injEq] at hread
  exact hsame.trans (hread ▸ hsame'.symm)

end Hemlig.Util.Encoding
