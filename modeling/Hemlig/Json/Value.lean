import Hemlig.Json.Number
import Mathlib.Data.List.Perm.Basic
import Mathlib.Data.Set.Defs

/-!
# Values of JSON

An object has its entries in the order in which they were made, each key once.  They are
enumerated in another order: keys that are array indices come first, in ascending order
(`enumerate`).  Values that differ only in the order of entries, at any depth, are the same
(`Same`).
-/

namespace Hemlig.Json

open Text

inductive Value
  | null
  | bool (value : Bool)
  | number (value : Number)
  | string (text : JsString)
  | array (values : List Value)
  | object (entries : List (JsString × Value))

namespace Value

/-- Induction over the values inside a value. -/
@[elab_as_elim]
theorem induct {P : Value → Prop} (null : P .null) (bool : ∀ value, P (.bool value))
    (number : ∀ value, P (.number value)) (string : ∀ text, P (.string text))
    (array : ∀ values, (∀ value ∈ values, P value) → P (.array values))
    (object : ∀ entries, (∀ entry ∈ entries, P entry.2) → P (.object entries)) (value : Value) :
    P value := by
  refine @Value.rec P (fun values => ∀ value ∈ values, P value)
    (fun entries => ∀ entry ∈ entries, P entry.2) (fun entry => P entry.2)
    null bool number string array object ?_ ?_ ?_ ?_ ?_ value
  · exact fun _ hmem => absurd hmem List.not_mem_nil
  · exact fun _ _ hhead htail => List.forall_mem_cons.mpr ⟨hhead, htail⟩
  · exact fun _ hmem => absurd hmem List.not_mem_nil
  · exact fun _ _ hhead htail => List.forall_mem_cons.mpr ⟨hhead, htail⟩
  · exact fun _ _ hvalue => hvalue

end Value

/-! ## Entries -/

abbrev Entries (α : Type) := List (JsString × α)

/-- The array index that a key is. -/
def arrayIndex (key : JsString) : Option ℕ :=
  let index := natValue (spanDigits key).1
  if (natDigits index).map digit = key ∧ index < 2 ^ 32 - 1 then some index else none

namespace Entries

variable {α β : Type}

def keys (entries : Entries α) : List JsString := entries.map Prod.fst

/-- The order in which the entries of an object are enumerated. -/
def enumerate (entries : Entries α) : Entries α :=
  (entries.filter fun entry => (arrayIndex entry.1).isSome).mergeSort
      (fun entry entry' => (arrayIndex entry.1).getD 0 ≤ (arrayIndex entry'.1).getD 0) ++
    entries.filter fun entry => (arrayIndex entry.1).isNone

theorem enumerate_perm (entries : Entries α) : entries.enumerate.Perm entries := by
  have hsplit := List.filter_append_perm (fun entry => (arrayIndex entry.1).isSome) entries
  refine List.Perm.trans ?_ hsplit
  have hnot : (entries.filter fun entry => (arrayIndex entry.1).isNone) =
      entries.filter fun entry => !(arrayIndex entry.1).isSome :=
    List.filter_congr fun entry _ => by simp
  unfold enumerate
  rw [hnot]
  exact (List.mergeSort_perm _ _).append_right _

/-- Entries with other values. -/
def mapValues (f : α → β) (entries : Entries α) : Entries β := entries.map (Prod.map id f)

@[simp] theorem keys_mapValues (f : α → β) (entries : Entries α) :
    (entries.mapValues f).keys = entries.keys := by
  unfold keys mapValues
  rw [List.map_map]
  rfl

/-- The order of enumeration depends on the keys alone. -/
theorem enumerate_mapValues (f : α → β) (entries : Entries α) :
    (entries.mapValues f).enumerate = entries.enumerate.mapValues f := by
  unfold enumerate mapValues
  rw [List.map_append, List.filter_map, List.filter_map, List.map_mergeSort]
  · rfl
  · exact fun _ _ _ _ => rfl

/-- `CreateDataProperty`: the value of a key is replaced, or the entry is made. -/
def put (key : JsString) (value : α) : Entries α → Entries α
  | [] => [(key, value)]
  | entry :: rest => if entry.1 = key then (key, value) :: rest else entry :: put key value rest

/-- The object that has the entries, of which later ones replace earlier ones. -/
def fromEntries (entries : Entries α) : Entries α :=
  entries.foldl (fun object entry => object.put entry.1 entry.2) []

theorem put_of_notMem {entries : Entries α} {key : JsString} (value : α)
    (h : key ∉ entries.keys) : entries.put key value = entries ++ [(key, value)] := by
  induction entries with
  | nil => rfl
  | cons entry rest ih =>
      unfold keys at h ih
      rw [List.map_cons, List.mem_cons, not_or] at h
      rw [put, if_neg (Ne.symm h.1), ih h.2]
      rfl

/-- Entries whose keys differ are the object's. -/
theorem fromEntries_eq {entries : Entries α} (h : entries.keys.Nodup) :
    entries.fromEntries = entries := by
  have hall : ∀ {rest object : Entries α}, (object.keys ++ rest.keys).Nodup →
      rest.foldl (fun object entry => object.put entry.1 entry.2) object = object ++ rest := by
    intro rest
    induction rest with
    | nil => exact fun _ => (List.append_nil _).symm
    | cons entry rest ih =>
        intro object hnodup
        have hnew : entry.1 ∉ object.keys := by
          intro hmem
          exact (List.nodup_append'.mp hnodup).2.2 hmem List.mem_cons_self
        have hput := put_of_notMem entry.2 hnew
        rw [List.foldl_cons, hput, ih, List.append_assoc]
        · rfl
        · unfold keys at hnodup ⊢
          rw [List.map_append, List.append_assoc]
          exact hnodup
  unfold fromEntries
  rw [hall]
  · rfl
  · exact h

end Entries

/-! ## Values that are the same but for the order of entries -/

/-- All keys are of the set, and every object has each of its keys once. -/
inductive Keyed (K : Set JsString) : Value → Prop
  | null : Keyed K .null
  | bool (value : Bool) : Keyed K (.bool value)
  | number (value : Number) : Keyed K (.number value)
  | string (text : JsString) : Keyed K (.string text)
  | array {values : List Value} (h : ∀ value ∈ values, Keyed K value) : Keyed K (.array values)
  | object {entries : Entries Value} (hnodup : entries.keys.Nodup)
      (hkeys : ∀ key ∈ entries.keys, key ∈ K) (h : ∀ entry ∈ entries, Keyed K entry.2) :
      Keyed K (.object entries)

/-- The entries of nested objects are permuted. -/
inductive Same : Value → Value → Prop
  | refl (value : Value) : Same value value
  | trans {value value' value'' : Value} (h : Same value value') (h' : Same value' value'') :
      Same value value''
  | perm {entries entries' : Entries Value} (h : entries.Perm entries') :
      Same (.object entries) (.object entries')
  | element {before after : List Value} {value value' : Value} (h : Same value value') :
      Same (.array (before ++ value :: after)) (.array (before ++ value' :: after))
  | member {before after : Entries Value} {key : JsString} {value value' : Value}
      (h : Same value value') :
      Same (.object (before ++ (key, value) :: after)) (.object (before ++ (key, value') :: after))

variable {K : Set JsString} {value value' : Value}

theorem Same.symm (h : Same value value') : Same value' value := by
  induction h with
  | refl value => exact .refl value
  | trans _ _ ih ih' => exact ih'.trans ih
  | perm hperm => exact .perm hperm.symm
  | element _ ih => exact .element ih
  | member _ ih => exact .member ih

theorem Same.keyed (h : Same value value') (hkeyed : Keyed K value) : Keyed K value' := by
  induction h with
  | refl value => exact hkeyed
  | trans _ _ ih ih' => exact ih' (ih hkeyed)
  | perm hperm =>
      cases hkeyed with
      | object hnodup hkeys hvalues =>
          have hkeysPerm := hperm.map Prod.fst
          exact .object (hkeysPerm.nodup_iff.mp hnodup)
            (fun key hmem => hkeys key (hkeysPerm.mem_iff.mpr hmem))
            fun entry hmem => hvalues entry (hperm.mem_iff.mpr hmem)
  | element _ ih =>
      cases hkeyed with
      | array hvalues =>
          refine .array fun other hmem => ?_
          simp only [List.mem_append, List.mem_cons] at hmem hvalues
          rcases hmem with hmem | rfl | hmem
          · exact hvalues other (.inl hmem)
          · exact ih (hvalues _ (.inr (.inl rfl)))
          · exact hvalues other (.inr (.inr hmem))
  | @member before after key value value' _ ih =>
      cases hkeyed with
      | object hnodup hkeys hvalues =>
          have hsame : Entries.keys (before ++ (key, value) :: after) =
              Entries.keys (before ++ (key, value') :: after) := by
            simp [Entries.keys]
          refine .object (hsame ▸ hnodup) (hsame ▸ hkeys) fun other hmem => ?_
          simp only [List.mem_append, List.mem_cons] at hmem hvalues
          rcases hmem with hmem | rfl | hmem
          · exact hvalues other (.inl hmem)
          · exact ih (hvalues _ (.inr (.inl rfl)))
          · exact hvalues other (.inr (.inr hmem))

/-- Values of an array may be replaced by the same ones. -/
theorem Same.array_map {f : Value → Value} {values : List Value}
    (h : ∀ value ∈ values, Same value (f value)) : Same (.array values) (.array (values.map f)) := by
  have hall : ∀ before : List Value,
      Same (.array (before ++ values)) (.array (before ++ values.map f)) := by
    induction values with
    | nil => exact fun _ => .refl _
    | cons value rest ih =>
        intro before
        have hrest : Same (.array (before ++ [f value] ++ rest))
            (.array (before ++ [f value] ++ rest.map f)) :=
          ih (fun other hmem => h other (List.mem_cons_of_mem _ hmem)) _
        rw [List.append_assoc, List.append_assoc] at hrest
        exact (Same.element (h value List.mem_cons_self)).trans hrest
  exact hall []

theorem Same.object_map {f : Value → Value} {entries : Entries Value}
    (h : ∀ entry ∈ entries, Same entry.2 (f entry.2)) :
    Same (.object entries) (.object (entries.mapValues f)) := by
  have hall : ∀ before : Entries Value,
      Same (.object (before ++ entries)) (.object (before ++ entries.mapValues f)) := by
    induction entries with
    | nil => exact fun _ => .refl _
    | cons entry rest ih =>
        intro before
        have hrest : Same (.object (before ++ [(entry.1, f entry.2)] ++ rest))
            (.object (before ++ [(entry.1, f entry.2)] ++ Entries.mapValues f rest)) :=
          ih (fun other hmem => h other (List.mem_cons_of_mem _ hmem)) _
        rw [List.append_assoc, List.append_assoc] at hrest
        exact (Same.member (h entry List.mem_cons_self)).trans hrest
  exact hall []

/-! ## The order of enumeration, at any depth -/

mutual

/-- The value with all entries in the order in which they are enumerated. -/
def reorder : Value → Value
  | .null => .null
  | .bool value => .bool value
  | .number value => .number value
  | .string text => .string text
  | .array values => .array (reorderAll values)
  | .object entries => .object (reorderEntries entries).enumerate

def reorderAll : List Value → List Value
  | [] => []
  | value :: rest => reorder value :: reorderAll rest

def reorderEntries : Entries Value → Entries Value
  | [] => []
  | (key, value) :: rest => (key, reorder value) :: reorderEntries rest

end

theorem reorderAll_eq (values : List Value) : reorderAll values = values.map reorder := by
  induction values with
  | nil => rfl
  | cons value rest ih => rw [reorderAll, ih, List.map_cons]

theorem reorderEntries_eq (entries : Entries Value) :
    reorderEntries entries = entries.mapValues reorder := by
  induction entries with
  | nil => rfl
  | cons entry rest ih =>
      rw [reorderEntries, ih]
      rfl

theorem same_reorder (value : Value) : Same value (reorder value) := by
  induction value using Value.induct with
  | null => exact .refl _
  | bool value => exact .refl _
  | number value => exact .refl _
  | string text => exact .refl _
  | array values ih =>
      rw [reorder, reorderAll_eq]
      exact Same.array_map ih
  | object entries ih =>
      rw [reorder, reorderEntries_eq]
      exact (Same.object_map ih).trans (.perm (Entries.enumerate_perm _).symm)

/-! ## More about enumeration -/

/-- What follows the digits of an array index would not be its text. -/
theorem arrayIndex_of_noDigit {key : JsString} (h : NoDigit key) : arrayIndex key = none := by
  unfold arrayIndex
  refine if_neg fun hindex => ?_
  obtain ⟨d, digits, hdigits⟩ := List.exists_cons_of_ne_nil
    (natDigits_ne_nil (natValue (spanDigits key).1))
  have hhead : key.head? = some (digit d) := by
    rw [← hindex.1, hdigits]
    rfl
  have hdigit := h _ hhead
  rw [digit?_digit] at hdigit
  cases hdigit

namespace Entries

variable {α : Type}

/-- The own property of an object. -/
def get (key : JsString) (entries : Entries α) : Option α :=
  (entries.find? fun entry => entry.1 = key).map Prod.snd

theorem enumerate_of_none {entries : Entries α}
    (h : ∀ key ∈ entries.keys, arrayIndex key = none) : entries.enumerate = entries := by
  have hnone : ∀ entry ∈ entries, arrayIndex entry.1 = none := fun entry hmem =>
    h _ (List.mem_map_of_mem hmem)
  have hindices : (entries.filter fun entry => (arrayIndex entry.1).isSome) = [] :=
    List.filter_eq_nil_iff.mpr fun entry hmem => by simp [hnone entry hmem]
  have hothers : (entries.filter fun entry => (arrayIndex entry.1).isNone) = entries :=
    List.filter_eq_self.mpr fun entry hmem => by simp [hnone entry hmem]
  unfold enumerate
  rw [hindices, hothers, List.mergeSort_nil, List.nil_append]

/-- The order of enumeration is that of the object that it makes. -/
theorem enumerate_enumerate (entries : Entries α) :
    entries.enumerate.enumerate = entries.enumerate := by
  let le : JsString × α → JsString × α → Bool := fun entry entry' =>
    (arrayIndex entry.1).getD 0 ≤ (arrayIndex entry'.1).getD 0
  let indices := entries.filter fun entry => (arrayIndex entry.1).isSome
  let others := entries.filter fun entry => (arrayIndex entry.1).isNone
  have hindices : ∀ entry ∈ indices.mergeSort le, (arrayIndex entry.1).isSome = true :=
    fun entry hmem => (List.mem_filter.mp ((List.mergeSort_perm _ _).mem_iff.mp hmem)).2
  have hothers : ∀ entry ∈ others, (arrayIndex entry.1).isNone = true :=
    fun entry hmem => (List.mem_filter.mp hmem).2
  have hfilter : ((indices.mergeSort le ++ others).filter fun entry =>
      (arrayIndex entry.1).isSome) = indices.mergeSort le := by
    rw [List.filter_append, List.filter_eq_self.mpr hindices, List.filter_eq_nil_iff.mpr,
      List.append_nil]
    intro entry hmem
    have hnone := hothers entry hmem
    simp only [Option.isNone_iff_eq_none] at hnone
    simp [hnone]
  have hfilter' : ((indices.mergeSort le ++ others).filter fun entry =>
      (arrayIndex entry.1).isNone) = others := by
    rw [List.filter_append, List.filter_eq_self.mpr hothers, List.filter_eq_nil_iff.mpr,
      List.nil_append]
    intro entry hmem
    have hsome := hindices entry hmem
    simp only [Option.isSome_iff_exists] at hsome
    obtain ⟨index, hindex⟩ := hsome
    simp [hindex]
  have hsorted : (indices.mergeSort le).Pairwise fun a b => le a b := by
    refine List.pairwise_mergeSort (fun a b c hab hbc => ?_) (fun a b => ?_) _
    · simp only [le, decide_eq_true_eq] at hab hbc ⊢
      omega
    · simp only [le, Bool.or_eq_true, decide_eq_true_eq]
      omega
  show (((indices.mergeSort le ++ others).filter fun entry =>
      (arrayIndex entry.1).isSome).mergeSort le) ++
    (indices.mergeSort le ++ others).filter (fun entry => (arrayIndex entry.1).isNone) =
      indices.mergeSort le ++ others
  rw [hfilter, hfilter', List.mergeSort_of_pairwise hsorted]

end Entries

/-! ## Own properties -/

namespace Entries

variable {α : Type} {entries : Entries α} {key : JsString}

theorem get_eq_some (h : entries.keys.Nodup) {value : α} :
    entries.get key = some value ↔ (key, value) ∈ entries := by
  induction entries with
  | nil => simp [get]
  | cons entry rest ih =>
      obtain ⟨hnew, hrest⟩ := List.nodup_cons.mp h
      obtain ⟨key', value'⟩ := entry
      by_cases hkey : key' = key
      · subst hkey
        have hget : get key' ((key', value') :: rest) = some value' := by simp [get]
        have hnone : (key', value) ∉ rest := fun hmem =>
          hnew (List.mem_map.mpr ⟨_, hmem, rfl⟩)
        simp [hget, hnone, eq_comm]
      · have hget : get key ((key', value') :: rest) = get key rest := by simp [get, hkey]
        rw [hget, ih hrest]
        simp [Ne.symm hkey]

end Entries

/-- The string that a value is. -/
def stringOf : Value → Option JsString
  | .string text => some text
  | _ => none

/-- The own property of an object, where it is a string. -/
def fieldOf (key : JsString) : Value → Option JsString
  | .object entries => (Entries.get key entries).bind stringOf
  | _ => none

theorem stringOf_eq_some {value : Value} {text : JsString} :
    stringOf value = some text ↔ value = .string text := by
  cases value <;> simp [stringOf]

theorem fieldOf_object {entries : Entries Value} (h : entries.keys.Nodup) {key text : JsString} :
    fieldOf key (.object entries) = some text ↔ (key, .string text) ∈ entries := by
  rw [fieldOf, Option.bind_eq_some_iff]
  simp only [Entries.get_eq_some h, stringOf_eq_some, exists_eq_right]

theorem Same.stringOf_eq {value value' : Value} (h : Same value value') :
    stringOf value = stringOf value' := by
  induction h with
  | refl value => rfl
  | trans _ _ ih ih' => exact ih.trans ih'
  | perm _ => rfl
  | element _ _ => rfl
  | member _ _ => rfl

/-- The same values have the same strings as properties. -/
theorem Same.fieldOf_eq {K : Set JsString} {value value' : Value} (h : Same value value')
    (hkeyed : Keyed K value) (key : JsString) : fieldOf key value = fieldOf key value' := by
  induction h with
  | refl value => rfl
  | trans hfirst _ ih ih' => exact (ih hkeyed).trans (ih' (hfirst.keyed hkeyed))
  | perm hperm =>
      cases hkeyed with
      | object hnodup _ _ =>
          have hnodup' := (hperm.map Prod.fst).nodup_iff.mp hnodup
          refine Option.ext fun text => ?_
          rw [fieldOf_object hnodup, fieldOf_object hnodup', hperm.mem_iff]
  | element _ _ => rfl
  | @member before after changed value value' hsame _ =>
      have hobject : Same (.object (before ++ (changed, value) :: after))
          (.object (before ++ (changed, value') :: after)) := .member hsame
      cases hkeyed with
      | object hnodup hkeys hvalues =>
          cases hobject.keyed (.object hnodup hkeys hvalues) with
          | object hnodup' _ _ =>
              refine Option.ext fun text => ?_
              have hstring : value = .string text ↔ value' = .string text := by
                rw [← stringOf_eq_some, hsame.stringOf_eq, stringOf_eq_some]
              rw [fieldOf_object hnodup, fieldOf_object hnodup']
              simp [hstring, eq_comm]

end Hemlig.Json
