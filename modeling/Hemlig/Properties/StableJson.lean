import Hemlig.Util.Encoding
import Mathlib.Data.List.Nodup

/-!
# Stable texts are canonical

`stableJson` writes values that are the same but for the order of entries as one text, from which
the value is read, and other values as other texts, with other bytes.  Keys are arbitrary: array
indices, which come first in an object however it was made, and `__proto__` are among them.
-/

namespace Hemlig.Util.Encoding

open Text Json

/-- **A stable text identifies its value up to the order of entries.** -/
theorem stableJson_canonical (localeCompare : JsString → JsString → ℤ) (K : Set JsString)
    (horder : Collates localeCompare K) (value value' : Value) (hkeyed : Keyed K value)
    (hkeyed' : Keyed K value') :
    (Same value value' → stableJson localeCompare value = stableJson localeCompare value') ∧
      (∃ read, parse (stableJson localeCompare value) = some read ∧ Same value read) ∧
      (¬ Same value value' → stableJson localeCompare value ≠ stableJson localeCompare value' ∧
        utf8 (stableJson localeCompare value) ≠ utf8 (stableJson localeCompare value')) := by
  refine ⟨fun hsame => ?_, parse_stableJson localeCompare hkeyed, fun hdiffer => ?_⟩
  · exact congrArg (stringify 0) (sortValue_eq_of_same horder hsame hkeyed)
  · have htexts : stableJson localeCompare value ≠ stableJson localeCompare value' :=
      fun heq => hdiffer (same_of_stableJson_eq hkeyed hkeyed' heq)
    have hbytes := eq_of_utf8_eq (wellFormed_stringify 0 (sortValue localeCompare value))
      (wellFormed_stringify 0 (sortValue localeCompare value'))
    exact ⟨htexts, fun heq => htexts (hbytes heq)⟩

/-! ## An object with special keys -/

namespace Sample

/-- Keys in the order of their comparison: a low line precedes digits. -/
def keys : List JsString := [units "__proto__", units "10", units "9", units "name"]

def localeCompare (left right : JsString) : ℤ := keys.idxOf left - keys.idxOf right

def nested : Value := .object [(units "10", .bool true), (units "9", .null)]

def nested' : Value := .object [(units "9", .null), (units "10", .bool true)]

def value : Value := .object [(units "name", nested), (units "__proto__", .string (units "x"))]

def value' : Value := .object [(units "__proto__", .string (units "x")), (units "name", nested')]

end Sample

theorem Sample.collates : Collates Sample.localeCompare {key | key ∈ Sample.keys} where
  eq_of_zero := by
    intro a ha b _ hzero
    unfold Sample.localeCompare at hzero
    exact (List.idxOf_inj ha).mp (by omega)
  swap := by
    intro a _ b _
    unfold Sample.localeCompare
    omega
  trans := by
    intro a _ b _ c _ hab hbc
    unfold Sample.localeCompare at hab hbc ⊢
    omega

theorem Sample.keyed_nested : Keyed {key | key ∈ Sample.keys} Sample.nested := by
  have hkeys : ∀ key ∈ [units "10", units "9"], key ∈ Sample.keys := by decide
  refine .object (by decide) hkeys ?_
  exact List.forall_mem_cons.mpr ⟨.bool true, List.forall_mem_singleton.mpr .null⟩

theorem Sample.same_nested : Same Sample.nested Sample.nested' := .perm (.swap _ _ _)

theorem Sample.keyed_value : Keyed {key | key ∈ Sample.keys} Sample.value := by
  have hkeys : ∀ key ∈ [units "name", units "__proto__"], key ∈ Sample.keys := by decide
  refine .object (by decide) hkeys ?_
  exact List.forall_mem_cons.mpr ⟨Sample.keyed_nested, List.forall_mem_singleton.mpr (.string _)⟩

theorem Sample.same_value : Same Sample.value Sample.value' := by
  have hnested : Same Sample.value
      (.object [(units "name", Sample.nested'), (units "__proto__", .string (units "x"))]) :=
    @Same.member [] _ _ _ _ Sample.same_nested
  exact hnested.trans (.perm (.swap _ _ _))

/-- Both orders of an object with an entry of the key `__proto__` have one text. -/
theorem stableJson_canonical_special : stableJson Sample.localeCompare Sample.value =
    stableJson Sample.localeCompare Sample.value' :=
  (stableJson_canonical Sample.localeCompare {key | key ∈ Sample.keys} Sample.collates
    Sample.value Sample.value' Sample.keyed_value
    (Sample.same_value.keyed Sample.keyed_value)).1 Sample.same_value

end Hemlig.Util.Encoding
