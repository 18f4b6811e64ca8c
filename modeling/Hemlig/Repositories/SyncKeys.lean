import Hemlig.Repositories.AgentSync
import Hemlig.Text.Decimal
import Mathlib.Data.String.Basic

/-!
# The order of the sync index

The sort keys of an index are compared as strings.  As long as sequences stay safe
integers they have at most sixteen digits, so the keys of a sequence come before
those of the next one, and a range of keys is a range of sequences.
-/

namespace Hemlig

open Text

theorem safe_lt {sequence : ℕ} (h : sequence ≤ maximumSafeInteger) : sequence < 10 ^ 16 :=
  lt_of_le_of_lt h (by decide)

theorem toList_sequenceKey {sequence : ℕ} (h : sequence ≤ maximumSafeInteger) :
    (sequenceKey sequence).toList = "CHANGE#".toList ++ (fixed 16 sequence ++ ['#']) := by
  have hdigits : (toString sequence).toList = Nat.toDigits 10 sequence := Nat.toList_repr
  have hlength : (toString sequence).length = (Nat.toDigits 10 sequence).length := by
    rw [← hdigits, String.length_toList]
  have hpad : (padStart 16 (toString sequence)).toList = fixed 16 sequence := by
    rw [padStart, String.toList_append, String.toList_ofList, hdigits, hlength,
      pad_toDigits (by omega) (safe_lt h)]
  rw [sequenceKey, String.toList_append, String.toList_append, hpad, List.append_assoc]
  rfl

theorem toList_syncSk {sequence : ℕ} (h : sequence ≤ maximumSafeInteger) (secretUid : String) :
    (syncSk sequence secretUid).toList =
      "CHANGE#".toList ++ (fixed 16 sequence ++ ('#' :: secretUid.toList)) := by
  rw [syncSk, String.toList_append, toList_sequenceKey h]
  simp

/-- **A sort key determines its sequence and its secret.** -/
theorem syncSk_inj {sequence sequence' : ℕ} (h : sequence ≤ maximumSafeInteger)
    (h' : sequence' ≤ maximumSafeInteger) {secretUid secretUid' : String} :
    syncSk sequence secretUid = syncSk sequence' secretUid' ↔
      sequence = sequence' ∧ secretUid = secretUid' := by
  rw [← String.toList_inj, toList_syncSk h, toList_syncSk h', List.append_cancel_left_eq,
    fixed_append_inj (safe_lt h) (safe_lt h')]
  simp [String.toList_inj]

/-- The keys of one secret differ in their sequences, however long. -/
theorem syncSk_ne {sequence sequence' : ℕ} (hne : sequence ≠ sequence') (secretUid : String) :
    syncSk sequence secretUid ≠ syncSk sequence' secretUid := by
  intro heq
  refine hne (@pad_inj 16 _ _ ?_)
  have hpad : ∀ sequence : ℕ, (padStart 16 (toString sequence)).toList =
      List.replicate (16 - (Nat.toDigits 10 sequence).length) '0' ++ Nat.toDigits 10 sequence := by
    intro sequence
    have hdigits : (toString sequence).toList = Nat.toDigits 10 sequence := Nat.toList_repr
    rw [padStart, String.toList_append, String.toList_ofList, hdigits, ← String.length_toList, hdigits]
  have hlist := congrArg String.toList heq
  simp only [syncSk, sequenceKey, String.toList_append, List.append_assoc, hpad,
    List.append_cancel_left_eq] at hlist
  simpa only [← List.append_assoc, List.append_cancel_right_eq] using hlist

/-- Keys are ordered by their sequence, and then by their secret. -/
theorem syncSk_lt_iff {sequence sequence' : ℕ} (h : sequence ≤ maximumSafeInteger)
    (h' : sequence' ≤ maximumSafeInteger) {secretUid secretUid' : String} :
    syncSk sequence secretUid < syncSk sequence' secretUid' ↔
      sequence < sequence' ∨ sequence = sequence' ∧ secretUid < secretUid' := by
  rw [String.lt_iff, toList_syncSk h, toList_syncSk h', append_lt_append_iff rfl,
    fixed_append_lt_iff (safe_lt h) (safe_lt h'), List.cons_lt_cons_iff, String.lt_iff]
  simp

/-! ## Ranges -/

/-- The first key of a range. -/
theorem first_le_syncSk {after sequence : ℕ} (h : sequence ≤ maximumSafeInteger)
    (hafter : after + 1 ≤ maximumSafeInteger) (secretUid : String) :
    syncSk (after + 1) "" ≤ syncSk sequence secretUid ↔ after < sequence := by
  rw [← not_lt, syncSk_lt_iff h hafter]
  simp only [String.lt_iff, String.toList_empty, List.not_lt_nil, and_false, or_false]
  omega

/-- The last key of a range. -/
theorem syncSk_le_last {sequence through : ℕ} (h : sequence ≤ maximumSafeInteger)
    (hthrough : through ≤ maximumSafeInteger) {secretUid : String} (huid : secretUid < "\uffff") :
    syncSk sequence secretUid ≤ sequenceKey through ++ "\uffff" ↔ sequence ≤ through := by
  rw [show sequenceKey through ++ "\uffff" = syncSk through "\uffff" from rfl, ← not_lt,
    syncSk_lt_iff hthrough h]
  have hnot : ¬ "\uffff" < secretUid := not_lt.mpr huid.le
  simp only [hnot, and_false, or_false]
  omega

/-- The identifier of a secret comes before the end of a range. -/
theorem secretUid_lt_last (id : String) : "sec-" ++ id < "\uffff" := by
  rw [String.lt_iff, String.toList_append]
  exact List.Lex.rel (by decide)

end Hemlig
