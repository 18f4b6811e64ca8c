import Mathlib.Data.List.Basic
import Mathlib.Data.Char
import Mathlib.Data.List.Lex
import Mathlib.Algebra.Order.Group.Nat
import Mathlib.Tactic.Tauto

/-!
# Decimals of a fixed width

Numbers written with a fixed number of decimal digits are ordered as strings the way
they are ordered as numbers, whatever follows them.
-/

namespace Hemlig.Text

/-- Texts are ordered by the first character in which they differ. -/
theorem lt_iff_not_le {l l' : List Char} : l < l' ↔ ¬ l' ≤ l := by
  rw [not_le]

/-- The last `width` decimal digits of a number, the first one most significant. -/
def fixed : ℕ → ℕ → List Char
  | 0, _ => []
  | width + 1, n => fixed width (n / 10) ++ [(n % 10).digitChar]

theorem fixed_succ (width n : ℕ) :
    fixed (width + 1) n = fixed width (n / 10) ++ [(n % 10).digitChar] := rfl

@[simp] theorem length_fixed (width n : ℕ) : (fixed width n).length = width := by
  induction width generalizing n with
  | zero => rfl
  | succ width ih => simp [fixed_succ, ih]

theorem fixed_zero (width : ℕ) : fixed width 0 = List.replicate width '0' := by
  induction width with
  | zero => rfl
  | succ width ih => simp [fixed_succ, ih, List.replicate_succ', Nat.digitChar]

/-- Padding a number with zeros gives its fixed form. -/
theorem pad_toDigits {width n : ℕ} (hwidth : 0 < width) (hn : n < 10 ^ width) :
    List.replicate (width - (Nat.toDigits 10 n).length) '0' ++ Nat.toDigits 10 n =
      fixed width n := by
  induction width generalizing n with
  | zero => omega
  | succ width ih =>
      by_cases hsmall : n < 10
      · rw [Nat.toDigits_of_lt_base hsmall, fixed_succ, Nat.div_eq_of_lt hsmall,
          Nat.mod_eq_of_lt hsmall, fixed_zero]
        simp
      · have hdiv : n / 10 < 10 ^ width := by
          rw [pow_succ] at hn
          omega
        have hpositive : 0 < width := by
          by_contra hzero
          obtain rfl : width = 0 := by omega
          omega
        rw [Nat.toDigits_of_base_le (by omega) (by omega), fixed_succ, ← ih hpositive hdiv]
        simp

theorem digitChar_inj {a b : ℕ} (ha : a < 10) (hb : b < 10) :
    a.digitChar = b.digitChar ↔ a = b := by
  have h : ∀ a : Fin 10, ∀ b : Fin 10, (a : ℕ).digitChar = (b : ℕ).digitChar ↔ (a : ℕ) = b := by
    decide
  exact h ⟨a, ha⟩ ⟨b, hb⟩

theorem fixed_inj {width n m : ℕ} (hn : n < 10 ^ width) (hm : m < 10 ^ width) :
    fixed width n = fixed width m ↔ n = m := by
  induction width generalizing n m with
  | zero => simp_all
  | succ width ih =>
      rw [pow_succ] at hn hm
      simp only [fixed_succ, List.append_singleton_inj, ih (show n / 10 < 10 ^ width by omega)
        (show m / 10 < 10 ^ width by omega),
        digitChar_inj (Nat.mod_lt n (by omega)) (Nat.mod_lt m (by omega))]
      omega

/-- The digits of a number, padded to a width they may exceed, determine it. -/
theorem pad_inj {width n m : ℕ} (h :
    List.replicate (width - (Nat.toDigits 10 n).length) '0' ++ Nat.toDigits 10 n =
      List.replicate (width - (Nat.toDigits 10 m).length) '0' ++ Nat.toDigits 10 m) : n = m := by
  -- Both are padded on, to a width that neither exceeds.
  have hwide : ∃ wide, 0 < wide ∧ width ≤ wide ∧ (Nat.toDigits 10 n).length ≤ wide ∧
      (Nat.toDigits 10 m).length ≤ wide :=
    ⟨width + (Nat.toDigits 10 n).length + (Nat.toDigits 10 m).length + 1, by omega, by omega,
      by omega, by omega⟩
  obtain ⟨wide, hpos, hwidth, hn, hm⟩ := hwide
  have hlength := congrArg List.length h
  simp only [List.length_append, List.length_replicate] at hlength
  have hfixed : ∀ k, (Nat.toDigits 10 k).length ≤ wide →
      List.replicate (wide - max width (Nat.toDigits 10 k).length) '0' ++
        (List.replicate (width - (Nat.toDigits 10 k).length) '0' ++ Nat.toDigits 10 k) =
          fixed wide k := by
    intro k hk
    rw [← List.append_assoc, List.replicate_append_replicate,
      show wide - max width (Nat.toDigits 10 k).length + (width - (Nat.toDigits 10 k).length) =
        wide - (Nat.toDigits 10 k).length by omega]
    exact pad_toDigits hpos ((Nat.length_toDigits_le_iff (by omega) hpos).mp hk)
  refine (fixed_inj ((Nat.length_toDigits_le_iff (by omega) hpos).mp hn)
    ((Nat.length_toDigits_le_iff (by omega) hpos).mp hm)).mp ?_
  rw [← hfixed n hn, ← hfixed m hm, h, show max width (Nat.toDigits 10 n).length =
    max width (Nat.toDigits 10 m).length by omega]

/-! ## Order -/

/-- Two lists that start with lists of one length are compared there first. -/
theorem append_lt_append_iff {l l' r r' : List Char} (h : l.length = l'.length) :
    l ++ r < l' ++ r' ↔ l < l' ∨ l = l' ∧ r < r' := by
  induction l generalizing l' with
  | nil =>
      obtain rfl : l' = [] := by simpa using h.symm
      simp
  | cons a l ih =>
      cases l' with
      | nil => simp at h
      | cons b l' =>
          simp only [List.cons_append, List.cons_lt_cons_iff, ih (by simpa using h),
            List.cons.injEq]
          tauto

theorem digitChar_lt_iff {a b : ℕ} (ha : a < 10) (hb : b < 10) :
    a.digitChar < b.digitChar ↔ a < b := by
  have h : ∀ a : Fin 10, ∀ b : Fin 10, (a : ℕ).digitChar < (b : ℕ).digitChar ↔ (a : ℕ) < b := by
    decide
  exact h ⟨a, ha⟩ ⟨b, hb⟩

theorem fixed_lt_iff {width n m : ℕ} (hn : n < 10 ^ width) (hm : m < 10 ^ width) :
    fixed width n < fixed width m ↔ n < m := by
  induction width generalizing n m with
  | zero => simp_all [fixed]
  | succ width ih =>
      rw [pow_succ] at hn hm
      have hn' : n / 10 < 10 ^ width := by omega
      have hm' : m / 10 < 10 ^ width := by omega
      have hlast : [(n % 10).digitChar] < [(m % 10).digitChar] ↔ n % 10 < m % 10 := by
        rw [List.cons_lt_cons_iff,
          digitChar_lt_iff (Nat.mod_lt n (by omega)) (Nat.mod_lt m (by omega))]
        simp
      rw [fixed_succ, fixed_succ, append_lt_append_iff (by simp), ih hn' hm', fixed_inj hn' hm',
        hlast]
      omega

/-- **Fixed forms are ordered by their number, and then by what follows.** -/
theorem fixed_append_lt_iff {width n m : ℕ} {r r' : List Char} (hn : n < 10 ^ width)
    (hm : m < 10 ^ width) :
    fixed width n ++ r < fixed width m ++ r' ↔ n < m ∨ n = m ∧ r < r' := by
  rw [append_lt_append_iff (by simp), fixed_lt_iff hn hm, fixed_inj hn hm]

theorem fixed_append_inj {width n m : ℕ} {r r' : List Char} (hn : n < 10 ^ width)
    (hm : m < 10 ^ width) :
    fixed width n ++ r = fixed width m ++ r' ↔ n = m ∧ r = r' := by
  refine ⟨fun h => ?_, fun ⟨hnm, hr⟩ => by rw [hnm, hr]⟩
  obtain ⟨hfixed, hr⟩ := List.append_inj h (by simp)
  exact ⟨(fixed_inj hn hm).mp hfixed, hr⟩

end Hemlig.Text
