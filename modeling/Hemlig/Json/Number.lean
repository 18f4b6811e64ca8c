import Hemlig.Text.Utf16
import Mathlib.Data.Nat.Digits.Defs
import Mathlib.Tactic.DeriveFintype

/-!
# Numbers of JSON texts

A finite number is written with its shortest decimal digits, and these determine it.  So a number
is kept here as it is written: its sign, its digits without zeros at either end, and the place of
the decimal point.  `Number.text` writes it as `Number.prototype.toString` does, in one of four
forms, and `readNumber` reads any number of the grammar of JSON.  What rounding makes of numbers
with more digits than a double has is left out.
-/

namespace Hemlig.Json

open Text

/-! ## Digits -/

abbrev Digit := Fin 10

/-- The code unit of a digit. -/
def digit (d : Digit) : CodeUnit := (48 + d.val).toUInt16

def digit? (c : CodeUnit) : Option Digit :=
  if h : 48 ≤ c.toNat ∧ c.toNat < 58 then some ⟨c.toNat - 48, by omega⟩ else none

@[simp] theorem digit?_digit (d : Digit) : digit? (digit d) = some d := by
  revert d
  decide

/-- The digits at the start of a text. -/
def spanDigits : JsString → List Digit × JsString
  | [] => ([], [])
  | c :: rest =>
      match digit? c with
      | some d => (d :: (spanDigits rest).1, (spanDigits rest).2)
      | none => ([], c :: rest)

/-- The text does not go on with a digit. -/
def NoDigit (text : JsString) : Prop := ∀ c, text.head? = some c → digit? c = none

theorem spanDigits_append (digits : List Digit) {rest : JsString} (hrest : NoDigit rest) :
    spanDigits (digits.map digit ++ rest) = (digits, rest) := by
  induction digits with
  | nil =>
      cases rest with
      | nil => rfl
      | cons c rest => simp [spanDigits, hrest c rfl]
  | cons d digits ih => simp [spanDigits, ih]

/-- The digits of a natural number. -/
def natDigits (n : ℕ) : List Digit :=
  if n = 0 then [0] else (Nat.digits 10 n).reverse.map (Fin.ofNat 10)

def natValue (digits : List Digit) : ℕ := Nat.ofDigits 10 (digits.map Fin.val).reverse

theorem natValue_natDigits (n : ℕ) : natValue (natDigits n) = n := by
  unfold natValue natDigits
  by_cases hn : n = 0
  · rw [if_pos hn, hn]
    rfl
  · have hsmall : (Nat.digits 10 n).reverse.map (Fin.val ∘ Fin.ofNat 10) =
        (Nat.digits 10 n).reverse := by
      refine (List.map_congr_left fun d hd => ?_).trans (List.map_id _)
      exact Nat.mod_eq_of_lt (Nat.digits_lt_base (by omega) (List.mem_reverse.mp hd))
    rw [if_neg hn, List.map_map, hsmall, List.reverse_reverse, Nat.ofDigits_digits]

theorem natDigits_ne_nil (n : ℕ) : natDigits n ≠ [] := by
  unfold natDigits
  split
  · simp
  · rename_i hn
    simpa [Nat.digits_eq_nil_iff_eq_zero] using hn

/-! ## Numbers -/

/-- Digits without zeros at either end. -/
structure Normal (digits : List Digit) : Prop where
  ne_nil : digits ≠ []
  head : digits.head? ≠ some 0
  last : digits.getLast? ≠ some 0

inductive Number
  | zero
  -- The digits, with the decimal point after the given number of them.
  | nonzero (negative : Bool) (digits : List Digit) (point : ℤ) (h : Normal digits)

def isZero (d : Digit) : Bool := d = 0

/-- The digits without the zeros at their ends. -/
def trimZeros (digits : List Digit) : List Digit :=
  (digits.dropWhile isZero).rdropWhile isZero

theorem normal_trimZeros {digits : List Digit} (h : trimZeros digits ≠ []) :
    Normal (trimZeros digits) := by
  refine ⟨h, ?_, ?_⟩
  · intro hhead
    unfold trimZeros at hhead h
    obtain ⟨rest, hrest⟩ := List.rdropWhile_prefix isZero (l := digits.dropWhile isZero)
    obtain ⟨first, others, hsplit⟩ := List.exists_cons_of_ne_nil h
    rw [hsplit] at hhead hrest
    have hfirst : digits.dropWhile isZero = first :: (others ++ rest) := by rw [← hrest]; rfl
    have hnot := List.head_dropWhile_not isZero (l := digits) (by rw [hfirst]; simp)
    simp only [hfirst, List.head_cons] at hnot
    rw [Option.some.inj hhead] at hnot
    cases hnot
  · intro hlast
    have hnot := List.rdropWhile_last_not isZero (digits.dropWhile isZero) h
    rw [List.getLast?_eq_some_getLast h] at hlast
    have hzero := Option.some.inj hlast
    unfold trimZeros at hzero
    rw [hzero] at hnot
    exact hnot rfl

/-- The number with the given digits and the decimal point after some of them. -/
def Number.of (negative : Bool) (digits : List Digit) (point : ℤ) : Number :=
  if h : trimZeros digits = [] then .zero
  else .nonzero negative (trimZeros digits) (point - (digits.takeWhile isZero).length)
    (normal_trimZeros h)

theorem isZero_replicate {n : ℕ} : ∀ d ∈ List.replicate n (0 : Digit), isZero d = true := by
  intro d hd
  rw [List.eq_of_mem_replicate hd]
  rfl

theorem rdropWhile_append_zeros (digits : List Digit) (n : ℕ) :
    (digits ++ List.replicate n 0).rdropWhile isZero = digits.rdropWhile isZero := by
  induction n with
  | zero => rw [List.replicate_zero, List.append_nil]
  | succ n ih =>
      rw [List.replicate_succ', ← List.append_assoc, List.rdropWhile_concat_pos _ _ _ rfl, ih]

/-- Zeros at the ends do not count, but for the decimal point. -/
theorem Number.of_eq {digits : List Digit} (h : Normal digits) (negative : Bool) (before after : ℕ)
    (point : ℤ) :
    Number.of negative (List.replicate before 0 ++ (digits ++ List.replicate after 0)) point =
      .nonzero negative digits (point - before) h := by
  have hdrop : (digits ++ List.replicate after 0).dropWhile isZero =
      digits ++ List.replicate after 0 ∧
      (digits ++ List.replicate after 0).takeWhile isZero = [] := by
    obtain ⟨first, rest, rfl⟩ := List.exists_cons_of_ne_nil h.ne_nil
    have hfirst : isZero first = false := by
      have hhead := h.head
      simp only [List.head?_cons, ne_eq, Option.some.injEq] at hhead
      simpa [isZero] using hhead
    simp [hfirst]
  have htake : (List.replicate before (0 : Digit) ++
      (digits ++ List.replicate after 0)).takeWhile isZero = List.replicate before 0 := by
    rw [List.takeWhile_append_of_pos isZero_replicate, hdrop.2, List.append_nil]
  have htrim : trimZeros (List.replicate before (0 : Digit) ++
      (digits ++ List.replicate after 0)) = digits := by
    unfold trimZeros
    rw [List.dropWhile_append_of_pos isZero_replicate, hdrop.1, rdropWhile_append_zeros,
      List.rdropWhile_eq_self_iff]
    intro hne hzero
    refine h.last ?_
    rw [List.getLast?_eq_some_getLast hne]
    exact congrArg some (of_decide_eq_true hzero)
  unfold Number.of
  rw [dif_neg (by rw [htrim]; exact h.ne_nil), htake, List.length_replicate]
  congr 1

/-! ## Writing -/

def point : CodeUnit := 46
def plus : CodeUnit := 43
def minus : CodeUnit := 45
def exponentMark : CodeUnit := 101
def exponentMark' : CodeUnit := 69

def exponentText (exponent : ℤ) : JsString :=
  exponentMark :: (if 0 ≤ exponent then plus else minus) :: (natDigits exponent.natAbs).map digit

/-- The number that has the digits, with the decimal point after `n` of them. -/
def decimalText (digits : List Digit) (n : ℤ) : JsString :=
  if digits.length ≤ n ∧ n ≤ 21 then
    digits.map digit ++ List.replicate (n - digits.length).toNat (digit 0)
  else if 0 < n ∧ n ≤ 21 then
    (digits.take n.toNat).map digit ++ point :: (digits.drop n.toNat).map digit
  else if -6 < n ∧ n ≤ 0 then
    digit 0 :: point :: (List.replicate (-n).toNat (digit 0) ++ digits.map digit)
  else
    match digits with
    | [] => []
    | [d] => digit d :: exponentText (n - 1)
    | d :: rest => digit d :: point :: (rest.map digit ++ exponentText (n - 1))

/-- `Number.prototype.toString`. -/
def Number.text : Number → JsString
  | .zero => [digit 0]
  | .nonzero negative digits n _ => (if negative then [minus] else []) ++ decimalText digits n

/-! ## Reading -/

def readInteger (text : JsString) : Option (List Digit × JsString) :=
  match text with
  | [] => none
  | c :: rest =>
      if c = digit 0 then some ([0], rest)
      else if (spanDigits text).1 = [] then none else some (spanDigits text)

def readFraction (text : JsString) : Option (List Digit × JsString) :=
  match text with
  | [] => some ([], [])
  | c :: rest =>
      if c ≠ point then some ([], text)
      else if (spanDigits rest).1 = [] then none else some (spanDigits rest)

def readSign (text : JsString) : Bool × JsString :=
  match text with
  | [] => (false, [])
  | c :: rest => if c = minus then (true, rest) else if c = plus then (false, rest) else (false, text)

def readExponent (text : JsString) : Option (ℤ × JsString) :=
  match text with
  | [] => some (0, [])
  | c :: rest =>
      if ¬ (c = exponentMark ∨ c = exponentMark') then some (0, text)
      else
        let (negative, rest) := readSign rest
        if (spanDigits rest).1 = [] then none
        else
          let magnitude : ℤ := natValue (spanDigits rest).1
          some (if negative then -magnitude else magnitude, (spanDigits rest).2)

/-- A number without its sign. -/
def readDecimal (negative : Bool) (text : JsString) : Option (Number × JsString) := do
  let (whole, text) ← readInteger text
  let (fraction, text) ← readFraction text
  let (exponent, text) ← readExponent text
  return (Number.of negative (whole ++ fraction) (whole.length + exponent), text)

def readNumber (text : JsString) : Option (Number × JsString) :=
  match text with
  | [] => none
  | c :: rest => if c = minus then readDecimal true rest else readDecimal false text

/-! ## Numbers that are written are read -/

/-- What follows a number does not belong to it. -/
structure Ended (text : JsString) : Prop where
  digit : NoDigit text
  point : text.head? ≠ some point
  exponent : text.head? ≠ some exponentMark ∧ text.head? ≠ some exponentMark'

variable {rest : JsString}

theorem readFraction_none (h : rest.head? ≠ some point) : readFraction rest = some ([], rest) := by
  cases rest with
  | nil => rfl
  | cons c rest =>
      unfold readFraction
      exact if_pos fun hc => h (congrArg some hc)

theorem readFraction_some {fraction : List Digit} (hne : fraction ≠ []) (hrest : NoDigit rest) :
    readFraction (point :: (fraction.map digit ++ rest)) = some (fraction, rest) := by
  unfold readFraction
  dsimp only
  rw [if_neg (not_not.mpr rfl), spanDigits_append fraction hrest, if_neg hne]

theorem readExponent_none (h : Ended rest) : readExponent rest = some (0, rest) := by
  cases rest with
  | nil => rfl
  | cons c rest =>
      unfold readExponent
      refine if_pos fun hc => ?_
      rcases hc with hc | hc
      · exact h.exponent.1 (congrArg some hc)
      · exact h.exponent.2 (congrArg some hc)

theorem digit_inj {d d' : Digit} (h : digit d = digit d') : d = d' := by
  have hread := congrArg digit? h
  rw [digit?_digit, digit?_digit] at hread
  exact Option.some.inj hread

theorem readExponent_exponentText (exponent : ℤ) (h : NoDigit rest) :
    readExponent (exponentText exponent ++ rest) = some (exponent, rest) := by
  have hspan := spanDigits_append (natDigits exponent.natAbs) h
  have hne := natDigits_ne_nil exponent.natAbs
  unfold readExponent exponentText
  simp only [List.cons_append]
  rw [if_neg (not_not.mpr (.inl trivial))]
  by_cases hsign : 0 ≤ exponent
  · rw [if_pos hsign]
    have hplus : readSign (plus :: ((natDigits exponent.natAbs).map digit ++ rest)) =
        (false, (natDigits exponent.natAbs).map digit ++ rest) := rfl
    simp only [hplus, hspan, hne, natValue_natDigits, if_false]
    simp [abs_of_nonneg hsign]
  · rw [if_neg hsign]
    have hminus : readSign (minus :: ((natDigits exponent.natAbs).map digit ++ rest)) =
        (true, (natDigits exponent.natAbs).map digit ++ rest) := rfl
    simp only [hminus, hspan, hne, natValue_natDigits, if_false]
    simp [abs_of_neg (not_le.mp hsign)]

theorem readInteger_digits {digits : List Digit} (hne : digits ≠ []) (hhead : digits.head? ≠ some 0)
    (hrest : NoDigit rest) : readInteger (digits.map digit ++ rest) = some (digits, rest) := by
  have hspan := spanDigits_append digits hrest
  obtain ⟨first, others, rfl⟩ := List.exists_cons_of_ne_nil hne
  have hfirst : digit first ≠ digit 0 := fun heq => hhead (congrArg some (digit_inj heq))
  rw [List.map_cons, List.cons_append] at hspan ⊢
  unfold readInteger
  dsimp only
  rw [if_neg hfirst, hspan, if_neg (List.cons_ne_nil _ _)]

theorem noDigit_cons {c : CodeUnit} (hc : digit? c = none) : NoDigit (c :: rest) := by
  intro c' hc'
  rw [← Option.some.inj hc']
  exact hc

variable {digits : List Digit} (h : Normal digits) (negative : Bool) {n : ℤ}

include h

/-- Digits, and zeros up to the decimal point. -/
theorem readDecimal_whole (hrest : Ended rest) (hn : digits.length ≤ n) :
    readDecimal negative
      (digits.map digit ++ List.replicate (n - digits.length).toNat (digit 0) ++ rest) =
        some (.nonzero negative digits n h, rest) := by
  have hwhole : digits.map digit ++ List.replicate (n - digits.length).toNat (digit 0) =
      (digits ++ List.replicate (n - digits.length).toNat 0).map digit := by
    rw [List.map_append, List.map_replicate]
  have hinteger : readInteger
      ((digits ++ List.replicate (n - digits.length).toNat 0).map digit ++ rest) =
        some (digits ++ List.replicate (n - digits.length).toNat 0, rest) :=
    readInteger_digits (List.append_ne_nil_of_left_ne_nil h.ne_nil _)
      (by rw [List.head?_append_of_ne_nil _ h.ne_nil]; exact h.head) hrest.digit
  have hof := Number.of_eq h negative 0 (n - digits.length).toNat n
  unfold readDecimal
  rw [hwhole, hinteger]
  simp only [Option.bind_eq_bind, Option.bind_some, readFraction_none hrest.point,
    readExponent_none hrest]
  have hlength : ((digits ++ List.replicate (n - digits.length).toNat 0).length : ℤ) + 0 = n := by
    rw [List.length_append, List.length_replicate]
    omega
  rw [List.append_nil, hlength]
  simpa using hof

/-- Digits on both sides of the decimal point. -/
theorem readDecimal_point (hrest : Ended rest) (hpos : 0 < n) (hn : n < digits.length) :
    readDecimal negative
      ((digits.take n.toNat).map digit ++ point :: (digits.drop n.toNat).map digit ++ rest) =
        some (.nonzero negative digits n h, rest) := by
  have htake : digits.take n.toNat ≠ [] := by
    rw [ne_eq, List.take_eq_nil_iff, not_or]
    exact ⟨by omega, h.ne_nil⟩
  have hdrop : digits.drop n.toNat ≠ [] := by
    rw [ne_eq, List.drop_eq_nil_iff]
    omega
  have hinteger : readInteger ((digits.take n.toNat).map digit ++
      point :: ((digits.drop n.toNat).map digit ++ rest)) =
        some (digits.take n.toNat, point :: ((digits.drop n.toNat).map digit ++ rest)) :=
    readInteger_digits htake (by rw [List.head?_take, if_neg (by omega)]; exact h.head)
      (noDigit_cons (by decide))
  have hof := Number.of_eq h negative 0 0 n
  unfold readDecimal
  rw [List.append_assoc, List.cons_append, hinteger]
  simp only [Option.bind_eq_bind, Option.bind_some, readFraction_some hdrop hrest.digit,
    readExponent_none hrest]
  have hlength : ((digits.take n.toNat).length : ℤ) + 0 = n := by
    rw [List.length_take]
    omega
  rw [List.take_append_drop, hlength]
  simpa using hof

/-- Zeros after the decimal point. -/
theorem readDecimal_zeros (hrest : Ended rest) (hn : n ≤ 0) :
    readDecimal negative
      (digit 0 :: point :: (List.replicate (-n).toNat (digit 0) ++ digits.map digit) ++ rest) =
        some (.nonzero negative digits n h, rest) := by
  have hfraction : List.replicate (-n).toNat (digit 0) ++ digits.map digit =
      (List.replicate (-n).toNat 0 ++ digits).map digit := by
    rw [List.map_append, List.map_replicate]
  have hof := Number.of_eq h negative (1 + (-n).toNat) 0 1
  unfold readDecimal
  have hinteger : readInteger (digit 0 :: point :: (List.replicate (-n).toNat (digit 0) ++
      digits.map digit) ++ rest) =
        some ([0], point :: ((List.replicate (-n).toNat 0 ++ digits).map digit ++ rest)) := by
    rw [hfraction]
    rfl
  rw [hinteger]
  simp only [Option.bind_eq_bind, Option.bind_some,
    readFraction_some (List.append_ne_nil_of_right_ne_nil _ h.ne_nil) hrest.digit,
    readExponent_none hrest]
  have hdigits : [0] ++ (List.replicate (-n).toNat 0 ++ digits) =
      List.replicate (1 + (-n).toNat) 0 ++ (digits ++ List.replicate 0 0) := by
    rw [List.replicate_zero, List.append_nil, List.replicate_add, List.append_assoc]
    rfl
  rw [hdigits]
  have hpoint : (1 : ℤ) - ((1 + (-n).toNat : ℕ) : ℤ) = n := by omega
  rw [hpoint] at hof
  exact congrArg (fun number => some (number, rest)) hof

/-- One digit and an exponent. -/
theorem readDecimal_digit (hrest : Ended rest) {first : Digit} (hdigits : digits = [first]) :
    readDecimal negative (digit first :: exponentText (n - 1) ++ rest) =
      some (.nonzero negative digits n h, rest) := by
  subst hdigits
  have hinteger : readInteger ([first].map digit ++ (exponentText (n - 1) ++ rest)) =
      some ([first], exponentText (n - 1) ++ rest) :=
    readInteger_digits h.ne_nil h.head (noDigit_cons (by decide))
  have hfraction : readFraction (exponentText (n - 1) ++ rest) =
      some ([], exponentText (n - 1) ++ rest) := by
    refine readFraction_none ?_
    unfold exponentText
    simp only [List.cons_append, List.head?_cons, ne_eq, Option.some.injEq]
    decide
  have hof := Number.of_eq h negative 0 0 n
  have hpoint : (([first] : List Digit).length : ℤ) + (n - 1) = n := by
    simp
  unfold readDecimal
  rw [List.cons_append]
  change (do
    let (whole, text) ← readInteger ([first].map digit ++ (exponentText (n - 1) ++ rest))
    let (fraction, text) ← readFraction text
    let (exponent, text) ← readExponent text
    return (Number.of negative (whole ++ fraction) (whole.length + exponent), text)) = _
  rw [hinteger]
  simp only [Option.bind_eq_bind, Option.bind_some, hfraction,
    readExponent_exponentText _ hrest.digit, List.append_nil, hpoint]
  simpa using hof

/-- Digits on both sides of the decimal point and an exponent. -/
theorem readDecimal_scientific (hrest : Ended rest) {first : Digit} {others : List Digit}
    (hdigits : digits = first :: others) (hothers : others ≠ []) :
    readDecimal negative
      (digit first :: point :: (others.map digit ++ exponentText (n - 1)) ++ rest) =
        some (.nonzero negative digits n h, rest) := by
  subst hdigits
  have hhead : ([first] : List Digit).head? ≠ some 0 := h.head
  have hinteger : readInteger ([first].map digit ++
      point :: (others.map digit ++ (exponentText (n - 1) ++ rest))) =
        some ([first], point :: (others.map digit ++ (exponentText (n - 1) ++ rest))) :=
    readInteger_digits (List.cons_ne_nil _ _) hhead (noDigit_cons (by decide))
  have hfraction : readFraction (point :: (others.map digit ++ (exponentText (n - 1) ++ rest))) =
      some (others, exponentText (n - 1) ++ rest) :=
    readFraction_some hothers (noDigit_cons (by decide))
  have hof := Number.of_eq h negative 0 0 n
  have hpoint : (([first] : List Digit).length : ℤ) + (n - 1) = n := by
    simp
  unfold readDecimal
  rw [List.cons_append, List.cons_append, List.append_assoc]
  change (do
    let (whole, text) ← readInteger ([first].map digit ++
      point :: (others.map digit ++ (exponentText (n - 1) ++ rest)))
    let (fraction, text) ← readFraction text
    let (exponent, text) ← readExponent text
    return (Number.of negative (whole ++ fraction) (whole.length + exponent), text)) = _
  rw [hinteger]
  simp only [Option.bind_eq_bind, Option.bind_some, hfraction,
    readExponent_exponentText _ hrest.digit, hpoint]
  simpa using hof

theorem readDecimal_decimalText (hrest : Ended rest) :
    readDecimal negative (decimalText digits n ++ rest) =
      some (.nonzero negative digits n h, rest) := by
  unfold decimalText
  split
  · rename_i hn
    exact readDecimal_whole h negative hrest hn.1
  · rename_i hwhole
    split
    · rename_i hn
      exact readDecimal_point h negative hrest hn.1 (by omega)
    · split
      · rename_i hn
        exact readDecimal_zeros h negative hrest hn.2
      · split
        · exact absurd rfl h.ne_nil
        · exact readDecimal_digit h negative hrest rfl
        · rename_i first others hothers
          exact readDecimal_scientific h negative hrest rfl fun hnil => hothers (by rw [hnil])

omit h

theorem head_decimalText {digits : List Digit} (h : Normal digits) :
    ∃ d text, decimalText digits n = digit d :: text := by
  obtain ⟨first, others, rfl⟩ := List.exists_cons_of_ne_nil h.ne_nil
  unfold decimalText
  split
  · exact ⟨first, _, rfl⟩
  · split
    · rename_i hn
      obtain ⟨k, hk⟩ : ∃ k, n.toNat = k + 1 := ⟨n.toNat - 1, by omega⟩
      rw [hk]
      exact ⟨first, _, rfl⟩
    · split
      · exact ⟨0, _, rfl⟩
      · split
        · rename_i hnil
          cases hnil
        · rename_i d hd
          exact ⟨d, _, rfl⟩
        · rename_i d rest _ hd
          exact ⟨d, _, rfl⟩

theorem digit_ne_minus (d : Digit) : digit d ≠ minus := by
  revert d
  decide

/-- **A number that is written is read.** -/
theorem readNumber_text (number : Number) (hrest : Ended rest) :
    readNumber (number.text ++ rest) = some (number, rest) := by
  cases number with
  | zero =>
      have hzero : readNumber (Number.zero.text ++ rest) = readDecimal false (digit 0 :: rest) := rfl
      have hinteger : readInteger (digit 0 :: rest) = some ([0], rest) := rfl
      rw [hzero]
      unfold readDecimal
      rw [hinteger]
      simp only [Option.bind_eq_bind, Option.bind_some, readFraction_none hrest.point,
        readExponent_none hrest]
      rfl
  | nonzero negative digits n h =>
      have hread : readDecimal negative (decimalText digits n ++ rest) =
          some (.nonzero negative digits n h, rest) := readDecimal_decimalText h negative hrest
      cases negative with
      | true => exact hread
      | false =>
          obtain ⟨d, text, htext⟩ : ∃ d text, decimalText digits n = digit d :: text :=
            head_decimalText h
          show readNumber (decimalText digits n ++ rest) = _
          rw [htext] at hread ⊢
          show (if digit d = minus then readDecimal true (text ++ rest)
            else readDecimal false (digit d :: text ++ rest)) = _
          rw [if_neg (digit_ne_minus d)]
          exact hread

end Hemlig.Json
