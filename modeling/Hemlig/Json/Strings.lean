import Hemlig.Text.Utf8
import Mathlib.Data.List.Basic

/-!
# Strings of JSON texts

A string of code units is quoted as `JSON.stringify` does: quotation marks, backslashes and control
characters are escaped, and so are surrogates that form no pair.  Reading undoes this, whatever
escapes were chosen.
-/

namespace Hemlig.Json

open Text

def quotationMark : CodeUnit := 34
def backslash : CodeUnit := 92
def letterU : CodeUnit := 117

/-! ## Escapes -/

/-- The letter of an escape, for the units that have one. -/
def escapeLetter (c : CodeUnit) : Option CodeUnit :=
  if c = 8 then some 98
  else if c = 9 then some 116
  else if c = 10 then some 110
  else if c = 12 then some 102
  else if c = 13 then some 114
  else if c = quotationMark then some quotationMark
  else if c = backslash then some backslash
  else none

/-- What the letter of an escape stands for; the solidus may be escaped, but need not. -/
def escaped (letter : CodeUnit) : Option CodeUnit :=
  if letter = 98 then some 8
  else if letter = 116 then some 9
  else if letter = 110 then some 10
  else if letter = 102 then some 12
  else if letter = 114 then some 13
  else if letter = quotationMark then some quotationMark
  else if letter = backslash then some backslash
  else if letter = 47 then some 47
  else none

def hexDigit (n : ℕ) : CodeUnit := if n < 10 then (48 + n).toUInt16 else (87 + n).toUInt16

def hexValue (c : CodeUnit) : Option ℕ :=
  if 48 ≤ c.toNat ∧ c.toNat < 58 then some (c.toNat - 48)
  else if 97 ≤ c.toNat ∧ c.toNat < 103 then some (c.toNat - 87)
  else if 65 ≤ c.toNat ∧ c.toNat < 71 then some (c.toNat - 55)
  else none

theorem hexValue_hexDigit {n : ℕ} (hn : n < 16) : hexValue (hexDigit n) = some n := by
  have hall : ∀ n < 16, hexValue (hexDigit n) = some n := by decide
  exact hall n hn

/-- `\u` and four hexadecimal digits. -/
def unicodeEscape (c : CodeUnit) : JsString :=
  [backslash, letterU, hexDigit (c.toNat / 4096), hexDigit (c.toNat / 256 % 16),
    hexDigit (c.toNat / 16 % 16), hexDigit (c.toNat % 16)]

/-- A unit that is not the half of a pair. -/
def quoteUnit (c : CodeUnit) : JsString :=
  match escapeLetter c with
  | some letter => [backslash, letter]
  | none =>
      if c.toNat < 32 ∨ isHighSurrogate c ∨ isLowSurrogate c then unicodeEscape c else [c]

def quoteUnits : JsString → JsString
  | [] => []
  | [c] => quoteUnit c
  | c :: d :: rest =>
      if isHighSurrogate c ∧ isLowSurrogate d then c :: d :: quoteUnits rest
      else quoteUnit c ++ quoteUnits (d :: rest)

/-- `QuoteJSONString`. -/
def quote (s : JsString) : JsString := quotationMark :: (quoteUnits s ++ [quotationMark])

/-! ## Reading -/

/-- Where in a string, or in an escape, the reader is. -/
inductive Reading
  | plain
  | escape
  -- Some hexadecimal digits of four, and their value.
  | hex (count value : ℕ)

/-- A string up to its closing quotation mark, and what follows. -/
def readUnits : Reading → JsString → Option (JsString × JsString)
  | _, [] => none
  | .plain, c :: rest =>
      if c = quotationMark then some ([], rest)
      else if c = backslash then readUnits .escape rest
      else if c.toNat < 32 then none
      else (readUnits .plain rest).map (Prod.map (c :: ·) id)
  | .escape, c :: rest =>
      if c = letterU then readUnits (.hex 0 0) rest
      else
        match escaped c with
        | some unit => (readUnits .plain rest).map (Prod.map (unit :: ·) id)
        | none => none
  | .hex count value, c :: rest =>
      match hexValue c with
      | none => none
      | some d =>
          if count = 3 then
            (readUnits .plain rest).map (Prod.map ((16 * value + d).toUInt16 :: ·) id)
          else readUnits (.hex (count + 1) (16 * value + d)) rest

def readString (text : JsString) : Option (JsString × JsString) := readUnits .plain text

/-! ## Strings that are quoted are read -/

variable {c : CodeUnit} {rest : JsString}

theorem readUnits_plain :
    readUnits .plain (c :: rest) =
      if c = quotationMark then some ([], rest)
      else if c = backslash then readUnits .escape rest
      else if c.toNat < 32 then none
      else (readUnits .plain rest).map (Prod.map (c :: ·) id) := rfl

theorem readUnits_unicode : readUnits .escape (letterU :: rest) = readUnits (.hex 0 0) rest := rfl

theorem readString_escape : readString (backslash :: rest) = readUnits .escape rest := rfl

theorem readString_unit (hquote : c ≠ quotationMark) (hbackslash : c ≠ backslash)
    (hcontrol : 32 ≤ c.toNat) :
    readString (c :: rest) = (readString rest).map (Prod.map (c :: ·) id) := by
  unfold readString
  rw [readUnits_plain, if_neg hquote, if_neg hbackslash, if_neg (by omega)]

theorem readUnits_hexDigit {count value n : ℕ} (hn : n < 16) :
    readUnits (.hex count value) (hexDigit n :: rest) =
      if count = 3 then
        (readUnits .plain rest).map (Prod.map ((16 * value + n).toUInt16 :: ·) id)
      else readUnits (.hex (count + 1) (16 * value + n)) rest := by
  rw [readUnits, hexValue_hexDigit hn]

theorem readUnits_hex {count value n : ℕ} (hn : n < 16) (hcount : count ≠ 3) :
    readUnits (.hex count value) (hexDigit n :: rest) =
      readUnits (.hex (count + 1) (16 * value + n)) rest := by
  rw [readUnits_hexDigit hn, if_neg hcount]

theorem readString_unicodeEscape :
    readString (unicodeEscape c ++ rest) = (readString rest).map (Prod.map (c :: ·) id) := by
  have hsmall : c.toNat < 65536 := c.toNat_lt
  have hvalue : (16 * (16 * (16 * (16 * 0 + c.toNat / 4096) + c.toNat / 256 % 16) +
      c.toNat / 16 % 16) + c.toNat % 16).toUInt16 = c := by
    have hsum : 16 * (16 * (16 * (16 * 0 + c.toNat / 4096) + c.toNat / 256 % 16) +
        c.toNat / 16 % 16) + c.toNat % 16 = c.toNat := by omega
    rw [hsum]
    simp
  unfold unicodeEscape
  simp only [List.cons_append, List.nil_append]
  rw [readString_escape, readUnits_unicode, readUnits_hex (by omega) (by omega),
    readUnits_hex (by omega) (by omega), readUnits_hex (by omega) (by omega),
    readUnits_hexDigit (by omega), if_pos rfl, hvalue]
  rfl

theorem escaped_escapeLetter {letter : CodeUnit} (h : escapeLetter c = some letter) :
    escaped letter = some c ∧ letter ≠ letterU := by
  unfold escapeLetter at h
  split_ifs at h with h8 h9 h10 h12 h13 hquote hbackslash
  all_goals
    obtain rfl := Option.some.inj h
    subst_vars
    decide

theorem readString_quoteUnit :
    readString (quoteUnit c ++ rest) = (readString rest).map (Prod.map (c :: ·) id) := by
  unfold quoteUnit
  split
  · rename_i letter hletter
    obtain ⟨hescaped, hne⟩ := escaped_escapeLetter hletter
    rw [List.cons_append, List.cons_append, List.nil_append, readString_escape, readUnits,
      if_neg hne, hescaped]
    rfl
  · rename_i hletter
    split
    · exact readString_unicodeEscape
    · rename_i hplain
      have hquote : c ≠ quotationMark := by
        rintro rfl
        simp [escapeLetter, quotationMark] at hletter
      have hbackslash : c ≠ backslash := by
        rintro rfl
        simp [escapeLetter, backslash, quotationMark] at hletter
      exact readString_unit hquote hbackslash (by omega)

theorem readString_quoteUnits (s : JsString) :
    readString (quoteUnits s ++ quotationMark :: rest) = some (s, rest) := by
  induction s using quoteUnits.induct with
  | case1 => rfl
  | case2 c =>
      rw [quoteUnits, readString_quoteUnit]
      rfl
  | case3 c d s hpair ih =>
      have hsurrogate : ∀ {c : CodeUnit}, 0xD800 ≤ c.toNat →
          c ≠ quotationMark ∧ c ≠ backslash ∧ 32 ≤ c.toNat := by
        intro c hc
        refine ⟨?_, ?_, by omega⟩
        · rintro rfl
          exact absurd hc (by decide)
        · rintro rfl
          exact absurd hc (by decide)
      have hhigh := (of_decide_eq_true hpair.1).1
      have hlow := (of_decide_eq_true hpair.2).1
      have hlow' : 0xD800 ≤ d.toNat := by omega
      obtain ⟨hquote, hbackslash, hcontrol⟩ := hsurrogate hhigh
      obtain ⟨hquote', hbackslash', hcontrol'⟩ := hsurrogate hlow'
      rw [quoteUnits, if_pos hpair, List.cons_append, List.cons_append,
        readString_unit hquote hbackslash hcontrol, readString_unit hquote' hbackslash' hcontrol',
        ih]
      rfl
  | case4 c d s hpair ih =>
      rw [quoteUnits, if_neg hpair, List.append_assoc, readString_quoteUnit, ih]
      rfl

/-- **A string that is quoted is read.** -/
theorem readString_quote (s rest : JsString) :
    ∃ text, quote s ++ rest = quotationMark :: text ∧ readString text = some (s, rest) := by
  refine ⟨quoteUnits s ++ quotationMark :: rest, ?_, readString_quoteUnits s⟩
  unfold quote
  simp

end Hemlig.Json
