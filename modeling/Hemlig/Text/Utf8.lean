import Hemlig.Text.Utf16

/-!
# Bytes of strings

A surrogate that forms no pair has no bytes of its own: it is written as the replacement character.
A string without such surrogates is found again from its characters, and so its bytes identify it.
-/

namespace Hemlig.Text

/-! ## Surrogates -/

def isHighSurrogate (c : CodeUnit) : Bool := 0xD800 ≤ c.toNat ∧ c.toNat < 0xDC00

def isLowSurrogate (c : CodeUnit) : Bool := 0xDC00 ≤ c.toNat ∧ c.toNat < 0xE000

def isSurrogate (c : CodeUnit) : Bool := 0xD800 ≤ c.toNat ∧ c.toNat < 0xE000

/-- Every surrogate of the string is part of a pair. -/
inductive WellFormed : JsString → Prop
  | nil : WellFormed []
  | single {c : CodeUnit} {rest : JsString} (h : isSurrogate c = false)
      (hrest : WellFormed rest) : WellFormed (c :: rest)
  | pair {c d : CodeUnit} {rest : JsString} (hhigh : isHighSurrogate c = true)
      (hlow : isLowSurrogate d = true) (hrest : WellFormed rest) : WellFormed (c :: d :: rest)

theorem WellFormed.append {s t : JsString} (hs : WellFormed s) (ht : WellFormed t) :
    WellFormed (s ++ t) := by
  induction hs with
  | nil => exact ht
  | single h _ ih => exact .single h ih
  | pair hhigh hlow _ ih => exact .pair hhigh hlow ih

theorem wellFormed_of_units {s : JsString} (h : ∀ c ∈ s, isSurrogate c = false) :
    WellFormed s := by
  induction s with
  | nil => exact .nil
  | cons c rest ih =>
      exact .single (h c List.mem_cons_self) (ih fun d hd => h d (List.mem_cons_of_mem _ hd))

theorem isSurrogate_of_isHighSurrogate {c : CodeUnit} (h : isHighSurrogate c = true) :
    isSurrogate c = true := by
  simp only [isHighSurrogate, isSurrogate, decide_eq_true_eq] at h ⊢
  omega

/-! ## Characters -/

def replacementCharacter : Char := Char.ofNat 0xFFFD

/-- The character of a unit that is not the half of a pair. -/
def singleCharacter (c : CodeUnit) : Char :=
  if isSurrogate c then replacementCharacter else Char.ofNat c.toNat

def pairCharacter (c d : CodeUnit) : Char :=
  Char.ofNat (0x10000 + (c.toNat - 0xD800) * 0x400 + (d.toNat - 0xDC00))

/-- The characters of a string. -/
def characters : JsString → List Char
  | [] => []
  | [c] => [singleCharacter c]
  | c :: d :: rest =>
      if isHighSurrogate c ∧ isLowSurrogate d then pairCharacter c d :: characters rest
      else singleCharacter c :: characters (d :: rest)

/-- `Buffer.from(text, "utf8")`. -/
def utf8 (text : JsString) : ByteArray := (String.ofList (characters text)).toUTF8

/-- The units of a character. -/
def unitsOf (character : Char) : JsString :=
  if character.toNat < 0x10000 then [character.toNat.toUInt16]
  else [(0xD800 + (character.toNat - 0x10000) / 0x400).toUInt16,
    (0xDC00 + (character.toNat - 0x10000) % 0x400).toUInt16]

/-! ## Strings from their bytes -/

theorem toNat_ofNat {n : ℕ} (h : n.isValidChar) : (Char.ofNat n).toNat = n := by
  unfold Char.ofNat
  rw [dif_pos h]
  rfl

theorem unitsOf_singleCharacter {c : CodeUnit} (h : isSurrogate c = false) :
    unitsOf (singleCharacter c) = [c] := by
  have hlt : c.toNat < 0x10000 := c.toNat_lt
  have hvalid : c.toNat.isValidChar := by
    unfold Nat.isValidChar
    simp only [isSurrogate, decide_eq_false_iff_not] at h
    omega
  have hsingle : singleCharacter c = Char.ofNat c.toNat := by
    unfold singleCharacter
    rw [h, if_neg Bool.false_ne_true]
  unfold unitsOf
  rw [hsingle, toNat_ofNat hvalid, if_pos hlt]
  simp

theorem unitsOf_pairCharacter {c d : CodeUnit} (hhigh : isHighSurrogate c = true)
    (hlow : isLowSurrogate d = true) : unitsOf (pairCharacter c d) = [c, d] := by
  simp only [isHighSurrogate, isLowSurrogate, decide_eq_true_eq] at hhigh hlow
  have hvalid : Nat.isValidChar (0x10000 + (c.toNat - 0xD800) * 0x400 + (d.toNat - 0xDC00)) := by
    unfold Nat.isValidChar
    omega
  unfold pairCharacter unitsOf
  rw [toNat_ofNat hvalid, if_neg (by omega)]
  have hfirst : 0xD800 + (0x10000 + (c.toNat - 0xD800) * 0x400 + (d.toNat - 0xDC00) - 0x10000) /
      0x400 = c.toNat := by omega
  have hsecond : 0xDC00 + (0x10000 + (c.toNat - 0xD800) * 0x400 + (d.toNat - 0xDC00) - 0x10000) %
      0x400 = d.toNat := by omega
  rw [hfirst, hsecond]
  simp

theorem characters_single {c : CodeUnit} (h : isSurrogate c = false) (rest : JsString) :
    characters (c :: rest) = singleCharacter c :: characters rest := by
  cases rest with
  | nil => rfl
  | cons d rest =>
      have hnot : ¬ isHighSurrogate c = true := fun hhigh =>
        Bool.false_ne_true (h.symm.trans (isSurrogate_of_isHighSurrogate hhigh))
      rw [characters, if_neg fun hpair => hnot hpair.1]

theorem flatMap_unitsOf_characters {s : JsString} (h : WellFormed s) :
    (characters s).flatMap unitsOf = s := by
  induction h with
  | nil => rfl
  | single h _ ih =>
      rw [characters_single h, List.flatMap_cons, unitsOf_singleCharacter h, ih]
      rfl
  | pair hhigh hlow _ ih =>
      rw [characters, if_pos ⟨hhigh, hlow⟩, List.flatMap_cons, unitsOf_pairCharacter hhigh hlow, ih]
      rfl

/-- **The bytes of a string without unpaired surrogates identify it.** -/
theorem eq_of_utf8_eq {s t : JsString} (hs : WellFormed s) (ht : WellFormed t)
    (h : utf8 s = utf8 t) : s = t := by
  have hstring : String.ofList (characters s) = String.ofList (characters t) :=
    String.toByteArray_inj.mp h
  have hcharacters : characters s = characters t := String.ofList_injective hstring
  calc s = (characters s).flatMap unitsOf := (flatMap_unitsOf_characters hs).symm
    _ = (characters t).flatMap unitsOf := by rw [hcharacters]
    _ = t := flatMap_unitsOf_characters ht

/-! ## Strings of characters -/

/-- The units of a string of characters. -/
def utf16 (s : String) : JsString := s.toList.flatMap unitsOf

theorem ofNat_toNat (character : Char) : Char.ofNat character.toNat = character :=
  Char.toNat_inj.mp (toNat_ofNat character.valid)

theorem characters_unitsOf (character : Char) (rest : JsString) :
    characters (unitsOf character ++ rest) = character :: characters rest := by
  have hvalid : character.toNat < 0xD800 ∨ 0xDFFF < character.toNat ∧ character.toNat < 0x110000 :=
    character.valid
  unfold unitsOf
  split
  · rename_i hsmall
    have hunit : character.toNat.toUInt16.toNat = character.toNat := by
      simpa using Nat.mod_eq_of_lt hsmall
    have hsingle : isSurrogate character.toNat.toUInt16 = false := by
      simp only [isSurrogate, hunit, decide_eq_false_iff_not]
      omega
    rw [List.singleton_append, characters_single hsingle]
    unfold singleCharacter
    rw [hsingle, if_neg Bool.false_ne_true, hunit, ofNat_toNat]
  · rename_i hlarge
    have hfirst : (0xD800 + (character.toNat - 0x10000) / 0x400).toUInt16.toNat =
        0xD800 + (character.toNat - 0x10000) / 0x400 := by
      have hlt : 0xD800 + (character.toNat - 0x10000) / 0x400 < 0x10000 := by omega
      simpa using Nat.mod_eq_of_lt hlt
    have hsecond : (0xDC00 + (character.toNat - 0x10000) % 0x400).toUInt16.toNat =
        0xDC00 + (character.toNat - 0x10000) % 0x400 := by
      have hlt : 0xDC00 + (character.toNat - 0x10000) % 0x400 < 0x10000 := by omega
      simpa using Nat.mod_eq_of_lt hlt
    have hhigh : isHighSurrogate (0xD800 + (character.toNat - 0x10000) / 0x400).toUInt16 = true := by
      simp only [isHighSurrogate, hfirst, decide_eq_true_eq]
      omega
    have hlow : isLowSurrogate (0xDC00 + (character.toNat - 0x10000) % 0x400).toUInt16 = true := by
      simp only [isLowSurrogate, hsecond, decide_eq_true_eq]
      omega
    have hnumber : 0x10000 + (0xD800 + (character.toNat - 0x10000) / 0x400 - 0xD800) * 0x400 +
        (0xDC00 + (character.toNat - 0x10000) % 0x400 - 0xDC00) = character.toNat := by
      omega
    rw [List.cons_append, List.cons_append, List.nil_append, characters, if_pos ⟨hhigh, hlow⟩]
    unfold pairCharacter
    rw [hfirst, hsecond, hnumber, ofNat_toNat]

theorem characters_utf16 (s : String) : characters (utf16 s) = s.toList := by
  unfold utf16
  induction s.toList with
  | nil => rfl
  | cons character rest ih => rw [List.flatMap_cons, characters_unitsOf, ih]

theorem utf16_inj {s t : String} : utf16 s = utf16 t ↔ s = t := by
  refine ⟨fun h => ?_, fun h => h ▸ rfl⟩
  have hlist : s.toList = t.toList := by rw [← characters_utf16, h, characters_utf16]
  exact String.toList_inj.mp hlist

theorem utf16_ofList_characters {s : JsString} (h : WellFormed s) :
    utf16 (String.ofList (characters s)) = s := by
  unfold utf16
  rw [String.toList_ofList, flatMap_unitsOf_characters h]

/-- The text of bytes of UTF-8. -/
def textOf (bytes : ByteArray) : Option JsString := (String.fromUTF8? bytes).map utf16

theorem textOf_utf8 {s : JsString} (h : WellFormed s) : textOf (utf8 s) = some s := by
  have hvalid : String.fromUTF8? (utf8 s) = some (String.ofList (characters s)) := by
    unfold String.fromUTF8?
    exact dif_pos (String.ofList (characters s)).isValidUTF8
  unfold textOf
  rw [hvalid, Option.map_some, utf16_ofList_characters h]

end Hemlig.Text
