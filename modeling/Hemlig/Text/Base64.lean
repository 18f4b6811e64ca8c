import Hemlig.Text.Utf16
import Mathlib.Data.List.Basic

/-!
# Base64

Three bytes are four letters of six bits each; one or two bytes at the end are padded.  Decoding
drops the bits that padding stands for, so many texts have the bytes of one encoding
(`unsextets_sextets` is the direction that holds).
-/

namespace Hemlig.Text

def padding : CodeUnit := 61

/-! ## Groups of six bits -/

/-- The bytes in groups of six bits; the last group is filled with zeros. -/
def sextets : List UInt8 → List ℕ
  | [] => []
  | [a] => [a.toNat / 4, a.toNat % 4 * 16]
  | [a, b] => [a.toNat / 4, a.toNat % 4 * 16 + b.toNat / 16, b.toNat % 16 * 4]
  | a :: b :: c :: rest =>
      a.toNat / 4 :: (a.toNat % 4 * 16 + b.toNat / 16) :: (b.toNat % 16 * 4 + c.toNat / 64) ::
        c.toNat % 64 :: sextets rest

/-- The bytes of groups of six bits; what does not fill a byte is dropped. -/
def unsextets : List ℕ → List UInt8
  | a :: b :: c :: d :: rest =>
      (a * 4 + b / 16).toUInt8 :: (b % 16 * 16 + c / 4).toUInt8 :: (c % 4 * 64 + d).toUInt8 ::
        unsextets rest
  | [a, b, c] => [(a * 4 + b / 16).toUInt8, (b % 16 * 16 + c / 4).toUInt8]
  | [a, b] => [(a * 4 + b / 16).toUInt8]
  | _ => []

theorem unsextets_sextets (bytes : List UInt8) : unsextets (sextets bytes) = bytes := by
  have hbyte : ∀ {n : ℕ} {a : UInt8}, n = a.toNat → n.toUInt8 = a := fun h =>
    h ▸ UInt8.ofNat_toNat
  fun_induction sextets bytes with
  | case1 => rfl
  | case2 a =>
      have ha := a.toNat_lt
      have hfirst : a.toNat / 4 * 4 + a.toNat % 4 * 16 / 16 = a.toNat := by omega
      rw [unsextets, hbyte hfirst]
  | case3 a b =>
      have ha := a.toNat_lt
      have hb := b.toNat_lt
      have hfirst : a.toNat / 4 * 4 + (a.toNat % 4 * 16 + b.toNat / 16) / 16 = a.toNat := by omega
      have hsecond : (a.toNat % 4 * 16 + b.toNat / 16) % 16 * 16 + b.toNat % 16 * 4 / 4 =
          b.toNat := by omega
      rw [unsextets, hbyte hfirst, hbyte hsecond]
  | case4 a b c rest ih =>
      have ha := a.toNat_lt
      have hb := b.toNat_lt
      have hc := c.toNat_lt
      have hfirst : a.toNat / 4 * 4 + (a.toNat % 4 * 16 + b.toNat / 16) / 16 = a.toNat := by omega
      have hsecond : (a.toNat % 4 * 16 + b.toNat / 16) % 16 * 16 +
          (b.toNat % 16 * 4 + c.toNat / 64) / 4 = b.toNat := by omega
      have hthird : (b.toNat % 16 * 4 + c.toNat / 64) % 4 * 64 + c.toNat % 64 = c.toNat := by omega
      rw [unsextets, hbyte hfirst, hbyte hsecond, hbyte hthird, ih]

theorem sextets_lt (bytes : List UInt8) : ∀ n ∈ sextets bytes, n < 64 := by
  fun_induction sextets bytes with
  | case1 => exact List.forall_mem_nil _
  | case2 a =>
      have ha := a.toNat_lt
      simp only [List.forall_mem_cons]
      exact ⟨by omega, by omega, List.forall_mem_nil _⟩
  | case3 a b =>
      have ha := a.toNat_lt
      have hb := b.toNat_lt
      simp only [List.forall_mem_cons]
      exact ⟨by omega, by omega, by omega, List.forall_mem_nil _⟩
  | case4 a b c rest ih =>
      have ha := a.toNat_lt
      have hb := b.toNat_lt
      have hc := c.toNat_lt
      simp only [List.forall_mem_cons]
      exact ⟨by omega, by omega, by omega, by omega, ih⟩

/-- The units of padding after the letters of so many bytes. -/
def paddingLength (count : ℕ) : ℕ := (3 - count % 3) % 3

theorem length_sextets (bytes : List UInt8) :
    ((sextets bytes).length + paddingLength bytes.length) % 4 = 0 ∧
      (sextets bytes).length % 4 ≠ 1 := by
  unfold paddingLength
  fun_induction sextets bytes with
  | case1 => decide
  | case2 a => simp
  | case3 a b => simp
  | case4 a b c rest ih =>
      simp only [List.length_cons] at ih ⊢
      omega

/-! ## Letters -/

/-- The letter of six bits. -/
def letter (n : ℕ) : CodeUnit :=
  if n < 26 then (65 + n).toUInt16
  else if n < 52 then (71 + n).toUInt16
  else if n < 62 then (n - 4).toUInt16
  else if n = 62 then 43
  else 47

/-- The six bits of a letter of the alphabet. -/
def sextet? (c : CodeUnit) : Option ℕ :=
  if 65 ≤ c.toNat ∧ c.toNat ≤ 90 then some (c.toNat - 65)
  else if 97 ≤ c.toNat ∧ c.toNat ≤ 122 then some (c.toNat - 71)
  else if 48 ≤ c.toNat ∧ c.toNat ≤ 57 then some (c.toNat + 4)
  else if c = 43 then some 62
  else if c = 47 then some 63
  else none

theorem sextet?_letter {n : ℕ} (hn : n < 64) : sextet? (letter n) = some n := by
  have hall : ∀ n < 64, sextet? (letter n) = some n := by decide
  exact hall n hn

theorem sextet?_padding : sextet? padding = none := by decide

/-- The encoding of bytes. -/
def encodeBase64 (bytes : List UInt8) : JsString :=
  (sextets bytes).map letter ++ List.replicate (paddingLength bytes.length) padding

theorem filterMap_sextet?_letters {groups : List ℕ} (h : ∀ n ∈ groups, n < 64) :
    (groups.map letter).filterMap sextet? = groups := by
  rw [List.filterMap_map]
  have hletters : ∀ n ∈ groups, (sextet? ∘ letter) n = some n := fun n hn => sextet?_letter (h n hn)
  rw [List.filterMap_congr hletters, List.filterMap_some]

/-! ## The functions of JavaScript -/

/-- `btoa`, for a string of bytes. -/
def btoa (text : JsString) : Option JsString :=
  if text.all (·.toNat < 256) then some (encodeBase64 (text.map (·.toUInt8))) else none

/-- The white space that `atob` ignores. -/
def isAsciiSpace (c : CodeUnit) : Bool := c = 9 ∨ c = 10 ∨ c = 12 ∨ c = 13 ∨ c = 32

/-- The text without one or two units of padding at its end. -/
def stripPadding (text : JsString) : JsString :=
  if text.length % 4 = 0 then
    if text.getLast? = some padding then
      if text.dropLast.getLast? = some padding then text.dropLast.dropLast else text.dropLast
    else text
  else text

/-- `atob`: the units of the result are bytes. -/
def atob (text : JsString) : Option JsString :=
  let stripped := stripPadding (text.filter fun c => !isAsciiSpace c)
  if stripped.length % 4 = 1 ∨ stripped.any (fun c => (sextet? c).isNone) then none
  else some ((unsextets (stripped.filterMap sextet?)).map (·.toUInt16))

/-- The six bits of a letter of either alphabet. -/
def looseSextet? (c : CodeUnit) : Option ℕ :=
  if c = 45 then some 62 else if c = 95 then some 63 else sextet? c

/-- `Buffer.from(text, "base64")`: other units than letters are skipped. -/
def bufferFromBase64 (text : JsString) : List UInt8 := unsextets (text.filterMap looseSextet?)

/-- `/^[A-Za-z0-9+/]*={0,2}$/`. -/
def matchesBase64 (text : JsString) : Bool :=
  let rest := text.dropWhile fun c => (sextet? c).isSome
  rest = [] ∨ rest = [padding] ∨ rest = [padding, padding]

/-! ## Encodings are decoded -/

variable {bytes : List UInt8}

theorem letters_ne_padding {groups : List ℕ} (h : ∀ n ∈ groups, n < 64) :
    padding ∉ groups.map letter := by
  intro hmem
  obtain ⟨n, hn, heq⟩ := List.mem_map.mp hmem
  have hsextet := sextet?_letter (h n hn)
  rw [heq, sextet?_padding] at hsextet
  cases hsextet

theorem paddingLength_le (count : ℕ) : paddingLength count ≤ 2 := by
  unfold paddingLength
  omega

theorem length_encodeBase64 (bytes : List UInt8) : (encodeBase64 bytes).length % 4 = 0 := by
  unfold encodeBase64
  rw [List.length_append, List.length_map, List.length_replicate]
  exact (length_sextets bytes).1

theorem stripPadding_append {letters : JsString} (hletters : padding ∉ letters) {count : ℕ}
    (hcount : count ≤ 2) (hlength : (letters ++ List.replicate count padding).length % 4 = 0) :
    stripPadding (letters ++ List.replicate count padding) = letters := by
  have hlast : letters.getLast? ≠ some padding := fun heq =>
    hletters (List.mem_of_getLast? heq)
  unfold stripPadding
  rw [if_pos hlength]
  obtain rfl | rfl | rfl : count = 0 ∨ count = 1 ∨ count = 2 := by omega
  · rw [List.replicate_zero, List.append_nil, if_neg hlast]
  · rw [List.replicate_one, List.getLast?_concat, if_pos rfl, List.dropLast_concat, if_neg hlast]
  · have htwo : letters ++ List.replicate 2 padding = letters ++ [padding] ++ [padding] := by
      rw [List.append_assoc]
      rfl
    rw [htwo, List.getLast?_concat, if_pos rfl, List.dropLast_concat, List.getLast?_concat,
      if_pos rfl, List.dropLast_concat]

/-- The units of an encoding are letters or padding. -/
theorem unit_of_encodeBase64 {P : CodeUnit → Prop} (hletter : ∀ n < 64, P (letter n))
    (hpadding : P padding) (bytes : List UInt8) : ∀ c ∈ encodeBase64 bytes, P c := by
  intro c hc
  rcases List.mem_append.mp hc with hc | hc
  · obtain ⟨n, hn, rfl⟩ := List.mem_map.mp hc
    exact hletter n (sextets_lt bytes n hn)
  · rw [List.eq_of_mem_replicate hc]
    exact hpadding

theorem atob_encodeBase64 (bytes : List UInt8) :
    atob (encodeBase64 bytes) = some (bytes.map (·.toUInt16)) := by
  have hspaces : (encodeBase64 bytes).filter (fun c => !isAsciiSpace c) = encodeBase64 bytes := by
    refine List.filter_eq_self.mpr (unit_of_encodeBase64 ?_ ?_ bytes)
    · decide
    · decide
  have hstripped : stripPadding (encodeBase64 bytes) = (sextets bytes).map letter :=
    stripPadding_append (letters_ne_padding (sextets_lt bytes)) (paddingLength_le _)
      (length_encodeBase64 bytes)
  have hletters : ((sextets bytes).map letter).any (fun c => (sextet? c).isNone) = false := by
    refine List.any_eq_false.mpr fun c hc => ?_
    obtain ⟨n, hn, rfl⟩ := List.mem_map.mp hc
    simp [sextet?_letter (sextets_lt bytes n hn)]
  unfold atob
  rw [hspaces, hstripped]
  dsimp only
  rw [if_neg, filterMap_sextet?_letters (sextets_lt bytes), unsextets_sextets]
  rw [List.length_map, hletters]
  simpa using (length_sextets bytes).2

theorem btoa_bytes (bytes : List UInt8) :
    btoa (bytes.map (·.toUInt16)) = some (encodeBase64 bytes) := by
  have hall : (bytes.map (·.toUInt16)).all (·.toNat < 256) = true := by
    refine List.all_eq_true.mpr fun c hc => ?_
    obtain ⟨byte, -, rfl⟩ := List.mem_map.mp hc
    have hlt := byte.toNat_lt
    simpa using hlt
  have hbytes : (bytes.map (·.toUInt16)).map (·.toUInt8) = bytes := by
    rw [List.map_map]
    exact (List.map_congr_left fun byte _ => UInt8.toUInt8_toUInt16 byte).trans (List.map_id bytes)
  unfold btoa
  rw [if_pos hall, hbytes]

theorem looseSextet?_letter {n : ℕ} (hn : n < 64) : looseSextet? (letter n) = some n := by
  have hall : ∀ n < 64, looseSextet? (letter n) = some n := by decide
  exact hall n hn

theorem bufferFromBase64_encodeBase64 (bytes : List UInt8) :
    bufferFromBase64 (encodeBase64 bytes) = bytes := by
  have hletters : ∀ n ∈ sextets bytes, (looseSextet? ∘ letter) n = some n := fun n hn =>
    looseSextet?_letter (sextets_lt bytes n hn)
  have hpadding : (List.replicate (paddingLength bytes.length) padding).filterMap looseSextet? =
      [] := by
    refine List.filterMap_eq_nil_iff.mpr fun c hc => ?_
    rw [List.eq_of_mem_replicate hc]
    decide
  unfold bufferFromBase64 encodeBase64
  rw [List.filterMap_append, hpadding, List.append_nil, List.filterMap_map,
    List.filterMap_congr hletters, List.filterMap_some, unsextets_sextets]

theorem matchesBase64_encodeBase64 (bytes : List UInt8) :
    matchesBase64 (encodeBase64 bytes) = true := by
  have hletters : ∀ c ∈ (sextets bytes).map letter, (sextet? c).isSome = true := by
    intro c hc
    obtain ⟨n, hn, rfl⟩ := List.mem_map.mp hc
    rw [sextet?_letter (sextets_lt bytes n hn)]
    rfl
  have hcount := paddingLength_le bytes.length
  unfold matchesBase64 encodeBase64
  rw [List.dropWhile_append_of_pos hletters]
  generalize paddingLength bytes.length = count at hcount
  obtain rfl | rfl | rfl : count = 0 ∨ count = 1 ∨ count = 2 := by omega
  all_goals decide

end Hemlig.Text
