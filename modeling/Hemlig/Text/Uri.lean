import Mathlib.Data.List.Basic

/-!
# Parts of URIs

`encodeURIComponent` writes the bytes of reserved characters as escapes, and `decodeURIComponent`
reads escapes wherever they stand.
-/

namespace Hemlig.Text

/-- A letter, a digit, or one of `- _ . ! ~ * ' ( )`. -/
def isUnreserved (c : Char) : Bool :=
  c.isAlphanum ∨ c ∈ ['-', '_', '.', '!', '~', '*', '(', ')'] ∨ c.toNat = 39

/-- An upper case hexadecimal digit. -/
def upperHex (n : ℕ) : Char := if n < 10 then Char.ofNat (48 + n) else Char.ofNat (55 + n)

/-- The escape of a byte. -/
def escapeByte (byte : UInt8) : List Char :=
  ['%', upperHex (byte.toNat / 16), upperHex (byte.toNat % 16)]

def encodeURIComponent (text : List Char) : List Char :=
  text.flatMap fun c => if isUnreserved c then [c] else (String.utf8EncodeChar c).flatMap escapeByte

/-! ## Decoding -/

def hexValueOf (c : Char) : Option ℕ :=
  if '0' ≤ c ∧ c ≤ '9' then some (c.toNat - 48)
  else if 'A' ≤ c ∧ c ≤ 'F' then some (c.toNat - 55)
  else if 'a' ≤ c ∧ c ≤ 'f' then some (c.toNat - 87)
  else none

/-- The byte of the escape at the start of a text. -/
def readEscape : List Char → Option (UInt8 × List Char)
  | '%' :: a :: b :: rest => do
      let high ← hexValueOf a
      let low ← hexValueOf b
      return ((high * 16 + low).toUInt8, rest)
  | _ => none

def readEscapes : ℕ → List Char → Option (List UInt8 × List Char)
  | 0, text => some ([], text)
  | count + 1, text => do
      let (byte, rest) ← readEscape text
      let (bytes, rest) ← readEscapes count rest
      return (byte :: bytes, rest)

/-- How many bytes follow the first byte of a character. -/
def following (first : UInt8) : Option ℕ :=
  if first < 0x80 then some 0
  else if first < 0xC0 then none
  else if first < 0xE0 then some 1
  else if first < 0xF0 then some 2
  else if first < 0xF8 then some 3
  else none

/-- The character whose bytes are escaped at the start of a text. -/
def readCharacter (text : List Char) : Option (List Char × List Char) := do
  let (first, rest) ← readEscape text
  let count ← following first
  let (bytes, rest) ← readEscapes count rest
  let character ← String.fromUTF8? ⟨(first :: bytes).toArray⟩
  return (character.toList, rest)

/-- Every step reads a character or an escape. -/
def decodeFrom : ℕ → List Char → Option (List Char)
  | 0, _ => none
  | _ + 1, [] => some []
  | steps + 1, c :: rest =>
      if c = '%' then
        match readCharacter (c :: rest) with
        | none => none
        | some (character, rest) => (decodeFrom steps rest).map (character ++ ·)
      else (decodeFrom steps rest).map (c :: ·)

def decodeURIComponent (text : List Char) : Option (List Char) := decodeFrom (text.length + 1) text

/-! ## Texts with slashes -/

/-- The characters are unreserved, or slashes. -/
def Slashed (text : List Char) : Prop := ∀ c ∈ text, isUnreserved c = true ∨ c = '/'

theorem encodeURIComponent_cons (c : Char) (text : List Char) :
    encodeURIComponent (c :: text) =
      (if isUnreserved c then [c] else (String.utf8EncodeChar c).flatMap escapeByte) ++
        encodeURIComponent text :=
  List.flatMap_cons

theorem escape_slash : (String.utf8EncodeChar '/').flatMap escapeByte = ['%', '2', 'F'] := by
  decide

theorem readCharacter_slash (rest : List Char) :
    readCharacter ('%' :: '2' :: 'F' :: rest) = some (['/'], rest) := by
  have hbytes : String.fromUTF8? ⟨#[47]⟩ = some "/" := by
    unfold String.fromUTF8?
    exact dif_pos "/".isValidUTF8
  have hescape : readEscape ('%' :: '2' :: 'F' :: rest) = some (47, rest) := rfl
  unfold readCharacter
  rw [hescape]
  show (String.fromUTF8? ⟨#[47]⟩).bind (fun character => some (character.toList, rest)) = _
  rw [hbytes]
  rfl

/-- More steps do not change what is read. -/
theorem decodeFrom_plain {text rest : List Char} (h : '%' ∉ text) (steps : ℕ) :
    decodeFrom (text.length + steps) (text ++ rest) =
      (decodeFrom steps rest).map (text ++ ·) := by
  induction text with
  | nil => simp
  | cons c text ih =>
      obtain ⟨hc, htext⟩ := not_or.mp (fun hmem => h (List.mem_cons.mpr hmem))
      have hsteps : (c :: text).length + steps = text.length + steps + 1 := by
        rw [List.length_cons]
        omega
      rw [hsteps, List.cons_append, decodeFrom, if_neg (Ne.symm hc), ih htext, Option.map_map]
      rfl

/-- Escaped slashes are decoded. -/
theorem decodeFrom_encodeURIComponent {text rest : List Char} (h : Slashed text) (steps : ℕ) :
    decodeFrom (text.length + steps) (encodeURIComponent text ++ rest) =
      (decodeFrom steps rest).map (text ++ ·) := by
  induction text with
  | nil => simp [encodeURIComponent]
  | cons c text ih =>
      obtain ⟨hc, htext⟩ := List.forall_mem_cons.mp h
      have hsteps : (c :: text).length + steps = text.length + steps + 1 := by
        rw [List.length_cons]
        omega
      rw [hsteps, encodeURIComponent_cons]
      cases hunreserved : isUnreserved c with
      | true =>
          have hpercent : c ≠ '%' := by
            rintro rfl
            exact absurd hunreserved (by decide)
          rw [if_pos rfl, List.append_assoc, List.singleton_append, decodeFrom, if_neg hpercent,
            ih htext, Option.map_map]
          rfl
      | false =>
          obtain rfl : c = '/' := hc.resolve_left (by simp [hunreserved])
          rw [if_neg Bool.false_ne_true, escape_slash, List.append_assoc]
          simp only [List.cons_append, List.nil_append]
          rw [decodeFrom, if_pos rfl, readCharacter_slash]
          dsimp only
          rw [ih htext, Option.map_map]
          rfl

end Hemlig.Text
