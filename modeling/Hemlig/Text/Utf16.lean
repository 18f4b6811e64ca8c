import Mathlib.Data.List.DropRight

/-!
# Strings of UTF-16 code units

A string of the source is a sequence of 16-bit code units, which need not form pairs.  Here
is what its functions do with such strings: trimming white space at the ends, splitting into
lines, and looking for a prefix, a suffix or a unit.
-/

namespace Hemlig.Text

abbrev CodeUnit := UInt16

abbrev JsString := List CodeUnit

/-- The code unit of a character of the basic plane. -/
def unit (c : Char) : CodeUnit := c.toNat.toUInt16

/-- The code units of a text of such characters. -/
def units (s : String) : JsString := s.toList.map unit

def lineFeed : CodeUnit := 10
def carriageReturn : CodeUnit := 13

/-! ## White space -/

/-- White space and line terminators, as `String.prototype.trim` knows them. -/
def isSpace (c : CodeUnit) : Bool :=
  (9 ≤ c ∧ c ≤ 13) ∨ c = 32 ∨ c = 160 ∨ c = 5760 ∨ (8192 ≤ c ∧ c ≤ 8202) ∨ c = 8232 ∨ c = 8233 ∨
    c = 8239 ∨ c = 8287 ∨ c = 12288 ∨ c = 65279

def trim (s : JsString) : JsString := (s.dropWhile isSpace).rdropWhile isSpace

/-- Neither end of the string is white space. -/
def Trimmed (s : JsString) : Prop :=
  (∀ c, s.head? = some c → isSpace c = false) ∧ ∀ c, s.getLast? = some c → isSpace c = false

theorem trimmed_nil : Trimmed [] := ⟨nofun, nofun⟩

theorem dropWhile_eq_self_of_head {s : JsString}
    (h : ∀ c, s.head? = some c → isSpace c = false) : s.dropWhile isSpace = s := by
  cases s with
  | nil => rfl
  | cons c rest => rw [List.dropWhile_cons_of_neg (by simp [h c rfl])]

theorem Trimmed.trim_eq {s : JsString} (h : Trimmed s) : trim s = s := by
  rw [trim, dropWhile_eq_self_of_head h.1, List.rdropWhile_eq_self_iff]
  intro hne
  simp [h.2 _ (List.getLast?_eq_some_getLast hne)]

/-- A string that trimming leaves alone is trimmed. -/
theorem trimmed_of_trim_eq {s : JsString} (h : trim s = s) : Trimmed s := by
  have hdrop : s.dropWhile isSpace = s := by
    have hlength : s.length ≤ (s.dropWhile isSpace).length := by
      calc s.length = (trim s).length := by rw [h]
        _ ≤ (s.dropWhile isSpace).length := (List.rdropWhile_prefix _ _).length_le
    exact (List.dropWhile_suffix _).eq_of_length_le hlength
  constructor
  · intro c hc
    cases s with
    | nil => cases hc
    | cons d rest =>
        cases hc
        by_contra hspace
        rw [List.dropWhile_cons_of_pos (by simpa using hspace)] at hdrop
        have hlength := (List.dropWhile_suffix (l := rest) isSpace).length_le
        rw [hdrop, List.length_cons] at hlength
        omega
  · intro c hc
    rw [trim, hdrop, List.rdropWhile_eq_self_iff] at h
    have hne : s ≠ [] := by
      rintro rfl
      cases hc
    rw [List.getLast?_eq_some_getLast hne, Option.some.injEq] at hc
    simpa [hc] using h hne

theorem trim_eq_self_iff {s : JsString} : trim s = s ↔ Trimmed s :=
  ⟨trimmed_of_trim_eq, Trimmed.trim_eq⟩

/-! ## Lines -/

/-- The line without one carriage return at its end. -/
def chomp (line : JsString) : JsString :=
  if line.getLast? = some carriageReturn then line.dropLast else line

/-- Every line that is followed by another one is chomped. -/
def chompAll : List JsString → List JsString
  | [] => []
  | [last] => [last]
  | line :: next :: lines => chomp line :: chompAll (next :: lines)

/-- `text.split(/\r?\n/)`. -/
def splitLines (text : JsString) : List JsString := chompAll (text.splitOn lineFeed)

/-- `lines.join("\n")`. -/
def joinLines (lines : List JsString) : JsString := [lineFeed].intercalate lines

theorem chompAll_eq_self {lines : List JsString}
    (h : ∀ line ∈ lines, line.getLast? ≠ some carriageReturn) : chompAll lines = lines := by
  fun_induction chompAll lines with
  | case1 => rfl
  | case2 last => rfl
  | case3 line next lines ih =>
      rw [ih fun other hmem => h other (List.mem_cons_of_mem _ hmem), chomp,
        if_neg (h line List.mem_cons_self)]

/-- **Lines that are joined are split again**, if none of them contains a line feed or ends
with a carriage return. -/
theorem splitLines_joinLines {lines : List JsString} (hne : lines ≠ [])
    (hfeed : ∀ line ∈ lines, lineFeed ∉ line)
    (hreturn : ∀ line ∈ lines, line.getLast? ≠ some carriageReturn) :
    splitLines (joinLines lines) = lines := by
  rw [splitLines, joinLines, List.splitOn_intercalate _ hfeed hne, chompAll_eq_self hreturn]

end Hemlig.Text
