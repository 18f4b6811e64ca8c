import Hemlig.Text.Utf16
import Mathlib.Data.List.Basic

/-!
# The .env tab of the console

The parts of `packages/console/src/api/payload.ts` that write payload rows as `.env` text and
read such text.  The encoder puts a value in quotes when trimming would change it; the decoder
takes off any pair of quotes that it finds.  So a value that has a pair of its own and needs
none is the one that does not come back.
-/

namespace Hemlig.Console

open Text

inductive Encoding
  | utf8
  | base64
  deriving DecidableEq, Repr

structure PayloadRow where
  id : JsString
  key : JsString
  value : JsString
  encoding : Encoding
  deriving DecidableEq

/-! ## Keys -/

/-- A unit of `[A-Za-z0-9._-]`. -/
def isKeyUnit (c : CodeUnit) : Bool :=
  (65 ≤ c ∧ c ≤ 90) ∨ (97 ≤ c ∧ c ≤ 122) ∨ (48 ≤ c ∧ c ≤ 57) ∨ c = 46 ∨ c = 95 ∨ c = 45

/-- `entryKey.test(key)`. -/
def entryKey (key : JsString) : Bool := !key.isEmpty && key.all isKeyUnit

/-! ## Writing -/

def doubleQuote : CodeUnit := 34
def singleQuote : CodeUnit := 39
def equalsSign : CodeUnit := 61
def hash : CodeUnit := 35

def encodeDotEnvValue (value : JsString) : JsString :=
  if 0 < value.length ∧ trim value ≠ value then doubleQuote :: (value ++ [doubleQuote]) else value

structure DotEnvExport where
  text : JsString
  lossyKeys : List JsString
  deriving DecidableEq

/-- The line of a row. -/
def dotEnvLine (row : PayloadRow) : JsString :=
  row.key ++ equalsSign :: encodeDotEnvValue row.value

def toDotEnv (rows : List PayloadRow) : DotEnvExport :=
  let named := rows.filter fun row => 0 < row.key.length
  { text := joinLines (named.map dotEnvLine)
    lossyKeys := (named.filter fun row => row.encoding = .base64).map PayloadRow.key }

/-! ## Reading -/

/-- The value begins and ends with the quote. -/
def quotedBy (quote : CodeUnit) (value : JsString) : Bool :=
  value.head? = some quote ∧ value.getLast? = some quote ∧ 2 ≤ value.length

/-- `value.slice(1, -1)`, of a value in quotes. -/
def unquote (value : JsString) : JsString :=
  if quotedBy doubleQuote value ∨ quotedBy singleQuote value then (value.drop 1).dropLast else value

/-- The entry of a line, if there is one. -/
def parseDotEnvLine (rawLine : JsString) : Option (JsString × JsString) :=
  let line := trim rawLine
  if line.length = 0 ∨ line.head? = some hash then none
  else
    let withoutExport := if (units "export ").isPrefixOf line then trim (line.drop 7) else line
    match withoutExport.idxOf? equalsSign with
    | none => none
    | some 0 => none
    | some separator =>
        some (trim (withoutExport.take separator),
          unquote (trim (withoutExport.drop (separator + 1))))

/-- The `n`-th row that is found gets the `n`-th identifier that `id` returns. -/
def parseDotEnv (text : JsString) (id : ℕ → JsString) : List PayloadRow :=
  ((splitLines text).filterMap parseDotEnvLine).mapIdx fun n entry =>
    { id := id n, key := entry.1, value := entry.2, encoding := .utf8 }

/-! ## Values that come back -/

/-- The value begins and ends with a pair of quotes. -/
def Quoted (value : JsString) : Prop :=
  quotedBy doubleQuote value = true ∨ quotedBy singleQuote value = true

instance (value : JsString) : Decidable (Quoted value) := inferInstanceAs (Decidable (_ ∨ _))

theorem unquote_eq {value : JsString} (h : Quoted value) :
    unquote value = (value.drop 1).dropLast :=
  if_pos h

theorem unquote_of_quoted {value : JsString} (h : Quoted value) :
    (unquote value).length < value.length := by
  have hlength : 2 ≤ value.length := by
    rcases h with h | h <;> exact (of_decide_eq_true h).2.2
  rw [unquote_eq h, List.length_dropLast, List.length_drop]
  omega

theorem unquote_of_not_quoted {value : JsString} (h : ¬ Quoted value) : unquote value = value :=
  if_neg h

/-- The quotes of the encoder are taken off again. -/
theorem unquote_quote (value : JsString) :
    unquote (doubleQuote :: (value ++ [doubleQuote])) = value := by
  have hquoted : Quoted (doubleQuote :: (value ++ [doubleQuote])) := by
    refine .inl (decide_eq_true ⟨rfl, ?_, ?_⟩)
    · rw [← List.cons_append, List.getLast?_concat]
    · rw [List.length_cons, List.length_append]
      simp
  rw [unquote_eq hquoted, List.drop_one, List.tail_cons, List.dropLast_concat]

theorem Quoted.trimmed {value : JsString} (h : Quoted value) : Trimmed value := by
  have hends : ∃ quote, isSpace quote = false ∧ value.head? = some quote ∧
      value.getLast? = some quote := by
    rcases h with h | h
    · exact ⟨doubleQuote, by decide, (of_decide_eq_true h).1, (of_decide_eq_true h).2.1⟩
    · exact ⟨singleQuote, by decide, (of_decide_eq_true h).1, (of_decide_eq_true h).2.1⟩
  obtain ⟨quote, hspace, hhead, hlast⟩ := hends
  constructor
  · intro c hc
    rw [hhead] at hc
    exact Option.some.inj hc ▸ hspace
  · intro c hc
    rw [hlast] at hc
    exact Option.some.inj hc ▸ hspace

/-- What is written for a value needs no trimming. -/
theorem trimmed_encodeDotEnvValue (value : JsString) : Trimmed (encodeDotEnvValue value) := by
  unfold encodeDotEnvValue
  split
  · constructor
    · intro c hc
      cases hc
      decide
    · intro c hc
      rw [← List.cons_append, List.getLast?_concat] at hc
      cases hc
      decide
  · rename_i hkeeps
    cases value with
    | nil => exact trimmed_nil
    | cons c rest =>
        refine trimmed_of_trim_eq ?_
        by_contra hne
        exact hkeeps ⟨Nat.succ_pos _, hne⟩

/-- **A value comes back unless it is in quotes of its own.** -/
theorem unquote_encodeDotEnvValue (value : JsString) :
    unquote (encodeDotEnvValue value) = value ↔ ¬ Quoted value := by
  by_cases hquoted : Quoted value
  · have hplain : encodeDotEnvValue value = value := by
      rw [encodeDotEnvValue, if_neg]
      exact fun h => h.2 hquoted.trimmed.trim_eq
    rw [hplain]
    refine ⟨fun hsame => ?_, fun hnot => (hnot hquoted).elim⟩
    have hshorter := unquote_of_quoted hquoted
    rw [hsame] at hshorter
    omega
  · refine ⟨fun _ => hquoted, fun _ => ?_⟩
    unfold encodeDotEnvValue
    split
    · exact unquote_quote value
    · exact unquote_of_not_quoted hquoted

/-! ## Lines that come back -/

theorem entryKey_eq_true {key : JsString} :
    entryKey key = true ↔ key ≠ [] ∧ ∀ c ∈ key, isKeyUnit c = true := by
  simp [entryKey]

/-- What the units of a key are not. -/
theorem keyUnit_ne {c : CodeUnit} (h : isKeyUnit c = true) :
    isSpace c = false ∧ c ≠ equalsSign ∧ c ≠ hash := by
  simp only [isKeyUnit, decide_eq_true_eq, UInt16.le_iff_toNat_le, ← UInt16.toNat_inj] at h
  simp only [isSpace, equalsSign, hash, decide_eq_false_iff_not, UInt16.le_iff_toNat_le, ne_eq,
    ← UInt16.toNat_inj]
  simp only [UInt16.reduceToNat] at h ⊢
  omega

theorem entryKey_ne_nil {key : JsString} (h : entryKey key = true) : key ≠ [] := by
  rw [entryKey_eq_true] at h
  exact h.1

theorem entryKey_unit {key : JsString} (h : entryKey key = true) {c : CodeUnit} (hc : c ∈ key) :
    isSpace c = false ∧ c ≠ equalsSign ∧ c ≠ hash := by
  rw [entryKey_eq_true] at h
  exact keyUnit_ne (h.2 c hc)

theorem lineFeed_isSpace : isSpace lineFeed = true := by decide

theorem carriageReturn_isSpace : isSpace carriageReturn = true := by decide

theorem dotEnvLine_eq (row : PayloadRow) :
    dotEnvLine row = row.key ++ equalsSign :: encodeDotEnvValue row.value := rfl

section Line

variable {row : PayloadRow} (hkey : entryKey row.key = true)
include hkey

/-- The line of a row needs no trimming. -/
theorem trimmed_dotEnvLine : Trimmed (dotEnvLine row) := by
  constructor
  · intro c hc
    obtain ⟨first, rest, hcons⟩ := List.exists_cons_of_ne_nil (entryKey_ne_nil hkey)
    rw [dotEnvLine_eq, hcons, List.cons_append, List.head?_cons, Option.some.injEq] at hc
    subst hc
    exact (entryKey_unit hkey (by rw [hcons]; exact List.mem_cons_self)).1
  · intro c hc
    rw [dotEnvLine_eq, List.getLast?_append_of_ne_nil _ (List.cons_ne_nil _ _)] at hc
    cases hvalue : encodeDotEnvValue row.value with
    | nil =>
        rw [hvalue] at hc
        cases hc
        decide
    | cons first rest =>
        rw [hvalue, List.getLast?_cons_cons, ← hvalue] at hc
        exact (trimmed_encodeDotEnvValue row.value).2 c hc

theorem getLast?_dotEnvLine : (dotEnvLine row).getLast? ≠ some carriageReturn := by
  intro hlast
  have hspace := (trimmed_dotEnvLine hkey).2 _ hlast
  rw [carriageReturn_isSpace] at hspace
  cases hspace

theorem lineFeed_not_mem_dotEnvLine (hvalue : lineFeed ∉ row.value) : lineFeed ∉ dotEnvLine row := by
  intro hmem
  rw [dotEnvLine_eq, List.mem_append, List.mem_cons] at hmem
  rcases hmem with hmem | hmem | hmem
  · have hspace := (entryKey_unit hkey hmem).1
    rw [lineFeed_isSpace] at hspace
    cases hspace
  · cases hmem
  · unfold encodeDotEnvValue at hmem
    split at hmem
    · rw [List.mem_cons, List.mem_append, List.mem_singleton] at hmem
      rcases hmem with hmem | hmem | hmem
      · cases hmem
      · exact hvalue hmem
      · cases hmem
    · exact hvalue hmem

/-- No line begins with `export `. -/
theorem not_export : (units "export ").isPrefixOf (dotEnvLine row) = false := by
  rw [Bool.eq_false_iff]
  intro hprefix
  rw [List.isPrefixOf_iff_prefix, dotEnvLine_eq] at hprefix
  have hlength : (units "export ").length = 7 := by decide
  by_cases hlong : 7 ≤ row.key.length
  · -- A long key would have the space in it.
    have hmem := (List.prefix_of_prefix_length_le hprefix (List.prefix_append _ _)
      (by omega)).subset (show unit ' ' ∈ units "export " by decide)
    have hspace := (entryKey_unit hkey hmem).1
    revert hspace
    decide
  · -- After a short one the equals sign would be in `export `.
    have hequals : row.key ++ [equalsSign] <+:
        row.key ++ equalsSign :: encodeDotEnvValue row.value :=
      (List.prefix_append_right_inj _).mpr (List.prefix_append [equalsSign] _)
    have hmem := (List.prefix_of_prefix_length_le hequals hprefix
      (by rw [List.length_append, List.length_singleton]; omega)).subset
        (List.mem_append_right _ (List.mem_singleton_self _))
    revert hmem
    decide

theorem idxOf?_dotEnvLine : (dotEnvLine row).idxOf? equalsSign = some row.key.length := by
  have hkeys : equalsSign ∉ row.key := fun hmem => (entryKey_unit hkey hmem).2.1 rfl
  rw [List.idxOf?_eq_some_iff]
  have hlength : row.key.length < (dotEnvLine row).length := by
    rw [dotEnvLine_eq, List.length_append, List.length_cons]
    omega
  refine ⟨hlength, ?_, fun n hn hat => ?_⟩
  · simp [dotEnvLine_eq]
  · have hget : row.key[n] = equalsSign := by
      simpa [dotEnvLine_eq, List.getElem_append_left hn] using hat
    exact hkeys (hget ▸ List.getElem_mem hn)

/-- **The line of a row is read as its key and its value without quotes.** -/
theorem parseDotEnvLine_dotEnvLine : parseDotEnvLine (dotEnvLine row) =
    some (row.key, unquote (encodeDotEnvValue row.value)) := by
  obtain ⟨first, rest, hcons⟩ := List.exists_cons_of_ne_nil (entryKey_ne_nil hkey)
  have hunit : first ≠ hash := (entryKey_unit hkey (by rw [hcons]; exact List.mem_cons_self)).2.2
  have hhead : (dotEnvLine row).head? = some first := by
    rw [dotEnvLine_eq, hcons]
    rfl
  have hstarts : ¬ ((dotEnvLine row).length = 0 ∨ (dotEnvLine row).head? = some hash) := by
    rintro (hempty | hhash)
    · rw [List.length_eq_zero_iff.mp hempty] at hhead
      cases hhead
    · rw [hhead, Option.some.injEq] at hhash
      exact hunit hhash
  have hkeyTrimmed : Trimmed row.key := by
    refine ⟨fun c hc => ?_, fun c hc => ?_⟩
    · exact (entryKey_unit hkey (List.mem_of_head? hc)).1
    · exact (entryKey_unit hkey (List.mem_of_getLast? hc)).1
  have hlength : row.key.length = rest.length + 1 := by rw [hcons]; rfl
  have htake : (dotEnvLine row).take (rest.length + 1) = row.key := by
    rw [← hlength, dotEnvLine_eq, List.take_left]
  have hdrop : (dotEnvLine row).drop (rest.length + 1 + 1) = encodeDotEnvValue row.value := by
    rw [← hlength, dotEnvLine_eq, List.drop_length_add_append]
    rfl
  unfold parseDotEnvLine
  simp only [(trimmed_dotEnvLine hkey).trim_eq, if_neg hstarts, not_export hkey,
    idxOf?_dotEnvLine hkey, hlength, Bool.false_eq_true, if_false]
  rw [htake, hdrop, hkeyTrimmed.trim_eq, (trimmed_encodeDotEnvValue _).trim_eq]

end Line

/-! ## Whole exports -/

/-- A row that the .env tab can hold. -/
structure PayloadRow.Plain (row : PayloadRow) : Prop where
  utf8 : row.encoding = .utf8
  key : entryKey row.key = true
  value : lineFeed ∉ row.value

/-- The keys and values of the rows, in order. -/
def entries (rows : List PayloadRow) : List (JsString × JsString) :=
  rows.map fun row => (row.key, row.value)

theorem entries_parseDotEnv (text : JsString) (id : ℕ → JsString) :
    entries (parseDotEnv text id) = (splitLines text).filterMap parseDotEnvLine := by
  unfold entries parseDotEnv
  exact List.ext_getElem (by simp) (by simp)

theorem text_toDotEnv {rows : List PayloadRow} (hrows : ∀ row ∈ rows, row.Plain) :
    (toDotEnv rows).text = joinLines (rows.map dotEnvLine) := by
  have hnamed : rows.filter (fun row => 0 < row.key.length) = rows := by
    rw [List.filter_eq_self]
    intro row hmem
    exact decide_eq_true (List.length_pos_iff.mpr (entryKey_ne_nil (hrows row hmem).key))
  simp only [toDotEnv, hnamed]

/-- What comes back is every key with its value, without quotes where it had some. -/
theorem parseDotEnv_toDotEnv {rows : List PayloadRow} (hrows : ∀ row ∈ rows, row.Plain)
    (id : ℕ → JsString) : entries (parseDotEnv (toDotEnv rows).text id) =
      rows.map fun row => (row.key, unquote (encodeDotEnvValue row.value)) := by
  rw [entries_parseDotEnv, text_toDotEnv hrows]
  cases hempty : rows with
  | nil => decide
  | cons first rest =>
      rw [← hempty]
      have hne : rows.map dotEnvLine ≠ [] := by simp [hempty]
      have hlines : splitLines (joinLines (rows.map dotEnvLine)) = rows.map dotEnvLine := by
        refine splitLines_joinLines hne ?_ ?_
        · intro line hmem
          obtain ⟨row, hrow, rfl⟩ := List.mem_map.mp hmem
          exact lineFeed_not_mem_dotEnvLine (hrows row hrow).key (hrows row hrow).value
        · intro line hmem
          obtain ⟨row, hrow, rfl⟩ := List.mem_map.mp hmem
          exact getLast?_dotEnvLine (hrows row hrow).key
      rw [hlines, List.filterMap_map, ← List.filterMap_eq_map]
      exact List.filterMap_congr fun row hrow => parseDotEnvLine_dotEnvLine (hrows row hrow).key

/-- **The .env tab gives all entries back if and only if no value is in quotes of its own.** -/
theorem dotEnv_lossless_iff {rows : List PayloadRow} (hrows : ∀ row ∈ rows, row.Plain)
    (id : ℕ → JsString) :
    entries (parseDotEnv (toDotEnv rows).text id) = entries rows ↔
      ∀ row ∈ rows, ¬ Quoted row.value := by
  rw [parseDotEnv_toDotEnv hrows, entries, List.map_inj_left]
  refine forall₂_congr fun row _ => ?_
  rw [Prod.mk.injEq, unquote_encodeDotEnvValue]
  exact and_iff_right rfl

namespace Sample

/-- A row `A` of text. -/
def textRow (value : String) : PayloadRow where
  id := units "1"
  key := units "A"
  value := units value
  encoding := .utf8

theorem plain_textRow {value : String} (h : lineFeed ∉ units value) : (textRow value).Plain :=
  ⟨rfl, show entryKey (units "A") = true by decide, h⟩

end Sample

theorem dotEnv_lossless_padded :
    entries (parseDotEnv (toDotEnv [Sample.textRow " a=b # "]).text fun _ => []) =
      entries [Sample.textRow " a=b # "] :=
  (dotEnv_lossless_iff (by simpa using Sample.plain_textRow (by decide)) _).mpr (by decide)

/-- **A value in quotes comes back without them.** -/
theorem dotEnv_lossy : ¬ ∀ (rows : List PayloadRow) (id : ℕ → JsString),
    (∀ row ∈ rows, row.Plain) → (rows.map PayloadRow.key).Nodup →
      entries (parseDotEnv (toDotEnv rows).text id) = entries rows := by
  intro hall
  have hback := hall [Sample.textRow "'x'"] (fun _ => [])
    (by simpa using Sample.plain_textRow (by decide)) (by simp)
  revert hback
  decide

end Hemlig.Console
