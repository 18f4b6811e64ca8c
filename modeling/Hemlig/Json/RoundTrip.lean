import Hemlig.Json.Text

/-!
# Values that are written are read

A value comes back with the entries of its objects in the order in which they are enumerated.
The induction is over the value.  What follows the text of a value must not belong to a number
(`Ended`), and the parser needs a step for each code unit at most.
-/

namespace Hemlig.Json

open Text

variable {gap : ℕ} {rest : JsString}

/-! ## White space -/

theorem skip_append {white text : JsString} (h : ∀ c ∈ white, isWhiteSpace c = true) :
    skip (white ++ text) = skip text :=
  List.dropWhile_append_of_pos h

theorem skip_cons {c : CodeUnit} (h : isWhiteSpace c = false) : skip (c :: rest) = c :: rest := by
  unfold skip
  rw [List.dropWhile_cons_of_neg (by simp [h])]

theorem isWhiteSpace_newLine (depth : ℕ) : ∀ c ∈ newLine gap depth, isWhiteSpace c = true := by
  intro c hc
  unfold newLine at hc
  split at hc
  · cases hc
  · rcases List.mem_cons.mp hc with rfl | hc
    · decide
    · rw [List.eq_of_mem_replicate hc]
      decide

theorem expect_append {white text : JsString} (h : ∀ c ∈ white, isWhiteSpace c = true)
    (c : CodeUnit) : expect c (white ++ text) = expect c text := by
  unfold expect
  rw [skip_append h]

theorem expect_cons {c first : CodeUnit} (h : isWhiteSpace first = false) :
    expect c (first :: rest) = if first = c then some rest else none := by
  unfold expect
  rw [skip_cons h]

theorem parseValue_append {white text : JsString} (h : ∀ c ∈ white, isWhiteSpace c = true)
    (fuel : ℕ) : parseValue fuel (white ++ text) = parseValue fuel text := by
  cases fuel with
  | zero => rfl
  | succ fuel => rw [parseValue, parseValue, skip_append h]

/-! ## What follows a value -/

theorem ended_cons {c : CodeUnit} (hdigit : digit? c = none) (hpoint : c ≠ point)
    (hexponent : c ≠ exponentMark) (hexponent' : c ≠ exponentMark') : Ended (c :: rest) where
  digit := noDigit_cons hdigit
  point heq := hpoint (Option.some.inj heq)
  exponent := ⟨fun heq => hexponent (Option.some.inj heq),
    fun heq => hexponent' (Option.some.inj heq)⟩

theorem ended_newLine (depth : ℕ) {last : CodeUnit} (h : Ended (last :: rest)) :
    Ended (newLine gap depth ++ last :: rest) := by
  unfold newLine
  split
  · exact h
  · exact ended_cons (by decide) (by decide) (by decide) (by decide)

theorem ended_nil : Ended [] := ⟨nofun, nofun, nofun, nofun⟩

/-! ## How values start -/

/-- The unit that a value starts with is neither white space nor a closing bracket. -/
def Starts (c : CodeUnit) : Prop :=
  isWhiteSpace c = false ∧ c ≠ closeBracket ∧ c ≠ closeBrace

instance : DecidablePred Starts := fun _ => inferInstanceAs (Decidable (_ ∧ _ ∧ _))

/-- The unit starts a number. -/
def StartsNumber (c : CodeUnit) : Prop :=
  Starts c ∧ c ≠ quotationMark ∧ c ≠ openBracket ∧ c ≠ openBrace ∧ c ≠ 110 ∧ c ≠ 116 ∧ c ≠ 102

instance : DecidablePred StartsNumber :=
  fun _ => inferInstanceAs (Decidable (_ ∧ _ ∧ _ ∧ _ ∧ _ ∧ _ ∧ _))

theorem startsNumber_digit (d : Digit) : StartsNumber (digit d) := by
  revert d
  decide

theorem startsNumber_text (number : Number) :
    ∃ c text, number.text = c :: text ∧ StartsNumber c := by
  cases number with
  | zero => exact ⟨digit 0, [], rfl, startsNumber_digit 0⟩
  | nonzero negative digits n h =>
      cases negative with
      | true => exact ⟨minus, decimalText digits n, rfl, by decide⟩
      | false =>
          obtain ⟨d, text, htext⟩ : ∃ d text, decimalText digits n = digit d :: text :=
            head_decimalText h
          exact ⟨digit d, text, htext, startsNumber_digit d⟩

theorem starts_bracketed {first last : CodeUnit} (h : Starts first) (depth : ℕ)
    (items : List JsString) :
    ∃ c text, bracketed gap first last depth items = c :: text ∧ Starts c := by
  unfold bracketed
  split
  · exact ⟨first, _, rfl, h⟩
  · exact ⟨first, _, rfl, h⟩

theorem starts_write (gap depth : ℕ) (value : Value) :
    ∃ c text, write gap depth value = c :: text ∧ Starts c := by
  cases value with
  | null => exact ⟨110, _, rfl, by decide⟩
  | bool value =>
      cases value with
      | true => exact ⟨116, _, rfl, by decide⟩
      | false => exact ⟨102, _, rfl, by decide⟩
  | number value =>
      obtain ⟨c, text, htext, hstarts⟩ := startsNumber_text value
      exact ⟨c, text, htext, hstarts.1⟩
  | string text => exact ⟨quotationMark, _, rfl, by decide⟩
  | array values => exact starts_bracketed (by decide) depth _
  | object entries => exact starts_bracketed (by decide) depth _

/-! ## Single values -/

/-- The value is read where it was written. -/
def Parses (gap : ℕ) (value : Value) : Prop :=
  ∀ depth fuel rest, (write gap depth value).length < fuel → Ended rest →
    parseValue fuel (write gap depth value ++ rest) = some (reorder value, rest)

theorem parses_string (text : JsString) : Parses gap (.string text) := by
  intro depth fuel rest hfuel _
  obtain ⟨fuel, rfl⟩ := Nat.exists_eq_succ_of_ne_zero (by omega : fuel ≠ 0)
  obtain ⟨after, hquote, hread⟩ := readString_quote text rest
  rw [write, hquote, parseValue, skip_cons (by decide)]
  dsimp only
  rw [if_pos rfl, hread]
  rfl

theorem parses_number (number : Number) : Parses gap (.number number) := by
  intro depth fuel rest hfuel hrest
  obtain ⟨fuel, rfl⟩ := Nat.exists_eq_succ_of_ne_zero (by omega : fuel ≠ 0)
  have hread := readNumber_text number hrest
  obtain ⟨c, text, htext, ⟨hwhite, -, -⟩, hquote, hbracket, hbrace, hnull, htrue, hfalse⟩ :=
    startsNumber_text number
  rw [htext] at hread
  rw [write, htext, List.cons_append, parseValue, skip_cons hwhite]
  dsimp only
  rw [if_neg hquote, if_neg hbracket, if_neg hbrace, if_neg hnull, if_neg htrue, if_neg hfalse,
    ← List.cons_append, hread]
  rfl

theorem readWord_append {word : String} {value : Value} :
    readWord word value (units word ++ rest) = some (value, rest) := by
  have hlength : (units word).length = word.length := by
    unfold units
    rw [List.length_map, String.length_toList]
  unfold readWord
  rw [if_pos (by simp), ← hlength, List.drop_left]

theorem parses_null : Parses gap .null := by
  intro depth fuel rest hfuel _
  obtain ⟨fuel, rfl⟩ := Nat.exists_eq_succ_of_ne_zero (by omega : fuel ≠ 0)
  have hread : readWord "null" .null (units "null" ++ rest) = some (.null, rest) := readWord_append
  exact hread

theorem parses_bool (value : Bool) : Parses gap (.bool value) := by
  intro depth fuel rest hfuel _
  obtain ⟨fuel, rfl⟩ := Nat.exists_eq_succ_of_ne_zero (by omega : fuel ≠ 0)
  cases value with
  | true =>
      have hread : readWord "true" (.bool true) (units "true" ++ rest) = some (.bool true, rest) :=
        readWord_append
      exact hread
  | false =>
      have hread : readWord "false" (.bool false) (units "false" ++ rest) =
          some (.bool false, rest) := readWord_append
      exact hread

/-! ## Items and entries -/

theorem expect_newLine_starts {c last : CodeUnit} {depth : ℕ} {text : JsString} (hstarts : Starts c)
    (hlast : last = closeBracket ∨ last = closeBrace) :
    expect last (newLine gap depth ++ c :: text) = none := by
  rw [expect_append (isWhiteSpace_newLine depth), expect_cons hstarts.1]
  rcases hlast with rfl | rfl
  · exact if_neg hstarts.2.1
  · exact if_neg hstarts.2.2

theorem expect_newLine_last {last : CodeUnit} (hlast : isWhiteSpace last = false) (depth : ℕ) :
    expect last (newLine gap depth ++ last :: rest) = some rest := by
  rw [expect_append (isWhiteSpace_newLine depth), expect_cons hlast, if_pos rfl]

theorem expect_comma_last {last : CodeUnit} (hlast : isWhiteSpace last = false)
    (hne : last ≠ comma) (depth : ℕ) :
    expect comma (newLine gap depth ++ last :: rest) = none := by
  rw [expect_append (isWhiteSpace_newLine depth), expect_cons hlast, if_neg hne]

/-- The items of an array are read up to the closing bracket. -/
theorem parseItems_write {values : List Value} (hne : values ≠ [])
    (h : ∀ value ∈ values, Parses gap value) (depth depth' fuel : ℕ) (rest : JsString)
    (hfuel : ((comma :: newLine gap depth).intercalate
      (values.map (write gap depth))).length + 1 < fuel) :
    parseItems fuel (newLine gap depth ++
      ((comma :: newLine gap depth).intercalate (values.map (write gap depth)) ++
        (newLine gap depth' ++ closeBracket :: rest))) = some (values.map reorder, rest) := by
  induction values generalizing fuel with
  | nil => exact absurd rfl hne
  | cons value others ih =>
      obtain ⟨fuel, rfl⟩ := Nat.exists_eq_succ_of_ne_zero (by omega : fuel ≠ 0)
      have hvalue := h value List.mem_cons_self
      rw [parseItems, parseValue_append (isWhiteSpace_newLine depth)]
      cases others with
      | nil =>
          have hended : Ended (newLine gap depth' ++ closeBracket :: rest) :=
            ended_newLine depth' (ended_cons (by decide) (by decide) (by decide) (by decide))
          simp only [List.map_cons, List.map_nil, List.intercalate_singleton] at hfuel ⊢
          rw [hvalue depth fuel _ (by omega) hended]
          dsimp only
          rw [expect_comma_last (by decide) (by decide), expect_newLine_last (by decide)]
          rfl
      | cons next others =>
          have hended : ∀ text, Ended (comma :: text) := fun text =>
            ended_cons (by decide) (by decide) (by decide) (by decide)
          simp only [List.map_cons, List.intercalate_cons_cons] at hfuel ih ⊢
          simp only [List.length_append, List.length_cons] at hfuel
          have hrest := ih (List.cons_ne_nil _ _)
            (fun other hmem => h other (List.mem_cons_of_mem _ hmem)) fuel (by omega)
          simp only [List.append_assoc, List.cons_append]
          rw [hvalue depth fuel _ (by omega) (hended _)]
          dsimp only
          rw [expect_cons (by decide), if_pos rfl]
          dsimp only
          rw [hrest]
          rfl

theorem parseMember_write {gap : ℕ} {value : Value} (h : Parses gap value) (key : JsString)
    (depth fuel : ℕ) {rest : JsString} (hended : Ended rest)
    (hfuel : (member gap (key, write gap depth value)).length < fuel) :
    ∃ after, member gap (key, write gap depth value) ++ rest = quotationMark :: after ∧
      ∃ text, readString after = some (key, colon :: text) ∧
        parseValue fuel text = some (reorder value, rest) := by
  let white : JsString := if gap = 0 then [] else [space]
  have hwhite : ∀ c ∈ white, isWhiteSpace c = true := by
    intro c hc
    unfold white at hc
    split at hc
    · cases hc
    · rw [List.mem_singleton.mp hc]
      decide
  have htext : member gap (key, write gap depth value) ++ rest =
      quote key ++ colon :: (white ++ (write gap depth value ++ rest)) := by
    unfold member
    simp only [List.append_assoc, List.cons_append]
    rfl
  obtain ⟨after, hquote, hread⟩ :=
    readString_quote key (colon :: (white ++ (write gap depth value ++ rest)))
  refine ⟨after, htext.trans hquote, _, hread, ?_⟩
  have hlength : (write gap depth value).length < fuel := by
    unfold member at hfuel
    simp only [List.length_append, List.length_cons] at hfuel
    omega
  rw [parseValue_append hwhite]
  exact h depth fuel rest hlength hended

/-- The entries of an object are read up to the closing brace. -/
theorem parseMembers_write {entries : Entries Value} (hne : entries ≠ [])
    (h : ∀ entry ∈ entries, Parses gap entry.2) (depth depth' fuel : ℕ) (rest : JsString)
    (hfuel : ((comma :: newLine gap depth).intercalate
      ((entries.mapValues (write gap depth)).map (member gap))).length + 1 < fuel) :
    parseMembers fuel (newLine gap depth ++
      ((comma :: newLine gap depth).intercalate
          ((entries.mapValues (write gap depth)).map (member gap)) ++
        (newLine gap depth' ++ closeBrace :: rest))) = some (entries.mapValues reorder, rest) := by
  induction entries generalizing fuel with
  | nil => exact absurd rfl hne
  | cons entry others ih =>
      obtain ⟨key, value⟩ := entry
      obtain ⟨fuel, rfl⟩ := Nat.exists_eq_succ_of_ne_zero (by omega : fuel ≠ 0)
      have hvalue : Parses gap value := h (key, value) List.mem_cons_self
      have hquotation : isWhiteSpace quotationMark = false := by decide
      have hcolon : ∀ text, expect colon (colon :: text) = some text := fun text => by
        rw [expect_cons (by decide), if_pos rfl]
      rw [parseMembers, expect_append (isWhiteSpace_newLine depth)]
      cases others with
      | nil =>
          have hended : Ended (newLine gap depth' ++ closeBrace :: rest) :=
            ended_newLine depth' (ended_cons (by decide) (by decide) (by decide) (by decide))
          simp only [Entries.mapValues, List.map_cons, List.map_nil, List.intercalate_singleton,
            Prod.map_apply, id_eq] at hfuel ⊢
          obtain ⟨after, hafter, text, hread, hparse⟩ :=
            parseMember_write hvalue key depth fuel hended (by omega)
          rw [hafter, expect_cons hquotation, if_pos rfl, Option.bind_some, hread]
          dsimp only
          rw [hcolon, Option.bind_some, hparse]
          dsimp only
          rw [expect_comma_last (by decide) (by decide), expect_newLine_last (by decide)]
          rfl
      | cons next others =>
          have hended : ∀ text, Ended (comma :: text) := fun text =>
            ended_cons (by decide) (by decide) (by decide) (by decide)
          simp only [Entries.mapValues, List.map_cons, List.intercalate_cons_cons,
            Prod.map_apply, id_eq] at hfuel ih ⊢
          simp only [List.length_append, List.length_cons] at hfuel
          have hrest := ih (List.cons_ne_nil _ _)
            (fun other hmem => h other (List.mem_cons_of_mem _ hmem)) fuel (by omega)
          simp only [List.append_assoc, List.cons_append]
          obtain ⟨after, hafter, text, hread, hparse⟩ :=
            parseMember_write hvalue key depth fuel (hended _) (by omega)
          rw [hafter, expect_cons hquotation, if_pos rfl, Option.bind_some, hread]
          dsimp only
          rw [hcolon, Option.bind_some, hparse]
          dsimp only
          rw [expect_cons (by decide), if_pos rfl]
          dsimp only
          rw [hrest]
          rfl

/-! ## Arrays and objects -/

theorem parses_array {values : List Value} (h : ∀ value ∈ values, Parses gap value) :
    Parses gap (.array values) := by
  intro depth fuel rest hfuel _
  obtain ⟨fuel, rfl⟩ := Nat.exists_eq_succ_of_ne_zero (by omega : fuel ≠ 0)
  rw [reorder, reorderAll_eq]
  rw [write, writeAll_eq] at hfuel ⊢
  cases values with
  | nil =>
      have hstart : bracketed gap openBracket closeBracket depth
          (List.map (write gap (depth + 1)) []) = [openBracket, closeBracket] := rfl
      rw [hstart, List.cons_append, parseValue, skip_cons (by decide)]
      dsimp only
      rw [if_neg (by decide), if_pos rfl, List.cons_append, expect_cons (by decide), if_pos rfl]
      rfl
  | cons value others =>
      have hne : value :: others ≠ [] := List.cons_ne_nil _ _
      obtain ⟨c, text, htext, hstarts⟩ : ∃ c text, (comma :: newLine gap (depth + 1)).intercalate
          ((value :: others).map (write gap (depth + 1))) ++
            (newLine gap depth ++ closeBracket :: rest) = c :: text ∧ Starts c := by
        obtain ⟨c, text, htext, hstarts⟩ := starts_write gap (depth + 1) value
        cases others with
        | nil => exact ⟨c, _, by rw [List.map_cons, htext]; rfl, hstarts⟩
        | cons next others => exact ⟨c, _, by rw [List.map_cons, htext]; rfl, hstarts⟩
      have hbracketed : bracketed gap openBracket closeBracket depth
          ((value :: others).map (write gap (depth + 1))) = openBracket ::
            (newLine gap (depth + 1) ++ (comma :: newLine gap (depth + 1)).intercalate
              ((value :: others).map (write gap (depth + 1))) ++
                newLine gap depth ++ [closeBracket]) := rfl
      have hitems := parseItems_write hne h (depth + 1) depth fuel rest (by
        rw [hbracketed] at hfuel
        simp only [List.length_cons, List.length_append, List.length_nil] at hfuel
        omega)
      rw [hbracketed, List.cons_append, parseValue, skip_cons (by decide)]
      simp only [List.append_assoc, List.cons_append, List.nil_append]
      rw [if_neg (by decide), if_pos trivial, hitems]
      rw [htext, expect_newLine_starts hstarts (.inl rfl)]
      rfl

theorem parses_object {entries : Entries Value} (hnodup : entries.keys.Nodup)
    (h : ∀ entry ∈ entries, Parses gap entry.2) : Parses gap (.object entries) := by
  intro depth fuel rest hfuel _
  obtain ⟨fuel, rfl⟩ := Nat.exists_eq_succ_of_ne_zero (by omega : fuel ≠ 0)
  have hkeys : (entries.enumerate.mapValues reorder).keys.Nodup := by
    rw [Entries.keys_mapValues]
    exact ((Entries.enumerate_perm entries).map Prod.fst).nodup_iff.mpr hnodup
  have hvalues : ∀ entry ∈ entries.enumerate, Parses gap entry.2 := fun entry hmem =>
    h entry ((Entries.enumerate_perm entries).mem_iff.mp hmem)
  rw [reorder, reorderEntries_eq, Entries.enumerate_mapValues]
  rw [write, writeEntries_eq, Entries.enumerate_mapValues] at hfuel ⊢
  generalize entries.enumerate = enumerated at hfuel hkeys hvalues ⊢
  cases enumerated with
  | nil =>
      have hstart : bracketed gap openBrace closeBrace depth
          (List.map (member gap) (Entries.mapValues (write gap (depth + 1)) [])) =
            [openBrace, closeBrace] := rfl
      rw [hstart, List.cons_append, parseValue, skip_cons (by decide)]
      dsimp only
      rw [if_neg (by decide), if_neg (by decide), if_pos rfl, List.cons_append,
        expect_cons (by decide), if_pos rfl]
      rfl
  | cons entry others =>
      have hne : entry :: others ≠ [] := List.cons_ne_nil _ _
      obtain ⟨text, htext⟩ : ∃ text, (comma :: newLine gap (depth + 1)).intercalate
          ((Entries.mapValues (write gap (depth + 1)) (entry :: others)).map (member gap)) ++
            (newLine gap depth ++ closeBrace :: rest) = quotationMark :: text := by
        cases others with
        | nil => exact ⟨_, rfl⟩
        | cons next others => exact ⟨_, rfl⟩
      have hbracketed : bracketed gap openBrace closeBrace depth
          ((Entries.mapValues (write gap (depth + 1)) (entry :: others)).map (member gap)) =
            openBrace :: (newLine gap (depth + 1) ++
              (comma :: newLine gap (depth + 1)).intercalate
                ((Entries.mapValues (write gap (depth + 1)) (entry :: others)).map (member gap)) ++
                newLine gap depth ++ [closeBrace]) := rfl
      have hmembers := parseMembers_write hne hvalues (depth + 1) depth fuel rest (by
        rw [hbracketed] at hfuel
        simp only [List.length_cons, List.length_append, List.length_nil] at hfuel
        omega)
      have hstarts : Starts quotationMark := by decide
      rw [hbracketed, List.cons_append, parseValue, skip_cons (by decide)]
      simp only [List.append_assoc, List.cons_append, List.nil_append]
      rw [if_neg (by decide), if_neg (by decide), if_pos trivial, hmembers]
      rw [htext, expect_newLine_starts hstarts (.inr rfl)]
      show some (Value.object (Entries.fromEntries _), rest) = _
      rw [Entries.fromEntries_eq hkeys]

variable {K : Set JsString}

theorem parses_of_keyed (gap : ℕ) {value : Value} (h : Keyed K value) : Parses gap value := by
  induction value using Value.induct with
  | null => exact parses_null
  | bool value => exact parses_bool value
  | number value => exact parses_number value
  | string text => exact parses_string text
  | array values ih =>
      cases h with
      | array hvalues => exact parses_array fun value hmem => ih value hmem (hvalues value hmem)
  | object entries ih =>
      cases h with
      | object hnodup _ hvalues =>
          exact parses_object hnodup fun entry hmem => ih entry hmem (hvalues entry hmem)

/-- **A value that is written is read, with its entries in the order of enumeration.** -/
theorem parse_stringify {value : Value} (h : Keyed K value) :
    parse (stringify gap value) = some (reorder value) := by
  have hparse := parses_of_keyed gap h 0 ((stringify gap value).length + 1) []
    (Nat.lt_succ_self _) ended_nil
  rw [List.append_nil] at hparse
  unfold parse
  rw [show parseValue ((stringify gap value).length + 1) (stringify gap value) =
    some (reorder value, []) from hparse]
  rfl

end Hemlig.Json
