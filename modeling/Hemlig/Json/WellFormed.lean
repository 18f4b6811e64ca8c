import Hemlig.Json.Text

/-!
# Texts of JSON values are well formed

Surrogates of strings are quoted as they are only if they form a pair.  So the bytes of a text
identify it, whatever the strings of the value contain.
-/

namespace Hemlig.Json

open Text

/-- The unit belongs to ASCII. -/
def Ascii (c : CodeUnit) : Prop := c.toNat < 128

instance : DecidablePred Ascii := fun c => inferInstanceAs (Decidable (c.toNat < 128))

theorem wellFormed_of_ascii {text : JsString} (h : ∀ c ∈ text, Ascii c) : WellFormed text := by
  refine wellFormed_of_units fun c hc => ?_
  have hlt : c.toNat < 128 := h c hc
  simp only [isSurrogate, decide_eq_false_iff_not]
  omega

/-! ## Numbers -/

theorem ascii_digit (d : Digit) : Ascii (digit d) := by
  revert d
  decide

theorem ascii_digits {digits : List Digit} : ∀ c ∈ digits.map digit, Ascii c := by
  intro c hc
  obtain ⟨d, -, rfl⟩ := List.mem_map.mp hc
  exact ascii_digit d

theorem ascii_zeros {count : ℕ} : ∀ c ∈ List.replicate count (digit 0), Ascii c := by
  intro c hc
  rw [List.eq_of_mem_replicate hc]
  exact ascii_digit 0

theorem ascii_exponentText (n : ℤ) : ∀ c ∈ exponentText n, Ascii c := by
  have hsign : Ascii (if 0 ≤ n then plus else minus) := by
    split <;> decide
  exact List.forall_mem_cons.mpr ⟨by decide, List.forall_mem_cons.mpr ⟨hsign, ascii_digits⟩⟩

theorem ascii_decimalText (digits : List Digit) (n : ℤ) :
    ∀ c ∈ decimalText digits n, Ascii c := by
  have hpoint : Ascii point := by decide
  have hdigit := ascii_digit
  have hexponent := ascii_exponentText (n - 1)
  unfold decimalText
  split_ifs
  · exact List.forall_mem_append.mpr ⟨ascii_digits, ascii_zeros⟩
  · exact List.forall_mem_append.mpr ⟨ascii_digits, List.forall_mem_cons.mpr ⟨hpoint, ascii_digits⟩⟩
  · exact List.forall_mem_cons.mpr ⟨hdigit 0, List.forall_mem_cons.mpr
      ⟨hpoint, List.forall_mem_append.mpr ⟨ascii_zeros, ascii_digits⟩⟩⟩
  · split
    · exact List.forall_mem_nil _
    · exact List.forall_mem_cons.mpr ⟨hdigit _, hexponent⟩
    · exact List.forall_mem_cons.mpr ⟨hdigit _, List.forall_mem_cons.mpr
        ⟨hpoint, List.forall_mem_append.mpr ⟨ascii_digits, hexponent⟩⟩⟩

theorem ascii_number (number : Number) : ∀ c ∈ number.text, Ascii c := by
  cases number with
  | zero => exact List.forall_mem_singleton.mpr (ascii_digit 0)
  | nonzero negative digits n h =>
      refine List.forall_mem_append.mpr ⟨?_, ascii_decimalText digits n⟩
      cases negative with
      | false => exact List.forall_mem_nil _
      | true => exact List.forall_mem_singleton.mpr (by decide)

/-! ## Strings -/

theorem ascii_hexDigit {n : ℕ} (hn : n < 16) : Ascii (hexDigit n) := by
  have hall : ∀ n < 16, Ascii (hexDigit n) := by decide
  exact hall n hn

theorem ascii_unicodeEscape (c : CodeUnit) : ∀ d ∈ unicodeEscape c, Ascii d := by
  have hlt := c.toNat_lt
  have hbackslash : Ascii backslash := by decide
  have hletter : Ascii letterU := by decide
  unfold unicodeEscape
  simp only [List.forall_mem_cons]
  refine ⟨hbackslash, hletter, ascii_hexDigit ?_, ascii_hexDigit ?_, ascii_hexDigit ?_,
    ascii_hexDigit ?_, List.forall_mem_nil _⟩
  all_goals omega

theorem ascii_escapeLetter {c letter : CodeUnit} (h : escapeLetter c = some letter) :
    Ascii letter := by
  unfold escapeLetter at h
  split_ifs at h
  all_goals
    obtain rfl := Option.some.inj h
    decide

theorem wellFormed_quoteUnit (c : CodeUnit) : WellFormed (quoteUnit c) := by
  have hbackslash : Ascii backslash := by decide
  unfold quoteUnit
  split
  · rename_i letter hletter
    exact wellFormed_of_ascii (List.forall_mem_cons.mpr
      ⟨hbackslash, List.forall_mem_singleton.mpr (ascii_escapeLetter hletter)⟩)
  · split
    · exact wellFormed_of_ascii (ascii_unicodeEscape c)
    · rename_i hplain
      refine .single ?_ .nil
      simp only [isHighSurrogate, isLowSurrogate, decide_eq_true_eq, not_or, not_and] at hplain
      simp only [isSurrogate, decide_eq_false_iff_not]
      omega

theorem wellFormed_quoteUnits (s : JsString) : WellFormed (quoteUnits s) := by
  induction s using quoteUnits.induct with
  | case1 => exact .nil
  | case2 c => exact wellFormed_quoteUnit c
  | case3 c d s hpair ih =>
      rw [quoteUnits, if_pos hpair]
      exact .pair hpair.1 hpair.2 ih
  | case4 c d s hpair ih =>
      rw [quoteUnits, if_neg hpair]
      exact (wellFormed_quoteUnit c).append ih

theorem wellFormed_quote (s : JsString) : WellFormed (quote s) := by
  have hmark : WellFormed [quotationMark] := .single (by decide) .nil
  exact .single (by decide) ((wellFormed_quoteUnits s).append hmark)

/-! ## Values -/

section Values

variable (gap : ℕ)

theorem wellFormed_newLine (depth : ℕ) : WellFormed (newLine gap depth) := by
  refine wellFormed_of_ascii fun c hc => ?_
  unfold newLine at hc
  split at hc
  · cases hc
  · rcases List.mem_cons.mp hc with rfl | hc
    · decide
    · rw [List.eq_of_mem_replicate hc]
      decide

theorem wellFormed_intercalate {between : JsString} (hbetween : WellFormed between)
    {items : List JsString} (h : ∀ item ∈ items, WellFormed item) :
    WellFormed (between.intercalate items) := by
  induction items with
  | nil => exact .nil
  | cons item others ih =>
      have hitem := h item List.mem_cons_self
      cases others with
      | nil =>
          rw [List.intercalate_singleton]
          exact hitem
      | cons next others =>
          have hrest := ih fun other hmem => h other (List.mem_cons_of_mem _ hmem)
          rw [List.intercalate_cons_cons]
          exact (hitem.append hbetween).append hrest

theorem wellFormed_bracketed {first last : CodeUnit} (hfirst : isSurrogate first = false)
    (hlast : isSurrogate last = false) (depth : ℕ) {items : List JsString}
    (h : ∀ item ∈ items, WellFormed item) :
    WellFormed (bracketed gap first last depth items) := by
  have hbetween : WellFormed (comma :: newLine gap (depth + 1)) :=
    .single (by decide) (wellFormed_newLine gap _)
  unfold bracketed
  split
  · exact .single hfirst (.single hlast .nil)
  · exact .single hfirst ((((wellFormed_newLine gap _).append
      (wellFormed_intercalate hbetween h)).append (wellFormed_newLine gap _)).append
        (.single hlast .nil))

theorem wellFormed_member {entry : JsString × JsString} (h : WellFormed entry.2) :
    WellFormed (member gap entry) := by
  have hspace : WellFormed (if gap = 0 then [] else [space]) := by
    split
    · exact .nil
    · exact .single (by decide) .nil
  exact (wellFormed_quote entry.1).append (.single (by decide) (hspace.append h))

theorem wellFormed_word {word : String} (h : (units word).all (!isSurrogate ·) = true) :
    WellFormed (units word) :=
  wellFormed_of_units fun c hc => by simpa using List.all_eq_true.mp h c hc

theorem wellFormed_write (value : Value) (depth : ℕ) : WellFormed (write gap depth value) := by
  induction value using Value.induct generalizing depth with
  | null => exact wellFormed_word (by decide)
  | bool value =>
      cases value with
      | true => exact wellFormed_word (by decide)
      | false => exact wellFormed_word (by decide)
  | number value => exact wellFormed_of_ascii (ascii_number value)
  | string text => exact wellFormed_quote text
  | array values ih =>
      rw [write, writeAll_eq]
      refine wellFormed_bracketed gap (by decide) (by decide) depth fun item hitem => ?_
      obtain ⟨value, hmem, rfl⟩ := List.mem_map.mp hitem
      exact ih value hmem _
  | object entries ih =>
      rw [write, writeEntries_eq, Entries.enumerate_mapValues]
      refine wellFormed_bracketed gap (by decide) (by decide) depth fun item hitem => ?_
      obtain ⟨written, hwritten, rfl⟩ := List.mem_map.mp hitem
      obtain ⟨entry, hmem, rfl⟩ := List.mem_map.mp hwritten
      exact wellFormed_member gap (ih entry ((Entries.enumerate_perm entries).mem_iff.mp hmem) _)

/-- **The text of a value has no surrogate without its pair.** -/
theorem wellFormed_stringify (value : Value) : WellFormed (stringify gap value) :=
  wellFormed_write gap value 0

end Values

end Hemlig.Json
