import Hemlig.Domain.Validation
import Mathlib.Algebra.GroupWithZero.Nat

/-!
# Tags and catalog filters

The parts of `src/domain/validation.ts` that read the metadata of a secret and the filters of a
catalog listing.  The order of `localeCompare` is a parameter: it decides in which order tags are
kept and sent, and nothing else.
-/

namespace Hemlig

/-- A value in the tags of a request body. -/
inductive RawTag
  | text (value : String)
  | other
  deriving DecidableEq, Repr

/-- An object has each key once. -/
structure RawTags where
  entries : List (String × RawTag)
  nodup : (entries.map Prod.fst).Nodup

/-- A value in the metadata of a request body. -/
inductive RawField
  | text (value : String)
  | object (tags : RawTags)
  | other

structure RawMetadata where
  description : Option RawField
  path : Option RawField
  tags : Option RawField

/-! ## Grammars -/

/-- `/^[a-z][a-z0-9-]{0,31}$/`. -/
def tagKey (value : String) : Bool := isName 0 31 value.toList

/-- `[A-Za-z0-9]`. -/
def isTagStart (c : Char) : Bool :=
  isLower c || ('A' ≤ c && c ≤ 'Z') || ('0' ≤ c && c ≤ '9')

/-- A letter, a digit, or one of `. _ @ + - /`. -/
def isTagChar (c : Char) : Bool :=
  isTagStart c || c == '.' || c == '_' || c == '@' || c == '+' || c == '/' || c == '-'

/-- A letter or a digit, and at most 127 more characters. -/
def tagValue (value : String) : Bool :=
  match value.toList with
  | [] => false
  | c :: rest => isTagStart c && rest.length ≤ 127 && rest.all isTagChar

/-- The length of a string counts code units. -/
def codeUnits (value : String) : ℕ := (value.toList.map fun c => if c.toNat < 0x10000 then 1 else 2).sum

/-! ## Metadata -/

section Metadata

variable (localeBefore : String → String → Bool)

/-- The entries in the order of their keys. -/
def sortTags (tags : List (String × String)) : List (String × String) :=
  tags.mergeSort fun left right => localeBefore left.1 right.1

def acceptTag : String × RawTag → Except ApiError (String × String)
  | (key, .text tag) =>
      if tagKey key && tagValue tag then .ok (key, tag)
      else .error (badRequest "metadata.tags contains an invalid key or value.")
  | (_, .other) => .error (badRequest "metadata.tags contains an invalid key or value.")

def parseTags : Option RawField → Except ApiError (Option (List (String × String)))
  | none => .ok none
  | some (.object value) =>
      if value.entries.length > 20 then
        .error (badRequest "metadata.tags must contain at most twenty entries.")
      else (value.entries.mapM acceptTag).map fun tags => some (sortTags localeBefore tags)
  | some _ => .error (badRequest "metadata.tags must be an object of string values.")

def parseDescription : Option RawField → Except ApiError (Option String)
  | none => .ok none
  | some (.text value) =>
      if codeUnits value > 1024 then
        .error (badRequest "metadata.description must be a string of at most 1024 characters.")
      else .ok (some value)
  | some _ =>
      .error (badRequest "metadata.description must be a string of at most 1024 characters.")

def parseMetadata : Option RawMetadata → Except ApiError SecretMetadata
  | none => .error (badRequest "metadata must be an object.")
  | some value => do
      let description ← parseDescription value.description
      if value.path.isSome then
        .error (badRequest
          "metadata.path is not supported; encode the hierarchy in secretId.")
      else
        let tags ← parseTags localeBefore value.tags
        return { description, tags }

end Metadata

/-! ## Filters of a listing -/

def parseCatalogPathPrefix : Option String → Except ApiError (Option String)
  | none => .ok none
  | some value =>
      if value.length = 0 ∨ value.length > 256 ∨ ¬ secretIdentifier value then
        .error (badRequest ("pathPrefix must be a slash-delimited secret ID prefix, " ++
          "with 3-64 lowercase identifier characters per segment."))
      else .ok (some value)

/-- A key and a value with one colon between them. -/
def parseTagFilter (entry : List Char) : Except ApiError (String × String) :=
  let key := entry.takeWhile (· ≠ ':')
  match entry.drop key.length with
  | [] => .error (badRequest "tags must be comma-separated key:value pairs.")
  | _ :: tag =>
      if key = [] ∨ tag = [] ∨ ':' ∈ tag then
        .error (badRequest "tags must be comma-separated key:value pairs.")
      else if ¬ tagKey (String.ofList key) ∨ ¬ tagValue (String.ofList tag) then
        .error (badRequest "tags contains an invalid key or value.")
      else .ok (String.ofList key, String.ofList tag)

def parseCatalogTagFilters : Option String → Except ApiError (List (String × String))
  | none => .ok []
  | some value =>
      if value.length = 0 then .ok []
      else do
        let entries ← (value.toList.splitOn ',').mapM parseTagFilter
        if entries.length > 20 ∨ ¬ (entries.map Prod.fst).Nodup then
          .error (badRequest "tags must contain at most twenty unique keys.")
        else return entries

/-! ## Accepted tags -/

/-- Tags that are kept with a secret: at most twenty, with distinct keys. -/
structure AcceptedTags (tags : List (String × String)) : Prop where
  length : tags.length ≤ 20
  nodup : (tags.map Prod.fst).Nodup
  grammar : ∀ entry ∈ tags, tagKey entry.1 = true ∧ tagValue entry.2 = true

theorem AcceptedTags.perm {tags tags' : List (String × String)} (h : AcceptedTags tags)
    (hperm : tags'.Perm tags) : AcceptedTags tags' where
  length := hperm.length_eq ▸ h.length
  nodup := (hperm.map Prod.fst).nodup_iff.mpr h.nodup
  grammar entry hentry := h.grammar entry (hperm.mem_iff.mp hentry)

theorem sortTags_perm (localeBefore : String → String → Bool) (tags : List (String × String)) :
    (sortTags localeBefore tags).Perm tags :=
  List.mergeSort_perm tags _

theorem acceptTag_ok {entry : String × RawTag} {parsed : String × String}
    (h : acceptTag entry = .ok parsed) :
    parsed.1 = entry.1 ∧ tagKey parsed.1 = true ∧ tagValue parsed.2 = true := by
  obtain ⟨key, value⟩ := entry
  cases value with
  | other => cases h
  | text tag =>
      rw [acceptTag] at h
      split at h
      next hgrammar =>
        obtain rfl : (key, tag) = parsed := Except.ok.inj h
        rw [Bool.and_eq_true] at hgrammar
        exact ⟨rfl, hgrammar⟩
      · cases h

theorem mapM_acceptTag {entries : List (String × RawTag)} {tags : List (String × String)}
    (h : entries.mapM acceptTag = .ok tags) :
    tags.map Prod.fst = entries.map Prod.fst ∧
      ∀ entry ∈ tags, tagKey entry.1 = true ∧ tagValue entry.2 = true := by
  induction entries generalizing tags with
  | nil =>
      obtain rfl : [] = tags := Except.ok.inj h
      simp
  | cons entry entries ih =>
      rw [List.mapM_cons] at h
      cases hentry : acceptTag entry with
      | error error =>
          rw [hentry] at h
          cases h
      | ok parsed =>
          rw [hentry] at h
          cases hrest : entries.mapM acceptTag with
          | error error =>
              rw [hrest] at h
              cases h
          | ok rest =>
              rw [hrest] at h
              obtain rfl : parsed :: rest = tags := Except.ok.inj h
              obtain ⟨hkey, hgrammar⟩ := acceptTag_ok hentry
              obtain ⟨hkeys, hrestGrammar⟩ := ih hrest
              refine ⟨by rw [List.map_cons, List.map_cons, hkey, hkeys], ?_⟩
              exact List.forall_mem_cons.mpr ⟨hgrammar, hrestGrammar⟩

theorem parseTags_ok {localeBefore : String → String → Bool} {value : Option RawField}
    {tags : List (String × String)} (h : parseTags localeBefore value = .ok (some tags)) :
    AcceptedTags tags := by
  unfold parseTags at h
  split at h
  · cases h
  next value =>
    split at h
    · cases h
    next hlength =>
      cases hentries : value.entries.mapM acceptTag with
      | error error =>
          rw [hentries] at h
          cases h
      | ok entries =>
          rw [hentries] at h
          obtain rfl : sortTags localeBefore entries = tags := Option.some.inj (Except.ok.inj h)
          obtain ⟨hkeys, hgrammar⟩ := mapM_acceptTag hentries
          have haccepted : AcceptedTags entries := by
            refine ⟨?_, hkeys ▸ value.nodup, hgrammar⟩
            have hsame := congrArg List.length hkeys
            rw [List.length_map, List.length_map] at hsame
            omega
          exact haccepted.perm (sortTags_perm localeBefore entries)
  · cases h

/-- **The tags of accepted metadata are accepted tags.** -/
theorem parseMetadata_tags {localeBefore : String → String → Bool} {value : Option RawMetadata}
    {metadata : SecretMetadata} (h : parseMetadata localeBefore value = .ok metadata)
    {tags : List (String × String)} (htags : metadata.tags = some tags) : AcceptedTags tags := by
  cases value with
  | none => cases h
  | some value =>
      obtain ⟨description, -, h⟩ := bind_eq_ok.mp h
      split at h
      · cases h
      obtain ⟨parsed, hparsed, h⟩ := bind_eq_ok.mp h
      obtain rfl : SecretMetadata.mk description parsed = metadata := Except.ok.inj h
      obtain rfl : parsed = some tags := htags
      exact parseTags_ok hparsed

/-! ## Filters on the wire -/

/-- A tag as the client sends it. -/
def tagFilter (tag : String × String) : List Char := tag.1.toList ++ ':' :: tag.2.toList

theorem mem_of_tagKey {value : String} (h : tagKey value = true) :
    ∀ c ∈ value.toList, isIdentifierChar c = true :=
  all_of_isName h

theorem mem_of_tagValue {value : String} (h : tagValue value = true) :
    ∀ c ∈ value.toList, isTagChar c = true := by
  unfold tagValue at h
  cases hvalue : value.toList with
  | nil => exact List.forall_mem_nil _
  | cons c rest =>
      rw [hvalue] at h
      simp only [Bool.and_eq_true] at h
      obtain ⟨⟨hstart, -⟩, hrest⟩ := h
      have hc : isTagChar c = true := by
        unfold isTagChar
        rw [hstart]
        rfl
      exact List.forall_mem_cons.mpr ⟨hc, List.all_eq_true.mp hrest⟩

/-- **What is sent for an accepted tag is read as the tag.** -/
theorem parseTagFilter_tagFilter {tag : String × String} (hkey : tagKey tag.1 = true)
    (hvalue : tagValue tag.2 = true) : parseTagFilter (tagFilter tag) = .ok tag := by
  have hkeyColon : ∀ c ∈ tag.1.toList, decide (c ≠ ':') = true := by
    intro c hc
    refine decide_eq_true fun h => ?_
    have := mem_of_tagKey hkey c hc
    rw [h] at this
    cases this
  have hvalueColon : ':' ∉ tag.2.toList := by
    intro h
    have := mem_of_tagValue hvalue ':' h
    cases this
  have htake : (tagFilter tag).takeWhile (· ≠ ':') = tag.1.toList := by
    rw [tagFilter, List.takeWhile_append_of_pos hkeyColon]
    simp
  have hkeyNil : tag.1.toList ≠ [] := by
    intro h
    unfold tagKey at hkey
    rw [h] at hkey
    cases hkey
  have hvalueNil : tag.2.toList ≠ [] := by
    intro h
    unfold tagValue at hvalue
    rw [h] at hvalue
    cases hvalue
  unfold parseTagFilter
  simp only [htake]
  rw [show (tagFilter tag).drop tag.1.toList.length = ':' :: tag.2.toList from
    List.drop_left]
  simp [hkeyNil, hvalueNil, hvalueColon, hkey, hvalue]

theorem mapM_parseTagFilter {tags : List (String × String)}
    (h : ∀ tag ∈ tags, tagKey tag.1 = true ∧ tagValue tag.2 = true) :
    (tags.map tagFilter).mapM parseTagFilter = .ok tags := by
  induction tags with
  | nil => rfl
  | cons tag tags ih =>
      obtain ⟨⟨hkey, hvalue⟩, htags⟩ := List.forall_mem_cons.mp h
      rw [List.map_cons, List.mapM_cons, parseTagFilter_tagFilter hkey hvalue, ih htags]
      rfl

/-- **What is sent for accepted tags is read as the tags.** -/
theorem parseCatalogTagFilters_intercalate {tags : List (String × String)}
    (h : AcceptedTags tags) :
    parseCatalogTagFilters (some (String.ofList ([','].intercalate (tags.map tagFilter)))) =
      .ok tags := by
  unfold parseCatalogTagFilters
  by_cases htags : tags = []
  · subst htags
    rfl
  · have hcomma : ∀ entry ∈ tags.map tagFilter, ',' ∉ entry := by
      intro entry hentry
      obtain ⟨tag, htag, rfl⟩ := List.mem_map.mp hentry
      obtain ⟨hkey, hvalue⟩ := h.grammar tag htag
      intro hmem
      rcases List.mem_append.mp hmem with hmem | hmem
      · have := mem_of_tagKey hkey ',' hmem
        cases this
      · rcases List.mem_cons.mp hmem with heq | hmem
        · cases heq
        · have := mem_of_tagValue hvalue ',' hmem
          cases this
    have hne : tags.map tagFilter ≠ [] := by simpa using htags
    have hlength : (String.ofList ([','].intercalate (tags.map tagFilter))).length ≠ 0 := by
      intro hzero
      have hnil : [','].intercalate (tags.map tagFilter) = [] := by
        rw [← List.length_eq_zero_iff, ← hzero, ← String.length_toList, String.toList_ofList]
      have hsplit := List.splitOn_intercalate (x := ',') hcomma hne
      rw [hnil] at hsplit
      -- the only entry would be empty, but every entry has a colon
      cases tags with
      | nil => exact htags rfl
      | cons tag tags =>
          rw [List.map_cons] at hsplit
          have hhead := congrArg List.head? hsplit
          have hcolon : ':' ∈ tagFilter tag := List.mem_append_right _ List.mem_cons_self
          have : tagFilter tag = [] := (Option.some.inj hhead).symm
          rw [this] at hcolon
          cases hcolon
    simp only [if_neg hlength, String.toList_ofList,
      List.splitOn_intercalate (x := ',') hcomma hne, mapM_parseTagFilter h.grammar]
    have hlimit : ¬ (tags.length > 20 ∨ ¬ (tags.map Prod.fst).Nodup) := by
      rw [not_or, not_not]
      exact ⟨by have := h.length; omega, h.nodup⟩
    exact if_neg hlimit

end Hemlig
