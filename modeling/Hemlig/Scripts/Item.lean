import Hemlig.Domain.Errors
import Mathlib.Data.List.Nodup
import Mathlib.Data.List.ReduceOption

/-!
# Rows as the migration scripts see them

The scripts under `src/scripts` read every row of the table as a `Record<string, unknown>`.
A row always has its two keys, which are never empty; its other attributes are looked up by
name.  What is neither a text, a list nor a map is kept as it is.
-/

namespace Hemlig.Scripts

/-! ## Values -/

inductive Value
  | string (text : String)
  | list (values : List Value)
  | map (fields : List (String × Value))
  | other (literal : String)
  deriving Repr

namespace Value

mutual

def decEq : (first second : Value) → Decidable (first = second)
  | string text, string text' => decidable_of_iff (text = text') ⟨congrArg _, string.inj⟩
  | list values, list values' =>
      have := listDecEq values values'
      decidable_of_iff (values = values') ⟨congrArg _, list.inj⟩
  | map fields, map fields' =>
      have := fieldsDecEq fields fields'
      decidable_of_iff (fields = fields') ⟨congrArg _, map.inj⟩
  | other literal, other literal' =>
      decidable_of_iff (literal = literal') ⟨congrArg _, other.inj⟩
  | string _, list _ => isFalse nofun
  | string _, map _ => isFalse nofun
  | string _, other _ => isFalse nofun
  | list _, string _ => isFalse nofun
  | list _, map _ => isFalse nofun
  | list _, other _ => isFalse nofun
  | map _, string _ => isFalse nofun
  | map _, list _ => isFalse nofun
  | map _, other _ => isFalse nofun
  | other _, string _ => isFalse nofun
  | other _, list _ => isFalse nofun
  | other _, map _ => isFalse nofun

def listDecEq : (first second : List Value) → Decidable (first = second)
  | [], [] => isTrue rfl
  | value :: values, value' :: values' =>
      have := decEq value value'
      have := listDecEq values values'
      decidable_of_iff (value = value' ∧ values = values') List.cons_eq_cons.symm
  | [], _ :: _ => isFalse nofun
  | _ :: _, [] => isFalse nofun

def fieldsDecEq : (first second : List (String × Value)) → Decidable (first = second)
  | [], [] => isTrue rfl
  | (name, value) :: fields, (name', value') :: fields' =>
      have := decEq value value'
      have := fieldsDecEq fields fields'
      decidable_of_iff ((name = name' ∧ value = value') ∧ fields = fields')
        (by rw [List.cons_eq_cons, Prod.mk.injEq])
  | [], _ :: _ => isFalse nofun
  | _ :: _, [] => isFalse nofun

end

instance : DecidableEq Value := decEq

end Value

/-! ## Entries -/

/-- The entries of a record or of a map, each name once. -/
abbrev Entries (α : Type) := List (String × α)

namespace Entries

variable {α : Type}

/-- Replace the value of a name, or put it last. -/
def set (name : String) (value : α) : Entries α → Entries α
  | [] => [(name, value)]
  | entry :: rest => if entry.1 = name then (name, value) :: rest else entry :: set name value rest

/-- The entries without those of the given names. -/
def without (names : List String) (entries : Entries α) : Entries α :=
  entries.filter fun entry => entry.1 ∉ names

theorem lookup_cons (entry : String × α) (rest : Entries α) (name : String) :
    List.lookup name (entry :: rest) =
      if name = entry.1 then some entry.2 else rest.lookup name := by
  rw [List.lookup_cons]
  by_cases hname : name = entry.1
  · simp [hname]
  · simp [hname, beq_eq_false_iff_ne.mpr hname]

theorem lookup_set (entries : Entries α) (name other : String) (value : α) :
    (entries.set name value).lookup other =
      if other = name then some value else entries.lookup other := by
  induction entries with
  | nil => rw [set, lookup_cons]
  | cons entry rest ih =>
      by_cases hentry : entry.1 = name
      · rw [set, if_pos hentry, lookup_cons, lookup_cons, hentry]
        split <;> rfl
      · rw [set, if_neg hentry, lookup_cons, lookup_cons, ih]
        by_cases hother : other = entry.1
        · rw [if_pos hother, if_pos hother, if_neg fun h => hentry (hother.symm.trans h)]
        · rw [if_neg hother, if_neg hother]

@[simp] theorem lookup_set_self (entries : Entries α) (name : String) (value : α) :
    (entries.set name value).lookup name = some value := by
  rw [lookup_set, if_pos rfl]

theorem lookup_set_of_ne {entries : Entries α} {name other : String} {value : α}
    (h : other ≠ name) : (entries.set name value).lookup other = entries.lookup other := by
  rw [lookup_set, if_neg h]

/-- A value that is there is replaced by itself. -/
theorem set_of_lookup {entries : Entries α} {name : String} {value : α}
    (h : entries.lookup name = some value) : entries.set name value = entries := by
  induction entries with
  | nil => cases h
  | cons entry rest ih =>
      rw [lookup_cons] at h
      by_cases hentry : entry.1 = name
      · rw [if_pos hentry.symm] at h
        rw [set, if_pos hentry, ← Option.some.inj h, ← hentry]
      · rw [if_neg fun hname => hentry hname.symm] at h
        rw [set, if_neg hentry, ih h]

theorem lookup_without (entries : Entries α) (names : List String) (name : String) :
    (entries.without names).lookup name =
      if name ∈ names then none else entries.lookup name := by
  induction entries with
  | nil => rw [without, List.filter_nil, List.lookup_nil, ite_self]
  | cons entry rest ih =>
      by_cases hentry : entry.1 ∈ names
      · rw [without, List.filter_cons_of_neg (by simpa using hentry), lookup_cons]
        rw [without] at ih
        rw [ih]
        by_cases hname : name ∈ names
        · rw [if_pos hname, if_pos hname]
        · rw [if_neg hname, if_neg hname, if_neg]
          rintro rfl
          exact hname hentry
      · rw [without, List.filter_cons_of_pos (by simpa using hentry), lookup_cons, lookup_cons]
        rw [without] at ih
        rw [ih]
        by_cases hname : name = entry.1
        · rw [if_pos hname, if_pos hname, if_neg fun h => hentry (hname ▸ h)]
        · rw [if_neg hname, if_neg hname]

end Entries

/-! ## Attributes -/

abbrev Attributes := Entries Value

namespace Attributes

/-- `typeof value === "string" && value.length > 0 ? value : undefined`. -/
def stringField (attributes : Attributes) (name : String) : Option String :=
  match attributes.lookup name with
  | some (.string text) => if text = "" then none else some text
  | _ => none

/-- The map under a name. -/
def objectField (attributes : Attributes) (name : String) : Option Attributes :=
  match attributes.lookup name with
  | some (.map fields) => some fields
  | _ => none

/-- `Object.hasOwn`. -/
def hasOwn (attributes : Attributes) (name : String) : Bool := (attributes.lookup name).isSome

/-- Only one attribute is read. -/
theorem stringField_congr {attributes attributes' : Attributes} {name : String}
    (h : attributes.lookup name = attributes'.lookup name) :
    attributes.stringField name = attributes'.stringField name := by
  unfold stringField
  rw [h]

end Attributes

/-- The text that a value is. -/
def Value.text : Value → Option String
  | .string text => some text
  | _ => none

/-- The texts of a list of texts, and nothing otherwise. -/
def stringArray : Option Value → List String
  | some (.list values) => (values.mapM Value.text).getD []
  | _ => []

/-! ## Rows -/

/-- The key of a row. -/
@[ext]
structure Key where
  pk : String
  sk : String
  deriving DecidableEq, Repr

/-- A row. -/
structure Item where
  key : Key
  attributes : Attributes
  deriving DecidableEq, Repr

namespace Item

def pk (item : Item) : String := item.key.pk

def sk (item : Item) : String := item.key.sk

def stringField (item : Item) (name : String) : Option String := item.attributes.stringField name

/-- The row with one attribute replaced. -/
def set (item : Item) (name : String) (value : Value) : Item :=
  { item with attributes := item.attributes.set name value }

@[simp] theorem key_set (item : Item) (name : String) (value : Value) :
    (item.set name value).key = item.key := rfl

@[simp] theorem attributes_set (item : Item) (name : String) (value : Value) :
    (item.set name value).attributes = item.attributes.set name value := rfl

end Item

section Fields

variable {item : Item}

theorem stringField_set_of_ne {name other : String} {value : Value} (h : other ≠ name) :
    (item.set name value).stringField other = item.stringField other :=
  Attributes.stringField_congr (Entries.lookup_set_of_ne h)

theorem stringField_set_self {name text : String} (h : text ≠ "") :
    (item.set name (.string text)).stringField name = some text := by
  unfold Item.stringField Attributes.stringField
  rw [Item.attributes_set, Entries.lookup_set_self]
  exact if_neg h

theorem stringField_ne_empty {name text : String} (h : item.stringField name = some text) :
    text ≠ "" := by
  unfold Item.stringField Attributes.stringField at h
  split at h
  · split at h
    · cases h
    · rename_i hne
      exact Option.some.inj h ▸ hne
  · cases h

end Fields

/-! ## Results of the items of a list -/

section Results

variable {ε α β : Type} {f : α → Except ε β}

/-- The results are those of the items. -/
theorem mem_of_mapM_ok {items : List α} {results : List β} (h : items.mapM f = .ok results)
    {result : β} : result ∈ results ↔ ∃ item ∈ items, f item = .ok result := by
  induction items generalizing results with
  | nil =>
      obtain rfl : [] = results := Except.ok.inj h
      simp
  | cons item rest ih =>
      rw [List.mapM_cons] at h
      cases hfirst : f item with
      | error issue =>
          rw [hfirst] at h
          cases h
      | ok first =>
          cases hrest : rest.mapM f with
          | error issue =>
              rw [hfirst, hrest] at h
              cases h
          | ok others =>
              rw [hfirst, hrest] at h
              obtain rfl : first :: others = results := Except.ok.inj h
              rw [List.mem_cons, ih hrest]
              simp [hfirst, eq_comm]

/-- Items that all have results have a list of them. -/
theorem mapM_ok {items : List α} (h : ∀ item ∈ items, ∃ result, f item = .ok result) :
    ∃ results, items.mapM f = .ok results := by
  induction items with
  | nil => exact ⟨[], rfl⟩
  | cons item rest ih =>
      obtain ⟨first, hfirst⟩ := h item List.mem_cons_self
      obtain ⟨others, hothers⟩ := ih fun other hother => h other (List.mem_cons_of_mem _ hother)
      refine ⟨first :: others, ?_⟩
      rw [List.mapM_cons, hfirst, hothers]
      rfl

/-- Where there is a list of results, every item has one. -/
theorem ok_of_mapM_ok {items : List α} {results : List β} (h : items.mapM f = .ok results) :
    ∀ item ∈ items, ∃ result ∈ results, f item = .ok result := by
  intro item hitem
  cases hitem' : f item with
  | ok result => exact ⟨result, (mem_of_mapM_ok h).mpr ⟨item, hitem, hitem'⟩, rfl⟩
  | error issue =>
      exfalso
      induction items generalizing results with
      | nil => cases hitem
      | cons first rest ih =>
          rw [List.mapM_cons] at h
          cases hfirst : f first with
          | error issue =>
              rw [hfirst] at h
              cases h
          | ok result =>
              cases hrest : rest.mapM f with
              | error issue =>
                  rw [hfirst, hrest] at h
                  cases h
              | ok others =>
                  rcases List.mem_cons.mp hitem with rfl | hmem
                  · cases hfirst.symm.trans hitem'
                  · exact ih hrest hmem

/-- What the results say about their items. -/
theorem map_of_mapM_ok {items : List α} {results : List β} (h : items.mapM f = .ok results)
    {g : β → α} (hg : ∀ item result, f item = .ok result → g result = item) :
    results.map g = items := by
  induction items generalizing results with
  | nil =>
      obtain rfl : [] = results := Except.ok.inj h
      rfl
  | cons item rest ih =>
      rw [List.mapM_cons] at h
      cases hfirst : f item with
      | error issue =>
          rw [hfirst] at h
          cases h
      | ok first =>
          cases hrest : rest.mapM f with
          | error issue =>
              rw [hfirst, hrest] at h
              cases h
          | ok others =>
              rw [hfirst, hrest] at h
              obtain rfl : first :: others = results := Except.ok.inj h
              rw [List.map_cons, hg item first hfirst, ih hrest]

theorem mem_reduceOption {results : List (Option β)} {result : β} :
    result ∈ results.reduceOption ↔ some result ∈ results := by
  simp [List.reduceOption]

end Results

/-! ## Tables -/

abbrev Table := Key → Option Item

/-- What a scan of the table returns: each row once, in some order. -/
structure Scan (table : Table) (items : List Item) : Prop where
  keyed : ∀ {key item}, table key = some item → item.key = key
  mem : ∀ {item}, item ∈ items ↔ table item.key = some item
  nodup : (items.map Item.key).Nodup

/-- The table of the given rows. -/
def tableOf (items : List Item) : Table := fun key => items.find? (·.key = key)

theorem scan_tableOf {items : List Item} (h : (items.map Item.key).Nodup) :
    Scan (tableOf items) items where
  keyed hfound := by simpa using List.find?_some hfound
  mem {item} := by
    constructor
    · intro hmem
      cases hfound : tableOf items item.key with
      | none => simpa using List.find?_eq_none.mp hfound item hmem
      | some found =>
          have hkey : found.key = item.key := by simpa using List.find?_some hfound
          exact congrArg some
            (List.inj_on_of_nodup_map h (List.mem_of_find?_eq_some hfound) hmem hkey)
    · exact List.mem_of_find?_eq_some
  nodup := h

/-- A scan may return the rows in any order. -/
theorem Scan.perm {table : Table} {items items' : List Item} (h : Scan table items)
    (hperm : items.Perm items') : Scan table items' :=
  ⟨h.keyed, hperm.mem_iff.symm.trans h.mem, (hperm.map _).nodup_iff.mp h.nodup⟩

/-- Rows of a scan are told apart by their keys. -/
theorem Scan.eq_of_key {table : Table} {items : List Item} (h : Scan table items)
    {item item' : Item} (hmem : item ∈ items) (hmem' : item' ∈ items)
    (hkey : item.key = item'.key) : item = item' :=
  List.inj_on_of_nodup_map h.nodup hmem hmem' hkey

/-- A row put into a table, and others taken away. -/
theorem Scan.put {table : Table} {items : List Item} (h : Scan table items) (target : Item)
    (gone : Key → Prop) [DecidablePred gone] :
    ∃ items', Scan (fun key => if key = target.key then some target
      else if gone key then none else table key) items' := by
  refine ⟨target :: items.filter fun item => item.key ≠ target.key ∧ ¬ gone item.key, ?_, ?_, ?_⟩
  · intro key item hitem
    split at hitem
    · rename_i hkey
      rw [← Option.some.inj hitem, hkey]
    · split at hitem
      · cases hitem
      · exact h.keyed hitem
  · intro item
    rw [List.mem_cons, List.mem_filter, h.mem, decide_eq_true_eq]
    constructor
    · rintro (rfl | ⟨hthere, hne, hgone⟩)
      · exact if_pos rfl
      · rw [if_neg hne, if_neg hgone, hthere]
    · intro hthere
      split at hthere
      · exact .inl (Option.some.inj hthere).symm
      · rename_i hne
        split at hthere
        · cases hthere
        · rename_i hgone
          exact .inr ⟨hthere, hne, hgone⟩
  · rw [List.map_cons, List.nodup_cons]
    constructor
    · rw [List.mem_map]
      rintro ⟨item, hitem, hkey⟩
      rw [List.mem_filter, decide_eq_true_eq] at hitem
      exact hitem.2.1 hkey
    · exact h.nodup.sublist (List.filter_sublist.map _)

end Hemlig.Scripts
