import Hemlig.Scripts.MigrateSecretUids
import Mathlib.Data.List.Induction
import Mathlib.Data.List.TakeDrop
import Mathlib.Data.List.TakeWhile

/-!
# What the UID migration plans

The texts of the keys, the identities that the heads of a table give, and what the plan takes
from the identities: a lookup by name, and the ids of an environment in their order.  So two
tables whose heads give the same identities are planned alike, row by row.
-/

namespace Hemlig.Scripts.MigrateSecretUids

variable {sha256Hex : String → String}

/-! ## Texts -/

theorem dropPrefix_eq_some {start text : String} {rest : List Char} :
    dropPrefix start text = some rest ↔ text.toList = start.toList ++ rest := by
  unfold dropPrefix
  constructor
  · intro h
    split at h
    · rename_i hprefix
      obtain ⟨tail, htail⟩ := List.isPrefixOf_iff_prefix.mp hprefix
      rw [← htail, List.drop_left] at h
      rw [← htail, Option.some.inj h]
    · cases h
  · intro h
    have hprefix : start.toList.isPrefixOf text.toList = true :=
      List.isPrefixOf_iff_prefix.mpr ⟨rest, h.symm⟩
    rw [if_pos hprefix, h, List.drop_left]

/-- A text that begins with a prefix has its characters. -/
theorem getElem?_of_dropPrefix {start text : String} {rest : List Char}
    (h : dropPrefix start text = some rest) {i : ℕ} (hi : i < start.toList.length) :
    text.toList[i]? = start.toList[i]? := by
  rw [dropPrefix_eq_some] at h
  rw [h, List.getElem?_append_left hi]

theorem dropPrefix_append (start text : String) :
    dropPrefix start (start ++ text) = some text.toList := by
  rw [dropPrefix_eq_some, String.toList_append]

/-- Texts are split in one way at the first of a character. -/
theorem split_inj {α : Type} {a : α} {first first' rest rest' : List α} (h : a ∉ first)
    (h' : a ∉ first') (heq : first ++ a :: rest = first' ++ a :: rest') :
    first = first' ∧ rest = rest' := by
  induction first generalizing first' with
  | nil =>
      cases first' with
      | nil => exact ⟨rfl, (List.cons.inj heq).2⟩
      | cons c first' => exact absurd ((List.cons.inj heq).1 ▸ List.mem_cons_self) h'
  | cons c first ih =>
      cases first' with
      | nil => exact absurd ((List.cons.inj heq).1 ▸ List.mem_cons_self) h
      | cons c' first' =>
          rw [List.mem_cons, not_or] at h h'
          obtain ⟨hhead, htail⟩ := List.cons.inj heq
          obtain ⟨hfirst, hrest⟩ := ih h.2 h'.2 htail
          exact ⟨by rw [hhead, hfirst], hrest⟩

/-- **Which keys are legacy keys.** -/
theorem legacySecretPk_eq_some {pk : String} {name : Name} :
    legacySecretPk pk = some name ↔
      pk = "SECRET#" ++ name.environment ++ "#" ++ name.secretId ∧
        '#' ∉ name.environment.toList ∧ name.environment ≠ "" ∧ name.secretId ≠ "" := by
  unfold legacySecretPk
  constructor
  · intro h
    split at h
    · cases h
    · rename_i rest htext
      rw [dropPrefix_eq_some] at htext
      split at h
      · rename_i environment c secretId hspan
        rw [List.span_eq_takeWhile_dropWhile, Prod.mk.injEq] at hspan
        obtain ⟨htake, hdrop⟩ := hspan
        have hc : c = '#' := by
          have hhead := List.head?_dropWhile_not (fun c => decide (c ≠ '#')) rest
          rw [hdrop] at hhead
          simpa using hhead
        have hrest' : rest = environment ++ c :: secretId := by
          rw [← htake, ← hdrop, List.takeWhile_append_dropWhile]
        have hclean : '#' ∉ environment := by
          intro hmem
          rw [← htake] at hmem
          simpa using List.mem_takeWhile_imp hmem
        split at h
        · cases h
        · rename_i hne
          rw [not_or] at hne
          obtain rfl := Option.some.inj h
          refine ⟨?_, ?_, ?_, ?_⟩
          · apply String.toList_inj.mp
            rw [htext, hrest', hc]
            simp [String.toList_append]
          · simpa using hclean
          · intro hempty
            exact hne.1 (by simpa using congrArg String.toList hempty)
          · intro hempty
            exact hne.2 (by simpa using congrArg String.toList hempty)
      · cases h
  · rintro ⟨rfl, hclean, hne, hne'⟩
    have hrest : dropPrefix "SECRET#" ("SECRET#" ++ name.environment ++ "#" ++ name.secretId) =
        some (name.environment.toList ++ '#' :: name.secretId.toList) := by
      rw [dropPrefix_eq_some]
      simp [String.toList_append]
    have hspan : (name.environment.toList ++ '#' :: name.secretId.toList).span (· ≠ '#') =
        (name.environment.toList, '#' :: name.secretId.toList) := by
      rw [List.span_eq_takeWhile_dropWhile, List.takeWhile_append_of_pos, List.dropWhile_append_of_pos]
      · simp
      · intro c hc
        exact decide_eq_true fun h => hclean (h ▸ hc)
      · intro c hc
        exact decide_eq_true fun h => hclean (h ▸ hc)
    rw [hrest]
    simp only [hspan]
    rw [if_neg]
    · simp
    · rw [not_or]
      constructor
      · intro hempty
        exact hne (String.toList_inj.mp (by simpa using hempty))
      · intro hempty
        exact hne' (String.toList_inj.mp (by simpa using hempty))

/-- Every digest is written in hexadecimal digits. -/
def HexDigest (sha256Hex : String → String) : Prop :=
  ∀ text, ∀ c ∈ (sha256Hex text).toList, c.isDigit ∨ ('a' ≤ c ∧ c ≤ 'f')

theorem hash_not_mem_slice {hash : String} (h : '#' ∉ hash.toList) (start finish : ℕ) :
    '#' ∉ (slice start finish hash).toList := by
  rw [slice, String.toList_ofList]
  exact fun hmem => h (List.mem_of_mem_take (List.mem_of_mem_drop hmem))

theorem hash_not_mem_uid (h : HexDigest sha256Hex) (environment secretId : String) :
    '#' ∉ (deterministicSecretUid sha256Hex environment secretId).toList := by
  have hdigest : ∀ text, '#' ∉ (sha256Hex text).toList := by
    intro text hmem
    have hcases := h text '#' hmem
    revert hcases
    decide
  have hslice := fun start finish => hash_not_mem_slice
    (hdigest ("hemlig:secret-uid:v1:" ++ environment ++ "\x00" ++ secretId)) start finish
  simp [deterministicSecretUid, String.toList_append, hslice]

theorem uid_ne_empty (environment secretId : String) :
    deterministicSecretUid sha256Hex environment secretId ≠ "" := by
  intro h
  have htext := congrArg String.toList h
  simp [deterministicSecretUid, String.toList_append] at htext

/-- The rows of a UID are no legacy rows. -/
theorem legacySecretPk_secretPk {secretUid : String} (h : '#' ∉ secretUid.toList) :
    legacySecretPk (secretPk secretUid) = none := by
  rw [Option.eq_none_iff_forall_ne_some]
  intro name hname
  rw [legacySecretPk_eq_some] at hname
  have htext := congrArg String.toList hname.1
  simp only [secretPk, String.toList_append, List.append_assoc] at htext
  apply h
  rw [List.append_cancel_left htext]
  simp

/-- Names are told apart by their keys. -/
theorem nameKey_inj {environment secretId environment' secretId' : String}
    (h : '\x00' ∉ environment.toList) (h' : '\x00' ∉ environment'.toList)
    (hkey : nameKey environment secretId = nameKey environment' secretId') :
    environment = environment' ∧ secretId = secretId' := by
  have htext := congrArg String.toList hkey
  simp only [nameKey, String.toList_append, List.append_assoc] at htext
  have hsplit := split_inj h h' (by simpa using htext)
  exact ⟨String.toList_inj.mp hsplit.1, String.toList_inj.mp hsplit.2⟩

/-! ## Entries -/

theorem lookup_isSome_iff {α : Type} {entries : Entries α} {name : String} :
    (entries.lookup name).isSome ↔ name ∈ entries.map Prod.fst := by
  induction entries with
  | nil => simp
  | cons entry rest ih =>
      rw [Entries.lookup_cons, List.map_cons, List.mem_cons]
      by_cases hname : name = entry.1
      · simp [hname]
      · simp [hname, ih]

theorem nodup_set {α : Type} {entries : Entries α} {name : String} {value : α}
    (h : (entries.map Prod.fst).Nodup) : ((entries.set name value).map Prod.fst).Nodup := by
  induction entries with
  | nil => simp [Entries.set]
  | cons entry rest ih =>
      rw [List.map_cons, List.nodup_cons] at h
      by_cases hentry : entry.1 = name
      · rw [Entries.set, if_pos hentry, List.map_cons, List.nodup_cons, ← hentry]
        exact h
      · rw [Entries.set, if_neg hentry, List.map_cons, List.nodup_cons]
        refine ⟨fun hmem => ?_, ih h.2⟩
        rw [← lookup_isSome_iff, Entries.lookup_set, if_neg hentry, lookup_isSome_iff] at hmem
        exact h.1 hmem

theorem mem_iff_lookup {α : Type} {entries : Entries α} (h : (entries.map Prod.fst).Nodup)
    {name : String} {value : α} : (name, value) ∈ entries ↔ entries.lookup name = some value := by
  induction entries with
  | nil => simp
  | cons entry rest ih =>
      rw [List.map_cons, List.nodup_cons] at h
      rw [Entries.lookup_cons, List.mem_cons]
      by_cases hname : name = entry.1
      · have hnot : (name, value) ∉ rest := fun hmem =>
          h.1 (hname ▸ List.mem_map_of_mem (f := Prod.fst) hmem)
        simp only [hname, if_true, Option.some.injEq]
        constructor
        · rintro (heq | hmem)
          · rw [← heq]
          · exact absurd (hname ▸ hmem) hnot
        · intro hvalue
          exact .inl (Prod.ext rfl hvalue.symm)
      · have hne : (name, value) ≠ entry := fun heq => hname (congrArg Prod.fst heq)
        simp only [hne, false_or, hname, if_false]
        exact ih h.2

/-! ## Identities -/

/-- The key of an identity. -/
def SecretIdentity.key (identity : SecretIdentity) : String :=
  nameKey identity.environment identity.secretId

/-- The identity that a row gives: those of the heads that are not archived. -/
def headIdentity (sha256Hex : String → String) (item : Item) : Option SecretIdentity :=
  if item.sk ≠ "HEAD" ∨ item.stringField "state" = some "ARCHIVED" then none
  else
    match item.stringField "environment", item.stringField "secretId" with
    | some environment, some secretId => some
        { environment
          secretId
          secretUid := (item.stringField "secretUid").getD
            (deterministicSecretUid sha256Hex environment secretId) }
    | _, _ => none

/-- What a head stores is what its key says. -/
def HeadAgrees (sha256Hex : String → String) (item : Item) : Prop :=
  ∀ identity ∈ headIdentity sha256Hex item, ∀ legacy ∈ legacySecretPk item.pk,
    legacy = { environment := identity.environment, secretId := identity.secretId }

theorem collectIdentity_none {identities : Entries SecretIdentity} {item : Item}
    (h : headIdentity sha256Hex item = none) :
    collectIdentity sha256Hex identities item = .ok identities := by
  unfold headIdentity at h
  unfold collectIdentity
  split
  · rfl
  · rename_i hhead
    rw [if_neg hhead] at h
    split
    · rename_i henvironment hsecretId
      simp only [henvironment, hsecretId] at h
      cases h
    · rfl

theorem collectIdentity_some {identities : Entries SecretIdentity} {item : Item}
    {identity : SecretIdentity} (h : headIdentity sha256Hex item = some identity) :
    (∃ identities', collectIdentity sha256Hex identities item = .ok identities') ↔
      HeadAgrees sha256Hex item ∧
        ∀ prior ∈ identities.lookup identity.key, prior.secretUid = identity.secretUid := by
  have hagrees : HeadAgrees sha256Hex item ↔ ¬ ∃ legacy ∈ legacySecretPk item.pk,
      legacy.environment ≠ identity.environment ∨ legacy.secretId ≠ identity.secretId := by
    unfold HeadAgrees
    rw [h]
    constructor
    · rintro hsame ⟨legacy, hlegacy, hne⟩
      rw [hsame identity rfl legacy hlegacy] at hne
      simp at hne
    · intro hnone other hother legacy hlegacy
      obtain rfl := Option.some.inj hother
      by_contra hne
      refine hnone ⟨legacy, hlegacy, ?_⟩
      by_contra hboth
      rw [not_or, not_not, not_not] at hboth
      exact hne (by cases legacy; simp_all)
  unfold headIdentity at h
  unfold collectIdentity
  split at h
  · cases h
  · rename_i hhead
    rw [if_neg hhead]
    split at h
    · rename_i environment secretId henvironment hsecretId
      obtain rfl := Option.some.inj h
      simp only [henvironment, hsecretId]
      rw [hagrees]
      split
      · rename_i hlegacy
        simp only [reduceCtorEq, exists_false, false_iff, not_and]
        exact fun hnot => absurd hlegacy hnot
      · rename_i hlegacy
        split
        · rename_i hprior
          obtain ⟨prior, hprior, hne⟩ := hprior
          simp only [reduceCtorEq, exists_false, false_iff, not_and]
          exact fun _ hall => hne (hall prior hprior)
        · rename_i hprior
          simp only [Except.ok.injEq, exists_eq', true_iff]
          refine ⟨hlegacy, fun prior hmem => ?_⟩
          by_contra hne
          exact hprior ⟨prior, hmem, hne⟩
    · cases h

theorem collectIdentity_eq {identities identities' : Entries SecretIdentity} {item : Item}
    {identity : SecretIdentity} (h : headIdentity sha256Hex item = some identity)
    (hok : collectIdentity sha256Hex identities item = .ok identities') :
    identities' = identities.set identity.key identity := by
  unfold headIdentity at h
  unfold collectIdentity at hok
  split at h
  · cases h
  · rename_i hhead
    rw [if_neg hhead] at hok
    split at h
    · rename_i environment secretId henvironment hsecretId
      obtain rfl := Option.some.inj h
      simp only [henvironment, hsecretId] at hok
      split at hok
      · cases hok
      · split at hok
        · cases hok
        · exact (Except.ok.inj hok).symm
    · cases h

/-- What the identities that were collected say about the rows. -/
structure Collected (sha256Hex : String → String) (items : List Item)
    (identities : Entries SecretIdentity) : Prop where
  nodup : (identities.map Prod.fst).Nodup
  agrees : ∀ item ∈ items, HeadAgrees sha256Hex item
  covers : ∀ item ∈ items, ∀ identity, headIdentity sha256Hex item = some identity →
    ∃ found, identities.lookup identity.key = some found ∧ found.secretUid = identity.secretUid
  found : ∀ key identity, identities.lookup key = some identity →
    key = identity.key ∧ ∃ item ∈ items, headIdentity sha256Hex item = some identity

theorem collectSecretIdentities_append (items : List Item) (item : Item) :
    collectSecretIdentities sha256Hex (items ++ [item]) =
      collectSecretIdentities sha256Hex items >>= fun identities =>
        collectIdentity sha256Hex identities item := by
  rw [collectSecretIdentities, List.foldlM_append]
  refine congrArg _ (funext fun identities => ?_)
  rw [List.foldlM_cons]
  exact bind_pure _

/-- **Identities that were collected are those of the rows.** -/
theorem collected_of_ok {items : List Item} {identities : Entries SecretIdentity}
    (h : collectSecretIdentities sha256Hex items = .ok identities) :
    Collected sha256Hex items identities := by
  induction items using List.reverseRecOn generalizing identities with
  | nil =>
      obtain rfl : [] = identities := Except.ok.inj h
      exact ⟨List.nodup_nil, nofun, nofun, nofun⟩
  | append_singleton items item ih =>
      rw [collectSecretIdentities_append] at h
      cases hbefore : collectSecretIdentities sha256Hex items with
      | error issue =>
          rw [hbefore] at h
          cases h
      | ok before =>
          rw [hbefore] at h
          replace h : collectIdentity sha256Hex before item = .ok identities := h
          have hold := ih hbefore
          cases hidentity : headIdentity sha256Hex item with
          | none =>
              obtain rfl := Except.ok.inj ((collectIdentity_none hidentity).symm.trans h)
              refine ⟨hold.nodup, ?_, ?_, ?_⟩
              · intro other hother
                rcases List.mem_append.mp hother with hother | hother
                · exact hold.agrees other hother
                · obtain rfl := List.mem_singleton.mp hother
                  intro identity hmem
                  rw [hidentity] at hmem
                  cases hmem
              · intro other hother identity hother'
                rcases List.mem_append.mp hother with hother | hother
                · exact hold.covers other hother identity hother'
                · obtain rfl := List.mem_singleton.mp hother
                  rw [hidentity] at hother'
                  cases hother'
              · intro key identity hfound
                obtain ⟨hkey, other, hother, hhead⟩ := hold.found key identity hfound
                exact ⟨hkey, other, List.mem_append_left _ hother, hhead⟩
          | some identity =>
              obtain ⟨hagrees, hprior⟩ := (collectIdentity_some hidentity).mp ⟨identities, h⟩
              obtain rfl := collectIdentity_eq hidentity h
              refine ⟨nodup_set hold.nodup, ?_, ?_, ?_⟩
              · intro other hother
                rcases List.mem_append.mp hother with hother | hother
                · exact hold.agrees other hother
                · obtain rfl := List.mem_singleton.mp hother
                  exact hagrees
              · intro other hother identity' hother'
                rw [Entries.lookup_set]
                rcases List.mem_append.mp hother with hother | hother
                · obtain ⟨found, hfound, huid⟩ := hold.covers other hother identity' hother'
                  by_cases hkey : identity'.key = identity.key
                  · rw [if_pos hkey]
                    rw [hkey] at hfound
                    exact ⟨identity, rfl, (hprior found hfound).symm.trans huid⟩
                  · rw [if_neg hkey]
                    exact ⟨found, hfound, huid⟩
                · obtain rfl := List.mem_singleton.mp hother
                  obtain rfl := Option.some.inj (hidentity.symm.trans hother')
                  rw [if_pos rfl]
                  exact ⟨identity, rfl, rfl⟩
              · intro key identity' hfound
                rw [Entries.lookup_set] at hfound
                split at hfound
                · rename_i hkey
                  obtain rfl := Option.some.inj hfound
                  exact ⟨hkey, item, by simp, hidentity⟩
                · obtain ⟨hkey, other, hother, hhead⟩ := hold.found key identity' hfound
                  exact ⟨hkey, other, List.mem_append_left _ hother, hhead⟩

/-- Identities are collected where the heads agree with their keys and with each other. -/
theorem collect_ok {items : List Item} (hagrees : ∀ item ∈ items, HeadAgrees sha256Hex item)
    (hsame : ∀ item ∈ items, ∀ item' ∈ items, ∀ identity identity',
      headIdentity sha256Hex item = some identity → headIdentity sha256Hex item' = some identity' →
        identity.key = identity'.key → identity.secretUid = identity'.secretUid) :
    ∃ identities, collectSecretIdentities sha256Hex items = .ok identities := by
  induction items using List.reverseRecOn with
  | nil => exact ⟨[], rfl⟩
  | append_singleton items item ih =>
      obtain ⟨before, hbefore⟩ := ih
        (fun other hother => hagrees other (List.mem_append_left _ hother))
        (fun other hother other' hother' =>
          hsame other (List.mem_append_left _ hother) other' (List.mem_append_left _ hother'))
      rw [collectSecretIdentities_append, hbefore]
      show ∃ identities, collectIdentity sha256Hex before item = .ok identities
      cases hidentity : headIdentity sha256Hex item with
      | none => exact ⟨before, collectIdentity_none hidentity⟩
      | some identity =>
          refine (collectIdentity_some hidentity).mpr ⟨hagrees item (by simp), ?_⟩
          intro prior hprior
          obtain ⟨hkey, other, hother, hhead⟩ :=
            (collected_of_ok hbefore).found identity.key prior hprior
          exact hsame other (List.mem_append_left _ hother) item (by simp) prior identity hhead
            hidentity hkey.symm

/-! ## Tables with the same heads -/

variable {items items' : List Item} {identities identities' : Entries SecretIdentity} {item : Item}

/-- The environments of the heads can be told from what follows in a key. -/
def CleanHeads (sha256Hex : String → String) (items : List Item) : Prop :=
  ∀ item ∈ items, ∀ identity, headIdentity sha256Hex item = some identity →
    '\x00' ∉ identity.environment.toList

/-- An identity is what every head of its name gives. -/
theorem Collected.lookup_eq (h : Collected sha256Hex items identities)
    (hclean : CleanHeads sha256Hex items) (hitem : item ∈ items) {identity : SecretIdentity}
    (hidentity : headIdentity sha256Hex item = some identity) :
    identities.lookup identity.key = some identity := by
  obtain ⟨found, hfound, huid⟩ := h.covers item hitem identity hidentity
  obtain ⟨hkey, other, hother, hhead⟩ := h.found _ _ hfound
  obtain ⟨henvironment, hsecretId⟩ := nameKey_inj (hclean item hitem identity hidentity)
    (hclean other hother found hhead) hkey
  have hsame : found = identity := by
    cases found
    cases identity
    simp_all
  rw [hfound, hsame]

/-- **Heads that give the same identities are collected to the same entries.** -/
theorem collected_congr (hclean : CleanHeads sha256Hex items)
    (hsame : ∀ identity, (∃ item ∈ items', headIdentity sha256Hex item = some identity) ↔
      ∃ item ∈ items, headIdentity sha256Hex item = some identity)
    (hagrees : ∀ item ∈ items', HeadAgrees sha256Hex item)
    (h : collectSecretIdentities sha256Hex items = .ok identities) :
    ∃ identities', collectSecretIdentities sha256Hex items' = .ok identities' ∧
      (∀ key, identities'.lookup key = identities.lookup key) ∧ identities'.Perm identities := by
  have hcollected := collected_of_ok h
  have hclean' : CleanHeads sha256Hex items' := by
    intro item hitem identity hidentity
    obtain ⟨other, hother, hhead⟩ := (hsame identity).mp ⟨item, hitem, hidentity⟩
    exact hclean other hother identity hhead
  have hentry : ∀ item ∈ items', ∀ identity, headIdentity sha256Hex item = some identity →
      identities.lookup identity.key = some identity := by
    intro item hitem identity hidentity
    obtain ⟨other, hother, hhead⟩ := (hsame identity).mp ⟨item, hitem, hidentity⟩
    exact hcollected.lookup_eq hclean hother hhead
  obtain ⟨identities', h'⟩ := collect_ok hagrees (by
    intro item hitem item' hitem' identity identity' hidentity hidentity' hkey
    have hfirst := hentry item hitem identity hidentity
    have hsecond := hentry item' hitem' identity' hidentity'
    rw [hkey] at hfirst
    exact congrArg SecretIdentity.secretUid (Option.some.inj (hfirst.symm.trans hsecond)))
  have hcollected' := collected_of_ok h'
  have hlookup : ∀ key identity, identities'.lookup key = some identity ↔
      identities.lookup key = some identity := by
    intro key identity
    constructor
    · intro hfound
      obtain ⟨hkey, item, hitem, hhead⟩ := hcollected'.found key identity hfound
      rw [hkey]
      exact hentry item hitem identity hhead
    · intro hfound
      obtain ⟨hkey, item, hitem, hhead⟩ := hcollected.found key identity hfound
      obtain ⟨other, hother, hhead'⟩ := (hsame identity).mpr ⟨item, hitem, hhead⟩
      rw [hkey]
      exact hcollected'.lookup_eq hclean' hother hhead'
  refine ⟨identities', h', fun key => Option.ext fun identity => hlookup key identity, ?_⟩
  refine (List.perm_ext_iff_of_nodup hcollected'.nodup.of_map hcollected.nodup.of_map).mpr ?_
  rintro ⟨key, identity⟩
  rw [mem_iff_lookup hcollected'.nodup, mem_iff_lookup hcollected.nodup, hlookup]

/-! ## Rows -/

theorem secretMove_congr (h : ∀ key, identities'.lookup key = identities.lookup key) :
    secretMove identities' item = secretMove identities item := by
  unfold secretMove
  simp only [h]

theorem accessMove_congr (h : ∀ key, identities'.lookup key = identities.lookup key) :
    accessMove identities' item = accessMove identities item := by
  unfold accessMove
  simp only [h]

/-- A list is sorted to one list, in whatever order it comes. -/
theorem mergeSort_congr {ids ids' : List String} (h : ids'.Perm ids) :
    ids'.mergeSort (· ≤ ·) = ids.mergeSort (· ≤ ·) := by
  have hsorted : ∀ list : List String,
      (list.mergeSort (· ≤ ·)).Pairwise fun first second => decide (first ≤ second) = true := by
    intro list
    refine List.pairwise_mergeSort (fun first second third h h' => ?_) (fun first second => ?_) _
    · exact decide_eq_true (String.le_trans (of_decide_eq_true h) (of_decide_eq_true h'))
    · rw [Bool.or_eq_true, decide_eq_true_eq, decide_eq_true_eq]
      exact String.le_total _ _
  have hperm : (ids'.mergeSort (· ≤ ·)).Perm (ids.mergeSort (· ≤ ·)) :=
    (List.mergeSort_perm _ _).trans (h.trans (List.mergeSort_perm _ _).symm)
  refine List.Perm.eq_of_pairwise (fun first second _ _ h h' => ?_) (hsorted _) (hsorted _) hperm
  exact String.le_antisymm (of_decide_eq_true h) (of_decide_eq_true h')

theorem migrateScope_congr {found found' : List SecretIdentity} (h : found'.Perm found)
    (grantPk : String) (capability : AgentCapability) (enabled : Bool)
    (prefixes legacyPaths : Option Value) (environment : String) :
    migrateScope grantPk capability enabled prefixes legacyPaths environment found' =
      migrateScope grantPk capability enabled prefixes legacyPaths environment found := by
  have hids : ∀ scope, idsUnder scope environment found' = idsUnder scope environment found := by
    intro scope
    exact mergeSort_congr (((h.filter _).map _).filter _)
  unfold migrateScope
  simp only [hids]

theorem migrateAgentGrant_congr (h : ∀ key, identities'.lookup key = identities.lookup key)
    (hperm : identities'.Perm identities) :
    migrateAgentGrant identities' item = migrateAgentGrant identities item := by
  have hscope : ∀ capability enabled environment,
      secretIdsForGrant item item.pk capability enabled environment (identities'.map Prod.snd) =
        secretIdsForGrant item item.pk capability enabled environment
          (identities.map Prod.snd) := by
    intro capability enabled environment
    unfold secretIdsForGrant
    rw [migrateScope_congr (hperm.map _)]
  have hgrants : ∀ environment, migratedSecretGrants item item.pk environment identities' =
      migratedSecretGrants item item.pk environment identities := by
    intro environment
    have hpair : ∀ read write, pairGrant item.pk environment identities' read write =
        pairGrant item.pk environment identities read write := by
      intro read write
      funext secretId
      unfold pairGrant
      rw [h]
    unfold migratedSecretGrants pairGrants
    simp only [hscope, hpair]
  unfold migrateAgentGrant
  simp only [hgrants]

/-! ## Plans -/

/-- The write that a row asks for. -/
inductive RowWrite (identities : Entries SecretIdentity) (item : Item) : Write → Prop
  | secret {move : SecretMove} (h : secretMove identities item = .ok (some move)) :
      RowWrite identities item (.move move.target move.sourceKey)
  | access {move : AccessMove} (h : accessMove identities item = .ok (some move)) :
      RowWrite identities item (.move move.target move.sourceKey)
  | grant {update : AgentGrantUpdate} (h : (migrateAgentGrant identities item).2 = some update) :
      RowWrite identities item (.put update.item)

theorem RowWrite.congr {write : Write} (h : ∀ key, identities'.lookup key = identities.lookup key)
    (hperm : identities'.Perm identities) :
    RowWrite identities' item write ↔ RowWrite identities item write := by
  constructor
  · rintro (hmove | hmove | hupdate)
    · exact .secret (secretMove_congr h ▸ hmove)
    · exact .access (accessMove_congr h ▸ hmove)
    · exact .grant (migrateAgentGrant_congr h hperm ▸ hupdate)
  · rintro (hmove | hmove | hupdate)
    · exact .secret ((secretMove_congr h).trans hmove)
    · exact .access ((accessMove_congr h).trans hmove)
    · exact .grant ((congrArg Prod.snd (migrateAgentGrant_congr h hperm)).trans hupdate)

/-- What a plan consists of. -/
structure PlanOf (sha256Hex : String → String) (items : List Item)
    (identities : Entries SecretIdentity) (plan : SecretUidMigrationPlan) : Prop where
  collected : collectSecretIdentities sha256Hex items = .ok identities
  rows : ∀ item ∈ items, (∃ move, secretMove identities item = .ok move) ∧
    ∃ move, accessMove identities item = .ok move
  writes : ∀ write, write ∈ plan.writes ↔ (∃ item ∈ items, RowWrite identities item write) ∨
    ∃ identity ∈ identities.map Prod.snd, write = .put (lookupOf identity).item
  issues : ∀ issue, issue ∈ plan.issues ↔
    ∃ item ∈ items, issue ∈ (migrateAgentGrant identities item).1
  access : ∃ moves, items.mapM (accessMove identities) = .ok moves ∧
    plan.accessMoves = moves.reduceOption
  grants : plan.grantUpdates = ((items.map (migrateAgentGrant identities)).map Prod.snd).reduceOption
  lookups : plan.lookups = (identities.map Prod.snd).map lookupOf
  settled : plan.secretMoves = [] ∧ plan.accessMoves = [] ∧ plan.grantUpdates = [] ↔
    ∀ item ∈ items, ∀ write, ¬ RowWrite identities item write

/-- A plan of the rows' moves. -/
theorem planOf_moves (hcollected : collectSecretIdentities sha256Hex items = .ok identities)
    {secretMoves : List (Option SecretMove)} {accessMoves : List (Option AccessMove)}
    (hsecret : items.mapM (secretMove identities) = .ok secretMoves)
    (haccess : items.mapM (accessMove identities) = .ok accessMoves) :
    PlanOf sha256Hex items identities
      { secretMoves := secretMoves.reduceOption
        accessMoves := accessMoves.reduceOption
        grantUpdates := ((items.map (migrateAgentGrant identities)).map Prod.snd).reduceOption
        lookups := (identities.map Prod.snd).map lookupOf
        issues := (items.map (migrateAgentGrant identities)).flatMap Prod.fst } := by
  have hmemSecret : ∀ move, move ∈ secretMoves.reduceOption ↔
      ∃ item ∈ items, secretMove identities item = .ok (some move) := fun move => by
    rw [mem_reduceOption, mem_of_mapM_ok hsecret]
  have hmemAccess : ∀ move, move ∈ accessMoves.reduceOption ↔
      ∃ item ∈ items, accessMove identities item = .ok (some move) := fun move => by
    rw [mem_reduceOption, mem_of_mapM_ok haccess]
  have hmemGrant : ∀ update,
      update ∈ ((items.map (migrateAgentGrant identities)).map Prod.snd).reduceOption ↔
        ∃ item ∈ items, (migrateAgentGrant identities item).2 = some update := fun update => by
    rw [mem_reduceOption]
    simp
  have hlookups : ∀ {write : Write},
      write ∈ ((identities.map Prod.snd).map lookupOf).map (fun lookup => .put lookup.item) ↔
        ∃ identity ∈ identities.map Prod.snd, write = .put (lookupOf identity).item := by
    intro write
    rw [List.map_map, List.mem_map]
    exact exists_congr fun identity => and_congr_right fun _ => eq_comm
  refine ⟨hcollected, ?_, ?_, ?_, ⟨accessMoves, haccess, rfl⟩, rfl, rfl, ?_⟩
  · intro item hitem
    obtain ⟨move, -, hmove⟩ := ok_of_mapM_ok hsecret item hitem
    obtain ⟨move', -, hmove'⟩ := ok_of_mapM_ok haccess item hitem
    exact ⟨⟨move, hmove⟩, move', hmove'⟩
  · intro write
    simp only [SecretUidMigrationPlan.writes, List.mem_append, List.mem_map (l := secretMoves.reduceOption),
      List.mem_map (l := accessMoves.reduceOption),
      List.mem_map (l := ((items.map (migrateAgentGrant identities)).map Prod.snd).reduceOption),
      hmemSecret, hmemAccess, hmemGrant]
    constructor
    · rintro (((⟨move, ⟨item, hitem, hmove⟩, rfl⟩ | ⟨move, ⟨item, hitem, hmove⟩, rfl⟩) |
        hlookup) | ⟨update, ⟨item, hitem, hupdate⟩, rfl⟩)
      · exact .inl ⟨item, hitem, .secret hmove⟩
      · exact .inl ⟨item, hitem, .access hmove⟩
      · exact .inr (hlookups.mp hlookup)
      · exact .inl ⟨item, hitem, .grant hupdate⟩
    · rintro (⟨item, hitem, hmove | hmove | hupdate⟩ | hlookup)
      · exact .inl (.inl (.inl ⟨_, ⟨item, hitem, hmove⟩, rfl⟩))
      · exact .inl (.inl (.inr ⟨_, ⟨item, hitem, hmove⟩, rfl⟩))
      · exact .inr ⟨_, ⟨item, hitem, hupdate⟩, rfl⟩
      · exact .inl (.inr (hlookups.mpr hlookup))
  · intro issue
    simp
  · simp only [List.eq_nil_iff_forall_not_mem, hmemSecret, hmemAccess, hmemGrant]
    constructor
    · rintro ⟨hnoSecret, hnoAccess, hnoGrant⟩ item hitem write (hmove | hmove | hupdate)
      · exact hnoSecret _ ⟨item, hitem, hmove⟩
      · exact hnoAccess _ ⟨item, hitem, hmove⟩
      · exact hnoGrant _ ⟨item, hitem, hupdate⟩
    · intro hnone
      refine ⟨?_, ?_, ?_⟩
      · rintro move ⟨item, hitem, hmove⟩
        exact hnone item hitem _ (.secret hmove)
      · rintro move ⟨item, hitem, hmove⟩
        exact hnone item hitem _ (.access hmove)
      · rintro update ⟨item, hitem, hupdate⟩
        exact hnone item hitem _ (.grant hupdate)

/-- **A plan that is built consists of what the rows ask for.** -/
theorem planOf_ok {plan : SecretUidMigrationPlan}
    (h : buildSecretUidMigrationPlan sha256Hex items = .ok plan) :
    ∃ identities, PlanOf sha256Hex items identities plan := by
  unfold buildSecretUidMigrationPlan at h
  cases hcollected : collectSecretIdentities sha256Hex items with
  | error issue =>
      rw [hcollected] at h
      cases h
  | ok identities =>
      rw [hcollected] at h
      cases hsecret : items.mapM (secretMove identities) with
      | error issue =>
          simp only [bind, Except.bind, hsecret] at h
          cases h
      | ok secretMoves =>
          cases haccess : items.mapM (accessMove identities) with
          | error issue =>
              simp only [bind, Except.bind, hsecret, haccess] at h
              cases h
          | ok accessMoves =>
              simp only [bind, Except.bind, hsecret, haccess] at h
              obtain rfl := Except.ok.inj h
              exact ⟨identities, planOf_moves hcollected hsecret haccess⟩

/-- A plan is built where every row has its identity. -/
theorem plan_ok (hcollected : collectSecretIdentities sha256Hex items = .ok identities)
    (hrows : ∀ item ∈ items, (∃ move, secretMove identities item = .ok move) ∧
      ∃ move, accessMove identities item = .ok move) :
    ∃ plan, buildSecretUidMigrationPlan sha256Hex items = .ok plan ∧
      PlanOf sha256Hex items identities plan := by
  obtain ⟨secretMoves, hsecret⟩ := mapM_ok fun item hitem => (hrows item hitem).1
  obtain ⟨accessMoves, haccess⟩ := mapM_ok fun item hitem => (hrows item hitem).2
  refine ⟨_, ?_, planOf_moves hcollected hsecret haccess⟩
  unfold buildSecretUidMigrationPlan
  rw [hcollected]
  simp only [bind, Except.bind, hsecret, haccess]
  rfl

end Hemlig.Scripts.MigrateSecretUids
