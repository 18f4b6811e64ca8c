import Hemlig.Verification.UidScene

/-!
# The writes of the UID migration

On a table in the legacy format every write of the plan touches a row that is there, to move or
update it, or a key that holds nothing.  Where two writes touch the same key they leave the same
there (`coherent`), unless a row of a consumer's access lies where another one is moved to: that
is the case of `Shadowed`, when a secret has the id that is the UID derived for another.
-/

namespace Hemlig.Scripts.MigrateSecretUids

open Store (Rewrite)
open Store.Rewrite (After Coherent)

variable {sha256Hex : String → String} {table : Table} {items : List Item}
  {identities : Entries SecretIdentity} {item : Item}

/-! ## The legacy format -/

/-- The UID derived for a name. -/
def uidOf (sha256Hex : String → String) (name : Name) : String :=
  deterministicSecretUid sha256Hex name.environment name.secretId

def identityOf (sha256Hex : String → String) (name : Name) : SecretIdentity :=
  { environment := name.environment
    secretId := name.secretId
    secretUid := uidOf sha256Hex name }

/-- No row names a UID or is kept under one, heads are those of secrets, and names are such that
keys tell them apart. -/
structure LegacyFormat (table : Table) : Prop where
  uidFree : ∀ {key item}, table key = some item → item.stringField "secretUid" = none
  secretRows : ∀ {key item}, table key = some item → dropPrefix "SECRET#" item.pk ≠ none →
    legacySecretPk item.pk ≠ none
  heads : ∀ {key item}, table key = some item → item.sk = "HEAD" → legacySecretPk item.pk ≠ none
  lookups : ∀ {key item}, table key = some item → dropPrefix "SECRET_NAME#" item.pk = none
  clean : ∀ {key item}, table key = some item → CleanItem item
  names : ∀ {key item name}, table key = some item →
    legacySecretPk item.pk = some name ∨ IsLegacyAccess item name →
      '\x00' ∉ name.environment.toList

/-- The UIDs of the live secrets do not collide. -/
def UidsDistinct (sha256Hex : String → String) (table : Table) : Prop :=
  ∀ key key' item item' identity identity', table key = some item → table key' = some item' →
    headIdentity sha256Hex item = some identity → headIdentity sha256Hex item' = some identity' →
      identity.secretUid = identity'.secretUid → identity = identity'

/-- A consumer has access to a secret, and to one of the same environment whose id is the UID
derived for the first. -/
def Shadowed (sha256Hex : String → String) (table : Table) : Prop :=
  ∃ item item' name name', table item.key = some item ∧ table item'.key = some item' ∧
    IsLegacyAccess item name ∧ IsLegacyAccess item' name' ∧ item.pk = item'.pk ∧
      name'.environment = name.environment ∧ name'.secretId = uidOf sha256Hex name

/-! ## The rows and their writes -/

/-- A scan of a table in the legacy format and the identities of its heads, with a plan that has
no issues. -/
structure Setting (sha256Hex : String → String) (table : Table) (items : List Item)
    (identities : Entries SecretIdentity) : Prop where
  hex : HexDigest sha256Hex
  scan : Scan table items
  format : LegacyFormat table
  distinct : UidsDistinct sha256Hex table
  collected : collectSecretIdentities sha256Hex items = .ok identities
  rows : ∀ item ∈ items, (∃ move, secretMove identities item = .ok move) ∧
    ∃ move, accessMove identities item = .ok move
  issues : ∀ item ∈ items, (migrateAgentGrant identities item).1 = []

/-- What a write for a row is. -/
inductive Effect (sha256Hex : String → String) (item : Item) : Write → Prop
  | secret {name : Name} {target : Item} (hname : legacySecretPk item.pk = some name)
      (hmoved : MovedSecret (identityOf sha256Hex name) item target) :
      Effect sha256Hex item (.move target item.key)
  | access {name : Name} (hname : IsLegacyAccess item name) :
      Effect sha256Hex item (.move
        { key := { pk := item.pk, sk := accessSk name.environment (uidOf sha256Hex name) }
          attributes := item.attributes.set "secretUid" (.string (uidOf sha256Hex name)) } item.key)
  | grant {grants : List MigratedAgentSecretGrant} (hgrant : isAgentGrant item = true)
      (hvalid : ValidGrants grants) : Effect sha256Hex item (.put (grantUpdate item grants).item)

namespace Setting

variable (h : Setting sha256Hex table items identities)
include h

theorem mem {key : Key} {item : Item} (hitem : table key = some item) : item ∈ items :=
  h.scan.mem.mpr (h.scan.keyed hitem ▸ hitem)

theorem stored {item : Item} (hitem : item ∈ items) : table item.key = some item :=
  h.scan.mem.mp hitem

theorem cleanHeads : CleanHeads sha256Hex items := by
  intro item hitem identity hidentity
  refine h.format.clean (h.stored hitem) identity.environment ?_
  unfold headIdentity at hidentity
  split at hidentity
  · cases hidentity
  · split at hidentity
    · rename_i henvironment _
      obtain rfl := Option.some.inj hidentity
      exact henvironment
    · cases hidentity

theorem cleanIdentities : CleanIdentities identities :=
  (collected_of_ok h.collected).cleanIdentities h.cleanHeads

/-- **A live secret has the UID derived for its name.** -/
theorem head_eq (hitem : item ∈ items) {identity : SecretIdentity}
    (hidentity : headIdentity sha256Hex item = some identity) :
    ∃ name, legacySecretPk item.pk = some name ∧ identity = identityOf sha256Hex name := by
  have hhead : item.sk = "HEAD" := by
    unfold headIdentity at hidentity
    split at hidentity
    · cases hidentity
    · rename_i hhead
      rw [not_or, not_not] at hhead
      exact hhead.1
  obtain ⟨name, hname⟩ := Option.ne_none_iff_exists'.mp (h.format.heads (h.stored hitem) hhead)
  have hagrees := (collected_of_ok h.collected).agrees item hitem identity hidentity name hname
  refine ⟨name, hname, ?_⟩
  unfold headIdentity at hidentity
  split at hidentity
  · cases hidentity
  · split at hidentity
    · obtain rfl := Option.some.inj hidentity
      rw [hagrees, h.format.uidFree (h.stored hitem)]
      rfl
    · cases hidentity

/-- Every identity is that of a name without separators. -/
theorem identity_eq {key : String} {identity : SecretIdentity}
    (hfound : identities.lookup key = some identity) :
    ∃ name, identity = identityOf sha256Hex name ∧ '#' ∉ name.environment.toList ∧
      ∃ item ∈ items, headIdentity sha256Hex item = some identity := by
  obtain ⟨-, item, hitem, hhead⟩ := (collected_of_ok h.collected).found key identity hfound
  obtain ⟨name, hname, rfl⟩ := h.head_eq hitem hhead
  exact ⟨name, rfl, (legacySecretPk_eq_some.mp hname).2.1, item, hitem, hhead⟩

/-- The identity that is found for a name of a row. -/
theorem found_eq {name : Name} {identity : SecretIdentity} (hclean : '\x00' ∉ name.environment.toList)
    (hfound : identities.lookup (nameKey name.environment name.secretId) = some identity) :
    identity = identityOf sha256Hex name := by
  obtain ⟨name', rfl, -, -⟩ := h.identity_eq hfound
  obtain ⟨henvironment, hsecretId⟩ := nameKey_inj hclean (h.cleanIdentities.clean _ _ hfound)
    (h.cleanIdentities.key _ _ hfound)
  have hname : name = name' := by
    cases name
    cases name'
    simp_all [identityOf]
  rw [hname]

/-- Names of UIDs that were derived are told apart. -/
theorem name_eq {name name' : Name} {key key' : String}
    (hfound : identities.lookup key = some (identityOf sha256Hex name))
    (hfound' : identities.lookup key' = some (identityOf sha256Hex name'))
    (huid : uidOf sha256Hex name = uidOf sha256Hex name') : name = name' := by
  obtain ⟨-, -, -, item, hitem, hhead⟩ := h.identity_eq hfound
  obtain ⟨-, -, -, item', hitem', hhead'⟩ := h.identity_eq hfound'
  have hsame := h.distinct _ _ item item' _ _ (h.stored hitem) (h.stored hitem') hhead hhead' huid
  cases name
  cases name'
  simp_all [identityOf]

/-- The name of a row that is moved has an identity. -/
theorem found_of_name (hitem : item ∈ items) {name : Name}
    (hname : legacySecretPk item.pk = some name ∨ IsLegacyAccess item name) :
    ∃ key, identities.lookup key = some (identityOf sha256Hex name) := by
  have huid := h.format.uidFree (h.stored hitem)
  have hclean := h.format.names (h.stored hitem) hname
  obtain ⟨⟨move, hsecret⟩, move', haccess⟩ := h.rows item hitem
  rcases hname with hname | ⟨hconsumer, hname⟩
  · unfold secretMove at hsecret
    rw [if_neg (by simp [huid])] at hsecret
    simp only [hname] at hsecret
    split at hsecret
    · cases hsecret
    · rename_i identity hidentity
      exact ⟨_, by rw [← h.found_eq hclean hidentity, hidentity]⟩
  · unfold accessMove at haccess
    rw [if_neg (by simp [huid])] at haccess
    simp only [hname, if_neg hconsumer] at haccess
    split at haccess
    · cases haccess
    · rename_i identity hidentity
      exact ⟨_, by rw [← h.found_eq hclean hidentity, hidentity]⟩

/-- The rows of a secret are moved. -/
theorem secretMove_of_name (hitem : item ∈ items) {name : Name}
    (hname : legacySecretPk item.pk = some name) :
    ∃ move, secretMove identities item = .ok (some move) := by
  have huid := h.format.uidFree (h.stored hitem)
  obtain ⟨⟨move, hmove⟩, -⟩ := h.rows item hitem
  cases move with
  | some move => exact ⟨move, hmove⟩
  | none =>
      unfold secretMove at hmove
      rw [if_neg (by simp [huid])] at hmove
      simp only [hname] at hmove
      split at hmove
      · cases hmove
      · rename_i found _
        cases htarget : migratedSecretItem item found with
        | error issue =>
            rw [htarget] at hmove
            cases hmove
        | ok target =>
            rw [htarget] at hmove
            cases hmove

/-- The rows of a consumer's access are moved. -/
theorem accessMove_of_name (hitem : item ∈ items) {name : Name}
    (hname : IsLegacyAccess item name) :
    ∃ move, accessMove identities item = .ok (some move) := by
  have huid := h.format.uidFree (h.stored hitem)
  obtain ⟨-, move, hmove⟩ := h.rows item hitem
  cases move with
  | some move => exact ⟨move, hmove⟩
  | none =>
      unfold accessMove at hmove
      rw [if_neg (by simp [huid])] at hmove
      simp only [hname.2, if_neg hname.1] at hmove
      split at hmove <;> cases hmove

/-- **What a row asks for.** -/
theorem effect_of_rowWrite (hitem : item ∈ items) {write : Write}
    (hwrite : RowWrite identities item write) : Effect sha256Hex item write := by
  cases hwrite with
  | secret hmove =>
      obtain ⟨-, name, identity, hname, hidentity, hkey, htarget⟩ := secretMove_eq_some hmove
      have hclean := h.format.names (h.stored hitem) (.inl hname)
      obtain rfl := h.found_eq hclean hidentity
      rw [hkey]
      exact .secret hname (migratedSecretItem_ok htarget)
  | access hmove =>
      obtain ⟨-, hconsumer, name, identity, hname, hidentity, hkey, htarget⟩ :=
        accessMove_eq_some hmove
      have hclean := h.format.names (h.stored hitem) (.inr ⟨hconsumer, hname⟩)
      obtain rfl := h.found_eq hclean hidentity
      rw [hkey, htarget]
      exact .access ⟨hconsumer, hname⟩
  | grant hupdate =>
      obtain ⟨grants, rfl, hupdated⟩ := migrateAgentGrant_some hupdate
      exact .grant hupdated.isGrant
        (hupdated.valid h.cleanIdentities (h.format.clean (h.stored hitem)))

/-! ## Keys -/

omit h in
/-- The family of a row that is written. -/
theorem family_of_effect {write : Write} (heffect : Effect sha256Hex item write) :
    (item.pk.toList[6]? = some '#' ∧ ∃ name, legacySecretPk item.pk = some name) ∨
      (item.pk.toList[6]? = some 'E' ∧ ∃ name, IsLegacyAccess item name) ∨
      (item.pk.toList[6]? = some 'G' ∧ isAgentGrant item = true) := by
  cases heffect with
  | secret hname _ => exact .inl ⟨family_of_name hname, _, hname⟩
  | access hname => exact .inr (.inl ⟨family_access hname, _, hname⟩)
  | grant hgrant _ => exact .inr (.inr ⟨family_grant hgrant, hgrant⟩)

omit h in
/-- **A row asks for one write.** -/
theorem rowWrite_unique {write write' : Write}
    (hwrite : RowWrite identities item write) (hwrite' : RowWrite identities item write') :
    write = write' := by
  have hfamily : ∀ {move : SecretMove}, secretMove identities item = .ok (some move) →
      item.pk.toList[6]? = some '#' := by
    intro move hmove
    obtain ⟨-, name, -, hname, -⟩ := secretMove_eq_some hmove
    exact family_of_name hname
  have hfamily' : ∀ {move : AccessMove}, accessMove identities item = .ok (some move) →
      item.pk.toList[6]? = some 'E' := by
    intro move hmove
    obtain ⟨-, hconsumer, name, -, hname, -⟩ := accessMove_eq_some hmove
    exact family_access ⟨hconsumer, hname⟩
  have hfamily'' : ∀ {update : AgentGrantUpdate},
      (migrateAgentGrant identities item).2 = some update → item.pk.toList[6]? = some 'G' := by
    intro update hupdate
    obtain ⟨grants, -, hupdated⟩ := migrateAgentGrant_some hupdate
    exact family_grant hupdated.isGrant
  cases hwrite with
  | secret hmove =>
      cases hwrite' with
      | secret hmove' =>
          obtain rfl := Option.some.inj (Except.ok.inj (hmove.symm.trans hmove'))
          rfl
      | access hmove' => cases (hfamily hmove).symm.trans (hfamily' hmove')
      | grant hupdate' => cases (hfamily hmove).symm.trans (hfamily'' hupdate')
  | access hmove =>
      cases hwrite' with
      | secret hmove' => cases (hfamily' hmove).symm.trans (hfamily hmove')
      | access hmove' =>
          obtain rfl := Option.some.inj (Except.ok.inj (hmove.symm.trans hmove'))
          rfl
      | grant hupdate' => cases (hfamily' hmove).symm.trans (hfamily'' hupdate')
  | grant hupdate =>
      cases hwrite' with
      | secret hmove' => cases (hfamily'' hupdate).symm.trans (hfamily hmove')
      | access hmove' => cases (hfamily'' hupdate).symm.trans (hfamily' hmove')
      | grant hupdate' =>
          obtain rfl := Option.some.inj (hupdate.symm.trans hupdate')
          rfl

/-- A key that is new to the table, and the write that puts a row there. -/
inductive Lands (sha256Hex : String → String) (identities : Entries SecretIdentity)
    (items : List Item) (key : Key) (write : Write) : Prop
  | secret {item : Item} {name : Name} (hitem : item ∈ items)
      (hwrite : RowWrite identities item write) (hname : legacySecretPk item.pk = some name)
      (hkey : key = { pk := secretPk (uidOf sha256Hex name), sk := item.sk })
  | access {item : Item} {name : Name} (hitem : item ∈ items)
      (hwrite : RowWrite identities item write) (hname : IsLegacyAccess item name)
      (hkey : key =
        { pk := item.pk, sk := accessSk name.environment (uidOf sha256Hex name) })
  | lookup {name : Name} {found : String}
      (hfound : identities.lookup found = some (identityOf sha256Hex name))
      (hclean : '#' ∉ name.environment.toList)
      (hkey : key = (lookupOf (identityOf sha256Hex name)).key)
      (hwrite : write = .put (lookupOf (identityOf sha256Hex name)).item)

/-- **A write touches the row that asks for it, or a new key.** -/
theorem touch {write : Write} (hplanned : PlannedWrite identities items write) {key : Key}
    {value : Option Item} (hvalue : write.rewrite key = some value) :
    (∃ item ∈ items, RowWrite identities item write ∧ key = item.key) ∨
      (Lands sha256Hex identities items key write ∧ value ≠ none) := by
  rcases hplanned with ⟨item, hitem, hwrite⟩ | ⟨identity, hidentity, rfl⟩
  · have heffect := h.effect_of_rowWrite hitem hwrite
    cases heffect with
    | @secret name target hname hmoved =>
        simp only [Write.rewrite] at hvalue
        split at hvalue
        · rename_i hkey
          obtain rfl := Option.some.inj hvalue
          exact .inr ⟨.secret hitem hwrite hname (hkey.trans hmoved.key), by simp⟩
        · split at hvalue
          · rename_i hkey
            exact .inl ⟨item, hitem, hwrite, hkey⟩
          · cases hvalue
    | @access name hname =>
        simp only [Write.rewrite] at hvalue
        split at hvalue
        · rename_i hkey
          obtain rfl := Option.some.inj hvalue
          exact .inr ⟨.access hitem hwrite hname hkey, by simp⟩
        · split at hvalue
          · rename_i hkey
            exact .inl ⟨item, hitem, hwrite, hkey⟩
          · cases hvalue
    | @grant grants hgrant hvalid =>
        simp only [Write.rewrite] at hvalue
        split at hvalue
        · rename_i hkey
          exact .inl ⟨item, hitem, hwrite, hkey⟩
        · cases hvalue
  · simp only [Write.rewrite] at hvalue
    split at hvalue
    · rename_i hkey
      obtain rfl := Option.some.inj hvalue
      obtain ⟨⟨found, identity⟩, hmem, rfl⟩ := List.mem_map.mp hidentity
      have hlookup := (mem_iff_lookup (collected_of_ok h.collected).nodup).mp hmem
      obtain ⟨name, rfl, hclean, -⟩ := h.identity_eq hlookup
      exact .inr ⟨.lookup hlookup hclean hkey rfl, by simp⟩
    · cases hvalue

/-- **The keys that rows are moved to hold nothing.** -/
theorem new (hshadow : ¬ Shadowed sha256Hex table) {key : Key} {write : Write}
    (hlands : Lands sha256Hex identities items key write) : table key = none := by
  rw [Option.eq_none_iff_forall_ne_some]
  intro there hthere
  have hthereKey : there.key = key := h.scan.keyed hthere
  cases hlands with
  | @secret item name hitem _ hname hkey =>
      have hpk : there.pk = secretPk (uidOf sha256Hex name) := by
        rw [Item.pk, hthereKey, hkey]
      refine h.format.secretRows hthere ?_ ?_
      · rw [hpk, secretPk, dropPrefix_append]
        simp
      · rw [hpk]
        exact legacySecretPk_secretPk (hash_not_mem_uid h.hex _ _)
  | @access item name hitem _ hname hkey =>
      obtain ⟨-, hclean, hne, -⟩ := legacySecretPk_eq_some.mp hname.2
      refine hshadow ⟨item, there, name,
        { environment := name.environment, secretId := uidOf sha256Hex name }, h.stored hitem,
        hthereKey ▸ hthere, hname, ⟨?_, ?_⟩, ?_, rfl, rfl⟩
      · rw [Item.pk, hthereKey, hkey]
        exact hname.1
      · rw [legacyAccessSk, Item.sk, hthereKey, hkey]
        exact legacySecretPk_eq_some.mpr ⟨rfl, hclean, hne, uid_ne_empty _ _⟩
      · rw [Item.pk, Item.pk, hthereKey, hkey]
        rfl
  | @lookup name found hfound _ hkey _ =>
      have hprefix := h.format.lookups hthere
      rw [Item.pk, hthereKey, hkey] at hprefix
      simp only [lookupOf, secretNamePk, String.append_assoc, dropPrefix_append] at hprefix
      cases hprefix

/-- **A new key is written by one write.** -/
theorem unique {key : Key} {write write' : Write}
    (hlands : Lands sha256Hex identities items key write)
    (hlands' : Lands sha256Hex identities items key write') : write = write' := by
  cases hlands with
  | @secret item name hitem hwrite hname hkey =>
      cases hlands' with
      | @secret item' name' hitem' hwrite' hname' hkey' =>
          obtain ⟨hpk, hsk⟩ := Key.mk.inj (hkey.symm.trans hkey')
          have huid : uidOf sha256Hex name = uidOf sha256Hex name' := by
            have htext := congrArg String.toList hpk
            rw [secretPk, secretPk, String.toList_append, String.toList_append] at htext
            exact String.toList_inj.mp (List.append_cancel_left htext)
          obtain ⟨key, hfound⟩ := h.found_of_name hitem (.inl hname)
          obtain ⟨key', hfound'⟩ := h.found_of_name hitem' (.inl hname')
          obtain rfl := h.name_eq hfound hfound' huid
          have hsame : item = item' := by
            refine h.scan.eq_of_key hitem hitem' (Key.ext ?_ hsk)
            exact (legacySecretPk_eq_some.mp hname).1.trans (legacySecretPk_eq_some.mp hname').1.symm
          subst hsame
          exact rowWrite_unique hwrite hwrite'
      | @access item' name' hitem' _ hname' hkey' =>
          have hpk := congrArg Key.pk (hkey.symm.trans hkey')
          have hfamily := family_secretPk (uidOf sha256Hex name)
          rw [show secretPk (uidOf sha256Hex name) = item'.pk from hpk, family_access hname'] at hfamily
          cases hfamily
      | @lookup name' found' _ _ hkey' _ =>
          have hpk := congrArg Key.pk (hkey.symm.trans hkey')
          have hfamily := family_lookup (identityOf sha256Hex name')
          rw [← hpk, family_secretPk] at hfamily
          cases hfamily
  | @access item name hitem hwrite hname hkey =>
      cases hlands' with
      | @secret item' name' hitem' _ hname' hkey' =>
          have hpk := congrArg Key.pk (hkey'.symm.trans hkey)
          have hfamily := family_secretPk (uidOf sha256Hex name')
          rw [show secretPk (uidOf sha256Hex name') = item.pk from hpk, family_access hname] at hfamily
          cases hfamily
      | @access item' name' hitem' hwrite' hname' hkey' =>
          obtain ⟨hpk, hsk⟩ := Key.mk.inj (hkey.symm.trans hkey')
          obtain ⟨htext, hclean, -, -⟩ := legacySecretPk_eq_some.mp hname.2
          obtain ⟨htext', hclean', -, -⟩ := legacySecretPk_eq_some.mp hname'.2
          have hsplit := congrArg String.toList hsk
          simp only [accessSk, String.toList_append, List.append_assoc] at hsplit
          obtain ⟨-, huid⟩ := split_inj hclean hclean' (by simpa using hsplit)
          obtain ⟨key, hfound⟩ := h.found_of_name hitem (.inr hname)
          obtain ⟨key', hfound'⟩ := h.found_of_name hitem' (.inr hname')
          obtain rfl := h.name_eq hfound hfound' (String.toList_inj.mp huid)
          have hsame : item = item' :=
            h.scan.eq_of_key hitem hitem' (Key.ext hpk (htext.trans htext'.symm))
          subst hsame
          exact rowWrite_unique hwrite hwrite'
      | @lookup name' found' _ _ hkey' _ =>
          have hpk := congrArg Key.pk (hkey.symm.trans hkey')
          have hfamily := family_lookup (identityOf sha256Hex name')
          rw [← hpk, family_access hname] at hfamily
          cases hfamily
  | @lookup name found hfound hclean hkey hwrite =>
      cases hlands' with
      | @secret item' name' _ _ _ hkey' =>
          have hpk := congrArg Key.pk (hkey.symm.trans hkey')
          have hfamily := family_lookup (identityOf sha256Hex name)
          rw [hpk, family_secretPk] at hfamily
          cases hfamily
      | @access item' name' _ _ hname' hkey' =>
          have hpk := congrArg Key.pk (hkey.symm.trans hkey')
          have hfamily := family_lookup (identityOf sha256Hex name)
          rw [hpk, family_access hname'] at hfamily
          cases hfamily
      | @lookup name' found' hfound' hclean' hkey' hwrite' =>
          have hpk := congrArg (fun key => key.pk.toList) (hkey.symm.trans hkey')
          simp only [lookupOf, secretNamePk, identityOf, String.toList_append,
            List.append_assoc] at hpk
          obtain ⟨henvironment, hsecretId⟩ := split_inj hclean hclean' (by simpa using hpk)
          have hname : name = name' := by
            cases name
            cases name'
            simp_all [String.toList_inj]
          rw [hwrite, hwrite', hname]

/-- **Each key is touched by one write.** -/
theorem write_unique (hshadow : ¬ Shadowed sha256Hex table) {write write' : Write}
    (hplanned : PlannedWrite identities items write)
    (hplanned' : PlannedWrite identities items write') {key : Key} {value value' : Option Item}
    (hvalue : write.rewrite key = some value) (hvalue' : write'.rewrite key = some value') :
    write = write' := by
  rcases h.touch hplanned hvalue with ⟨item, hitem, hwrite, hkey⟩ | ⟨hlands, -⟩
  · rcases h.touch hplanned' hvalue' with ⟨item', hitem', hwrite', hkey'⟩ | ⟨hlands', -⟩
    · obtain rfl := h.scan.eq_of_key hitem hitem' (hkey.symm.trans hkey')
      exact rowWrite_unique hwrite hwrite'
    · have hnew := h.new hshadow hlands'
      rw [hkey, h.stored hitem] at hnew
      cases hnew
  · rcases h.touch hplanned' hvalue' with ⟨item', hitem', hwrite', hkey'⟩ | ⟨hlands', -⟩
    · have hnew := h.new hshadow hlands
      rw [hkey', h.stored hitem'] at hnew
      cases hnew
    · exact h.unique hlands hlands'

end Setting

end Hemlig.Scripts.MigrateSecretUids
