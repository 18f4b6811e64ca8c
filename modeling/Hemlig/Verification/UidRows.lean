import Hemlig.Verification.UidPlan

/-!
# What the UID migration does to a row

One lemma for each kind of row: the rows of a secret and of a consumer's access go under the
UID, with a `secretUid` of their own, so they are not planned again; an agent grant gets the
pairs of ids and UIDs, and such a grant is left alone.
-/

namespace Hemlig.Scripts.MigrateSecretUids

variable {sha256Hex : String → String} {identities : Entries SecretIdentity} {item : Item}

/-! ## Rows of secrets and of access -/

/-- The attributes that the migration may change in a row of a secret. -/
def changedFields : List String :=
  ["secretUid", "revisionPk", "serialized", "controlObjectKey", "payloadObjectKey"]

/-- The rows differ in nothing but attributes that may change, and not in their UID. -/
structure SameBut (item item' : Item) : Prop where
  key : item'.key = item.key
  uid : item'.attributes.lookup "secretUid" = item.attributes.lookup "secretUid"
  other : ∀ name ∉ changedFields, item'.attributes.lookup name = item.attributes.lookup name

theorem SameBut.refl (item : Item) : SameBut item item := ⟨rfl, rfl, fun _ _ => rfl⟩

theorem SameBut.trans {item item' item'' : Item} (h : SameBut item item')
    (h' : SameBut item' item'') : SameBut item item'' :=
  ⟨h'.key.trans h.key, h'.uid.trans h.uid, fun name hname =>
    (h'.other name hname).trans (h.other name hname)⟩

theorem sameBut_set {name : String} {value : Value} (h : name ∈ changedFields)
    (hne : name ≠ "secretUid") : SameBut item (item.set name value) :=
  ⟨rfl, Entries.lookup_set_of_ne hne.symm, fun _ hother =>
    Entries.lookup_set_of_ne fun heq => hother (heq ▸ h)⟩

theorem sameBut_setSerializedUid (secretUid : String) :
    SameBut item (setSerializedUid item secretUid) := by
  unfold setSerializedUid
  split
  · exact sameBut_set (by decide) (by decide)
  · exact .refl item

/-- The object of a kind that a head names: by its key, or by the convention of old. -/
def objectKey (kind : String) (legacyKey : String → String) (item : Item) : Option String :=
  match item.stringField (kind ++ "ObjectKey") with
  | some key => some key
  | none => (item.stringField (kind ++ "VersionId")).map legacyKey

/-- Naming the object explicitly changes no object. -/
theorem objectKey_set {kind versionId : String} {legacyKey : String → String}
    (hlegacy : legacyKey versionId ≠ "")
    (hversion : item.stringField (kind ++ "VersionId") = some versionId) :
    objectKey kind legacyKey (item.set (kind ++ "ObjectKey")
      (.string ((item.stringField (kind ++ "ObjectKey")).getD (legacyKey versionId)))) =
        objectKey kind legacyKey item := by
  have hne : (item.stringField (kind ++ "ObjectKey")).getD (legacyKey versionId) ≠ "" := by
    cases hkey : item.stringField (kind ++ "ObjectKey") with
    | none => exact hlegacy
    | some key => exact stringField_ne_empty hkey
  unfold objectKey
  rw [stringField_set_self hne, hversion]
  cases item.stringField (kind ++ "ObjectKey") <;> rfl

theorem objectKey_congr {kind : String} {legacyKey : String → String} {item' : Item}
    (hkey : item'.stringField (kind ++ "ObjectKey") = item.stringField (kind ++ "ObjectKey"))
    (hversion : item'.stringField (kind ++ "VersionId") = item.stringField (kind ++ "VersionId")) :
    objectKey kind legacyKey item' = objectKey kind legacyKey item := by
  unfold objectKey
  rw [hkey, hversion]

theorem legacyControlKey_ne_empty (environment secretId versionId : String) :
    legacyControlKey environment secretId versionId ≠ "" := by
  intro h
  simpa [legacyControlKey, String.toList_append] using congrArg String.toList h

theorem legacyPayloadKey_ne_empty (environment secretId versionId : String) :
    legacyPayloadKey environment secretId versionId ≠ "" := by
  intro h
  simpa [legacyPayloadKey, String.toList_append] using congrArg String.toList h

/-- The same objects are named. -/
structure SameObjects (identity : SecretIdentity) (item item' : Item) : Prop where
  control : objectKey "control" (legacyControlKey identity.environment identity.secretId) item' =
    objectKey "control" (legacyControlKey identity.environment identity.secretId) item
  payload : objectKey "payload" (legacyPayloadKey identity.environment identity.secretId) item' =
    objectKey "payload" (legacyPayloadKey identity.environment identity.secretId) item

theorem SameObjects.trans {identity : SecretIdentity} {item item' item'' : Item}
    (h : SameObjects identity item item') (h' : SameObjects identity item' item'') :
    SameObjects identity item item'' :=
  ⟨h'.control.trans h.control, h'.payload.trans h.payload⟩

/-- An attribute that says nothing about objects. -/
theorem sameObjects_set {identity : SecretIdentity} {name : String} {value : Value}
    (h : name ∉ ["controlObjectKey", "controlVersionId", "payloadObjectKey", "payloadVersionId"]) :
    SameObjects identity item (item.set name value) := by
  simp only [List.mem_cons, List.not_mem_nil, or_false, not_or] at h
  obtain ⟨hcontrol, hcontrolVersion, hpayload, hpayloadVersion⟩ := h
  constructor
  · exact objectKey_congr (stringField_set_of_ne (Ne.symm hcontrol))
      (stringField_set_of_ne (Ne.symm hcontrolVersion))
  · exact objectKey_congr (stringField_set_of_ne (Ne.symm hpayload))
      (stringField_set_of_ne (Ne.symm hpayloadVersion))

theorem addHeadObjectKeys_ok {identity : SecretIdentity} {item' : Item}
    (h : addHeadObjectKeys item identity = .ok item') :
    SameBut item item' ∧ SameObjects identity item item' := by
  have hcontrol : ∀ {versionId : String}, item.stringField "controlVersionId" = some versionId →
      SameObjects identity item (item.set "controlObjectKey"
        (.string ((item.stringField "controlObjectKey").getD
          (legacyControlKey identity.environment identity.secretId versionId)))) := by
    intro versionId hversion
    constructor
    · exact @objectKey_set _ "control" _ _ (legacyControlKey_ne_empty _ _ _) hversion
    · exact objectKey_congr (stringField_set_of_ne (by decide)) (stringField_set_of_ne (by decide))
  have hpayload : ∀ {item : Item} {versionId : String},
      item.stringField "payloadVersionId" = some versionId →
      SameObjects identity item (item.set "payloadObjectKey"
        (.string ((item.stringField "payloadObjectKey").getD
          (legacyPayloadKey identity.environment identity.secretId versionId)))) := by
    intro item versionId hversion
    constructor
    · exact objectKey_congr (stringField_set_of_ne (by decide)) (stringField_set_of_ne (by decide))
    · exact @objectKey_set _ "payload" _ _ (legacyPayloadKey_ne_empty _ _ _) hversion
  unfold addHeadObjectKeys at h
  split at h
  · cases h
  · split at h
    · obtain rfl := Except.ok.inj h
      exact ⟨.refl item, rfl, rfl⟩
    · cases h
  · rename_i hversion _
    have hset : ∀ value, SameBut item (item.set "controlObjectKey" value) := fun _ =>
      sameBut_set (by decide) (by decide)
    dsimp only at h
    split at h
    · obtain rfl := Except.ok.inj h
      exact ⟨hset _, hcontrol hversion⟩
    · rename_i hversion' _
      obtain rfl := Except.ok.inj h
      exact ⟨(hset _).trans (sameBut_set (by decide) (by decide)),
        (hcontrol hversion).trans (hpayload hversion')⟩
    · cases h

/-- What becomes of a row of a secret. -/
structure MovedSecret (identity : SecretIdentity) (source target : Item) : Prop where
  key : target.key = { pk := secretPk identity.secretUid, sk := source.sk }
  uid : target.attributes.lookup "secretUid" = some (.string identity.secretUid)
  other : ∀ name ∉ changedFields, target.attributes.lookup name = source.attributes.lookup name
  objects : SameObjects identity source target

theorem sameObjects_setSerializedUid {identity : SecretIdentity} (secretUid : String) :
    SameObjects identity item (setSerializedUid item secretUid) := by
  unfold setSerializedUid
  split
  · exact sameObjects_set (by decide)
  · exact ⟨rfl, rfl⟩

theorem migratedHead_ok {identity : SecretIdentity} {item' : Item}
    (h : migratedHead item identity = .ok item') :
    SameBut item item' ∧ SameObjects identity item item' := by
  unfold migratedHead at h
  split at h
  · exact addHeadObjectKeys_ok h
  · obtain rfl := Except.ok.inj h
    exact ⟨.refl item, rfl, rfl⟩

theorem same_migratedControl (identity : SecretIdentity) (secretUid : String) :
    SameBut item (migratedControl item secretUid) ∧
      SameObjects identity item (migratedControl item secretUid) := by
  unfold migratedControl
  split
  · exact ⟨.refl item, rfl, rfl⟩
  · exact ⟨(sameBut_set (by decide) (by decide)).trans (sameBut_setSerializedUid _),
      (sameObjects_set (by decide)).trans (sameObjects_setSerializedUid _)⟩

theorem same_migratedPayload (identity : SecretIdentity) (secretUid : String) :
    SameBut item (migratedPayload item secretUid) ∧
      SameObjects identity item (migratedPayload item secretUid) := by
  unfold migratedPayload
  split
  · exact ⟨.refl item, rfl, rfl⟩
  · exact ⟨sameBut_setSerializedUid _, sameObjects_setSerializedUid _⟩

/-- **A row of a secret is moved with all it says.** -/
theorem migratedSecretItem_ok {identity : SecretIdentity} {source target : Item}
    (h : migratedSecretItem source identity = .ok target) : MovedSecret identity source target := by
  unfold migratedSecretItem at h
  cases hhead : migratedHead
      { key := { pk := secretPk identity.secretUid, sk := source.sk }
        attributes := source.attributes.set "secretUid" (.string identity.secretUid) } identity with
  | error issue =>
      rw [hhead] at h
      cases h
  | ok head =>
      rw [hhead] at h
      simp only [bind, Except.bind] at h
      split at h
      · cases h
      · obtain rfl := Except.ok.inj h
        obtain ⟨hsame, hobjects⟩ := migratedHead_ok hhead
        obtain ⟨hsame', hobjects'⟩ :=
          @same_migratedControl head identity identity.secretUid
        obtain ⟨hsame'', hobjects''⟩ := @same_migratedPayload
          (migratedControl head identity.secretUid) identity identity.secretUid
        have hall := (hsame.trans hsame').trans hsame''
        have hfirst : SameObjects identity source
            { key := { pk := secretPk identity.secretUid, sk := source.sk }
              attributes := source.attributes.set "secretUid" (.string identity.secretUid) } :=
          have hset : SameObjects identity source
              (source.set "secretUid" (.string identity.secretUid)) := sameObjects_set (by decide)
          ⟨hset.control, hset.payload⟩
        refine ⟨hall.key, ?_, ?_, ((hfirst.trans hobjects).trans hobjects').trans hobjects''⟩
        · exact hall.uid.trans (Entries.lookup_set_self _ _ _)
        · intro name hname
          refine (hall.other name hname).trans (Entries.lookup_set_of_ne fun heq => hname ?_)
          rw [heq]
          decide

/-- A row that names its UID is not planned. -/
theorem secretMove_of_uid {secretUid : String} (h : item.stringField "secretUid" = some secretUid) :
    secretMove identities item = .ok none := by
  unfold secretMove
  rw [if_pos (by simp [h])]

theorem accessMove_of_uid {secretUid : String} (h : item.stringField "secretUid" = some secretUid) :
    accessMove identities item = .ok none := by
  unfold accessMove
  rw [if_pos (by simp [h])]

theorem stringField_of_lookup {name text : String} (h : text ≠ "")
    (hlookup : item.attributes.lookup name = some (.string text)) :
    item.stringField name = some text := by
  unfold Item.stringField Attributes.stringField
  rw [hlookup]
  exact if_neg h

theorem secretMove_eq_some {source : Item} {move : SecretMove}
    (h : secretMove identities source = .ok (some move)) :
    source.stringField "secretUid" = none ∧ ∃ name identity,
      legacySecretPk source.pk = some name ∧
      identities.lookup (nameKey name.environment name.secretId) = some identity ∧
      move.sourceKey = source.key ∧ migratedSecretItem source identity = .ok move.target := by
  unfold secretMove at h
  split at h
  · cases h
  · rename_i huid
    split at h
    · cases h
    · rename_i name hname
      split at h
      · cases h
      · rename_i identity hidentity
        cases htarget : migratedSecretItem source identity with
        | error issue =>
            rw [htarget] at h
            cases h
        | ok target =>
            rw [htarget] at h
            obtain rfl := Option.some.inj (Except.ok.inj h)
            exact ⟨not_not.mp huid, name, identity, hname, hidentity, rfl, htarget⟩

theorem accessMove_eq_some {source : Item} {move : AccessMove}
    (h : accessMove identities source = .ok (some move)) :
    source.stringField "secretUid" = none ∧ dropPrefix "CONSUMER#" source.pk ≠ none ∧
    ∃ name identity, legacyAccessSk source.sk = some name ∧
      identities.lookup (nameKey name.environment name.secretId) = some identity ∧
      move.sourceKey = source.key ∧
      move.target =
        { key := { pk := source.pk, sk := accessSk identity.environment identity.secretUid }
          attributes := source.attributes.set "secretUid" (.string identity.secretUid) } := by
  unfold accessMove at h
  split at h
  · cases h
  · rename_i huid
    split at h
    · cases h
    · rename_i name hname
      split at h
      · cases h
      · rename_i hconsumer
        split at h
        · cases h
        · rename_i identity hidentity
          obtain rfl := Option.some.inj (Except.ok.inj h)
          exact ⟨not_not.mp huid, hconsumer, name, identity, hname, hidentity, rfl, rfl⟩

/-! ## Agent grants -/

/-- A pair that the canonical form admits. -/
structure ValidGrant (grant : MigratedAgentSecretGrant) : Prop where
  secretId : grant.secretId ≠ ""
  secretUid : grant.secretUid ≠ ""
  permissions : ∃ read write, (read || write) = true ∧
    grant.permissions = permissionsOf read write

/-- Pairs that the canonical form admits, for each id once. -/
structure ValidGrants (grants : List MigratedAgentSecretGrant) : Prop where
  valid : ∀ grant ∈ grants, ValidGrant grant
  nodup : (grants.map MigratedAgentSecretGrant.secretId).Nodup

theorem ValidGrants.sort {grants : List MigratedAgentSecretGrant} (h : ValidGrants grants) :
    ValidGrants (sortGrants grants) := by
  have hperm : (sortGrants grants).Perm grants := List.mergeSort_perm _ _
  exact ⟨fun grant hgrant => h.valid grant (hperm.mem_iff.mp hgrant),
    (hperm.map _).nodup_iff.mpr h.nodup⟩

theorem stringArray_map {α : Type} (f : α → String) (values : List α) :
    stringArray (some (.list (values.map fun value => .string (f value)))) = values.map f := by
  have hall : (values.map fun value => Value.string (f value)).mapM Value.text =
      some (values.map f) := by
    induction values with
    | nil => rfl
    | cons value rest ih =>
        rw [List.map_cons, List.mapM_cons, ih]
        rfl
  rw [stringArray, hall, Option.getD_some]

theorem stringField_ne_empty' {attributes : Attributes} {name text : String}
    (h : attributes.stringField name = some text) : text ≠ "" :=
  @stringField_ne_empty ⟨⟨"", ""⟩, attributes⟩ _ _ h

theorem canonicalEntry_ok {grantPk : String} {value : Value} {grant : MigratedAgentSecretGrant}
    (h : canonicalEntry grantPk value = .ok grant) : ValidGrant grant := by
  unfold canonicalEntry at h
  split at h
  · dsimp only at h
    split at h
    · rename_i secretId secretUid hsecretId hsecretUid
      split at h
      · cases h
      · rename_i hpermissions
        obtain rfl := Except.ok.inj h
        refine ⟨stringField_ne_empty' hsecretId, stringField_ne_empty' hsecretUid, _, _, ?_, rfl⟩
        generalize stringArray _ = permissions at hpermissions ⊢
        cases permissions with
        | nil => simp at hpermissions
        | cons permission rest =>
            rw [not_or, not_or] at hpermissions
            obtain ⟨-, -, hall⟩ := hpermissions
            have hfirst : permission = "read" ∨ permission = "write" := by
              by_contra hneither
              rw [not_or] at hneither
              apply hall
              simp [hneither.1, hneither.2]
            rcases hfirst with rfl | rfl <;> simp
    · cases h
  · cases h

/-- **A pair is read back as it was stored.** -/
theorem canonicalEntry_value {grant : MigratedAgentSecretGrant} (h : ValidGrant grant)
    (grantPk : String) : canonicalEntry grantPk (grantValue grant) = .ok grant := by
  obtain ⟨hsecretId, hsecretUid, read, write, hsome, hpermissions⟩ := h
  obtain ⟨secretId, secretUid, permissions⟩ := grant
  dsimp only at hsecretId hsecretUid hpermissions
  subst hpermissions
  unfold canonicalEntry grantValue
  have hid : Attributes.stringField
      [("secretId", .string secretId), ("secretUid", .string secretUid),
        ("permissions", .list ((permissionsOf read write).map fun permission =>
          .string (capabilityName permission)))] "secretId" = some secretId :=
    if_neg hsecretId
  have huid : Attributes.stringField
      [("secretId", .string secretId), ("secretUid", .string secretUid),
        ("permissions", .list ((permissionsOf read write).map fun permission =>
          .string (capabilityName permission)))] "secretUid" = some secretUid :=
    if_neg hsecretUid
  have hnames : stringArray (List.lookup "permissions"
      [("secretId", .string secretId), ("secretUid", .string secretUid),
        ("permissions", .list ((permissionsOf read write).map fun permission =>
          .string (capabilityName permission)))]) =
      (permissionsOf read write).map capabilityName :=
    stringArray_map capabilityName _
  dsimp only
  rw [hid, huid, hnames]
  cases read <;> cases write
  · cases hsome
  · rfl
  · rfl
  · rfl

theorem canonicalSecretGrants_ok {grantPk : String} {grants : List MigratedAgentSecretGrant}
    (h : canonicalSecretGrants item grantPk = .ok (some grants)) : ValidGrants grants := by
  unfold canonicalSecretGrants at h
  split at h
  · cases h
  · rename_i values _
    cases hentries : values.mapM (canonicalEntry grantPk) with
    | error issue =>
        rw [hentries] at h
        cases h
    | ok entries =>
        rw [hentries] at h
        simp only [bind, Except.bind] at h
        split at h
        · rename_i hnodup
          obtain rfl := Option.some.inj (Except.ok.inj h)
          refine ValidGrants.sort ⟨fun grant hgrant => ?_, hnodup⟩
          obtain ⟨value, -, hvalue⟩ := (mem_of_mapM_ok hentries).mp hgrant
          exact canonicalEntry_ok hvalue
        · cases h
  · cases h

/-- Pairs are read back as they were stored. -/
theorem canonicalSecretGrants_value {grants : List MigratedAgentSecretGrant}
    (h : ValidGrants grants) (grantPk : String)
    (hstored : item.attributes.lookup "secretGrants" = some (grantsValue grants)) :
    canonicalSecretGrants item grantPk = .ok (some (sortGrants grants)) := by
  have hentries : (grants.map grantValue).mapM (canonicalEntry grantPk) = .ok grants := by
    have hvalid := h.valid
    clear h hstored
    induction grants with
    | nil => rfl
    | cons grant rest ih =>
        rw [List.map_cons, List.mapM_cons, canonicalEntry_value (hvalid grant List.mem_cons_self),
          ih fun other hother => hvalid other (List.mem_cons_of_mem _ hother)]
        rfl
  unfold canonicalSecretGrants
  rw [hstored, grantsValue]
  simp only [hentries, bind, Except.bind]
  rw [if_pos h.nodup]
  rfl

/-- The identities are those of heads with names that can be told apart. -/
structure CleanIdentities (identities : Entries SecretIdentity) : Prop where
  clean : ∀ key identity, identities.lookup key = some identity →
    '\x00' ∉ identity.environment.toList
  key : ∀ key identity, identities.lookup key = some identity → key = identity.key
  secretId : ∀ key identity, identities.lookup key = some identity → identity.secretId ≠ ""
  secretUid : ∀ key identity, identities.lookup key = some identity → identity.secretUid ≠ ""

theorem headIdentity_ne_empty {identity : SecretIdentity}
    (h : headIdentity sha256Hex item = some identity) :
    identity.secretId ≠ "" ∧ identity.secretUid ≠ "" := by
  unfold headIdentity at h
  split at h
  · cases h
  · split at h
    · rename_i environment secretId _ hsecretId
      obtain rfl := Option.some.inj h
      refine ⟨stringField_ne_empty hsecretId, ?_⟩
      cases huid : item.stringField "secretUid" with
      | none => exact uid_ne_empty environment secretId
      | some secretUid => exact stringField_ne_empty huid
    · cases h

theorem Collected.cleanIdentities {items : List Item}
    (h : Collected sha256Hex items identities) (hclean : CleanHeads sha256Hex items) :
    CleanIdentities identities where
  clean key identity hfound := by
    obtain ⟨-, item, hitem, hhead⟩ := h.found key identity hfound
    exact hclean item hitem identity hhead
  key key identity hfound := (h.found key identity hfound).1
  secretId key identity hfound := by
    obtain ⟨-, item, hitem, hhead⟩ := h.found key identity hfound
    exact (headIdentity_ne_empty hhead).1
  secretUid key identity hfound := by
    obtain ⟨-, item, hitem, hhead⟩ := h.found key identity hfound
    exact (headIdentity_ne_empty hhead).2

theorem pairGrant_eq_ok {grantPk environment secretId : String} {read write : List String}
    {grant : MigratedAgentSecretGrant} :
    pairGrant grantPk environment identities read write secretId = .ok grant ↔
      ∃ identity, identities.lookup (nameKey environment secretId) = some identity ∧
        grant = { secretId, secretUid := identity.secretUid,
                  permissions := permissionsOf (secretId ∈ read) (secretId ∈ write) } := by
  unfold pairGrant
  cases identities.lookup (nameKey environment secretId) with
  | none => simp
  | some identity => simp [eq_comm]

/-- The pairs of ids of live secrets. -/
theorem mem_pairGrants {grantPk environment : String} {read write : List String}
    {grants : List MigratedAgentSecretGrant}
    (h : pairGrants grantPk environment identities read write = .ok grants)
    {grant : MigratedAgentSecretGrant} :
    grant ∈ grants ↔ ∃ secretId, (secretId ∈ read ∨ secretId ∈ write) ∧
      ∃ identity, identities.lookup (nameKey environment secretId) = some identity ∧
        grant = { secretId, secretUid := identity.secretUid,
                  permissions := permissionsOf (secretId ∈ read) (secretId ∈ write) } := by
  unfold pairGrants at h
  cases hpairs : (read ++ write).eraseDups.mapM
      (pairGrant grantPk environment identities read write) with
  | error issue =>
      rw [hpairs] at h
      cases h
  | ok pairs =>
      rw [hpairs] at h
      obtain rfl : sortGrants pairs = grants := Except.ok.inj h
      have hperm : (sortGrants pairs).Perm pairs := List.mergeSort_perm _ _
      rw [hperm.mem_iff, mem_of_mapM_ok hpairs]
      simp only [pairGrant_eq_ok, List.mem_eraseDups, List.mem_append]

theorem nodup_eraseDups (ids : List String) : ids.eraseDups.Nodup := by
  induction hlength : ids.length using Nat.strong_induction_on generalizing ids with
  | _ length ih =>
      cases ids with
      | nil => exact List.nodup_nil
      | cons id rest =>
          rw [List.eraseDups_cons, List.nodup_cons]
          constructor
          · rw [List.mem_eraseDups]
            simp
          · refine ih _ ?_ _ rfl
            rw [← hlength, List.length_cons]
            exact Nat.lt_succ_of_le (List.length_filter_le _ _)

theorem pairGrants_ok {grantPk environment : String} {read write : List String}
    {grants : List MigratedAgentSecretGrant} (hclean : CleanIdentities identities)
    (henvironment : '\x00' ∉ environment.toList)
    (h : pairGrants grantPk environment identities read write = .ok grants) :
    ValidGrants grants := by
  constructor
  · intro grant hgrant
    obtain ⟨secretId, hmem, identity, hidentity, rfl⟩ := (mem_pairGrants h).mp hgrant
    obtain ⟨-, hsame⟩ := nameKey_inj henvironment (hclean.clean _ _ hidentity)
      (hclean.key _ _ hidentity)
    refine ⟨?_, hclean.secretUid _ _ hidentity, _, _, ?_, rfl⟩
    · exact hsame ▸ hclean.secretId _ _ hidentity
    · simpa using hmem
  · unfold pairGrants at h
    cases hpairs : (read ++ write).eraseDups.mapM
        (pairGrant grantPk environment identities read write) with
    | error issue =>
        rw [hpairs] at h
        cases h
    | ok pairs =>
        rw [hpairs] at h
        obtain rfl : sortGrants pairs = grants := Except.ok.inj h
        have hperm : (sortGrants pairs).Perm pairs := List.mergeSort_perm _ _
        have hids : pairs.map MigratedAgentSecretGrant.secretId = (read ++ write).eraseDups := by
          refine map_of_mapM_ok hpairs fun secretId grant hgrant => ?_
          obtain ⟨identity, -, rfl⟩ := pairGrant_eq_ok.mp hgrant
          rfl
        rw [(hperm.map _).nodup_iff, hids]
        exact nodup_eraseDups _

/-- Where the pairs of a migrated grant come from. -/
theorem migratedSecretGrants_ok {environment : String} {grants : List MigratedAgentSecretGrant}
    (h : migratedSecretGrants item item.pk environment identities = .ok grants) :
    ∃ read write,
      secretIdsForGrant item item.pk .read
        ("read" ∈ stringArray (item.attributes.lookup "capabilities")) environment
        (identities.map Prod.snd) = .ok read ∧
      secretIdsForGrant item item.pk .write
        ("write" ∈ stringArray (item.attributes.lookup "capabilities")) environment
        (identities.map Prod.snd) = .ok write ∧
      pairGrants item.pk environment identities read write = .ok grants := by
  unfold migratedSecretGrants at h
  dsimp only at h
  split at h
  · rename_i read write hread hwrite
    cases hpairs : pairGrants item.pk environment identities read write with
    | error issue =>
        rw [hpairs] at h
        cases h
    | ok pairs =>
        rw [hpairs] at h
        obtain rfl : pairs = grants := Except.ok.inj h
        exact ⟨read, write, hread, hwrite, hpairs⟩
  · cases h
  · cases h
  · cases h

/-- An update of an agent grant, and where its pairs come from. -/
structure Updated (identities : Entries SecretIdentity) (item : Item)
    (grants : List MigratedAgentSecretGrant) : Prop where
  isGrant : isAgentGrant item = true
  source : (canonicalSecretGrants item item.pk = .ok (some grants) ∧
      (hasLegacyScopeFields item = true ∨ hasParallelScopeFields item = true)) ∨
    (∀ found, canonicalSecretGrants item item.pk ≠ .ok (some found)) ∧
      ∃ environment, item.stringField "environment" = some environment ∧
        migratedSecretGrants item item.pk environment identities = .ok grants

/-- The update of a grant whose pairs are made anew. -/
def remadeGrant (identities : Entries SecretIdentity) (item : Item) (issues : List String) :
    List String × Option AgentGrantUpdate :=
  match item.stringField "environment" with
  | none => (issues ++ [item.pk ++ " has no environment."], none)
  | some environment =>
      match migratedSecretGrants item item.pk environment identities with
      | .ok grants => (issues, some (grantUpdate item grants))
      | .error found => (issues ++ found, none)

theorem migrateAgentGrant_some {update : AgentGrantUpdate}
    (h : (migrateAgentGrant identities item).2 = some update) :
    ∃ grants, update = grantUpdate item grants ∧ Updated identities item grants := by
  unfold migrateAgentGrant at h
  split at h
  · cases h
  · rename_i hgrant
    have hmigrated : ∀ issues, (remadeGrant identities item issues).2 = some update →
        ∃ environment grants, item.stringField "environment" = some environment ∧
          migratedSecretGrants item item.pk environment identities = .ok grants ∧
          update = grantUpdate item grants := by
      intro issues hsome
      unfold remadeGrant at hsome
      split at hsome
      · cases hsome
      · rename_i environment henvironment
        split at hsome
        · rename_i grants hgrants
          exact ⟨environment, grants, henvironment, hgrants, (Option.some.inj hsome).symm⟩
        · cases hsome
    dsimp only at h
    split at h
    · rename_i hcanonical
      obtain ⟨environment, grants, henvironment, hgrants, rfl⟩ := hmigrated _ h
      refine ⟨grants, rfl, not_not.mp hgrant, .inr ⟨fun found hfound => ?_, environment,
        henvironment, hgrants⟩⟩
      cases hcanonical.symm.trans hfound
    · rename_i hcanonical
      obtain ⟨environment, grants, henvironment, hgrants, rfl⟩ := hmigrated _ h
      refine ⟨grants, rfl, not_not.mp hgrant, .inr ⟨fun found hfound => ?_, environment,
        henvironment, hgrants⟩⟩
      cases hcanonical.symm.trans hfound
    · rename_i grants hcanonical
      split at h
      · cases h
      · rename_i hfields
        split at h
        · cases h
        · obtain rfl := Option.some.inj h
          refine ⟨grants, rfl, not_not.mp hgrant, .inl ⟨hcanonical, ?_⟩⟩
          by_contra hnone
          rw [not_or] at hnone
          exact hfields ⟨by simpa using hnone.1, by simpa using hnone.2⟩

/-- The environment that a row names can be told from what follows in a key. -/
def CleanItem (item : Item) : Prop :=
  ∀ environment, item.stringField "environment" = some environment →
    '\x00' ∉ environment.toList

theorem Updated.valid {grants : List MigratedAgentSecretGrant}
    (h : Updated identities item grants) (hclean : CleanIdentities identities)
    (hitem : CleanItem item) : ValidGrants grants := by
  rcases h.source with ⟨hcanonical, -⟩ | ⟨-, environment, henvironment, hgrants⟩
  · exact canonicalSecretGrants_ok hcanonical
  · obtain ⟨read, write, -, -, hpairs⟩ := migratedSecretGrants_ok hgrants
    exact pairGrants_ok hclean (hitem environment henvironment) hpairs

/-- What an update keeps, and what it takes away. -/
theorem lookup_grantUpdate {grants : List MigratedAgentSecretGrant} {name : String} :
    (grantUpdate item grants).item.attributes.lookup name =
      if name = "secretGrants" then some (grantsValue grants)
      else if name ∈ parallelScopeFields ++ legacyScopeFields then none
      else item.attributes.lookup name := by
  rw [grantUpdate, Item.attributes_set, Entries.lookup_set]
  by_cases hname : name = "secretGrants"
  · rw [if_pos hname, if_pos hname]
  · rw [if_neg hname, if_neg hname]
    exact Entries.lookup_without _ _ _

theorem noScopeFields_grantUpdate {grants : List MigratedAgentSecretGrant} :
    hasLegacyScopeFields (grantUpdate item grants).item = false ∧
      hasParallelScopeFields (grantUpdate item grants).item = false := by
  have hnone : ∀ name ∈ parallelScopeFields ++ legacyScopeFields,
      (grantUpdate item grants).item.attributes.hasOwn name = false := by
    intro name hname
    have hne : name ≠ "secretGrants" := by
      rintro rfl
      revert hname
      decide
    rw [Attributes.hasOwn, lookup_grantUpdate, if_neg hne, if_pos hname]
    rfl
  constructor
  · unfold hasLegacyScopeFields
    rw [List.any_eq_false]
    intro name hname
    simp [hnone name (List.mem_append_right _ hname)]
  · unfold hasParallelScopeFields
    rw [List.any_eq_false]
    intro name hname
    simp [hnone name (List.mem_append_left _ hname)]

/-- **An updated grant is left alone.** -/
theorem migrateAgentGrant_updated {grants : List MigratedAgentSecretGrant}
    (h : ValidGrants grants) :
    migrateAgentGrant identities (grantUpdate item grants).item = ([], none) := by
  unfold migrateAgentGrant
  split
  · rfl
  · have hstored : (grantUpdate item grants).item.attributes.lookup "secretGrants" =
        some (grantsValue grants) := by
      rw [lookup_grantUpdate, if_pos rfl]
    obtain ⟨hlegacy, hparallel⟩ := @noScopeFields_grantUpdate item grants
    rw [canonicalSecretGrants_value h _ hstored]
    dsimp only
    rw [if_pos ⟨by simp [hlegacy], by simp [hparallel]⟩]

theorem migrateAgentGrant_of_not (h : isAgentGrant item = false) :
    migrateAgentGrant identities item = ([], none) := by
  unfold migrateAgentGrant
  rw [if_pos (by simp [h])]

end Hemlig.Scripts.MigrateSecretUids
