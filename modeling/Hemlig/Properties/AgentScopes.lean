import Hemlig.Properties.UidMigration

/-!
# The UID migration widens no agent's authority

A grant that records pairs of ids and UIDs keeps the authority that it has.  Any other grant
gets the UIDs of the live secrets of its environment that its scope covers: for a capability its
exact list decides, and its prefixes where it has no list.  The table may hold secrets in both
forms and archived UIDs; planned again on a table that a stopped run left, every grant has the
same authority, since no live secret is lost from the heads (`Mid.heads`) and a grant is as it
was or updated (`Mid.grants`).
-/

namespace Hemlig.Scripts.MigrateSecretUids

open Store (Rewrite)
open Store.Rewrite (applyAll)

variable {sha256Hex : String → String} {table table' : Table} {items items' : List Item}
  {identities identities' : Entries SecretIdentity} {item : Item} {plan : SecretUidMigrationPlan}

/-! ## Authority -/

/-- The grant has the capability. -/
def Holds (item : Item) (capability : AgentCapability) : Prop :=
  capabilityName capability ∈ stringArray (item.attributes.lookup "capabilities")

/-- The grant has the capability and names the UID with this permission. -/
def Authority (item : Item) (capability : AgentCapability) (secretUid : String) : Prop :=
  Holds item capability ∧ ∃ grants, canonicalSecretGrants item item.pk = .ok (some grants) ∧
    ∃ grant ∈ grants, grant.secretUid = secretUid ∧ capability ∈ grant.permissions

/-- The row of a grant once the plan is applied. -/
def migratedGrant (plan : SecretUidMigrationPlan) (item : Item) : Item :=
  match plan.grantUpdates.find? (·.key = item.key) with
  | some update => update.item
  | none => item

/-- The texts of a list that a row has under a name. -/
def listField (item : Item) (name : String) : Option (List String) :=
  match item.attributes.lookup name with
  | some (.list values) => some (stringArray (some (.list values)))
  | _ => none

/-- The id is in the exact list for the capability, or without such a list below a prefix. -/
def InScope (item : Item) (capability : AgentCapability) (secretId : String) : Prop :=
  match listField item (capabilityName capability ++ "SecretIds") with
  | some ids => secretId ∈ ids
  | none => ∃ scopePrefix ∈ stringArray
      (item.attributes.lookup (capabilityName capability ++ "SecretIdPrefixes")),
        underPrefix scopePrefix secretId = true

/-- A head that is not archived has the identity. -/
def Live (sha256Hex : String → String) (items : List Item) (identity : SecretIdentity) : Prop :=
  ∃ item ∈ items, headIdentity sha256Hex item = some identity

/-- The exact list for the capability stands beside a list of UIDs that lacks the one which the
secret is stored under. -/
def Unlisted (sha256Hex : String → String) (items : List Item) (item : Item)
    (capability : AgentCapability) (identity : SecretIdentity) : Prop :=
  (listField item (capabilityName capability ++ "SecretIds")).isSome ∧
    (∃ uids ∈ listField item (capabilityName capability ++ "SecretUids"),
      identity.secretUid ∉ uids) ∧
    ∃ head ∈ items, headIdentity sha256Hex head = some identity ∧
      head.stringField "secretUid" = some identity.secretUid

/-- Heads are live ones in the legacy form, or are kept under their own UIDs. -/
structure MixedFormat (sha256Hex : String → String) (table : Table) : Prop where
  clean : ∀ {key item}, table key = some item → CleanItem item
  heads : ∀ {key item}, table key = some item → item.sk = "HEAD" →
    (legacySecretPk item.pk ≠ none ∧ item.stringField "secretUid" = none ∧
      headIdentity sha256Hex item ≠ none) ∨
    ∃ secretUid, item.pk = secretPk secretUid ∧ item.stringField "secretUid" = some secretUid ∧
      '#' ∉ secretUid.toList

/-! ## One grant -/

theorem capabilityName_mem (capability : AgentCapability) (read write : Bool) :
    capability ∈ permissionsOf read write ↔
      match capability with
      | .read => read = true
      | .write => write = true := by
  cases capability <;> cases read <;> cases write <;> decide

theorem holds_grantUpdate {grants : List MigratedAgentSecretGrant} (capability : AgentCapability) :
    Holds (grantUpdate item grants).item capability ↔ Holds item capability := by
  unfold Holds
  rw [lookup_grantUpdate, if_neg (by decide), if_neg (by decide)]

/-- The authority of an updated grant. -/
theorem authority_grantUpdate {grants : List MigratedAgentSecretGrant} (hvalid : ValidGrants grants)
    (capability : AgentCapability) (secretUid : String) :
    Authority (grantUpdate item grants).item capability secretUid ↔
      Holds item capability ∧
        ∃ grant ∈ grants, grant.secretUid = secretUid ∧ capability ∈ grant.permissions := by
  have hstored : (grantUpdate item grants).item.attributes.lookup "secretGrants" =
      some (grantsValue grants) := by
    rw [lookup_grantUpdate, if_pos rfl]
  have hread := canonicalSecretGrants_value hvalid (grantUpdate item grants).item.pk hstored
  have hperm : (sortGrants grants).Perm grants := List.mergeSort_perm _ _
  unfold Authority
  rw [holds_grantUpdate, hread]
  refine and_congr_right fun _ => ?_
  constructor
  · rintro ⟨found, hfound, grant, hgrant, hsame⟩
    obtain rfl := Option.some.inj (Except.ok.inj hfound)
    exact ⟨grant, hperm.mem_iff.mp hgrant, hsame⟩
  · rintro ⟨grant, hgrant, hsame⟩
    exact ⟨_, rfl, grant, hperm.mem_iff.mpr hgrant, hsame⟩

theorem mem_idsUnder {scope : List String} {environment secretId : String}
    {found : List SecretIdentity} :
    secretId ∈ idsUnder scope environment found ↔
      (∃ identity ∈ found, identity.environment = environment ∧ identity.secretId = secretId) ∧
        ∃ scopePrefix ∈ scope, underPrefix scopePrefix secretId = true := by
  have hperm := List.mergeSort_perm (((found.filter (·.environment = environment)).map
    SecretIdentity.secretId).filter fun secretId => scope.any (underPrefix · secretId)) (· ≤ ·)
  unfold idsUnder
  rw [hperm.mem_iff, List.mem_filter, List.mem_map, List.any_eq_true]
  simp only [List.mem_filter, decide_eq_true_eq, and_assoc]

theorem inScope_of_list {capability : AgentCapability} {secretId : String} {values : List Value}
    (h : item.attributes.lookup (capabilityName capability ++ "SecretIds") = some (.list values)) :
    InScope item capability secretId ↔ secretId ∈ stringArray (some (.list values)) := by
  have hlist : listField item (capabilityName capability ++ "SecretIds") =
      some (stringArray (some (.list values))) := by
    unfold listField
    rw [h]
  unfold InScope
  rw [hlist]

theorem inScope_of_no_list {capability : AgentCapability} {secretId : String}
    (h : ∀ values,
      item.attributes.lookup (capabilityName capability ++ "SecretIds") ≠ some (.list values)) :
    InScope item capability secretId ↔ ∃ scopePrefix ∈ stringArray
      (item.attributes.lookup (capabilityName capability ++ "SecretIdPrefixes")),
        underPrefix scopePrefix secretId = true := by
  have hlist : listField item (capabilityName capability ++ "SecretIds") = none := by
    unfold listField
    split
    · rename_i values hvalues
      exact absurd hvalues (h values)
    · rfl
  unfold InScope
  rw [hlist]

/-- The ids that a grant is given for a capability: those of its list, or the live ones below
its prefixes. -/
theorem mem_secretIdsForGrant {capability : AgentCapability} {enabled : Bool}
    {environment secretId : String} {found : List SecretIdentity} {ids : List String}
    (h : secretIdsForGrant item item.pk capability enabled environment found = .ok ids)
    (henabled : enabled = true) :
    (secretId ∈ ids → InScope item capability secretId) ∧
      (InScope item capability secretId → (∃ identity ∈ found,
        identity.environment = environment ∧ identity.secretId = secretId) → secretId ∈ ids) := by
  subst henabled
  unfold secretIdsForGrant at h
  dsimp only at h
  split at h
  · rename_i values hvalues
    rw [inScope_of_list hvalues]
    split at h
    · cases h
    · obtain rfl := Except.ok.inj h
      exact ⟨id, fun hmem _ => hmem⟩
  · rename_i hnone
    rw [inScope_of_no_list hnone]
    have hscope : migrateScope item.pk capability true
        (item.attributes.lookup (capabilityName capability ++ "SecretIdPrefixes"))
        (item.attributes.lookup (capabilityName capability ++ "PathPrefixes")) environment found =
          .ok ids → ids = idsUnder (stringArray (item.attributes.lookup
            (capabilityName capability ++ "SecretIdPrefixes"))) environment found := by
      intro hok
      unfold migrateScope at hok
      rw [if_neg (by simp)] at hok
      split at hok
      · cases hok
      · dsimp only at hok
        split at hok
        · cases hok
        · exact (Except.ok.inj hok).symm
    obtain rfl := hscope h
    rw [mem_idsUnder]
    exact ⟨fun hmem => hmem.2, fun hunder hlive => ⟨hlive, hunder⟩⟩

namespace Scene

variable (h : Scene sha256Hex items identities)
include h

theorem live_iff {identity : SecretIdentity} : Live sha256Hex items identity ↔
    identities.lookup identity.key = some identity := by
  constructor
  · rintro ⟨head, hhead, hidentity⟩
    exact (collected_of_ok h.collected).lookup_eq h.cleanHeads hhead hidentity
  · intro hfound
    exact ((collected_of_ok h.collected).found _ _ hfound).2

/-- **What a grant without pairs is given.** -/
theorem authority_of_scope {grants : List MigratedAgentSecretGrant} {environment : String}
    (hitem : item ∈ items) (henvironment : item.stringField "environment" = some environment)
    (hgrants : migratedSecretGrants item item.pk environment identities = .ok grants)
    (capability : AgentCapability) (secretUid : String) :
    (Holds item capability ∧
        ∃ grant ∈ grants, grant.secretUid = secretUid ∧ capability ∈ grant.permissions) ↔
      Holds item capability ∧ ∃ identity, Live sha256Hex items identity ∧
        identity.environment = environment ∧ identity.secretUid = secretUid ∧
          InScope item capability identity.secretId := by
  obtain ⟨read, write, hread, hwrite, hpairs⟩ := migratedSecretGrants_ok hgrants
  have hclean := h.clean item hitem environment henvironment
  have hname : ∀ {secretId : String} {identity : SecretIdentity},
      identities.lookup (nameKey environment secretId) = some identity →
        identity.environment = environment ∧ identity.secretId = secretId ∧
          Live sha256Hex items identity := by
    intro secretId identity hfound
    obtain ⟨hsame, hsame'⟩ := nameKey_inj hclean (h.cleanIdentities.clean _ _ hfound)
      (h.cleanIdentities.key _ _ hfound)
    refine ⟨hsame.symm, hsame'.symm, h.live_iff.mpr ?_⟩
    rw [← h.cleanIdentities.key _ _ hfound, hfound]
  -- The ids for the capability.
  obtain ⟨ids, hids, hmem⟩ : ∃ ids, secretIdsForGrant item item.pk capability
      (capabilityName capability ∈ stringArray (item.attributes.lookup "capabilities")) environment
      (identities.map Prod.snd) = .ok ids ∧ ∀ secretId, capability ∈
        permissionsOf (secretId ∈ read) (secretId ∈ write) ↔ secretId ∈ ids := by
    cases capability with
    | read => exact ⟨read, hread, fun secretId => by simp [capabilityName_mem]⟩
    | write => exact ⟨write, hwrite, fun secretId => by simp [capabilityName_mem]⟩
  refine and_congr_right fun hholds => ?_
  have henabled : decide (capabilityName capability ∈
      stringArray (item.attributes.lookup "capabilities")) = true := decide_eq_true hholds
  constructor
  · rintro ⟨grant, hgrant, huid, hpermission⟩
    obtain ⟨secretId, -, identity, hfound, rfl⟩ := (mem_pairGrants hpairs).mp hgrant
    obtain ⟨hsame, hsame', hlive⟩ := hname hfound
    refine ⟨identity, hlive, hsame, huid, ?_⟩
    rw [hsame']
    exact (mem_secretIdsForGrant hids henabled).1 ((hmem secretId).mp hpermission)
  · rintro ⟨identity, hlive, rfl, huid, hscope⟩
    have hfound := h.live_iff.mp hlive
    have hentry : identity ∈ identities.map Prod.snd := List.mem_map.mpr
      ⟨(identity.key, identity), (mem_iff_lookup (collected_of_ok h.collected).nodup).mpr hfound,
        rfl⟩
    have hid : identity.secretId ∈ ids :=
      (mem_secretIdsForGrant hids henabled).2 hscope ⟨identity, hentry, rfl, rfl⟩
    have hpermission := (hmem identity.secretId).mpr hid
    refine ⟨_, (mem_pairGrants hpairs).mpr ⟨identity.secretId, ?_, identity, hfound, rfl⟩, huid,
      hpermission⟩
    by_contra hneither
    rw [not_or] at hneither
    simp [hneither.1, hneither.2, permissionsOf] at hpermission

end Scene

/-! ## The row that a plan leaves -/

/-- The row of a grant after the update that it asks for. -/
def updatedGrant (identities : Entries SecretIdentity) (item : Item) : Item :=
  match (migrateAgentGrant identities item).2 with
  | some update => update.item
  | none => item

theorem PlanOf.migratedGrant_eq (hplan : PlanOf sha256Hex items identities plan)
    (hscan : Scan table items) (hitem : item ∈ items) :
    migratedGrant plan item = updatedGrant identities item := by
  have hmem : ∀ update, update ∈ plan.grantUpdates ↔
      ∃ other ∈ items, (migrateAgentGrant identities other).2 = some update := by
    intro update
    rw [hplan.grants, mem_reduceOption]
    simp
  have hkey : ∀ {other : Item} {update : AgentGrantUpdate},
      (migrateAgentGrant identities other).2 = some update → update.key = other.key := by
    intro other update hupdate
    obtain ⟨grants, rfl, -⟩ := migrateAgentGrant_some hupdate
    rfl
  unfold migratedGrant updatedGrant
  cases hfound : plan.grantUpdates.find? (·.key = item.key) with
  | some update =>
      obtain ⟨other, hother, hupdate⟩ := (hmem update).mp (List.mem_of_find?_eq_some hfound)
      have hsame : update.key = item.key := by simpa using List.find?_some hfound
      obtain rfl := hscan.eq_of_key hother hitem ((hkey hupdate).symm.trans hsame)
      rw [hupdate]
  | none =>
      cases hupdate : (migrateAgentGrant identities item).2 with
      | none => rfl
      | some update =>
          have hnone := List.find?_eq_none.mp hfound update ((hmem update).mpr ⟨item, hitem, hupdate⟩)
          simp [hkey hupdate] at hnone

/-- A grant without issues records its pairs, or is given them. -/
theorem grant_cases (hgrant : isAgentGrant item = true)
    (hissues : (migrateAgentGrant identities item).1 = []) :
    (∃ grants, canonicalSecretGrants item item.pk = .ok (some grants)) ∨
      canonicalSecretGrants item item.pk = .ok none ∧
      ∃ environment grants, item.stringField "environment" = some environment ∧
        migratedSecretGrants item item.pk environment identities = .ok grants ∧
        (migrateAgentGrant identities item).2 = some (grantUpdate item grants) := by
  unfold migrateAgentGrant at hissues ⊢
  rw [if_neg (by simp [hgrant])] at hissues ⊢
  dsimp only at hissues ⊢
  cases hcanonical : canonicalSecretGrants item item.pk with
  | error issue =>
      rw [hcanonical] at hissues
      dsimp only at hissues
      split at hissues
      · cases hissues
      · split at hissues <;> cases hissues
  | ok found =>
      cases found with
      | some grants => exact .inl ⟨grants, rfl⟩
      | none =>
          rw [hcanonical] at hissues
          right
          refine ⟨rfl, ?_⟩
          dsimp only at hissues ⊢
          split at hissues
          · cases hissues
          · rename_i environment henvironment
            cases hgrants : migratedSecretGrants item item.pk environment identities with
            | error found =>
                rw [hgrants] at hissues
                -- The issues that were found are some.
                unfold migratedSecretGrants at hgrants
                dsimp only at hgrants
                split at hgrants
                · rename_i read write _ _
                  cases hpairs : pairGrants item.pk environment identities read write with
                  | error issue =>
                      rw [hpairs] at hgrants
                      obtain rfl := Except.error.inj hgrants
                      cases hissues
                  | ok pairs =>
                      rw [hpairs] at hgrants
                      cases hgrants
                · obtain rfl := Except.error.inj hgrants
                  cases hissues
                · obtain rfl := Except.error.inj hgrants
                  cases hissues
                · obtain rfl := Except.error.inj hgrants
                  cases hissues
            | ok grants => exact ⟨environment, grants, henvironment, hgrants, rfl⟩

theorem canonical_none_iff {pk : String} :
    canonicalSecretGrants item pk = .ok none ↔ item.attributes.hasOwn "secretGrants" = false := by
  unfold canonicalSecretGrants Attributes.hasOwn
  cases hfound : item.attributes.lookup "secretGrants" with
  | none => simp
  | some value =>
      simp only [Option.isSome_some, Bool.true_eq_false, iff_false]
      cases value with
      | list values =>
          cases hentries : values.mapM (canonicalEntry pk) with
          | error issue =>
              simp only [hentries, bind, Except.bind]
              simp
          | ok entries =>
              simp only [hentries, bind, Except.bind]
              split <;> simp [pure, Except.pure]
      | string _ => simp
      | map _ => simp
      | other _ => simp

namespace Scene

variable (h : Scene sha256Hex items identities)
include h

/-- **A grant that records its pairs keeps its authority.** -/
theorem authority_recorded (hitem : item ∈ items) (hgrant : isAgentGrant item = true)
    (hrecorded : item.attributes.hasOwn "secretGrants" = true) (capability : AgentCapability)
    (secretUid : String) :
    Authority (updatedGrant identities item) capability secretUid ↔
      Authority item capability secretUid := by
  rcases grant_cases hgrant (h.issues item hitem) with ⟨grants, hcanonical⟩ | ⟨hnone, -⟩
  · unfold updatedGrant
    cases hupdate : (migrateAgentGrant identities item).2 with
    | none => exact Iff.rfl
    | some update =>
        obtain ⟨found, rfl, hupdated⟩ := migrateAgentGrant_some hupdate
        have hsame : found = grants := by
          rcases hupdated.source with ⟨hfound, -⟩ | ⟨hnot, -⟩
          · exact Option.some.inj (Except.ok.inj (hfound.symm.trans hcanonical))
          · exact absurd hcanonical (hnot grants)
        subst hsame
        dsimp only
        rw [authority_grantUpdate (canonicalSecretGrants_ok hcanonical)]
        unfold Authority
        rw [hcanonical]
        simp
  · rw [canonical_none_iff] at hnone
    cases hrecorded.symm.trans hnone

/-- **A grant without pairs is given those of the live secrets in its scope.** -/
theorem authority_scoped (hitem : item ∈ items) (hgrant : isAgentGrant item = true)
    (hrecorded : item.attributes.hasOwn "secretGrants" = false) :
    ∃ environment, item.stringField "environment" = some environment ∧
      ∀ capability secretUid, Authority (updatedGrant identities item) capability secretUid ↔
        Holds item capability ∧ ∃ identity, Live sha256Hex items identity ∧
          identity.environment = environment ∧ identity.secretUid = secretUid ∧
            InScope item capability identity.secretId := by
  rcases grant_cases hgrant (h.issues item hitem) with ⟨grants, hcanonical⟩ |
    ⟨-, environment, grants, henvironment, hgrants, hupdate⟩
  · cases hcanonical.symm.trans (canonical_none_iff.mpr hrecorded)
  · refine ⟨environment, henvironment, fun capability secretUid => ?_⟩
    obtain ⟨found, hsame, hupdated⟩ := migrateAgentGrant_some hupdate
    unfold updatedGrant
    rw [hupdate]
    have hclean := h.clean item hitem
    have hvalid : ValidGrants grants := by
      obtain ⟨read, write, -, -, hpairs⟩ := migratedSecretGrants_ok hgrants
      exact pairGrants_ok h.cleanIdentities (hclean environment henvironment) hpairs
    dsimp only
    rw [authority_grantUpdate hvalid]
    exact h.authority_of_scope hitem henvironment hgrants capability secretUid

end Scene

/-! ## Tables between -/

/-- The rows are those that were there and written ones, no live secret is lost, and a grant is as
it was or updated. -/
structure Mid (sha256Hex : String → String) (items : List Item)
    (identities : Entries SecretIdentity) (table' : Table) : Prop where
  rows : ∀ {key item}, table' key = some item →
    item.key = key ∧ (item ∈ items ∨ Written identities items item)
  heads : ∀ item ∈ items, ∀ identity, headIdentity sha256Hex item = some identity →
    ∃ item', table' item'.key = some item' ∧ headIdentity sha256Hex item' = some identity
  grants : ∀ item ∈ items, isAgentGrant item = true → table' item.key = some item ∨
    ∃ update, (migrateAgentGrant identities item).2 = some update ∧
      table' item.key = some update.item

/-- The scene of a table that holds secrets in both forms. -/
structure Mixed (sha256Hex : String → String) (table : Table) (items : List Item)
    (identities : Entries SecretIdentity) : Prop where
  scan : Scan table items
  format : MixedFormat sha256Hex table
  distinct : UidsDistinct sha256Hex table
  scene : Scene sha256Hex items identities

theorem Mid.refl (hscan : Scan table items) : Mid sha256Hex items identities table where
  rows hfound := ⟨hscan.keyed hfound, .inl (hscan.mem.mpr (hscan.keyed hfound ▸ hfound))⟩
  heads item hitem _ hhead := ⟨item, hscan.mem.mp hitem, hhead⟩
  grants _ hitem _ := .inl (hscan.mem.mp hitem)

theorem key_of_rewrite {write : Write} {key : Key} (h : write.rewrite key = some (some item)) :
    item.key = key := by
  cases write with
  | move target sourceKey =>
      simp only [Write.rewrite] at h
      split at h
      · rename_i hkey
        rw [← Option.some.inj (Option.some.inj h), hkey]
      · split at h <;> cases h
  | put target =>
      simp only [Write.rewrite] at h
      split at h
      · rename_i hkey
        rw [← Option.some.inj (Option.some.inj h), hkey]
      · cases h

theorem legacySecretPk_head : legacySecretPk "HEAD" = none := by decide

namespace Mixed

variable (h : Mixed sha256Hex table items identities)
include h

/-- A head that a write leaves, or a head under a UID, is kept under the UID of its identity. -/
theorem pk_of_head (hrow : item ∈ items ∨ Written identities items item)
    {identity : SecretIdentity} (hhead : headIdentity sha256Hex item = some identity) :
    legacySecretPk item.pk ≠ none ∧ item ∈ items ∨ item.pk = secretPk identity.secretUid := by
  obtain ⟨hsk, -, -, huid⟩ := stringField_of_head hhead
  rcases hrow with hold | hwritten
  · rcases h.format.heads (h.scan.mem.mp hold) hsk with ⟨hlegacy, -⟩ | ⟨secretUid, hpk, hfield, -⟩
    · exact .inl ⟨hlegacy, hold⟩
    · right
      rw [hpk, huid, hfield, Option.getD_some]
  · cases hwritten with
    | secret _ _ _ hfound hmoved =>
        have hnew := stringField_of_lookup (h.scene.cleanIdentities.secretUid _ _ hfound) hmoved.uid
        right
        rw [Item.pk, hmoved.key, huid, hnew, Option.getD_some]
    | access _ _ _ hitem =>
        subst hitem
        have htext := congrArg (fun sk => sk.toList[0]?) hsk
        simp [Item.sk, accessSk, String.toList_append] at htext
    | lookup _ hitem =>
        subst hitem
        have hlookup : ("LOOKUP" : String) = "HEAD" := hsk
        exact absurd hlookup (by decide)
    | grant _ hupdated hitem =>
        subst hitem
        have hgrant := hupdated.isGrant
        unfold isAgentGrant at hgrant
        rw [decide_eq_true_eq] at hgrant
        exact absurd (hgrant.2.symm.trans hsk) (by decide)

/-- Identities of one UID are one. -/
theorem identity_eq {identity identity' : SecretIdentity} (hlive : Live sha256Hex items identity)
    (hlive' : Live sha256Hex items identity') (huid : identity.secretUid = identity'.secretUid) :
    identity = identity' := by
  obtain ⟨head, hitem, hhead⟩ := hlive
  obtain ⟨head', hitem', hhead'⟩ := hlive'
  exact h.distinct _ _ head head' _ _ (h.scan.mem.mp hitem) (h.scan.mem.mp hitem') hhead hhead' huid

/-- The identity of a row between is that of a row that was there. -/
theorem live_of_row (hrow : item ∈ items ∨ Written identities items item)
    {identity : SecretIdentity} (hhead : headIdentity sha256Hex item = some identity) :
    Live sha256Hex items identity := by
  rcases hrow with hold | hwritten
  · exact ⟨item, hold, hhead⟩
  · exact (h.scene.head_of_written hwritten).2 identity hhead

/-- **A write loses no live secret.** -/
theorem heads_write (hmid : Mid sha256Hex items identities table') {write : Write}
    (hplanned : PlannedWrite identities items write) {identity : SecretIdentity}
    (hlive : Live sha256Hex items identity) :
    ∃ item', write.rewrite.apply table' item'.key = some item' ∧
      headIdentity sha256Hex item' = some identity := by
  obtain ⟨old, hold, hhead⟩ := hlive
  obtain ⟨item', hthere, hhead'⟩ := hmid.heads old hold identity hhead
  have hsk := (stringField_of_head hhead').1
  have hrow := (hmid.rows hthere).2
  cases hvalue : write.rewrite item'.key with
  | none => exact ⟨item', (Store.Rewrite.apply_of_none hvalue).trans hthere, hhead'⟩
  | some value =>
      rcases hplanned with ⟨source, hsource, hwrite⟩ | ⟨found, -, rfl⟩
      · cases hwrite with
        | @secret move hmove =>
            obtain ⟨-, name, own, hname, hfound, hkey, htarget⟩ := secretMove_eq_some hmove
            have hmoved := migratedSecretItem_ok htarget
            have hput : (Write.move move.target move.sourceKey).rewrite.apply table'
                move.target.key = some move.target :=
              Store.Rewrite.apply_of_some (if_pos rfl)
            have hsame := h.scene.headIdentity_moved hsource hname hfound hmoved
            simp only [Write.rewrite] at hvalue
            split at hvalue
            · -- Another head lies where this one is moved to: it is that of the same secret.
              rename_i hlands
              have hsourceSk : source.sk = "HEAD" := by
                rw [← hsk, Item.sk, Item.sk, hlands, hmoved.key]
                rfl
              have hlegacyHead : headIdentity sha256Hex source ≠ none := by
                rcases h.format.heads (h.scan.mem.mp hsource) hsourceSk with
                  ⟨-, -, hne⟩ | ⟨secretUid, hpk, -, hclean⟩
                · exact hne
                · rw [hpk, legacySecretPk_secretPk hclean] at hname
                  cases hname
              obtain ⟨identity', hidentity'⟩ := Option.ne_none_iff_exists'.mp hlegacyHead
              have hlive' : Live sha256Hex items identity' := ⟨source, hsource, hidentity'⟩
              have hown : own = identity' := by
                have hagrees := (collected_of_ok h.scene.collected).agrees source hsource identity'
                  hidentity' name hname
                rw [hagrees] at hfound
                exact Option.some.inj (hfound.symm.trans (h.scene.live_iff.mp hlive'))
              have hpk : item'.pk = secretPk own.secretUid := by
                rw [Item.pk, hlands, hmoved.key]
              have huid : identity.secretUid = identity'.secretUid := by
                rcases h.pk_of_head hrow hhead' with ⟨hlegacy, -⟩ | hpk'
                · rw [hpk, legacySecretPk_secretPk (h.scene.uid_clean hfound)] at hlegacy
                  exact absurd rfl hlegacy
                · have htext := congrArg String.toList (hpk'.symm.trans hpk)
                  rw [secretPk, secretPk, String.toList_append, String.toList_append] at htext
                  rw [← hown]
                  exact String.toList_inj.mp (List.append_cancel_left htext)
              have hsameIdentity := h.identity_eq ⟨old, hold, hhead⟩ hlive' huid
              exact ⟨move.target, hput, by rw [hsame, hidentity', hsameIdentity]⟩
            · split at hvalue
              · -- This head is moved.
                rename_i hsourceKey
                have hpk : item'.pk = source.pk := by
                  rw [Item.pk, hsourceKey, hkey]
                  rfl
                rcases h.pk_of_head hrow hhead' with ⟨-, hin⟩ | hpk'
                · obtain rfl := h.scan.eq_of_key hin hsource (hsourceKey.trans hkey)
                  exact ⟨move.target, hput, hsame.trans hhead'⟩
                · have hclean : '#' ∉ identity.secretUid.toList := h.scene.uids old hold identity hhead
                  rw [← hpk, hpk', legacySecretPk_secretPk hclean] at hname
                  cases hname
              · cases hvalue
        | @access move hmove =>
            obtain ⟨-, -, name, own, hname, -, hkey, htarget⟩ := accessMove_eq_some hmove
            simp only [Write.rewrite] at hvalue
            split at hvalue
            · rename_i hlands
              have htext := congrArg (fun sk => sk.toList[0]?) hsk
              rw [Item.sk, hlands, htarget] at htext
              simp [accessSk, String.toList_append] at htext
            · split at hvalue
              · rename_i hsourceKey
                have hsourceSk : source.sk = "HEAD" := by
                  rw [← hsk, Item.sk, Item.sk, hsourceKey, hkey]
                rw [legacyAccessSk, hsourceSk, legacySecretPk_head] at hname
                cases hname
              · cases hvalue
        | @grant update hupdate =>
            obtain ⟨grants, rfl, hupdated⟩ := migrateAgentGrant_some hupdate
            have hgrant := hupdated.isGrant
            unfold isAgentGrant at hgrant
            rw [decide_eq_true_eq] at hgrant
            simp only [Write.rewrite] at hvalue
            split at hvalue
            · rename_i hlands
              have hprofile : item'.sk = "PROFILE" := by
                rw [Item.sk, hlands]
                exact hgrant.2
              exact absurd (hsk.symm.trans hprofile) (by decide)
            · cases hvalue
      · simp only [Write.rewrite] at hvalue
        split at hvalue
        · rename_i hlands
          have hlookup : item'.sk = "LOOKUP" := by
            rw [Item.sk, hlands]
            rfl
          exact absurd (hsk.symm.trans hlookup) (by decide)
        · cases hvalue

/-- **A write leaves a grant as it was, or updates it.** -/
theorem grants_write (hmid : Mid sha256Hex items identities table') {write : Write}
    (hplanned : PlannedWrite identities items write) (hitem : item ∈ items)
    (hgrant : isAgentGrant item = true) :
    write.rewrite.apply table' item.key = some item ∨
      ∃ update, (migrateAgentGrant identities item).2 = some update ∧
        write.rewrite.apply table' item.key = some update.item := by
  have hfamily := family_grant hgrant
  cases hvalue : write.rewrite item.key with
  | none =>
      rw [Store.Rewrite.apply_of_none hvalue]
      exact hmid.grants item hitem hgrant
  | some value =>
      rcases hplanned with ⟨source, hsource, hwrite⟩ | ⟨found, -, rfl⟩
      · cases hwrite with
        | @secret move hmove =>
            obtain ⟨-, name, own, hname, -, hkey, htarget⟩ := secretMove_eq_some hmove
            simp only [Write.rewrite] at hvalue
            split at hvalue
            · rename_i hlands
              rw [Item.pk, hlands, (migratedSecretItem_ok htarget).key, family_secretPk] at hfamily
              cases hfamily
            · split at hvalue
              · rename_i hsourceKey
                rw [Item.pk, hsourceKey, hkey] at hfamily
                cases (family_of_name hname).symm.trans hfamily
              · cases hvalue
        | @access move hmove =>
            obtain ⟨-, hconsumer, name, own, hname, -, hkey, htarget⟩ := accessMove_eq_some hmove
            have hfamily' := family_access ⟨hconsumer, hname⟩
            simp only [Write.rewrite] at hvalue
            split at hvalue
            · rename_i hlands
              rw [Item.pk, hlands, htarget] at hfamily
              cases hfamily'.symm.trans hfamily
            · split at hvalue
              · rename_i hsourceKey
                rw [Item.pk, hsourceKey, hkey] at hfamily
                cases hfamily'.symm.trans hfamily
              · cases hvalue
        | @grant update hupdate =>
            have hupdate' := hupdate
            obtain ⟨grants, rfl, -⟩ := migrateAgentGrant_some hupdate'
            simp only [Write.rewrite] at hvalue
            split at hvalue
            · rename_i hlands
              obtain rfl := h.scan.eq_of_key hitem hsource hlands
              refine .inr ⟨_, hupdate, Store.Rewrite.apply_of_some ?_⟩
              exact if_pos rfl
            · cases hvalue
      · simp only [Write.rewrite] at hvalue
        split at hvalue
        · rename_i hlands
          have hfamily' := family_lookup found
          rw [Item.pk, hlands] at hfamily
          cases hfamily'.symm.trans hfamily
        · cases hvalue

/-- **What a write preserves.** -/
theorem mid_write (hmid : Mid sha256Hex items identities table') {write : Write}
    (hplanned : PlannedWrite identities items write) :
    Mid sha256Hex items identities (write.rewrite.apply table') where
  rows := by
    intro key item hitem
    cases hvalue : write.rewrite key with
    | none =>
        rw [Store.Rewrite.apply_of_none hvalue] at hitem
        exact hmid.rows hitem
    | some value =>
        rw [Store.Rewrite.apply_of_some hvalue] at hitem
        rw [hitem] at hvalue
        exact ⟨key_of_rewrite hvalue, .inr (h.scene.written hplanned hvalue)⟩
  heads old hold identity hhead := h.heads_write hmid hplanned ⟨old, hold, hhead⟩
  grants _ hitem hgrant := h.grants_write hmid hplanned hitem hgrant

theorem mid_writes {writes : List Write} (hmid : Mid sha256Hex items identities table')
    (hplanned : ∀ write ∈ writes, PlannedWrite identities items write) :
    Mid sha256Hex items identities (applyAll (writes.map Write.rewrite) table') := by
  induction writes generalizing table' with
  | nil => exact hmid
  | cons write writes ih =>
      exact ih (h.mid_write hmid (hplanned write List.mem_cons_self))
        fun other hother => hplanned other (List.mem_cons_of_mem _ hother)

/-- What is planned on a table between. -/
theorem replan (hmid : Mid sha256Hex items identities table') (hscan : Scan table' items') :
    ∃ plan identities', buildSecretUidMigrationPlan sha256Hex items' = .ok plan ∧
      PlanOf sha256Hex items' identities' plan ∧ plan.issues = [] ∧
      (∀ key, identities'.lookup key = identities.lookup key) ∧ identities'.Perm identities ∧
      ∀ write ∈ plan.writes, PlannedWrite identities items write := by
  refine h.scene.replan (fun item hitem => (hmid.rows (hscan.mem.mp hitem)).2) ?_
  intro item hitem identity hhead
  obtain ⟨item', hthere, hhead'⟩ := hmid.heads item hitem identity hhead
  exact ⟨item', hscan.mem.mpr hthere, hhead'⟩

/-- **What a stopped run preserves, however often.** -/
theorem mid_of_interrupted
    (hreached : Relation.ReflTransGen (Interrupted sha256Hex) table table') :
    Mid sha256Hex items identities table' := by
  induction hreached with
  | refl => exact .refl h.scan
  | tail _ hnext ih =>
      obtain ⟨items', plan, count, hscan, hbuild, -, hsend⟩ := hnext
      obtain ⟨plan', identities', hbuild', -, -, -, -, hwithin⟩ := h.replan ih hscan
      obtain rfl := Except.ok.inj (hbuild.symm.trans hbuild')
      rw [sendAll_ok hsend]
      exact h.mid_writes ih fun write hwrite => hwithin write (List.mem_of_mem_take hwrite)

/-- **Planned again, a grant has the same authority.** -/
theorem authority_replanned (hmid : Mid sha256Hex items identities table')
    (hscan : Scan table' items') (hlookup : ∀ key, identities'.lookup key = identities.lookup key)
    (hperm : identities'.Perm identities) (hitem : item ∈ items)
    (hgrant : isAgentGrant item = true) :
    ∃ item' ∈ items', item'.key = item.key ∧ ∀ capability secretUid,
      Authority (updatedGrant identities' item') capability secretUid ↔
        Authority (updatedGrant identities item) capability secretUid := by
  have hsame : ∀ item, updatedGrant identities' item = updatedGrant identities item := by
    intro item
    unfold updatedGrant
    rw [migrateAgentGrant_congr hlookup hperm]
  rcases hmid.grants item hitem hgrant with hthere | ⟨update, hupdate, hthere⟩
  · exact ⟨item, hscan.mem.mpr hthere, rfl, fun _ _ => by rw [hsame]⟩
  · obtain ⟨grants, rfl, hupdated⟩ := migrateAgentGrant_some hupdate
    have hvalid := hupdated.valid h.scene.cleanIdentities (h.scene.clean item hitem)
    refine ⟨(grantUpdate item grants).item, hscan.mem.mpr hthere, rfl, fun _ _ => ?_⟩
    rw [hsame]
    unfold updatedGrant
    rw [migrateAgentGrant_updated hvalid, hupdate]

end Mixed

/-! ## The theorem -/

/-- **The migration widens no authority and takes none away**, whatever the shape of a grant, and
planning again on a table that a stopped run left changes none. -/
theorem agent_scopes_kept (hhex : HexDigest sha256Hex) (hscan : Scan table items) (hformat : MixedFormat sha256Hex table)
    (hdistinct : UidsDistinct sha256Hex table)
    (hplan : buildSecretUidMigrationPlan sha256Hex items = .ok plan) (hissues : plan.issues = []) :
    (∀ item ∈ items, isAgentGrant item = true →
      (item.attributes.hasOwn "secretGrants" = true → ∀ capability secretUid,
        Authority (migratedGrant plan item) capability secretUid ↔
          Authority item capability secretUid) ∧
      (item.attributes.hasOwn "secretGrants" = false →
        ∃ environment, item.stringField "environment" = some environment ∧
          (∀ capability secretUid, Authority (migratedGrant plan item) capability secretUid →
            Holds item capability ∧ ∃ identity, Live sha256Hex items identity ∧
              identity.environment = environment ∧ identity.secretUid = secretUid ∧
                InScope item capability identity.secretId) ∧
          ∀ capability identity, Live sha256Hex items identity →
            identity.environment = environment → Holds item capability →
              InScope item capability identity.secretId →
                ¬ Unlisted sha256Hex items item capability identity →
                  Authority (migratedGrant plan item) capability identity.secretUid)) ∧
    ∀ table', Relation.ReflTransGen (Interrupted sha256Hex) table table' →
      ∀ items', Scan table' items' → ∃ plan',
        buildSecretUidMigrationPlan sha256Hex items' = .ok plan' ∧ plan'.issues = [] ∧
        ∀ item ∈ items, isAgentGrant item = true → ∃ item' ∈ items', item'.key = item.key ∧
          ∀ capability secretUid,
            Authority (migratedGrant plan' item') capability secretUid ↔
              Authority (migratedGrant plan item) capability secretUid := by
  obtain ⟨identities, hplanOf⟩ := planOf_ok hplan
  have hscene : Scene sha256Hex items identities := by
    refine ⟨hplanOf.collected, hplanOf.rows, ?_, ?_, ?_⟩
    · intro item hitem
      rw [List.eq_nil_iff_forall_not_mem]
      intro issue hissue
      have hmem := (hplanOf.issues issue).mpr ⟨item, hitem, hissue⟩
      rw [hissues] at hmem
      cases hmem
    · exact fun item hitem => hformat.clean (hscan.mem.mp hitem)
    · intro item hitem identity hhead
      obtain ⟨hsk, -, -, huid⟩ := stringField_of_head hhead
      rcases hformat.heads (hscan.mem.mp hitem) hsk with ⟨-, hfield, -⟩ | ⟨secretUid, -, hfield, hclean⟩
      · rw [huid, hfield]
        exact hash_not_mem_uid hhex _ _
      · rw [huid, hfield]
        exact hclean
  have hmixed : Mixed sha256Hex table items identities := ⟨hscan, hformat, hdistinct, hscene⟩
  constructor
  · intro item hitem hgrant
    rw [hplanOf.migratedGrant_eq hscan hitem]
    refine ⟨hscene.authority_recorded hitem hgrant, fun hrecorded => ?_⟩
    obtain ⟨environment, henvironment, hauthority⟩ := hscene.authority_scoped hitem hgrant hrecorded
    refine ⟨environment, henvironment, fun capability secretUid =>
      (hauthority capability secretUid).mp, ?_⟩
    intro capability identity hlive hsame hholds hscope _
    exact (hauthority capability identity.secretUid).mpr
      ⟨hholds, identity, hlive, hsame, rfl, hscope⟩
  · intro table' hreached items' hscan'
    have hmid := hmixed.mid_of_interrupted hreached
    obtain ⟨plan', identities', hbuild, hplanOf', hnone, hlookup, hperm, -⟩ :=
      hmixed.replan hmid hscan'
    refine ⟨plan', hbuild, hnone, fun item hitem hgrant => ?_⟩
    obtain ⟨item', hitem', hkey, hauthority⟩ :=
      hmixed.authority_replanned hmid hscan' hlookup hperm hitem hgrant
    refine ⟨item', hitem', hkey, fun capability secretUid => ?_⟩
    rw [hplanOf'.migratedGrant_eq hscan' hitem', hplanOf.migratedGrant_eq hscan hitem]
    exact hauthority capability secretUid

namespace Sample

/-- An agent grant of the environment that may read. -/
def readGrant (scope : Attributes) : Item :=
  { key := { pk := "AGENT_GRANT#g", sk := "PROFILE" }
    attributes := ("environment", .string "prod") ::
      ("capabilities", .list [.string "read"]) :: scope }

/-- A head under a UID of its own. -/
def uidHead (secretUid state : String) : Item :=
  { key := { pk := "SECRET#" ++ secretUid, sk := "HEAD" }
    attributes := [("secretUid", .string secretUid), ("secretId", .string "api-key"),
      ("environment", .string "prod"), ("state", .string state)] }

/-- A grant whose prefix covers a live secret. -/
def prefixed : List Item :=
  [head "api-key", readGrant [("readSecretIdPrefixes", .list [.string "api-key"])]]

/-- The same beside an empty list. -/
def listed : List Item :=
  [head "api-key", readGrant [("readSecretIds", .list []),
    ("readSecretIdPrefixes", .list [.string "api-key"])]]

/-- A grant that was bound to an archived UID, whose id a live secret reuses. -/
def reused : List Item :=
  [uidHead "sec-old" "ARCHIVED", uidHead "sec-new" "ACTIVE",
    readGrant [("readSecretIds", .list [.string "api-key"]),
      ("readSecretUids", .list [.string "sec-old"])]]

theorem prefixed_checked :
    (∀ item ∈ prefixed,
      (∀ environment ∈ item.stringField "environment", '\x00' ∉ environment.toList) ∧
      (item.sk = "HEAD" → legacySecretPk item.pk ≠ none ∧ item.stringField "secretUid" = none ∧
        headIdentity digest item ≠ none)) ∧
    (∀ item ∈ prefixed, ∀ item' ∈ prefixed, ∀ identity ∈ headIdentity digest item,
      ∀ identity' ∈ headIdentity digest item', identity = identity') ∧
    (buildSecretUidMigrationPlan digest prefixed).map (fun plan => plan.issues) = .ok [] := by
  decide +kernel

theorem mixedFormat : MixedFormat digest (tableOf prefixed) where
  clean h := (prefixed_checked.1 _ (List.mem_of_find?_eq_some h)).1
  heads h hsk := .inl ((prefixed_checked.1 _ (List.mem_of_find?_eq_some h)).2 hsk)

theorem uidsDistinct_prefixed : UidsDistinct digest (tableOf prefixed) := by
  intro key key' item item' identity identity' h h' hhead hhead' _
  exact prefixed_checked.2.1 item (List.mem_of_find?_eq_some h) item'
    (List.mem_of_find?_eq_some h') identity hhead identity' hhead'

/-- The pairs that a grant records. -/
def recorded (item : Item) : Except String (Option (List MigratedAgentSecretGrant)) :=
  canonicalSecretGrants item item.pk

end Sample

/-- A prefix gives the authority that it covers. -/
theorem agent_scopes_prefixed : ∃ plan,
    buildSecretUidMigrationPlan Sample.digest Sample.prefixed = .ok plan ∧
    ∀ identity, Live Sample.digest Sample.prefixed identity → identity.environment = "prod" →
      identity.secretId = "api-key" →
      ∀ grant ∈ Sample.prefixed, isAgentGrant grant = true →
        Authority (migratedGrant plan grant) .read identity.secretUid := by
  have hissues := Sample.prefixed_checked.2.2
  cases hplan : buildSecretUidMigrationPlan Sample.digest Sample.prefixed with
  | error issue =>
      rw [hplan] at hissues
      cases hissues
  | ok plan =>
      rw [hplan] at hissues
      refine ⟨plan, rfl, fun identity hlive henvironment hsecretId grant hmem hgrant => ?_⟩
      have hgrantEq : grant = Sample.readGrant
          [("readSecretIdPrefixes", .list [.string "api-key"])] := by
        rcases List.mem_cons.mp hmem with rfl | hmem
        · exact absurd hgrant (by decide)
        · exact List.mem_singleton.mp hmem
      have hkept := (agent_scopes_kept Sample.hexDigest_digest (scan_tableOf (by decide))
        Sample.mixedFormat Sample.uidsDistinct_prefixed hplan (Except.ok.inj hissues)).1 grant hmem
          hgrant
      subst hgrantEq
      obtain ⟨environment, hfield, -, hgives⟩ := hkept.2 (by decide)
      obtain rfl : "prod" = environment := Option.some.inj hfield
      refine hgives .read identity hlive henvironment (by unfold Holds; decide) ?_ ?_
      · rw [hsecretId]
        exact ⟨"api-key", by decide, by decide⟩
      · rintro ⟨hlist, -⟩
        exact absurd hlist (by decide)

/-- Beside an exact list a prefix gives nothing, and recorded UIDs do not count. -/
theorem agent_scopes_changed :
    (∃ plan, buildSecretUidMigrationPlan Sample.digest Sample.listed = .ok plan ∧
      plan.issues = [] ∧ ∃ grant ∈ Sample.listed, isAgentGrant grant = true ∧ Holds grant .read ∧
        underPrefix "api-key" "api-key" = true ∧
        Live Sample.digest Sample.listed (identityOf Sample.digest ⟨"prod", "api-key"⟩) ∧
        ¬ Authority (migratedGrant plan grant) .read (uidOf Sample.digest ⟨"prod", "api-key"⟩)) ∧
    ∃ plan, buildSecretUidMigrationPlan Sample.digest Sample.reused = .ok plan ∧
      plan.issues = [] ∧ ∃ grant ∈ Sample.reused, isAgentGrant grant = true ∧
        listField grant "readSecretUids" = some ["sec-old"] ∧
        Authority (migratedGrant plan grant) .read "sec-new" := by
  constructor
  · have hcomputed : (buildSecretUidMigrationPlan Sample.digest Sample.listed).map (fun plan =>
        (plan.issues, Sample.listed.map fun item => Sample.recorded (migratedGrant plan item))) =
          .ok ([], [.ok none, .ok (some [])]) := by
      decide +kernel
    cases hplan : buildSecretUidMigrationPlan Sample.digest Sample.listed with
    | error issue =>
        rw [hplan] at hcomputed
        cases hcomputed
    | ok plan =>
        rw [hplan] at hcomputed
        obtain ⟨hissues, hgrants⟩ := Prod.mk.inj (Except.ok.inj hcomputed)
        refine ⟨plan, rfl, hissues, _, List.mem_cons_of_mem _ List.mem_cons_self, by decide,
          by unfold Holds; decide, by decide, ⟨_, List.mem_cons_self, by decide +kernel⟩, ?_⟩
        rintro ⟨-, grants, hrecorded, grant, hgrant, -⟩
        have hnone : Sample.recorded (migratedGrant plan _) = .ok (some []) :=
          (List.cons.inj (List.cons.inj hgrants).2).1
        obtain rfl := Option.some.inj (Except.ok.inj (hnone.symm.trans hrecorded))
        cases hgrant
  · have hcomputed : (buildSecretUidMigrationPlan Sample.digest Sample.reused).map (fun plan =>
        (plan.issues, Sample.reused.map fun item => Sample.recorded (migratedGrant plan item))) =
          .ok ([], [.ok none, .ok none, .ok (some
            [{ secretId := "api-key", secretUid := "sec-new", permissions := [.read] }])]) := by
      decide +kernel
    have hcapable : (buildSecretUidMigrationPlan Sample.digest Sample.reused).map (fun plan =>
        Sample.reused.map fun item =>
          stringArray ((migratedGrant plan item).attributes.lookup "capabilities")) =
            .ok [[], [], ["read"]] := by
      decide +kernel
    cases hplan : buildSecretUidMigrationPlan Sample.digest Sample.reused with
    | error issue =>
        rw [hplan] at hcomputed
        cases hcomputed
    | ok plan =>
        rw [hplan] at hcomputed hcapable
        obtain ⟨hissues, hgrants⟩ := Prod.mk.inj (Except.ok.inj hcomputed)
        have hrecorded := (List.cons.inj (List.cons.inj (List.cons.inj hgrants).2).2).1
        have hcapabilities :=
          (List.cons.inj (List.cons.inj (List.cons.inj (Except.ok.inj hcapable)).2).2).1
        refine ⟨plan, rfl, hissues, _,
          List.mem_cons_of_mem _ (List.mem_cons_of_mem _ List.mem_cons_self), by decide, by decide,
          ?_, _, hrecorded, _, List.mem_cons_self, rfl, List.mem_cons_self⟩
        change stringArray _ = ["read"] at hcapabilities
        unfold Holds
        rw [hcapabilities]
        decide

end Hemlig.Scripts.MigrateSecretUids
