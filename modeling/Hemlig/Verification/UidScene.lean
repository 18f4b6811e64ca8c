import Hemlig.Verification.UidRows

/-!
# Planning the UID migration again

After some of the writes a table has rows that were there before, and rows that were written
(`Written`).  The latter are planned no more (`settled_of_written`), and a head among them gives
the identity that it gave (`head_of_written`).  So as long as no identity is lost, what is
planned on the table is within the first plan (`Scene.replan`).
-/

namespace Hemlig.Scripts.MigrateSecretUids

variable {sha256Hex : String → String} {items items' : List Item}
  {identities : Entries SecretIdentity} {item : Item}

/-- A row of a consumer's access to a secret. -/
def IsLegacyAccess (item : Item) (name : Name) : Prop :=
  dropPrefix "CONSUMER#" item.pk ≠ none ∧ legacyAccessSk item.sk = some name

/-! ## Families of keys -/

/-- Families of rows are told apart by one character of their keys. -/
theorem family {start text : String} (hstart : dropPrefix start text ≠ none)
    (hlong : 6 < start.toList.length) : text.toList[6]? = start.toList[6]? := by
  obtain ⟨rest, hrest⟩ := Option.ne_none_iff_exists'.mp hstart
  exact getElem?_of_dropPrefix hrest hlong

theorem family_of_name {pk : String} {name : Name} (hname : legacySecretPk pk = some name) :
    pk.toList[6]? = some '#' := by
  rw [(legacySecretPk_eq_some.mp hname).1]
  simp [String.toList_append]

theorem family_secretPk (secretUid : String) : (secretPk secretUid).toList[6]? = some '#' := by
  simp [secretPk, String.toList_append]

theorem family_access {name : Name} (hname : IsLegacyAccess item name) :
    item.pk.toList[6]? = some 'E' :=
  family hname.1 (by decide)

theorem family_lookup (identity : SecretIdentity) :
    (lookupOf identity).key.pk.toList[6]? = some '_' := by
  simp [lookupOf, secretNamePk, String.toList_append]

theorem family_grant (hgrant : isAgentGrant item = true) : item.pk.toList[6]? = some 'G' := by
  unfold isAgentGrant at hgrant
  rw [decide_eq_true_eq] at hgrant
  exact family (Option.isSome_iff_ne_none.mp hgrant.1) (by decide)

/-! ## Rows that are settled -/

/-- A row that nothing is planned for. -/
structure Settled (item : Item) : Prop where
  secret : ∀ identities, secretMove identities item = .ok none
  access : ∀ identities, accessMove identities item = .ok none
  grant : ∀ identities, migrateAgentGrant identities item = ([], none)

theorem Settled.not_rowWrite (h : Settled item) {write : Write} :
    ¬ RowWrite identities item write := by
  rintro (hmove | hmove | hupdate)
  · cases (h.secret identities).symm.trans hmove
  · cases (h.access identities).symm.trans hmove
  · cases (congrArg Prod.snd (h.grant identities)).symm.trans hupdate

/-- A row with a UID is settled when it is no agent grant. -/
theorem settled_of_uid {secretUid : String} (h : item.stringField "secretUid" = some secretUid)
    (hgrant : isAgentGrant item = false) : Settled item where
  secret _ := secretMove_of_uid h
  access _ := accessMove_of_uid h
  grant _ := migrateAgentGrant_of_not hgrant

/-- A row of another family is no agent grant. -/
theorem isAgentGrant_eq_false {c : Char} (h : item.pk.toList[6]? = some c) (hc : c ≠ 'G') :
    isAgentGrant item = false := by
  cases hgrant : isAgentGrant item with
  | false => rfl
  | true =>
      rw [family_grant hgrant] at h
      exact absurd (Option.some.inj h).symm hc

theorem settled_grantUpdate {grants : List MigratedAgentSecretGrant}
    (hgrant : isAgentGrant item = true) (hvalid : ValidGrants grants) :
    Settled (grantUpdate item grants).item := by
  have hfamily : (grantUpdate item grants).item.pk.toList[6]? = some 'G' :=
    family_grant hgrant
  have hsk : (grantUpdate item grants).item.sk = "PROFILE" := by
    unfold isAgentGrant at hgrant
    rw [decide_eq_true_eq] at hgrant
    exact hgrant.2
  have hpk : legacySecretPk (grantUpdate item grants).item.pk = none := by
    rw [Option.eq_none_iff_forall_ne_some]
    intro name hname
    cases (family_of_name hname).symm.trans hfamily
  refine ⟨fun _ => ?_, fun _ => ?_, fun _ => migrateAgentGrant_updated hvalid⟩
  · unfold secretMove
    split
    · rfl
    · rw [hpk]
  · unfold accessMove
    split
    · rfl
    · rw [hsk, show legacyAccessSk "PROFILE" = none by decide]

/-! ## Rows that were written -/

/-- A write that the plan has, for a row or to look a name up. -/
def PlannedWrite (identities : Entries SecretIdentity) (items : List Item) (write : Write) : Prop :=
  (∃ item ∈ items, RowWrite identities item write) ∨
    ∃ identity ∈ identities.map Prod.snd, write = .put (lookupOf identity).item

/-- A row that a write of the plan leaves. -/
inductive Written (identities : Entries SecretIdentity) (items : List Item) (item : Item) : Prop
  | secret {source : Item} {name : Name} {identity : SecretIdentity} (hsource : source ∈ items)
      (huid : source.stringField "secretUid" = none) (hname : legacySecretPk source.pk = some name)
      (hfound : identities.lookup (nameKey name.environment name.secretId) = some identity)
      (hmoved : MovedSecret identity source item)
  | access {source : Item} {name : Name} {identity : SecretIdentity} (hsource : source ∈ items)
      (hname : IsLegacyAccess source name)
      (hfound : identities.lookup (nameKey name.environment name.secretId) = some identity)
      (hitem : item =
        { key := { pk := source.pk, sk := accessSk identity.environment identity.secretUid }
          attributes := source.attributes.set "secretUid" (.string identity.secretUid) })
  | lookup {key : String} {identity : SecretIdentity} (hfound : identities.lookup key = some identity)
      (hitem : item = (lookupOf identity).item)
  | grant {source : Item} {grants : List MigratedAgentSecretGrant} (hsource : source ∈ items)
      (hupdated : Updated identities source grants) (hitem : item = (grantUpdate source grants).item)

/-- The rows of a table and the identities of its heads, with a plan that has no issues. -/
structure Scene (sha256Hex : String → String) (items : List Item)
    (identities : Entries SecretIdentity) : Prop where
  collected : collectSecretIdentities sha256Hex items = .ok identities
  rows : ∀ item ∈ items, (∃ move, secretMove identities item = .ok move) ∧
    ∃ move, accessMove identities item = .ok move
  issues : ∀ item ∈ items, (migrateAgentGrant identities item).1 = []
  clean : ∀ item ∈ items, CleanItem item
  uids : ∀ item ∈ items, ∀ identity, headIdentity sha256Hex item = some identity →
    '#' ∉ identity.secretUid.toList

theorem headIdentity_of_sk (hsk : item.sk ≠ "HEAD") : headIdentity sha256Hex item = none := by
  unfold headIdentity
  rw [if_pos (.inl hsk)]

/-- A head stores the environment and the id of its identity. -/
theorem stringField_of_head {identity : SecretIdentity}
    (h : headIdentity sha256Hex item = some identity) :
    item.sk = "HEAD" ∧ item.stringField "environment" = some identity.environment ∧
      item.stringField "secretId" = some identity.secretId ∧
      identity.secretUid = (item.stringField "secretUid").getD
        (deterministicSecretUid sha256Hex identity.environment identity.secretId) := by
  unfold headIdentity at h
  split at h
  · cases h
  · rename_i hhead
    rw [not_or, not_not] at hhead
    split at h
    · rename_i henvironment hsecretId
      obtain rfl := Option.some.inj h
      exact ⟨hhead.1, henvironment, hsecretId, rfl⟩
    · cases h

namespace Scene

variable (h : Scene sha256Hex items identities)
include h

theorem cleanHeads : CleanHeads sha256Hex items := fun item hitem identity hidentity =>
  h.clean item hitem identity.environment (stringField_of_head hidentity).2.1

theorem cleanIdentities : CleanIdentities identities :=
  (collected_of_ok h.collected).cleanIdentities h.cleanHeads

theorem uid_clean {key : String} {identity : SecretIdentity}
    (hfound : identities.lookup key = some identity) : '#' ∉ identity.secretUid.toList := by
  obtain ⟨-, item, hitem, hhead⟩ := (collected_of_ok h.collected).found key identity hfound
  exact h.uids item hitem identity hhead

/-- **What a write leaves under a key.** -/
theorem written {write : Write} (hplanned : PlannedWrite identities items write) {key : Key}
    (hvalue : write.rewrite key = some (some item)) : Written identities items item := by
  rcases hplanned with ⟨source, hsource, hwrite⟩ | ⟨identity, hidentity, rfl⟩
  · cases hwrite with
    | secret hmove =>
        obtain ⟨huid, name, identity, hname, hfound, -, htarget⟩ := secretMove_eq_some hmove
        simp only [Write.rewrite] at hvalue
        split at hvalue
        · obtain rfl := Option.some.inj (Option.some.inj hvalue)
          exact .secret hsource huid hname hfound (migratedSecretItem_ok htarget)
        · split at hvalue <;> cases hvalue
    | access hmove =>
        obtain ⟨-, hconsumer, name, identity, hname, hfound, -, htarget⟩ := accessMove_eq_some hmove
        simp only [Write.rewrite] at hvalue
        split at hvalue
        · obtain rfl := Option.some.inj (Option.some.inj hvalue)
          exact .access hsource ⟨hconsumer, hname⟩ hfound htarget
        · split at hvalue <;> cases hvalue
    | grant hupdate =>
        obtain ⟨grants, rfl, hupdated⟩ := migrateAgentGrant_some hupdate
        simp only [Write.rewrite] at hvalue
        split at hvalue
        · obtain rfl := Option.some.inj (Option.some.inj hvalue)
          exact .grant hsource hupdated rfl
        · cases hvalue
  · obtain ⟨⟨key, identity⟩, hmem, rfl⟩ := List.mem_map.mp hidentity
    simp only [Write.rewrite] at hvalue
    split at hvalue
    · obtain rfl := Option.some.inj (Option.some.inj hvalue)
      exact .lookup ((mem_iff_lookup (collected_of_ok h.collected).nodup).mp hmem) rfl
    · cases hvalue

/-- **A row that was written is settled.** -/
theorem settled_of_written (hwritten : Written identities items item) : Settled item := by
  cases hwritten with
  | secret _ _ _ hfound hmoved =>
      refine settled_of_uid
        (stringField_of_lookup (h.cleanIdentities.secretUid _ _ hfound) hmoved.uid)
        (isAgentGrant_eq_false (c := '#') ?_ (by decide))
      rw [Item.pk, hmoved.key, family_secretPk]
  | access _ hname hfound hitem =>
      have hfamily := family_access hname
      subst hitem
      exact settled_of_uid (stringField_of_lookup (h.cleanIdentities.secretUid _ _ hfound)
        (Entries.lookup_set_self _ _ _)) (isAgentGrant_eq_false (c := 'E') hfamily (by decide))
  | lookup hfound hitem =>
      subst hitem
      exact settled_of_uid (stringField_of_lookup (h.cleanIdentities.secretUid _ _ hfound) rfl)
        (isAgentGrant_eq_false (c := '_') (family_lookup _) (by decide))
  | grant hsource hupdated hitem =>
      subst hitem
      exact settled_grantUpdate hupdated.isGrant
        (hupdated.valid h.cleanIdentities (h.clean _ hsource))

/-- The head that is moved gives the identity that it gave. -/
theorem headIdentity_moved {source target : Item} {name : Name} {identity : SecretIdentity}
    (hsource : source ∈ items) (hname : legacySecretPk source.pk = some name)
    (hfound : identities.lookup (nameKey name.environment name.secretId) = some identity)
    (hmoved : MovedSecret identity source target) :
    headIdentity sha256Hex target = headIdentity sha256Hex source := by
  have hsk : target.sk = source.sk := by
    rw [Item.sk, hmoved.key]
  have hsame : ∀ field ∉ changedFields, target.stringField field = source.stringField field :=
    fun field hfield => Attributes.stringField_congr (hmoved.other field hfield)
  have hnew : target.stringField "secretUid" = some identity.secretUid :=
    stringField_of_lookup (h.cleanIdentities.secretUid _ _ hfound) hmoved.uid
  cases hhead : headIdentity sha256Hex source with
  | none =>
      unfold headIdentity at hhead ⊢
      rw [hsk, hsame "state" (by decide), hsame "environment" (by decide),
        hsame "secretId" (by decide)]
      split
      · rfl
      · rename_i hlive
        rw [if_neg hlive] at hhead
        split
        · rename_i henvironment hsecretId
          simp only [henvironment, hsecretId] at hhead
          cases hhead
        · rfl
  | some own =>
      have hagrees := (collected_of_ok h.collected).agrees source hsource own hhead name hname
      have hown := (collected_of_ok h.collected).lookup_eq h.cleanHeads hsource hhead
      have hsameIdentity : identity = own := by
        rw [hagrees] at hfound
        exact Option.some.inj (hfound.symm.trans hown)
      obtain ⟨hheadSk, henvironment, hsecretId, huid'⟩ := stringField_of_head hhead
      have hstate : source.stringField "state" ≠ some "ARCHIVED" := by
        intro harchived
        unfold headIdentity at hhead
        rw [if_pos (.inr harchived)] at hhead
        cases hhead
      unfold headIdentity
      rw [hsk, hsame "state" (by decide), hsame "environment" (by decide),
        hsame "secretId" (by decide), if_neg (by simp [hheadSk, hstate]), henvironment, hsecretId,
        hnew, hsameIdentity]
      rfl

/-- **The heads that were written are those of rows that were there.** -/
theorem head_of_written (hwritten : Written identities items item) :
    HeadAgrees sha256Hex item ∧ ∀ identity, headIdentity sha256Hex item = some identity →
      ∃ source ∈ items, headIdentity sha256Hex source = some identity := by
  have hnone : item.sk ≠ "HEAD" → HeadAgrees sha256Hex item ∧
      ∀ identity, headIdentity sha256Hex item = some identity →
        ∃ source ∈ items, headIdentity sha256Hex source = some identity := by
    intro hsk
    constructor
    · intro identity hidentity
      cases (headIdentity_of_sk hsk).symm.trans hidentity
    · intro identity hidentity
      cases (headIdentity_of_sk hsk).symm.trans hidentity
  cases hwritten with
  | secret hsource _ hname hfound hmoved =>
      have hsame := h.headIdentity_moved hsource hname hfound hmoved
      constructor
      · intro identity _ legacy hlegacy
        rw [Item.pk, hmoved.key, legacySecretPk_secretPk (h.uid_clean hfound)] at hlegacy
        cases hlegacy
      · intro identity hidentity
        exact ⟨_, hsource, hsame ▸ hidentity⟩
  | access _ _ _ hitem =>
      subst hitem
      refine hnone fun hsk => ?_
      have htext := congrArg (fun sk => sk.toList[0]?) hsk
      simp [Item.sk, accessSk, String.toList_append] at htext
  | lookup _ hitem =>
      subst hitem
      refine hnone ?_
      show ("LOOKUP" : String) ≠ "HEAD"
      decide
  | grant hsource hupdated hitem =>
      subst hitem
      have hgrant := hupdated.isGrant
      unfold isAgentGrant at hgrant
      rw [decide_eq_true_eq] at hgrant
      refine hnone fun hsk => ?_
      exact absurd (hgrant.2.symm.trans hsk) (by decide)

/-- **Where the rows are old ones and written ones and no identity is lost, what is planned is
more of the same.** -/
theorem replan (hrows : ∀ item ∈ items', item ∈ items ∨ Written identities items item)
    (hheads : ∀ item ∈ items, ∀ identity, headIdentity sha256Hex item = some identity →
      ∃ item' ∈ items', headIdentity sha256Hex item' = some identity) :
    ∃ plan identities', buildSecretUidMigrationPlan sha256Hex items' = .ok plan ∧
      PlanOf sha256Hex items' identities' plan ∧ plan.issues = [] ∧
      (∀ key, identities'.lookup key = identities.lookup key) ∧ identities'.Perm identities ∧
      ∀ write ∈ plan.writes, PlannedWrite identities items write := by
  have hagrees : ∀ item ∈ items', HeadAgrees sha256Hex item := by
    intro item hitem
    rcases hrows item hitem with hold | hwritten
    · exact (collected_of_ok h.collected).agrees item hold
    · exact (h.head_of_written hwritten).1
  have hsame : ∀ identity, (∃ item ∈ items', headIdentity sha256Hex item = some identity) ↔
      ∃ item ∈ items, headIdentity sha256Hex item = some identity := by
    intro identity
    constructor
    · rintro ⟨item, hitem, hhead⟩
      rcases hrows item hitem with hold | hwritten
      · exact ⟨item, hold, hhead⟩
      · exact (h.head_of_written hwritten).2 identity hhead
    · rintro ⟨item, hitem, hhead⟩
      exact hheads item hitem identity hhead
  obtain ⟨identities', hcollected, hlookup, hperm⟩ :=
    collected_congr h.cleanHeads hsame hagrees h.collected
  have hok : ∀ item ∈ items', (∃ move, secretMove identities' item = .ok move) ∧
      ∃ move, accessMove identities' item = .ok move := by
    intro item hitem
    rcases hrows item hitem with hold | hwritten
    · rw [secretMove_congr hlookup, accessMove_congr hlookup]
      exact h.rows item hold
    · have hsettled := h.settled_of_written hwritten
      exact ⟨⟨_, hsettled.secret _⟩, _, hsettled.access _⟩
  obtain ⟨plan, hbuild, hplan⟩ := plan_ok hcollected hok
  refine ⟨plan, identities', hbuild, hplan, ?_, hlookup, hperm, ?_⟩
  · rw [List.eq_nil_iff_forall_not_mem]
    intro issue hissue
    obtain ⟨item, hitem, hissue⟩ := (hplan.issues issue).mp hissue
    rw [migrateAgentGrant_congr hlookup hperm] at hissue
    rcases hrows item hitem with hold | hwritten
    · rw [h.issues item hold] at hissue
      cases hissue
    · rw [(h.settled_of_written hwritten).grant] at hissue
      cases hissue
  · intro write hwrite
    rcases (hplan.writes write).mp hwrite with ⟨item, hitem, hrow⟩ | ⟨identity, hidentity, rfl⟩
    · rcases hrows item hitem with hold | hwritten
      · exact .inl ⟨item, hold, (RowWrite.congr hlookup hperm).mp hrow⟩
      · exact absurd hrow (h.settled_of_written hwritten).not_rowWrite
    · exact .inr ⟨identity, (hperm.map _).mem_iff.mp hidentity, rfl⟩

end Scene

end Hemlig.Scripts.MigrateSecretUids
