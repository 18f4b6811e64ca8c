import Hemlig.Verification.UidWrites

/-!
# The UID migration between its first write and its last

A table that some of the writes lead to has the rows that were not written, as they were
(`rest_after`), and the rows that were; no identity is lost (`head_kept`).  So what is planned on
it is within the first plan, and has all that was not made (`replan`).
-/

namespace Hemlig.Scripts.MigrateSecretUids

open Store (Rewrite Planned)
open Store.Rewrite (After Coherent applyAll)

variable {sha256Hex : String → String} {table table' : Table} {items items' : List Item}
  {identities : Entries SecretIdentity} {item : Item}

/-- A moved row names its UID. -/
theorem MovedSecret.stringField_uid {name : Name} {target : Item}
    (h : MovedSecret (identityOf sha256Hex name) item target) :
    target.stringField "secretUid" = some (uidOf sha256Hex name) :=
  stringField_of_lookup (uid_ne_empty _ _) h.uid

/-- A moved row is of the family of the rows of UIDs. -/
theorem MovedSecret.pk_eq {identity : SecretIdentity} {target : Item}
    (h : MovedSecret identity item target) : target.pk = secretPk identity.secretUid :=
  congrArg Key.pk h.key

theorem lookupOf_uid (name : Name) :
    (lookupOf (identityOf sha256Hex name)).item.stringField "secretUid" =
      some (uidOf sha256Hex name) :=
  stringField_of_lookup (uid_ne_empty _ _) rfl

theorem access_uid (name : Name) (key : Key) :
    Item.stringField
      { key, attributes := item.attributes.set "secretUid" (.string (uidOf sha256Hex name)) }
      "secretUid" = some (uidOf sha256Hex name) :=
  stringField_of_lookup (uid_ne_empty _ _) (Entries.lookup_set_self _ _ _)

namespace Setting

variable (h : Setting sha256Hex table items identities)
include h

theorem scene : Scene sha256Hex items identities where
  collected := h.collected
  rows := h.rows
  issues := h.issues
  clean item hitem := h.format.clean (h.stored hitem)
  uids item hitem identity hidentity := by
    obtain ⟨name, -, rfl⟩ := h.head_eq hitem hidentity
    exact hash_not_mem_uid h.hex _ _

/-! ## Tables between the first write and the last -/

omit h in
/-- The writes of the plan. -/
def writesOf (identities : Entries SecretIdentity) (items : List Item) : Set (Rewrite Key Item) :=
  {rewrite | ∃ write, PlannedWrite identities items write ∧ rewrite = write.rewrite}

theorem coherent (hshadow : ¬ Shadowed sha256Hex table) : Coherent (writesOf identities items) := by
  rintro _ ⟨write, hplanned, rfl⟩ _ ⟨write', hplanned', rfl⟩ key value value' hvalue hvalue'
  obtain rfl := h.write_unique hshadow hplanned hplanned' hvalue hvalue'
  exact Option.some.inj (hvalue.symm.trans hvalue')

omit h in
/-- A row's write touches the row. -/
theorem touches_source {write : Write} (hwrite : RowWrite identities item write) :
    ∃ value, write.rewrite item.key = some value := by
  cases hwrite with
  | secret hmove =>
      obtain ⟨-, -, -, -, -, hkey, -⟩ := secretMove_eq_some hmove
      simp only [Write.rewrite, hkey]
      split <;> exact ⟨_, rfl⟩
  | access hmove =>
      obtain ⟨-, -, -, -, -, -, hkey, -⟩ := accessMove_eq_some hmove
      simp only [Write.rewrite, hkey]
      split <;> exact ⟨_, rfl⟩
  | grant hupdate =>
      obtain ⟨grants, rfl, -⟩ := migrateAgentGrant_some hupdate
      exact ⟨_, if_pos rfl⟩

section After

variable {done : Set (Rewrite Key Item)} (hshadow : ¬ Shadowed sha256Hex table)
  (hdone : done ⊆ writesOf identities items) (hafter : After done table table')
  (hscan : Scan table' items')
include hshadow hdone hafter hscan

omit hshadow in
/-- A row was there, or was written. -/
theorem row_after {item : Item} (hitem : item ∈ items') : item ∈ items ∨
    ∃ write, PlannedWrite identities items write ∧ write.rewrite item.key = some (some item) := by
  have hthere := hscan.mem.mp hitem
  rcases hafter.get item.key with ⟨rewrite, hmem, hvalue⟩ | ⟨-, hsame⟩
  · obtain ⟨write, hplanned, rfl⟩ := hdone hmem
    exact .inr ⟨write, hplanned, hvalue.trans (congrArg some hthere)⟩
  · exact .inl (h.scan.mem.mpr (hsame.symm.trans hthere))

/-- A row is there still, or what it asks for was made. -/
theorem rest_after {item : Item} (hitem : item ∈ items) : item ∈ items' ∨
    ∀ write, RowWrite identities item write → write.rewrite ∈ done := by
  rcases hafter.get item.key with ⟨rewrite, hmem, hvalue⟩ | ⟨-, hsame⟩
  · obtain ⟨write, hplanned, rfl⟩ := hdone hmem
    right
    intro write' hwrite'
    obtain ⟨value', hvalue'⟩ := touches_source hwrite'
    rwa [h.write_unique hshadow (.inl ⟨item, hitem, hwrite'⟩) hplanned hvalue' hvalue]
  · exact .inl (hscan.mem.mpr (hsame.trans (h.stored hitem)))

/-- No identity is lost. -/
theorem head_kept {identity : SecretIdentity} (hitem : item ∈ items)
    (hhead : headIdentity sha256Hex item = some identity) :
    ∃ item' ∈ items', headIdentity sha256Hex item' = some identity := by
  rcases h.rest_after hshadow hdone hafter hscan hitem with hthere | hmade
  · exact ⟨item, hthere, hhead⟩
  · obtain ⟨name, hname, -⟩ := h.head_eq hitem hhead
    obtain ⟨move, hmove⟩ := h.secretMove_of_name hitem hname
    obtain ⟨-, name', identity', hname', hfound, -, htarget⟩ := secretMove_eq_some hmove
    have hmoved := migratedSecretItem_ok htarget
    have hvalue : table' move.target.key = some move.target := by
      refine (hafter _).1 _ (hmade _ (.secret hmove)) _ ?_
      exact if_pos rfl
    refine ⟨move.target, hscan.mem.mpr hvalue, ?_⟩
    rw [h.scene.headIdentity_moved hitem hname' hfound hmoved]
    exact hhead

/-- **What is planned on a table between is the rest, and more of the same.** -/
theorem replan : ∃ plan identities', buildSecretUidMigrationPlan sha256Hex items' = .ok plan ∧
    PlanOf sha256Hex items' identities' plan ∧ plan.issues = [] ∧
    identities'.Perm identities ∧
    (∀ item write, RowWrite identities' item write ↔ RowWrite identities item write) ∧
    (∀ write ∈ plan.writes, PlannedWrite identities items write) ∧
    ∀ write, PlannedWrite identities items write →
      write.rewrite ∈ done ∨ write ∈ plan.writes := by
  obtain ⟨plan, identities', hbuild, hplan, hissues, hlookup, hperm, hwithin⟩ := h.scene.replan
    (fun item hitem => (h.row_after hdone hafter hscan hitem).imp_right
      fun ⟨write, hplanned, hvalue⟩ => h.scene.written hplanned hvalue)
    (fun item hitem identity hhead => h.head_kept hshadow hdone hafter hscan hitem hhead)
  refine ⟨plan, identities', hbuild, hplan, hissues, hperm,
    fun item write => RowWrite.congr hlookup hperm, hwithin, ?_⟩
  rintro write (⟨item, hitem, hrow⟩ | ⟨identity, hidentity, rfl⟩)
  · rcases h.rest_after hshadow hdone hafter hscan hitem with hthere | hmade
    · right
      exact (hplan.writes write).mpr
        (.inl ⟨item, hthere, (RowWrite.congr hlookup hperm).mpr hrow⟩)
    · exact .inl (hmade write hrow)
  · right
    exact (hplan.writes _).mpr (.inr ⟨identity, (hperm.map _).mem_iff.mpr hidentity, rfl⟩)

end After

end Setting

end Hemlig.Scripts.MigrateSecretUids
