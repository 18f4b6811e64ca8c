import Hemlig.Verification.UidResume

/-!
# The UID migration can be resumed, but for one case

However often the migration is stopped and started again, it ends in the table that one run ends
in: every row of a secret and of a consumer's access is once under its UID, and nothing is
planned any more.  It does so exactly when no consumer has access both to a secret and to one
whose id is the UID derived for it.  In that case a run that meets the first of the two rows
before the second puts the one over the other and then deletes it.
-/

namespace Hemlig.Scripts.MigrateSecretUids

open Store (Rewrite Planned Stopped)
open Store.Rewrite (After Coherent applyAll)

variable {sha256Hex : String → String} {table table' : Table} {items items' : List Item}
  {identities : Entries SecretIdentity} {item : Item}

/-! ## What becomes of the rows -/

/-- What becomes of a row: its rows of secrets and access go under the UID with all else they
say, agent grants keep all but their scopes, and any other row stays as it is. -/
inductive Becomes (sha256Hex : String → String) (item item' : Item) : Prop
  | secret {name : Name} (hname : legacySecretPk item.pk = some name)
      (hmoved : MovedSecret (identityOf sha256Hex name) item item')
  | access {name : Name} (hname : IsLegacyAccess item name)
      (hitem : item' =
        { key := { pk := item.pk, sk := accessSk name.environment (uidOf sha256Hex name) }
          attributes := item.attributes.set "secretUid" (.string (uidOf sha256Hex name)) })
  | grant (hgrant : isAgentGrant item = true) (hkey : item'.key = item.key)
      (hother : ∀ field ∉ "secretGrants" :: (parallelScopeFields ++ legacyScopeFields),
        item'.attributes.lookup field = item.attributes.lookup field)
  | other (hsecret : legacySecretPk item.pk = none) (haccess : ∀ name, ¬ IsLegacyAccess item name)
      (hgrant : isAgentGrant item = false) (hitem : item' = item)

/-- Every row appears once in the table that results, which has no legacy row and else only
lookups of names. -/
structure Lossless (sha256Hex : String → String) (table final : Table) : Prop where
  rows : ∀ item, table item.key = some item →
    ∃! item', final item'.key = some item' ∧ Becomes sha256Hex item item'
  apart : ∀ item item' found, table item.key = some item → table item'.key = some item' →
    final found.key = some found → Becomes sha256Hex item found → Becomes sha256Hex item' found →
      item = item'
  only : ∀ found, final found.key = some found →
    (∃ item, table item.key = some item ∧ Becomes sha256Hex item found) ∨
      ∃ name, found = (lookupOf (identityOf sha256Hex name)).item
  migrated : ∀ found, final found.key = some found → found.stringField "secretUid" = none →
    legacySecretPk found.pk = none ∧ ∀ name, ¬ IsLegacyAccess found name

/-- **The migration can be resumed**: wherever it was stopped, however often, it completes, and
in one table, to which no row is lost. -/
def Resumable (sha256Hex : String → String) (table : Table) : Prop :=
  ∃ final, Lossless sha256Hex table final ∧
    ∀ table', Relation.ReflTransGen (Interrupted sha256Hex) table table' →
      ∀ items, Scan table' items → Completes sha256Hex items table' final

/-! ## Runs -/

theorem send_ok {write : Write} (h : write.send table = .ok table') :
    table' = write.rewrite.apply table := by
  cases write with
  | move target sourceKey =>
      by_cases hkey : target.key = sourceKey
      · rw [Write.send, if_pos hkey] at h
        cases h
      · rw [Write.send, if_neg hkey] at h
        exact (Except.ok.inj h).symm
  | put target => exact (Except.ok.inj h).symm

theorem sendAll_ok {writes : List Write} (h : sendAll writes table = .ok table') :
    table' = applyAll (writes.map Write.rewrite) table := by
  induction writes generalizing table with
  | nil => exact (Except.ok.inj h).symm
  | cons write writes ih =>
      rw [sendAll, List.foldlM_cons] at h
      cases hsend : write.send table with
      | error issue =>
          rw [hsend] at h
          cases h
      | ok next =>
          rw [hsend] at h
          rw [List.map_cons, Store.Rewrite.applyAll_cons, ← send_ok hsend]
          exact ih h

/-- A write that does not touch one row twice. -/
def Write.Apart : Write → Prop
  | .move target sourceKey => target.key ≠ sourceKey
  | .put _ => True

theorem sendAll_of_apart {writes : List Write} (h : ∀ write ∈ writes, write.Apart) :
    sendAll writes table = .ok (applyAll (writes.map Write.rewrite) table) := by
  induction writes generalizing table with
  | nil => rfl
  | cons write writes ih =>
      have hsend : write.send table = .ok (write.rewrite.apply table) := by
        cases write with
        | move target sourceKey =>
            have hne : target.key ≠ sourceKey := h _ List.mem_cons_self
            exact if_neg hne
        | put target => rfl
      rw [sendAll, List.foldlM_cons, hsend]
      exact ih fun other hother => h other (List.mem_cons_of_mem _ hother)

/-- What a run writes on a table. -/
def Plans (sha256Hex : String → String) (table : Table) (writes : List (Rewrite Key Item)) : Prop :=
  ∃ items plan, Scan table items ∧ buildSecretUidMigrationPlan sha256Hex items = .ok plan ∧
    plan.issues = [] ∧ writes = plan.writes.map Write.rewrite

theorem stopped_of_interrupted (h : Interrupted sha256Hex table table') :
    Stopped (Plans sha256Hex) table table' := by
  obtain ⟨items, plan, count, hscan, hbuild, hissues, hsend⟩ := h
  refine ⟨_, count, ⟨items, plan, hscan, hbuild, hissues, rfl⟩, ?_⟩
  rw [← List.map_take]
  exact sendAll_ok hsend

namespace Setting

variable (h : Setting sha256Hex table items identities)
include h

/-- A write that is planned has its row under a key of its own. -/
theorem apart (hshadow : ¬ Shadowed sha256Hex table) {write : Write}
    (hplanned : PlannedWrite identities items write) : write.Apart := by
  rcases hplanned with ⟨source, hsource, hwrite⟩ | ⟨identity, -, rfl⟩
  · have hstored := h.stored hsource
    cases hwrite with
    | @secret move hmove =>
        intro heq
        obtain ⟨-, name, identity, hname, hidentity, hkey, htarget⟩ := secretMove_eq_some hmove
        obtain rfl := h.found_eq (h.format.names hstored (.inl hname)) hidentity
        have hnew := h.new hshadow
          (.secret hsource (.secret hmove) hname (migratedSecretItem_ok htarget).key)
        rw [heq, hkey, hstored] at hnew
        cases hnew
    | @access move hmove =>
        intro heq
        obtain ⟨-, hconsumer, name, identity, hname, hidentity, hkey, htarget⟩ :=
          accessMove_eq_some hmove
        obtain rfl := h.found_eq (h.format.names hstored (.inr ⟨hconsumer, hname⟩)) hidentity
        have hnew := h.new hshadow (.access hsource (.access hmove) ⟨hconsumer, hname⟩ rfl)
        rw [htarget, hkey] at heq
        rw [show ({ pk := source.pk, sk := accessSk name.environment (uidOf sha256Hex name) } : Key) =
          source.key from heq, hstored] at hnew
        cases hnew
    | grant _ => trivial
  · trivial

/-- **The plans of the tables between the first write and the last.** -/
theorem planned (hshadow : ¬ Shadowed sha256Hex table) :
    Planned (Plans sha256Hex) (writesOf identities items) table where
  coherent := h.coherent hshadow
  within := by
    rintro done table' _ hdone hafter ⟨items', plan', hscan, hbuild, -, rfl⟩ rewrite hmem
    obtain ⟨plan, identities', hbuild', -, -, -, -, hwithin, -⟩ :=
      h.replan hshadow hdone hafter hscan
    obtain rfl := Except.ok.inj (hbuild.symm.trans hbuild')
    obtain ⟨write, hwrite, rfl⟩ := List.mem_map.mp hmem
    exact ⟨write, hwithin write hwrite, rfl⟩
  rest := by
    rintro done table' _ hdone hafter ⟨items', plan', hscan, hbuild, -, rfl⟩ _ ⟨write, hplanned, rfl⟩
    obtain ⟨plan, identities', hbuild', -, -, -, -, -, hrest⟩ :=
      h.replan hshadow hdone hafter hscan
    obtain rfl := Except.ok.inj (hbuild.symm.trans hbuild')
    exact (hrest write hplanned).imp_right List.mem_map_of_mem

section Final

variable {final : Table} (hshadow : ¬ Shadowed sha256Hex table)
  (hafter : After (writesOf identities items) table final)
include hshadow hafter

omit h hshadow in
/-- What a write leaves is there in the end. -/
theorem final_of_write {write : Write} (hplanned : PlannedWrite identities items write) {key : Key}
    {value : Option Item} (hvalue : write.rewrite key = some value) : final key = value :=
  (hafter key).1 _ ⟨write, hplanned, rfl⟩ _ hvalue

/-- **What is found in the end is verified.** -/
theorem verified_final (hscan : Scan final items') :
    ∃ plan, buildSecretUidMigrationPlan sha256Hex items' = .ok plan ∧ verified items' plan := by
  obtain ⟨plan, identities', hbuild, hplan, hissues, hperm, hrows, hwithin, -⟩ :=
    h.replan hshadow subset_rfl hafter hscan
  have hsettled : ∀ item ∈ items', ∀ write, ¬ RowWrite identities' item write := by
    intro item hitem write hwrite
    replace hwrite := (hrows item write).mp hwrite
    rcases h.row_after subset_rfl hafter hscan hitem with hold | ⟨write', hplanned, hvalue⟩
    · -- The row would have been written.
      obtain ⟨value, hvalue⟩ := touches_source hwrite
      have hplanned : PlannedWrite identities items write := .inl ⟨item, hold, hwrite⟩
      have hthere := final_of_write hafter hplanned hvalue
      rw [hscan.mem.mp hitem] at hthere
      exact (h.scene.settled_of_written
        (h.scene.written hplanned (hvalue.trans (congrArg some hthere.symm)))).not_rowWrite
        hwrite
    · exact (h.scene.settled_of_written (h.scene.written hplanned hvalue)).not_rowWrite hwrite
  obtain ⟨hsecret, haccess, hgrants⟩ := hplan.settled.mpr hsettled
  refine ⟨plan, hbuild, ?_⟩
  unfold verified
  rw [decide_eq_true_eq]
  refine ⟨hsecret, haccess, hgrants, hissues, fun lookup hlookup => ?_⟩
  rw [hplan.lookups] at hlookup
  obtain ⟨identity, hidentity, rfl⟩ := List.mem_map.mp hlookup
  have hput : PlannedWrite identities items (.put (lookupOf identity).item) :=
    .inr ⟨identity, (hperm.map _).mem_iff.mp hidentity, rfl⟩
  have hthere : final (lookupOf identity).item.key = some (lookupOf identity).item :=
    final_of_write hafter hput (if_pos rfl)
  exact List.mem_map_of_mem (hscan.mem.mpr hthere)

/-- **What becomes of each row.** -/
theorem becomes {item : Item} (hitem : item ∈ items) :
    ∃ item', final item'.key = some item' ∧ Becomes sha256Hex item item' := by
  have hstored := h.stored hitem
  have huid := h.format.uidFree hstored
  cases hname : legacySecretPk item.pk with
  | some name =>
      obtain ⟨move, hmove⟩ := h.secretMove_of_name hitem hname
      obtain ⟨-, name', identity, hname', hidentity, -, htarget⟩ := secretMove_eq_some hmove
      obtain rfl := Option.some.inj (hname.symm.trans hname')
      obtain rfl := h.found_eq (h.format.names hstored (.inl hname)) hidentity
      refine ⟨move.target, ?_, .secret hname (migratedSecretItem_ok htarget)⟩
      exact final_of_write hafter (.inl ⟨item, hitem, .secret hmove⟩) (if_pos rfl)
  | none =>
      by_cases haccess : ∃ name, IsLegacyAccess item name
      · obtain ⟨name, hname⟩ := haccess
        obtain ⟨move, hmove⟩ := h.accessMove_of_name hitem hname
        obtain ⟨-, -, name', identity, hname', hidentity, -, htarget⟩ := accessMove_eq_some hmove
        obtain rfl := Option.some.inj (hname.2.symm.trans hname')
        obtain rfl := h.found_eq (h.format.names hstored (.inr hname)) hidentity
        refine ⟨move.target, ?_, .access hname htarget⟩
        exact final_of_write hafter (.inl ⟨item, hitem, .access hmove⟩) (if_pos rfl)
      · have hkept : (∀ write, ¬ RowWrite identities item write) → final item.key = some item := by
          intro hnone
          rw [(hafter item.key).2, hstored]
          rintro _ ⟨write, hplanned, rfl⟩
          cases hvalue : write.rewrite item.key with
          | none => rfl
          | some value =>
              rcases h.touch hplanned hvalue with ⟨item', hitem', hwrite, hkey⟩ | ⟨hlands, -⟩
              · obtain rfl := h.scan.eq_of_key hitem hitem' hkey
                exact absurd hwrite (hnone write)
              · rw [h.new hshadow hlands] at hstored
                cases hstored
        cases hgrant : isAgentGrant item with
        | true =>
            by_cases hwrite : ∃ write, RowWrite identities item write
            · obtain ⟨write, hwrite⟩ := hwrite
              cases hwrite with
              | secret hmove =>
                  obtain ⟨-, name, -, hname', -⟩ := secretMove_eq_some hmove
                  cases hname.symm.trans hname'
              | access hmove =>
                  obtain ⟨-, hconsumer, name, -, hname', -⟩ := accessMove_eq_some hmove
                  exact absurd ⟨name, hconsumer, hname'⟩ haccess
              | grant hupdate =>
                  obtain ⟨grants, rfl, hupdated⟩ := migrateAgentGrant_some hupdate
                  refine ⟨(grantUpdate item grants).item, ?_, .grant hgrant rfl ?_⟩
                  · exact final_of_write hafter (.inl ⟨item, hitem, .grant hupdate⟩) (if_pos rfl)
                  · intro field hfield
                    rw [List.mem_cons, not_or] at hfield
                    rw [lookup_grantUpdate, if_neg hfield.1, if_neg hfield.2]
            · exact ⟨item, hkept fun write hw => hwrite ⟨write, hw⟩,
                .grant hgrant rfl fun _ _ => rfl⟩
        | false =>
            refine ⟨item, hkept fun write hwrite => ?_,
              .other hname (fun name hn => haccess ⟨name, hn⟩) hgrant rfl⟩
            rcases family_of_effect (h.effect_of_rowWrite hitem hwrite) with
              ⟨-, name, hname'⟩ | ⟨-, name, hname'⟩ | ⟨-, hgrant'⟩
            · cases hname.symm.trans hname'
            · exact haccess ⟨name, hname'⟩
            · cases hgrant.symm.trans hgrant'

omit hshadow in
/-- A row that is found in the end was written, or nothing was planned for it. -/
theorem found_final {found : Item} (hfound : final found.key = some found) :
    (∃ write, PlannedWrite identities items write ∧
      write.rewrite found.key = some (some found)) ∨
    found ∈ items ∧ ∀ write, ¬ RowWrite identities found write := by
  rcases hafter.get found.key with ⟨_, ⟨write, hplanned, rfl⟩, hvalue⟩ | ⟨hnone, hsame⟩
  · exact .inl ⟨write, hplanned, hvalue.trans (congrArg some hfound)⟩
  · have hitem : found ∈ items := h.scan.mem.mpr (hsame.symm.trans hfound)
    refine .inr ⟨hitem, fun write hwrite => ?_⟩
    obtain ⟨value, hvalue⟩ := touches_source hwrite
    cases (hnone _ ⟨write, .inl ⟨found, hitem, hwrite⟩, rfl⟩).symm.trans hvalue

omit hshadow hafter in
/-- A row that nothing is planned for is no legacy row. -/
theorem not_legacy (hitem : item ∈ items) (hnone : ∀ write, ¬ RowWrite identities item write) :
    legacySecretPk item.pk = none ∧ ∀ name, ¬ IsLegacyAccess item name := by
  constructor
  · rw [Option.eq_none_iff_forall_ne_some]
    intro name hname
    obtain ⟨move, hmove⟩ := h.secretMove_of_name hitem hname
    exact hnone _ (.secret hmove)
  · intro name hname
    obtain ⟨move, hmove⟩ := h.accessMove_of_name hitem hname
    exact hnone _ (.access hmove)

omit hshadow in
/-- Nothing else is found in the end. -/
theorem only_final {found : Item} (hfound : final found.key = some found) :
    (∃ item, table item.key = some item ∧ Becomes sha256Hex item found) ∨
      ∃ name, found = (lookupOf (identityOf sha256Hex name)).item := by
  rcases h.found_final hafter hfound with ⟨write, hplanned, hvalue⟩ | ⟨hitem, hnone⟩
  · rcases hplanned with ⟨item, hitem, hwrite⟩ | ⟨identity, hidentity, rfl⟩
    · refine .inl ⟨item, h.stored hitem, ?_⟩
      cases h.effect_of_rowWrite hitem hwrite with
      | secret hname hmoved =>
          simp only [Write.rewrite] at hvalue
          split at hvalue
          · obtain rfl := Option.some.inj (Option.some.inj hvalue)
            exact .secret hname hmoved
          · split at hvalue <;> cases hvalue
      | access hname =>
          simp only [Write.rewrite] at hvalue
          split at hvalue
          · exact .access hname (Option.some.inj (Option.some.inj hvalue)).symm
          · split at hvalue <;> cases hvalue
      | grant hgrant hvalid =>
          simp only [Write.rewrite] at hvalue
          split at hvalue
          · obtain rfl := Option.some.inj (Option.some.inj hvalue)
            refine .grant hgrant rfl fun field hfield => ?_
            rw [List.mem_cons, not_or] at hfield
            rw [lookup_grantUpdate, if_neg hfield.1, if_neg hfield.2]
          · cases hvalue
    · obtain ⟨⟨key, identity⟩, hmem, rfl⟩ := List.mem_map.mp hidentity
      obtain ⟨name, rfl, -, -⟩ :=
        h.identity_eq ((mem_iff_lookup (collected_of_ok h.collected).nodup).mp hmem)
      simp only [Write.rewrite] at hvalue
      split at hvalue
      · exact .inr ⟨name, (Option.some.inj (Option.some.inj hvalue)).symm⟩
      · cases hvalue
  · obtain ⟨hsecret, haccess⟩ := h.not_legacy hitem hnone
    refine .inl ⟨found, h.stored hitem, ?_⟩
    cases hgrant : isAgentGrant found with
    | true => exact .grant hgrant rfl fun _ _ => rfl
    | false => exact .other hsecret haccess hgrant rfl

omit hshadow in
/-- No legacy row is left. -/
theorem migrated_final {found : Item} (hfound : final found.key = some found)
    (huid : found.stringField "secretUid" = none) :
    legacySecretPk found.pk = none ∧ ∀ name, ¬ IsLegacyAccess found name := by
  rcases h.found_final hafter hfound with ⟨write, hplanned, hvalue⟩ | ⟨hitem, hnone⟩
  · rcases hplanned with ⟨item, hitem, hwrite⟩ | ⟨identity, hidentity, rfl⟩
    · cases h.effect_of_rowWrite hitem hwrite with
      | secret hname hmoved =>
          simp only [Write.rewrite] at hvalue
          split at hvalue
          · obtain rfl := Option.some.inj (Option.some.inj hvalue)
            cases huid.symm.trans hmoved.stringField_uid
          · split at hvalue <;> cases hvalue
      | @access name hname =>
          simp only [Write.rewrite] at hvalue
          split at hvalue
          · obtain rfl := Option.some.inj (Option.some.inj hvalue)
            cases huid.symm.trans (access_uid name _)
          · split at hvalue <;> cases hvalue
      | @grant grants hgrant hvalid =>
          simp only [Write.rewrite] at hvalue
          split at hvalue
          · obtain rfl := Option.some.inj (Option.some.inj hvalue)
            have hfamily : (grantUpdate item grants).item.pk.toList[6]? = some 'G' :=
              family_grant hgrant
            constructor
            · rw [Option.eq_none_iff_forall_ne_some]
              intro name hname
              cases (family_of_name hname).symm.trans hfamily
            · intro name hname
              cases (family_access hname).symm.trans hfamily
          · cases hvalue
    · obtain ⟨⟨key, identity⟩, hmem, rfl⟩ := List.mem_map.mp hidentity
      obtain ⟨name, rfl, -, -⟩ :=
        h.identity_eq ((mem_iff_lookup (collected_of_ok h.collected).nodup).mp hmem)
      simp only [Write.rewrite] at hvalue
      split at hvalue
      · obtain rfl := Option.some.inj (Option.some.inj hvalue)
        cases huid.symm.trans (lookupOf_uid name)
      · cases hvalue
  · exact h.not_legacy hitem hnone

end Final

/-! ## Rows are not mixed up -/

omit h in
/-- The key that a row ends under. -/
def newKey (sha256Hex : String → String) (item : Item) : Key :=
  match legacySecretPk item.pk with
  | some name => { pk := secretPk (uidOf sha256Hex name), sk := item.sk }
  | none =>
      if dropPrefix "CONSUMER#" item.pk = none then item.key
      else
        match legacyAccessSk item.sk with
        | some name => { pk := item.pk, sk := accessSk name.environment (uidOf sha256Hex name) }
        | none => item.key

omit h in
theorem legacySecretPk_eq_none {c : Char} (hfamily : item.pk.toList[6]? = some c) (hc : c ≠ '#') :
    legacySecretPk item.pk = none := by
  rw [Option.eq_none_iff_forall_ne_some]
  intro name hname
  rw [family_of_name hname] at hfamily
  exact hc (Option.some.inj hfamily).symm

omit h in
theorem newKey_of_access {name : Name} (hname : IsLegacyAccess item name) :
    newKey sha256Hex item =
      { pk := item.pk, sk := accessSk name.environment (uidOf sha256Hex name) } := by
  unfold newKey
  rw [legacySecretPk_eq_none (family_access hname) (by decide)]
  simp only [if_neg hname.1, hname.2]

omit h in
/-- **Where a row ends.** -/
theorem key_of_becomes {item' : Item} (hbecomes : Becomes sha256Hex item item') :
    item'.key = newKey sha256Hex item := by
  cases hbecomes with
  | secret hname hmoved =>
      unfold newKey
      rw [hname]
      exact hmoved.key
  | access hname hitem => rw [newKey_of_access hname, hitem]
  | grant hgrant hkey _ =>
      have hfamily := family_grant hgrant
      unfold newKey
      rw [legacySecretPk_eq_none hfamily (by decide), hkey]
      dsimp only
      rw [if_pos]
      rw [Option.eq_none_iff_forall_ne_some]
      intro rest hrest
      have hstart : dropPrefix "CONSUMER#" item.pk ≠ none := by
        rw [hrest]
        simp
      have hconsumer := family hstart (by decide)
      cases hfamily.symm.trans hconsumer
  | other hsecret haccess _ hitem =>
      unfold newKey
      rw [hsecret, hitem]
      dsimp only
      split
      · rfl
      · rename_i hconsumer
        split
        · rename_i name hname
          exact absurd ⟨hconsumer, hname⟩ (haccess name)
        · rfl

/-- A row stays under its key, or lands under a new one. -/
theorem newKey_cases (hitem : item ∈ items) :
    (newKey sha256Hex item = item.key ∨
      ∃ target, RowWrite identities item (.move target item.key) ∧
        Lands sha256Hex identities items (newKey sha256Hex item) (.move target item.key)) := by
  cases hname : legacySecretPk item.pk with
  | some name =>
      obtain ⟨move, hmove⟩ := h.secretMove_of_name hitem hname
      obtain ⟨-, -, -, -, -, hkey, -⟩ := secretMove_eq_some hmove
      have hwrite : RowWrite identities item (.move move.target item.key) := hkey ▸ .secret hmove
      refine .inr ⟨move.target, hwrite, .secret hitem hwrite hname ?_⟩
      unfold newKey
      rw [hname]
  | none =>
      by_cases haccess : ∃ name, IsLegacyAccess item name
      · obtain ⟨name, hname⟩ := haccess
        obtain ⟨move, hmove⟩ := h.accessMove_of_name hitem hname
        obtain ⟨-, -, -, -, -, -, hkey, -⟩ := accessMove_eq_some hmove
        have hwrite : RowWrite identities item (.move move.target item.key) := hkey ▸ .access hmove
        exact .inr ⟨move.target, hwrite, .access hitem hwrite hname (newKey_of_access hname)⟩
      · left
        unfold newKey
        rw [hname]
        dsimp only
        split
        · rfl
        · rename_i hconsumer
          split
          · rename_i name hname'
            exact absurd ⟨name, hconsumer, hname'⟩ haccess
          · rfl

/-- **No two rows end under one key.** -/
theorem newKey_inj (hshadow : ¬ Shadowed sha256Hex table) {item' : Item} (hitem : item ∈ items)
    (hitem' : item' ∈ items) (hkey : newKey sha256Hex item = newKey sha256Hex item') :
    item = item' := by
  rcases h.newKey_cases hitem with hsame | ⟨target, hwrite, hlands⟩
  · rcases h.newKey_cases hitem' with hsame' | ⟨target', hwrite', hlands'⟩
    · exact h.scan.eq_of_key hitem hitem' (hsame.symm.trans (hkey.trans hsame'))
    · have hnew := h.new hshadow hlands'
      rw [← hkey, hsame, h.stored hitem] at hnew
      cases hnew
  · rcases h.newKey_cases hitem' with hsame' | ⟨target', hwrite', hlands'⟩
    · have hnew := h.new hshadow hlands
      rw [hkey, hsame', h.stored hitem'] at hnew
      cases hnew
    · rw [hkey] at hlands
      have hwrites := h.unique hlands hlands'
      exact h.scan.eq_of_key hitem hitem' (Write.move.inj hwrites).2

theorem lossless {final : Table} (hshadow : ¬ Shadowed sha256Hex table)
    (hafter : After (writesOf identities items) table final) : Lossless sha256Hex table final where
  rows item hitem := by
    obtain ⟨item', hthere, hbecomes⟩ := h.becomes hshadow hafter (h.mem hitem)
    refine ⟨item', ⟨hthere, hbecomes⟩, fun other hother => ?_⟩
    have hkey : other.key = item'.key :=
      (key_of_becomes hother.2).trans (key_of_becomes hbecomes).symm
    have hthere' := hother.1
    rw [hkey, hthere] at hthere'
    exact (Option.some.inj hthere').symm
  apart item item' found hitem hitem' _ hbecomes hbecomes' :=
    h.newKey_inj hshadow (h.mem hitem) (h.mem hitem')
      ((key_of_becomes hbecomes).symm.trans (key_of_becomes hbecomes'))
  only _ hfound := h.only_final hafter hfound
  migrated _ hfound huid := h.migrated_final hafter hfound huid

end Setting

/-! ## Every run -/

/-- A table that is written can be scanned. -/
theorem scan_write (hscan : Scan table items) (write : Write) :
    ∃ items', Scan (write.rewrite.apply table) items' := by
  cases write with
  | move target sourceKey =>
      have hsame : (Write.move target sourceKey).rewrite.apply table = fun key =>
          if key = target.key then some target else if key = sourceKey then none else table key := by
        funext key
        simp only [Store.Rewrite.apply, Write.rewrite]
        split
        · rfl
        · split <;> rfl
      exact hsame ▸ hscan.put target (· = sourceKey)
  | put target =>
      have hsame : (Write.put target).rewrite.apply table = fun key =>
          if key = target.key then some target else if False then none else table key := by
        funext key
        simp only [Store.Rewrite.apply, Write.rewrite]
        split
        · rfl
        · rfl
      exact hsame ▸ hscan.put target (fun _ => False)

theorem scan_writes {writes : List Write} (hscan : Scan table items) :
    ∃ items', Scan (applyAll (writes.map Write.rewrite) table) items' := by
  induction writes generalizing table items with
  | nil => exact ⟨items, hscan⟩
  | cons write writes ih =>
      obtain ⟨items', hscan'⟩ := scan_write hscan write
      exact ih hscan'

/-- A plan without issues sets the scene. -/
theorem Setting.of_plan {plan : SecretUidMigrationPlan} (hhex : HexDigest sha256Hex)
    (hformat : LegacyFormat table) (hdistinct : UidsDistinct sha256Hex table)
    (hscan : Scan table items) (hbuild : buildSecretUidMigrationPlan sha256Hex items = .ok plan)
    (hissues : plan.issues = []) :
    ∃ identities, Setting sha256Hex table items identities ∧
      PlanOf sha256Hex items identities plan := by
  obtain ⟨identities, hplan⟩ := planOf_ok hbuild
  refine ⟨identities, ⟨hhex, hscan, hformat, hdistinct, hplan.collected, hplan.rows, ?_⟩, hplan⟩
  intro item hitem
  rw [List.eq_nil_iff_forall_not_mem]
  intro issue hissue
  have hmem := (hplan.issues issue).mpr ⟨item, hitem, hissue⟩
  rw [hissues] at hmem
  cases hmem

/-- **Where no row lies in the way, the migration can be resumed.** -/
theorem Setting.resumable (h : Setting sha256Hex table items identities)
    (hshadow : ¬ Shadowed sha256Hex table) : Resumable sha256Hex table := by
  obtain ⟨plan, -, hbuild, -, hissues, -⟩ :=
    h.replan hshadow (Set.empty_subset _) (After.refl table) h.scan
  have hplanned := h.planned hshadow
  have hfinal := hplanned.completes .refl ⟨items, plan, h.scan, hbuild, hissues, rfl⟩
  refine ⟨_, h.lossless hshadow hfinal, fun table' hreached items' hscan' => ?_⟩
  have hstopped : Relation.ReflTransGen (Stopped (Plans sha256Hex)) table table' :=
    Relation.ReflTransGen.mono (fun _ _ => stopped_of_interrupted) _ _ hreached
  obtain ⟨done, hdone, hafter⟩ := hplanned.stopped hstopped
  obtain ⟨plan', -, hbuild', -, hissues', -, -, hwithin, -⟩ :=
    h.replan hshadow hdone hafter hscan'
  have hend := hplanned.completes hstopped ⟨items', plan', hscan', hbuild', hissues', rfl⟩
  refine ⟨plan', hbuild', hissues', ?_, scan_writes h.scan, fun items'' hscan'' =>
    h.verified_final hshadow hfinal hscan''⟩
  rw [sendAll_of_apart fun write hwrite => h.apart hshadow (hwithin write hwrite)]
  exact congrArg Except.ok (hend.unique hfinal)

/-! ## Where a row lies in the way -/

theorem apart_of_sendAll {writes : List Write} (h : sendAll writes table = .ok table') :
    ∀ write ∈ writes, write.Apart := by
  induction writes generalizing table with
  | nil => nofun
  | cons write writes ih =>
      rw [sendAll, List.foldlM_cons] at h
      cases hsend : write.send table with
      | error issue =>
          rw [hsend] at h
          cases h
      | ok next =>
          rw [hsend] at h
          intro other hother
          rcases List.mem_cons.mp hother with rfl | hother
          · cases other with
            | move target sourceKey =>
                intro hkey
                rw [Write.send, if_pos hkey] at hsend
                cases hsend
            | put _ => trivial
          · exact ih h other hother

/-- The writes of a plan for a scan that begins with two rows of access. -/
theorem PlanOf.writes_cons {row row' : Item} {rest : List Item} {plan : SecretUidMigrationPlan}
    {move move' : AccessMove} (h : PlanOf sha256Hex (row :: row' :: rest) identities plan)
    (hmove : accessMove identities row = .ok (some move))
    (hmove' : accessMove identities row' = .ok (some move')) :
    ∃ others : List Write,
      (∀ write ∈ others, ∀ {target sourceKey}, write = .move target sourceKey →
        ∃ source ∈ rest, ∃ move'', accessMove identities source = .ok (some move'') ∧
          sourceKey = move''.sourceKey) ∧
      plan.writes = plan.secretMoves.map (fun move => .move move.target move.sourceKey) ++
        (.move move.target move.sourceKey :: .move move'.target move'.sourceKey :: others) := by
  obtain ⟨moves, hmoves, haccess⟩ := h.access
  cases hrest : rest.mapM (accessMove identities) with
  | error issue =>
      simp only [List.mapM_cons, hmove, hmove', hrest, bind, Except.bind] at hmoves
      cases hmoves
  | ok restMoves =>
      simp only [List.mapM_cons, hmove, hmove', hrest, bind, Except.bind, pure, Except.pure,
        Except.ok.injEq] at hmoves
      rw [← hmoves, List.reduceOption_cons_of_some, List.reduceOption_cons_of_some] at haccess
      refine ⟨restMoves.reduceOption.map (fun move => .move move.target move.sourceKey) ++
        plan.lookups.map (fun lookup => .put lookup.item) ++
        plan.grantUpdates.map (fun update => .put update.item), ?_, ?_⟩
      · intro write hwrite target sourceKey heq
        subst heq
        simp only [List.mem_append, List.mem_map, reduceCtorEq, and_false, exists_false,
          or_false] at hwrite
        obtain ⟨move'', hmem, hmove''⟩ := hwrite
        obtain ⟨source, hsource, hok⟩ := (mem_of_mapM_ok hrest).mp (mem_reduceOption.mp hmem)
        exact ⟨source, hsource, move'', hok, (Write.move.inj hmove'').2.symm⟩
      · rw [SecretUidMigrationPlan.writes, haccess]
        simp

theorem Setting.not_resumable (h : Setting sha256Hex table items identities)
    (hshadow : Shadowed sha256Hex table) : ¬ Resumable sha256Hex table := by
  rintro ⟨final, hlossless, hcompletes⟩
  obtain ⟨row, row', name, name', hrow, hrow', hname, hname', hpk, henvironment, hsecretId⟩ := hshadow
  -- The first row is moved to where the second one is.
  have hsk : row'.sk = accessSk name.environment (uidOf sha256Hex name) := by
    rw [(legacySecretPk_eq_some.mp hname'.2).1, henvironment, hsecretId]
    rfl
  have hlandsKey : newKey sha256Hex row = row'.key := by
    rw [Setting.newKey_of_access hname]
    exact Key.ext hpk hsk.symm
  by_cases hsame : row = row'
  · obtain ⟨plan, hbuild, hissues, hsend, -⟩ := hcompletes table .refl items h.scan
    obtain ⟨identities', hsetting, hplan⟩ :=
      Setting.of_plan h.hex h.format h.distinct h.scan hbuild hissues
    obtain ⟨move, hmove⟩ := hsetting.accessMove_of_name (h.mem hrow) hname
    have hmem := (hplan.writes _).mpr (.inl ⟨row, h.mem hrow, .access hmove⟩)
    refine apart_of_sendAll hsend _ hmem ?_
    obtain ⟨-, -, found, identity, hfound, hidentity, hkey, htarget⟩ := accessMove_eq_some hmove
    obtain rfl := Option.some.inj (hname.2.symm.trans hfound)
    obtain rfl := hsetting.found_eq (h.format.names hrow (.inr hname)) hidentity
    rw [hkey, htarget]
    exact (Setting.newKey_of_access hname).symm.trans (hlandsKey.trans (by rw [hsame]))
  · -- A scan that meets the first row, and then the second.
    obtain ⟨rest, hperm⟩ : ∃ rest, items.Perm (row :: row' :: rest) := by
      refine ⟨(items.erase row).erase row', ?_⟩
      have hmem : row' ∈ items.erase row :=
        (List.mem_erase_of_ne (Ne.symm hsame)).mpr (h.mem hrow')
      exact (List.perm_cons_erase (h.mem hrow)).trans ((List.perm_cons_erase hmem).cons _)
    have hscan := h.scan.perm hperm
    obtain ⟨plan, hbuild, hissues, hsend, -⟩ := hcompletes table .refl _ hscan
    obtain ⟨identities', hsetting, hplan⟩ :=
      Setting.of_plan h.hex h.format h.distinct hscan hbuild hissues
    have hapart := apart_of_sendAll hsend
    have hfinal := sendAll_ok hsend
    obtain ⟨move, hmove⟩ := hsetting.accessMove_of_name (hsetting.mem hrow) hname
    obtain ⟨move', hmove'⟩ := hsetting.accessMove_of_name (hsetting.mem hrow') hname'
    have hkey' : move'.sourceKey = row'.key := by
      obtain ⟨-, -, -, -, -, -, hkey, -⟩ := accessMove_eq_some hmove'
      exact hkey
    have hlands : Setting.Lands sha256Hex identities' (row :: row' :: rest) row'.key
        (.move move.target move.sourceKey) := by
      rw [← hlandsKey]
      exact .access (hsetting.mem hrow) (.access hmove) hname (Setting.newKey_of_access hname)
    -- Nothing is put there after the second row is moved away.
    have hlater : ∀ write, PlannedWrite identities' (row :: row' :: rest) write →
        write ∈ plan.writes → write ≠ .move move.target move.sourceKey →
          ∀ item, write.rewrite row'.key ≠ some (some item) := by
      intro write hplanned hmem hne item hvalue
      rcases hsetting.touch hplanned hvalue with ⟨source, hsource, hwrite, hkey⟩ | ⟨hlands', -⟩
      · obtain rfl := hscan.eq_of_key (hsetting.mem hrow') hsource hkey
        obtain rfl := rowWrite_unique hwrite (.access hmove')
        simp only [Write.rewrite] at hvalue
        split at hvalue
        · rename_i hkey
          exact hapart _ hmem (hkey.symm.trans hkey'.symm)
        · split at hvalue <;> cases hvalue
      · exact hne (hsetting.unique hlands' hlands)
    have hmissing : final row'.key = none := by
      obtain ⟨others, hothers, hwrites⟩ := hplan.writes_cons hmove hmove'
      rw [hfinal, hwrites, List.map_append, Store.Rewrite.applyAll_append, List.map_cons,
        Store.Rewrite.applyAll_cons, List.map_cons, Store.Rewrite.applyAll_cons]
      have hmem' : Write.move move'.target move'.sourceKey ∈ plan.writes := by
        rw [hwrites]
        simp
      refine Store.Rewrite.applyAll_eq_none ?_ ?_
      · refine Store.Rewrite.apply_of_some ?_
        have hne : row'.key ≠ move'.target.key := by
          rw [← hkey']
          exact Ne.symm (hapart _ hmem')
        simp only [Write.rewrite]
        rw [if_neg hne, if_pos hkey'.symm]
      · intro rewrite hrewrite item
        obtain ⟨write, hwrite, rfl⟩ := List.mem_map.mp hrewrite
        have hmemWrite : write ∈ plan.writes := by
          rw [hwrites]
          simp [hwrite]
        refine hlater write ((hplan.writes write).mp hmemWrite) hmemWrite ?_ item
        rintro rfl
        obtain ⟨source, hsource, move'', hmove'', hsame''⟩ := hothers _ hwrite rfl
        have hrowKey : move.sourceKey = row.key := by
          obtain ⟨-, -, -, -, -, -, hkey, -⟩ := accessMove_eq_some hmove
          exact hkey
        have hsourceKey : move''.sourceKey = source.key := by
          obtain ⟨-, -, -, -, -, -, hkey, -⟩ := accessMove_eq_some hmove''
          exact hkey
        have hnodup := hscan.nodup
        rw [List.map_cons, List.nodup_cons] at hnodup
        apply hnodup.1
        rw [← hrowKey, hsame'', hsourceKey]
        exact List.mem_map_of_mem (List.mem_cons_of_mem _ hsource)
    obtain ⟨item', ⟨hthere, hbecomes⟩, -⟩ := hlossless.rows row hrow
    rw [Setting.key_of_becomes hbecomes, hlandsKey, hmissing] at hthere
    cases hthere

namespace Sample

/-- The digests of the texts that UIDs are derived from here. -/
def digest (text : String) : String :=
  if text = "hemlig:secret-uid:v1:prod\x00api-key" then
    "ce6e4b1ee8d8669f9107872b4f212c5312cb286f7e153e9803486c5f2d986418"
  else if text = "hemlig:secret-uid:v1:prod\x00sec-ce6e4b1e-e8d8-669f-9107-872b4f212c53" then
    "3b473786dc0d8fa7d000611446738be170032fb7a978447f1c18970701b3a26e"
  else "e3b0c44298fc1c149afbf4c8996fb92427ae41e4649b934ca495991b7852b855"

/-- The head of a secret. -/
def head (secretId : String) : Item :=
  { key := { pk := "SECRET#prod#" ++ secretId, sk := "HEAD" }
    attributes := [("secretId", .string secretId), ("environment", .string "prod"),
      ("controlVersionId", .string "ctl-1"), ("controlObjectVersionId", .string "v1"),
      ("workflowState", .string "READY"), ("state", .string "ACTIVE")] }

/-- The access of a consumer to a secret. -/
def access (secretId : String) : Item :=
  { key := { pk := "CONSUMER#payments", sk := "SECRET#prod#" ++ secretId }
    attributes := [("secretId", .string secretId), ("environment", .string "prod")] }

def secretId : String := "sec-ce6e4b1e-e8d8-669f-9107-872b4f212c53"

/-- One secret. -/
def rows : List Item := [head "api-key", access "api-key"]

/-- Two secrets, of which one has the id that is the UID derived for the other. -/
def crowded : List Item :=
  [head "api-key", head secretId, access "api-key", access secretId]

theorem hexDigest_digest : HexDigest digest := by
  intro text
  have hall : (digest text).toList.all (fun c => c.isDigit ∨ ('a' ≤ c ∧ c ≤ 'f')) = true := by
    unfold digest
    split_ifs <;> decide
  exact fun c hc => of_decide_eq_true (List.all_eq_true.mp hall c hc)

theorem rows_checked :
    (∀ item ∈ rows, ∀ item' ∈ rows, ∀ name ∈ legacyAccessSk item.sk,
      ∀ name' ∈ legacyAccessSk item'.sk, name'.secretId ≠ uidOf digest name) ∧
    ((buildSecretUidMigrationPlan digest rows).map fun plan => plan.issues) = .ok [] := by
  decide +kernel

theorem crowded_checked :
    (∀ item ∈ crowded, item.stringField "secretUid" = none ∧
      (dropPrefix "SECRET#" item.pk ≠ none → legacySecretPk item.pk ≠ none) ∧
      (item.sk = "HEAD" → legacySecretPk item.pk ≠ none) ∧
      dropPrefix "SECRET_NAME#" item.pk = none ∧
      (∀ environment ∈ item.stringField "environment", '\x00' ∉ environment.toList) ∧
      (∀ name ∈ legacySecretPk item.pk, '\x00' ∉ name.environment.toList) ∧
      ∀ name ∈ legacyAccessSk item.sk, '\x00' ∉ name.environment.toList) ∧
    (∀ item ∈ crowded, ∀ item' ∈ crowded, ∀ identity ∈ headIdentity digest item,
      ∀ identity' ∈ headIdentity digest item',
        identity.secretUid = identity'.secretUid → identity = identity') ∧
    ((buildSecretUidMigrationPlan digest crowded).map fun plan => plan.issues) = .ok [] ∧
    legacyAccessSk (access "api-key").sk = some ⟨"prod", "api-key"⟩ ∧
    legacyAccessSk (access secretId).sk = some ⟨"prod", secretId⟩ ∧
    secretId = uidOf digest ⟨"prod", "api-key"⟩ := by
  decide +kernel

theorem mem_of_tableOf {items : List Item} {key : Key} (hitems : items ⊆ crowded)
    (h : tableOf items key = some item) : item ∈ crowded :=
  hitems (List.mem_of_find?_eq_some h)

theorem legacyFormat {items : List Item} (hitems : items ⊆ crowded) :
    LegacyFormat (tableOf items) where
  uidFree h := (crowded_checked.1 _ (mem_of_tableOf hitems h)).1
  secretRows h := (crowded_checked.1 _ (mem_of_tableOf hitems h)).2.1
  heads h := (crowded_checked.1 _ (mem_of_tableOf hitems h)).2.2.1
  lookups h := (crowded_checked.1 _ (mem_of_tableOf hitems h)).2.2.2.1
  clean h := (crowded_checked.1 _ (mem_of_tableOf hitems h)).2.2.2.2.1
  names h hname := by
    obtain ⟨-, -, -, -, -, hsecret, haccess⟩ := crowded_checked.1 _ (mem_of_tableOf hitems h)
    rcases hname with hname | ⟨-, hname⟩
    · exact hsecret _ hname
    · exact haccess _ hname

theorem uidsDistinct {items : List Item} (hitems : items ⊆ crowded) :
    UidsDistinct digest (tableOf items) := by
  intro key key' item item' identity identity' h h' hhead hhead'
  exact crowded_checked.2.1 item (mem_of_tableOf hitems h) item' (mem_of_tableOf hitems h')
    identity hhead identity' hhead'

theorem planned {items : List Item} (hnodup : (items.map Item.key).Nodup)
    (hplan : ((buildSecretUidMigrationPlan digest items).map fun plan => plan.issues) = .ok []) :
    ∃ items' plan, Scan (tableOf items) items' ∧
      buildSecretUidMigrationPlan digest items' = .ok plan ∧ plan.issues = [] := by
  cases hbuild : buildSecretUidMigrationPlan digest items with
  | error issue =>
      rw [hbuild] at hplan
      cases hplan
  | ok plan =>
      rw [hbuild] at hplan
      exact ⟨items, plan, scan_tableOf hnodup, hbuild, Except.ok.inj hplan⟩

theorem not_shadowed : ¬ Shadowed digest (tableOf rows) := by
  rintro ⟨item, item', name, name', h, h', ⟨-, hname⟩, ⟨-, hname'⟩, -, -, hsame⟩
  exact rows_checked.1 item (List.mem_of_find?_eq_some h) item' (List.mem_of_find?_eq_some h')
    name hname name' hname' hsame

end Sample

end Hemlig.Scripts.MigrateSecretUids
