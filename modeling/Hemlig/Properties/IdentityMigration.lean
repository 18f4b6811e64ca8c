import Hemlig.Verification.IdentityRestart

/-!
# Where the identity migration can be resumed

A run that is stopped between the first head that it moves and its last step is in general not
resumed: the plan of the next run takes the rows under the first head's new key for those of
another migration.  It is resumed where no head was moved yet, where all was done, and in the
few other cases of `Continuable`.
-/

namespace Hemlig.Scripts.MigrateSecretIdentity

open Store (Rewrite)
open Store.Rewrite (After Coherent)

section Runs

variable {copyVersionId : String → String} {table : Table} {bucket : Bucket}
  {items rows items' : List Item} {plan : MigrationPlan} {mid final : Progress}

/-- All that a run is to move was moved, and what it is to fill in was filled in. -/
structure Finished (before after : Table) : Prop where
  moved : ∀ item, before item.key = some item →
    isLegacySecretItem item = true ∨ isLegacyAccessItem item = true → after item.key = none
  filled : ∀ item, before item.key = some item → isPendingNotification item = true →
    item.stringField "environment" = none → ∀ eventId ∈ item.stringField "eventId",
      ∃ notification, after (notificationKey eventId) = some notification ∧
        notification.stringField "environment" ≠ none

/-- Where a run that was stopped can be resumed. -/
def Resumable (before after : Table) : Prop :=
  (∀ head, LegacyHead before head → after head.key = some head) ∨
    Continuable before after ∨ Finished before after

/-- The run that reads `items` succeeds on what another run left, and ends in `final`. -/
def Resumes (copyVersionId : String → String) (items : List Item) (mid : Progress)
    (final : Table) : Prop :=
  ∃ again, again.table = final ∧ (∃ rows, Scan again.table rows) ∧
    ∀ rows, Scan again.table rows →
      run copyVersionId items rows mid.table mid.bucket = .ok again

/-- No row names a version that a copy will have: S3 makes the id when it makes the copy. -/
def VersionsUnused (copyVersionId : String → String) (table : Table) : Prop :=
  ∀ item, table item.key = some item → isLegacySecretItem item = true →
    ∀ field ∈ ["s3VersionId", "controlObjectVersionId", "payloadObjectVersionId"],
      ∀ versionId ∈ item.stringField field, ∀ key, versionId ≠ copyVersionId key

theorem noneFresh_of_versionsUnused (h : VersionsUnused copyVersionId table) :
    NoneFresh copyVersionId table := by
  intro copy move hrequest key
  have hmove := hrequest.moved
  have hunused := h move.source hmove.stored (isLegacySecretItem_of_eq_some hmove.legacy)
  have hpair : ∀ {first second : String} {reference : String × String},
      reference ∈ pairOf move.source first second →
        move.source.stringField second = some reference.2 := by
    intro first second reference hmem
    unfold pairOf at hmem
    split at hmem
    · rename_i value value' _ hsecond
      rw [List.mem_singleton.mp hmem]
      exact hsecond
    · cases hmem
  have hreference := hrequest.reference
  unfold referencesOf at hreference
  rcases List.mem_append.mp hreference with hrecord | hhead
  · exact hunused "s3VersionId" (by simp) _ (hpair hrecord) key
  · split at hhead
    · rcases List.mem_append.mp hhead with hcontrol | hpayload
      · obtain ⟨pair, hmem, hsame⟩ := List.mem_map.mp hcontrol
        refine hunused "controlObjectVersionId" (by simp) _ ?_ key
        rw [hpair hmem]
        exact congrArg (some ∘ Prod.snd) hsame
      · obtain ⟨pair, hmem, hsame⟩ := List.mem_map.mp hpayload
        refine hunused "payloadObjectVersionId" (by simp) _ ?_ key
        rw [hpair hmem]
        exact congrArg (some ∘ Prod.snd) hsame
    · cases hhead

/-! ## Runs that have nothing to do -/

/-- Without legacy rows a run does nothing. -/
theorem run_of_noLegacy (hscan : Scan table items) (hnone : NoLegacy table)
    (haccess : ∀ item, table item.key = some item → isLegacyAccessItem item = false) :
    run copyVersionId items rows table bucket = .ok { table, bucket, copies := [] } := by
  obtain ⟨plan, hbuild, hmoves⟩ := buildPlan_of_noLegacy hscan hnone haccess
  unfold run
  rw [hbuild]
  have hsteps : plan.steps = [] := by
    unfold MigrationPlan.steps
    rw [hmoves]
    rfl
  show (do
    let progress ← plan.steps.foldlM (Step.perform copyVersionId) { table, bucket, copies := [] }
    if plan.secretMoves.length ≠ 0 then verifyMigration progress.copies progress.bucket rows
    return progress) = _
  rw [hsteps, hmoves]
  rfl

theorem of_run_of_noLegacy (hscan : Scan table items) (hnone : NoLegacy table) {progress : Progress}
    (h : run copyVersionId items rows table bucket = .ok progress) :
    progress = { table, bucket, copies := [] } := by
  obtain ⟨plan, hbuild, -⟩ := bind_eq_ok.mp h
  rcases buildPlan_eq_ok hscan hbuild with ⟨-, haccess, -⟩ | ⟨hsome, -, -⟩
  · exact (Except.ok.inj ((run_of_noLegacy hscan hnone haccess).symm.trans h)).symm
  · exact absurd hnone hsome

/-- A run that was stopped before it had anything to do did nothing. -/
theorem of_interrupted_of_noLegacy (hscan : Scan table items) (hnone : NoLegacy table) {count : ℕ}
    (h : interrupted copyVersionId items count table bucket = .ok mid) :
    mid = { table, bucket, copies := [] } := by
  obtain ⟨plan, hbuild, h⟩ := bind_eq_ok.mp h
  rcases buildPlan_eq_ok hscan hbuild with ⟨-, -, hmoves⟩ | ⟨hsome, -, -⟩
  · have hsteps : plan.steps = [] := by
      unfold MigrationPlan.steps
      rw [hmoves]
      rfl
    rw [hsteps, List.take_nil] at h
    exact (Except.ok.inj h).symm
  · exact absurd hnone hsome

/-! ## Runs that are resumed -/

section Migrating

variable {done : List Step} (h : Stopped copyVersionId table bucket plan done mid)
  (hsound : Sound copyVersionId table bucket)

include h hsound

omit h in
/-- As long as no head was moved, the migration can go on. -/
theorem continuable_of_unmoved (hsome : ¬ NoLegacy table)
    (hheads : ∀ head, LegacyHead table head → mid.table head.key = some head) :
    Continuable table mid.table := by
  have hhome : ∀ {secretId environment}, InEnvironment table secretId environment →
      ∃ head, LegacyHead table head ∧ mid.table head.key = some head ∧
        head.key = { pk := "SECRET#" ++ secretId, sk := "HEAD" } := by
    intro secretId environment ⟨head, hstored, hheaded⟩
    have hhead := LegacyHead.of_headed hstored hheaded
    exact ⟨head, hhead, hheads head hhead, hheaded.key⟩
  refine ⟨?_, ?_, ?_⟩
  · obtain ⟨move, hmove⟩ := hsound.plannable.exists_move hsome
    obtain ⟨head, hhead, hkept, -⟩ := hhome hmove.home
    exact ⟨head, hhead, hkept⟩
  · exact fun head hhead hgone => absurd (hheads head hhead) hgone
  · intro item hstored hkind secretId hid
    have hthere : ∃ environment, InEnvironment table secretId environment := by
      rcases hkind with hlegacy | hpending
      · obtain ⟨move, hmove, rfl⟩ := hsound.plannable.access hstored hlegacy
        rw [Option.some.inj (hid.symm.trans hmove.secretId)]
        exact ⟨_, hmove.home⟩
      · obtain ⟨eventId, secretId', environment, -, hid', hthere, -⟩ :=
          hsound.plannable.notifications hstored hpending
        rw [Option.some.inj (hid.symm.trans hid')]
        exact ⟨_, hthere⟩
    obtain ⟨environment, hthere⟩ := hthere
    obtain ⟨head, -, hkept, hkey⟩ := hhome hthere
    rw [← hkey, hkept]
    simp

theorem resumes_of_continuable (hplan : PlanOf table plan)
    (hfresh : NoneFresh copyVersionId table) (hscan' : Scan mid.table items')
    (hcontinuable : Continuable table mid.table) {final : Table}
    (hfinal : After (Writes copyVersionId table bucket) table final) :
    Resumes copyVersionId items' mid final := by
  have hagain := sound_after h hsound hcontinuable hplan hfresh
  have hleft : ¬ NoLegacy mid.table := by
    intro hnone
    obtain ⟨head, hhead, hkept⟩ := hcontinuable.left
    exact absurd ((hnone head hkept).symm.trans hhead.legacy) (by simp)
  obtain ⟨again, hafter, hrows, hrun⟩ := hagain.run_ok hscan' hleft (h.noneFresh hfresh)
  refine ⟨again, ?_, hrows, hrun⟩
  exact (after_both h hsound hcontinuable hplan hafter).unique hfinal

/-- A notification that was filled in is as the run leaves it. -/
theorem filled_of_finished (hplan : PlanOf table plan) (hfinished : Finished table mid.table) {backfill : NotificationBackfill}
    (hbackfill : IsBackfill table backfill) {key : Key} {value : Option Item}
    (hwrite : (rowAt copyVersionId bucket (.notification backfill)).write table key = some value) :
    mid.table key = value := by
  have hwrite' := hwrite
  simp only [rowAt, RowStep.write_fill] at hwrite'
  split at hwrite'
  · rename_i hkey
    subst hkey
    obtain ⟨stored, hstored, rfl⟩ := Option.map_eq_some_iff.mp hwrite'
    rcases h.after.get (notificationKey backfill.eventId) with
      ⟨_, ⟨step, hmem, rfl⟩, hother⟩ | ⟨-, hsame⟩
    · -- Another step filled it in, with the same environment.
      exact hsound.coherent hplan _ ⟨step, h.within step hmem, rfl⟩ _
        ⟨.notification backfill, hbackfill, rfl⟩ _ _ _ hother hwrite
    · -- It had its environment from the start.
      have hstep : IsStep table (.notification backfill) := hbackfill
      obtain ⟨found', hfound', hready⟩ := hsound.ready hstep
      obtain rfl : found' = stored := Option.some.inj (hfound'.symm.trans hstored)
      obtain ⟨item, secretId, hitem, hpending, heventId, -, -, hnone⟩ := hbackfill
      obtain ⟨found, hfound, hfilled⟩ := hfinished.filled item hitem hpending hnone _ heventId
      obtain rfl : found = found' := Option.some.inj
        (hfound.symm.trans (hsame.trans hstored))
      have hlookup : found.attributes.lookup "environment" =
          some (.string backfill.environment) := by
        cases hstored' : found.attributes.lookup "environment" with
        | none =>
            refine absurd ?_ hfilled
            unfold Item.stringField Attributes.stringField
            rw [hstored']
        | some value => exact congrArg some (hready value hstored')
      rw [hsame, hstored]
      unfold Item.set
      rw [Entries.set_of_lookup hlookup]
  · cases hwrite'

/-- Once all was done, the table is that of the run. -/
theorem after_of_finished (hplan : PlanOf table plan) (hfinished : Finished table mid.table) :
    After (Writes copyVersionId table bucket) table mid.table := by
  intro key
  constructor
  · rintro _ ⟨step, hstep, rfl⟩ value hvalue
    by_cases hmem : step ∈ done
    · exact h.write_mem hmem hvalue
    · cases step with
      | copy object => exact absurd hstep id
      | secret move =>
          have hmove : IsMove table move := hstep
          have hgone := hfinished.moved move.source hmove.stored
            (.inl (isLegacySecretItem_of_eq_some hmove.legacy))
          exact absurd ((h.secret_kept hmove hmem).symm.trans hgone) (by simp)
      | access move =>
          have hmove : IsAccessMove table move := hstep
          have hgone := hfinished.moved move.source hmove.stored (.inr hmove.legacy)
          exact absurd ((h.access_kept hmove hmem).symm.trans hgone) (by simp)
      | notification backfill =>
          exact filled_of_finished h hsound hplan hfinished hstep hvalue
  · intro hnone
    refine (h.after key).2 ?_
    rintro _ ⟨step, hmem, rfl⟩
    exact hnone _ ⟨step, h.within step hmem, rfl⟩

omit h in
/-- After all writes, all is done. -/
theorem finished_of_after (hscan' : Scan mid.table items')
    (hafter : After (Writes copyVersionId table bucket) table mid.table) :
    Finished table mid.table := by
  constructor
  · intro item hstored hkind
    cases hfound : mid.table item.key with
    | none => rfl
    | some found =>
        have hkey : found.key = item.key := hscan'.keyed hfound
        have hpk : found.pk = item.pk := congrArg Key.pk hkey
        have hsk : found.sk = item.sk := congrArg Key.sk hkey
        obtain ⟨hsecret, haccess⟩ := hsound.none_legacy hafter (hkey ▸ hfound)
        unfold isLegacySecretItem at hsecret hkind
        unfold isLegacyAccessItem at haccess hkind
        rw [hpk] at hsecret haccess
        rw [hsk] at haccess
        rcases hkind with hlegacy | hlegacy
        · exact absurd (hsecret.symm.trans hlegacy) (by simp)
        · exact absurd (haccess.symm.trans hlegacy) (by simp)
  · intro item hstored hpending hnone eventId heventId
    obtain ⟨eventId', secretId, environment, heventId', hid, hhome, -⟩ :=
      hsound.plannable.notifications hstored hpending
    obtain rfl : eventId = eventId' := Option.some.inj (heventId.symm.trans heventId')
    have hbackfill : IsBackfill table { eventId, environment } :=
      ⟨item, secretId, hstored, hpending, heventId, hid, hhome, hnone⟩
    have hstep : IsStep table (.notification { eventId, environment }) := hbackfill
    obtain ⟨found, hfound, -⟩ := hsound.ready hstep
    have hwrite : (rowAt copyVersionId bucket (.notification { eventId, environment })).write table
        (notificationKey eventId) = some (some (found.set "environment" (.string environment))) := by
      simp only [rowAt, RowStep.write_fill, if_true, hfound]
      rfl
    refine ⟨_, (hafter _).1 _ ⟨.notification _, hbackfill, rfl⟩ _ hwrite, ?_⟩
    rw [stringField_set_self hbackfill.ne_empty]
    simp

/-- **What could be planned again can go on.** -/
theorem continuable_of_plannable (hagain : Plannable mid.table) (hleft : ¬ NoLegacy mid.table) :
    Continuable table mid.table := by
  obtain ⟨move, hmove⟩ := hagain.exists_move hleft
  obtain ⟨head, hhead, hheaded, hkept⟩ := h.home.mp hmove.home
  have honly : ∀ step ∈ done, ∃ move, step = .secret move ∧ IsMove table move :=
    fun step => h.secret_of_kept hhead hheaded hkept
  refine ⟨⟨head, .of_headed hhead hheaded, hkept⟩, ?_, ?_⟩
  · intro other hother hgone environment henvironment
    obtain ⟨secretId, environment', hheaded'⟩ := hother.headed hsound.plannable
    obtain rfl : environment = environment' :=
      Option.some.inj (henvironment.symm.trans hheaded'.environment)
    have hotherMove := IsMove.of_headed hother.stored hheaded'
    have hdone : .secret (headMove other secretId environment) ∈ done := by
      by_contra hnot
      exact hgone (h.secret_kept hotherMove hnot)
    -- The next run takes the row under the new key for one of another migration.
    by_contra hclean
    obtain ⟨target, hstored, hpk⟩ := h.target_put hsound hdone
    have hscoped : (scopedSecretId target.pk).isSome := by
      rw [hpk]
      exact (scopedSecretId_secretPk hotherMove.home.ne_empty hotherMove.home.clean.1
        hotherMove.home.clean.2).mpr hclean
    obtain ⟨move', hmove', hpk'⟩ := hagain.ours hstored hscoped
    rw [hpk, hmove'.targetPk] at hpk'
    obtain ⟨rfl, rfl⟩ := secretPk_inj hotherMove.home.clean.2 hmove'.home.clean.2 hpk'
    obtain ⟨head', -, hheaded'', hkept'⟩ := h.home.mp hmove'.home
    have hkey : head'.key = other.key := hheaded''.key.trans hheaded'.key.symm
    rw [hkey] at hkept'
    exact absurd (hkept'.symm.trans (h.source_gone hdone)) (by simp)
  · intro item hstored hkind secretId hid
    have hthere : ∃ environment, InEnvironment mid.table secretId environment := by
      rcases hkind with hlegacy | hpending
      · have hkept' := h.kept_of_secrets honly (family_access hlegacy) (by decide)
        obtain ⟨move', hmove', rfl⟩ := hagain.access (hkept'.trans hstored) hlegacy
        rw [Option.some.inj (hid.symm.trans hmove'.secretId)]
        exact ⟨_, hmove'.home⟩
      · have hkept' := h.kept_of_secrets honly (family_pending hpending) (by decide)
        obtain ⟨eventId, secretId', environment, -, hid', hhome, -⟩ :=
          hagain.notifications (hkept'.trans hstored) hpending
        rw [Option.some.inj (hid.symm.trans hid')]
        exact ⟨_, hhome⟩
    obtain ⟨environment, head', hstored', hheaded'⟩ := hthere
    rw [← hheaded'.key, hstored']
    simp

end Migrating

/-- **Where the migration can be resumed.**  A run that succeeds and ends in `final` is stopped
anywhere; another run then succeeds and ends in the same table exactly where the stopped one
left a `Resumable` table. -/
theorem identity_migration_iff (hscan : Scan table items)
    (hunused : VersionsUnused copyVersionId table)
    (hrun : run copyVersionId items rows table bucket = .ok final) (hrows : Scan final.table rows)
    {count : ℕ} (hmid : interrupted copyVersionId items count table bucket = .ok mid)
    (hscan' : Scan mid.table items') :
    Resumes copyVersionId items' mid final.table ↔ Resumable table mid.table := by
  by_cases hnone : NoLegacy table
  · obtain rfl := of_run_of_noLegacy hscan hnone hrun
    obtain rfl := of_interrupted_of_noLegacy hscan hnone hmid
    have haccess : ∀ item, table item.key = some item → isLegacyAccessItem item = false := by
      obtain ⟨plan, hbuild, -⟩ := bind_eq_ok.mp hrun
      rcases buildPlan_eq_ok hscan hbuild with ⟨-, haccess, -⟩ | ⟨hsome, -, -⟩
      · exact haccess
      · exact absurd hnone hsome
    constructor
    · exact fun _ => .inl fun head hhead => hhead.stored
    · exact fun _ => ⟨_, rfl, ⟨rows, hrows⟩, fun rows' _ => run_of_noLegacy hscan' hnone haccess⟩
  · have hfresh := noneFresh_of_versionsUnused hunused
    obtain ⟨hsound, plan, hbuild, hplan, hmoves, hmade⟩ :=
      sound_of_run hscan hnone hfresh hrun hrows
    obtain ⟨done, h⟩ := stopped_of_interrupted hsound hplan hmoves hbuild hfresh hmid
    have hfinal : After (Writes copyVersionId table bucket) table final.table := by
      rw [hmade.table]
      exact hsound.after hplan
    constructor
    · intro ⟨again, hsame, ⟨rows', hrows'⟩, hagain⟩
      have hagain := hagain rows' hrows'
      by_cases hleft : NoLegacy mid.table
      · obtain rfl := of_run_of_noLegacy hscan' hleft hagain
        exact .inr (.inr (finished_of_after hsound hscan' (hsame ▸ hfinal)))
      · obtain ⟨plan', hbuild', -⟩ := bind_eq_ok.mp hagain
        rcases buildPlan_eq_ok hscan' hbuild' with ⟨hnone', -⟩ | ⟨-, hplannable, -⟩
        · exact absurd hnone' hleft
        · exact .inr (.inl (continuable_of_plannable h hsound hplannable hleft))
    · rintro (hheads | hcontinuable | hfinished)
      · exact resumes_of_continuable h hsound hplan hfresh hscan'
          (continuable_of_unmoved hsound hnone hheads) hfinal
      · exact resumes_of_continuable h hsound hplan hfresh hscan' hcontinuable hfinal
      · have hafter := after_of_finished h hsound hplan hfinished
        have hlegacy := fun item (hitem : mid.table item.key = some item) =>
          hsound.none_legacy hafter hitem
        refine ⟨{ mid with copies := [] }, hafter.unique hfinal, ⟨items', hscan'⟩, fun _ _ => ?_⟩
        exact run_of_noLegacy hscan' (fun item hitem => (hlegacy item hitem).1)
          fun item hitem => (hlegacy item hitem).2

end Runs

/-! ## Two secrets -/

namespace Sample

def copyVersionId (key : String) : String := "copy of " ++ key

/-- The head of a secret. -/
def head (secretId : String) : Item :=
  { key := { pk := "SECRET#" ++ secretId, sk := "HEAD" }
    attributes := [("secretId", .string secretId), ("environment", .string "prod"),
      ("controlVersionId", .string "ctl-1"), ("controlObjectVersionId", .string "v1")] }

def rows : List Item := [head "api-key", head "db-password"]

/-- Every object has one version. -/
def bucket : Bucket := fun key =>
  if key = "secrets/api-key/control/ctl-1.json" ∨ key = "secrets/db-password/control/ctl-1.json" then
    [{ versionId := "v1", checksumSHA256 := some "sum", contentLength := some 2 }]
  else []

theorem scanned : Scan (tableOf rows) rows := scan_tableOf (by decide)

theorem mem_rows {item : Item} (h : tableOf rows item.key = some item) : item ∈ rows :=
  List.mem_of_find?_eq_some h

theorem versionsUnused : VersionsUnused copyVersionId (tableOf rows) := by
  have hall : ∀ item ∈ rows,
      ∀ field ∈ ["s3VersionId", "controlObjectVersionId", "payloadObjectVersionId"],
        ∀ versionId ∈ item.stringField field, versionId = "v1" := by
    decide
  intro item hstored _ field hfield versionId hversion key hsame
  rw [hall item (mem_rows hstored) field hfield versionId hversion] at hsame
  have hlength := congrArg String.length hsame
  rw [copyVersionId, String.length_append] at hlength
  have hlong : "copy of ".length = 8 := by decide
  have hshort : "v1".length = 2 := by decide
  omega

theorem someLegacy : ¬ NoLegacy (tableOf rows) := fun hnone =>
  absurd (hnone (head "api-key") (by decide)) (by decide)

/-- How a head is moved. -/
def move (secretId : String) : SecretMove := headMove (head secretId) secretId "prod"

def copy (secretId : String) : ObjectCopy :=
  { sourceKey := "secrets/" ++ secretId ++ "/control/ctl-1.json", sourceVersionId := "v1"
    destinationKey := "secrets/prod/" ++ secretId ++ "/control/ctl-1.json"
    destinationVersionId := none }

def plan : MigrationPlan :=
  { secretMoves := [move "api-key", move "db-password"], accessMoves := []
    copies := [copy "api-key", copy "db-password"], pendingNotifications := 0
    notificationBackfills := [] }

theorem buildPlan_rows : buildPlan rows = .ok plan := by decide +kernel

theorem planned : Plannable (tableOf rows) ∧ PlanOf (tableOf rows) plan := by
  rcases buildPlan_eq_ok scanned buildPlan_rows with ⟨hnone, -⟩ | ⟨-, hplannable, hplan⟩
  · exact absurd hnone someLegacy
  · exact ⟨hplannable, hplan⟩

/-- Both objects are copied, then both heads are moved. -/
def steps : List Step :=
  [.copy (copy "api-key"), .copy (copy "db-password"), .secret (move "api-key"),
    .secret (move "db-password")]

theorem steps_plan : plan.steps = steps := by
  have hsorted : plan.orderedSecretMoves = plan.secretMoves :=
    List.mergeSort_of_pairwise (by decide)
  unfold MigrationPlan.steps
  rw [hsorted]
  rfl

theorem interrupted_rows {count : ℕ} :
    interrupted copyVersionId rows count (tableOf rows) bucket =
      (steps.take count).foldlM (Step.perform copyVersionId)
        { table := tableOf rows, bucket, copies := [] } := by
  unfold interrupted
  rw [buildPlan_rows, ← steps_plan]
  rfl

/-- What some of the steps leave under the keys of the secrets. -/
def left (count : ℕ) : Except String (List (Option Item)) :=
  ((steps.take count).foldlM (Step.perform copyVersionId)
    { table := tableOf rows, bucket, copies := [] }).map fun mid =>
      [mid.table { pk := "SECRET#api-key", sk := "HEAD" },
        mid.table { pk := "SECRET#prod#api-key", sk := "HEAD" },
        mid.table { pk := "SECRET#db-password", sk := "HEAD" }]

theorem left_eq {count : ℕ} {found : List (Option Item)} (h : left count = .ok found) :
    ∃ mid, interrupted copyVersionId rows count (tableOf rows) bucket = .ok mid ∧
      [mid.table { pk := "SECRET#api-key", sk := "HEAD" },
        mid.table { pk := "SECRET#prod#api-key", sk := "HEAD" },
        mid.table { pk := "SECRET#db-password", sk := "HEAD" }] = found := by
  rw [interrupted_rows]
  unfold left at h
  cases hmid : (steps.take count).foldlM (Step.perform copyVersionId)
      { table := tableOf rows, bucket, copies := [] } with
  | error issue =>
      rw [hmid] at h
      cases h
  | ok mid =>
      rw [hmid] at h
      exact ⟨mid, rfl, Except.ok.inj h⟩

/-- The target of the first head takes its place once the objects are copied. -/
theorem left_rows :
    left 2 = .ok [some (head "api-key"), none, some (head "db-password")] ∧
      left 3 = .ok [none, some (targetOf copyVersionId bucket (move "api-key")),
        some (head "db-password")] ∧
      left 4 = .ok [none, some (targetOf copyVersionId bucket (move "api-key")), none] := by
  decide +kernel

/-- The migration succeeds, and each part of it leaves a table that can be scanned. -/
theorem runs {count : ℕ} {mid : Progress}
    (hmid : interrupted copyVersionId rows count (tableOf rows) bucket = .ok mid) :
    ∃ final rows' items', run copyVersionId rows rows' (tableOf rows) bucket = .ok final ∧
      Scan final.table rows' ∧ Scan mid.table items' := by
  have hfresh := noneFresh_of_versionsUnused versionsUnused
  obtain ⟨hplannable, hplan⟩ := planned
  have hmoves := hplan.secretMoves_ne_nil hplannable someLegacy
  obtain ⟨progress, hsteps, -⟩ := left_eq left_rows.2.2
  rw [interrupted_rows, List.take_of_length_le (by decide), ← steps_plan,
    plan.steps_eq hmoves] at hsteps
  have hsound := sound_of_made hplannable hplan hfresh (made_of_foldlM hplannable hplan hsteps)
    fun {item} hstored hpending _ => by
      have hnone : ∀ item ∈ rows, isPendingNotification item = false := by decide
      rw [hnone item (mem_rows hstored)] at hpending
      cases hpending
  obtain ⟨final, -, ⟨rows', hrows'⟩, hrun⟩ := hsound.run_ok scanned someLegacy hfresh
  obtain ⟨done, hstopped⟩ :=
    stopped_of_interrupted hsound hplan hmoves buildPlan_rows hfresh hmid
  obtain ⟨items', hscan'⟩ := hstopped.scan hsound hplan scanned
  exact ⟨final, rows', items', hrun rows' hrows', hrows', hscan'⟩

end Sample

/-- A run that is stopped once the objects are copied is resumed. -/
theorem identity_migration_copied : ∃ final rows' mid items',
    run Sample.copyVersionId Sample.rows rows' (tableOf Sample.rows) Sample.bucket = .ok final ∧
    interrupted Sample.copyVersionId Sample.rows 2 (tableOf Sample.rows) Sample.bucket = .ok mid ∧
    Scan mid.table items' ∧ Resumes Sample.copyVersionId items' mid final.table := by
  obtain ⟨mid, hmid, hfound⟩ := Sample.left_eq Sample.left_rows.1
  simp only [List.cons.injEq, and_true] at hfound
  obtain ⟨final, rows', items', hrun, hrows', hscan'⟩ := Sample.runs hmid
  refine ⟨final, rows', mid, items', hrun, hmid, hscan', ?_⟩
  refine (identity_migration_iff Sample.scanned Sample.versionsUnused hrun hrows' hmid hscan').mpr
    (.inl fun head hhead => ?_)
  have hmem := Sample.mem_rows hhead.stored
  simp only [Sample.rows, List.mem_cons, List.not_mem_nil, or_false] at hmem
  rcases hmem with rfl | rfl
  · exact hfound.1
  · exact hfound.2.2

/-- A run that is stopped between two heads is not: the next one refuses the first of them. -/
theorem identity_migration_between : ∃ final rows' mid,
    run Sample.copyVersionId Sample.rows rows' (tableOf Sample.rows) Sample.bucket = .ok final ∧
    Scan final.table rows' ∧
    interrupted Sample.copyVersionId Sample.rows 3 (tableOf Sample.rows) Sample.bucket = .ok mid ∧
    (∃ items', Scan mid.table items') ∧
    ∀ items', Scan mid.table items' → ¬ Resumes Sample.copyVersionId items' mid final.table := by
  have hkey : (targetOf Sample.copyVersionId Sample.bucket (Sample.move "api-key")).key =
      { pk := "SECRET#prod#api-key", sk := "HEAD" } := by decide
  have hleft := Sample.left_rows.2.1
  generalize targetOf Sample.copyVersionId Sample.bucket (Sample.move "api-key") = target
    at hkey hleft
  obtain ⟨mid, hmid, hfound⟩ := Sample.left_eq hleft
  simp only [List.cons.injEq, and_true] at hfound
  obtain ⟨final, rows', items', hrun, hrows', hscan'⟩ := Sample.runs hmid
  refine ⟨final, rows', mid, hrun, hrows', hmid, ⟨items', hscan'⟩, ?_⟩
  intro items hscan ⟨again, _, ⟨rows'', hrows''⟩, hagain⟩
  obtain ⟨plan, hbuild, -⟩ := bind_eq_ok.mp (hagain rows'' hrows'')
  rcases buildPlan_eq_ok hscan hbuild with ⟨hnone, -⟩ | ⟨-, hplannable, -⟩
  · exact absurd (hnone (Sample.head "db-password") hfound.2.2) (by decide)
  · -- The row under the new key belongs to no secret whose head is still to be moved.
    have hstored : mid.table target.key = some target := by
      rw [hkey]
      exact hfound.2.1
    have hpk : target.pk = secretPk "prod" "api-key" := congrArg Key.pk hkey
    obtain ⟨move, hmove, hsame⟩ := hplannable.ours hstored (by rw [hpk]; decide)
    rw [hpk, hmove.targetPk] at hsame
    obtain ⟨-, hid⟩ := secretPk_inj (by decide) hmove.home.clean.2 hsame
    obtain ⟨head, hhead, hheaded⟩ := hmove.home
    rw [hheaded.key, ← hid] at hhead
    exact absurd (hfound.1.symm.trans hhead) (by simp)

end Hemlig.Scripts.MigrateSecretIdentity
