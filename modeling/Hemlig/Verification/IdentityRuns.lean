import Hemlig.Verification.IdentityMoves

/-!
# Runs of the identity migration

Whether a run succeeds can be read off the table and the bucket that it finds (`Sound`), in
whatever order the rows are read:

1. the rows can be planned, and every object that a row names can be copied;
2. every step is ready on the table that the run finds, and no two steps are in each other's way;
3. every pending notification without an environment is given one.

What a successful run leaves is what each of its steps writes.
-/

namespace Hemlig.Scripts.MigrateSecretIdentity

open MigrateSecretUids (dropPrefix getElem?_of_dropPrefix)
open Store (Rewrite)
open Store.Rewrite (After Coherent)

variable {copyVersionId : String → String} {table table' : Table} {bucket bucket' : Bucket}
  {move : SecretMove}

/-! ## Rows of secrets -/

section References

variable {destinationOf destinationOf' : String → String → Except String (String × String)}
  {item item' : Item}

theorem pairOf_congr {first second : String}
    (hfirst : item'.stringField first = item.stringField first)
    (hsecond : item'.stringField second = item.stringField second) :
    pairOf item' first second = pairOf item first second := by
  unfold pairOf
  rw [hfirst, hsecond]

theorem updateRevisionPk_ok (h : updateRevisionPk move item = .ok item') :
    item'.key = item.key ∧
      ∀ name, name ≠ "revisionPk" → item'.stringField name = item.stringField name := by
  unfold updateRevisionPk at h
  split at h
  · obtain rfl := Except.ok.inj h
    exact ⟨rfl, fun _ _ => rfl⟩
  · split at h
    · cases h
    · obtain rfl := Except.ok.inj h
      exact ⟨rfl, fun name hname => stringField_set_of_ne hname⟩

theorem updateRecordObjectReference_congr {keyField versionField : String}
    (h : ∀ reference ∈ pairOf item keyField versionField,
      destinationOf reference.1 reference.2 = destinationOf' reference.1 reference.2) :
    updateRecordObjectReference destinationOf item keyField versionField =
      updateRecordObjectReference destinationOf' item keyField versionField := by
  unfold pairOf at h
  unfold updateRecordObjectReference
  split
  · rfl
  · rename_i key version hkey hversion
    simp only [hkey, hversion] at h
    rw [h (key, version) List.mem_cons_self]
  · rfl

theorem updateHeadObjectReference_congr {secretId kind revisionField versionField : String}
    (h : ∀ reference ∈ pairOf item revisionField versionField,
      destinationOf (headObjectKey secretId kind reference.1) reference.2 =
        destinationOf' (headObjectKey secretId kind reference.1) reference.2) :
    updateHeadObjectReference destinationOf item secretId kind revisionField versionField =
      updateHeadObjectReference destinationOf' item secretId kind revisionField versionField := by
  unfold pairOf at h
  unfold updateHeadObjectReference
  split
  · rfl
  · rename_i revisionId version hrevisionId hversion
    simp only [hrevisionId, hversion] at h
    rw [h (revisionId, version) List.mem_cons_self]
  · rfl

theorem updateRecordObjectReference_ok {keyField versionField : String}
    (h : updateRecordObjectReference destinationOf item keyField versionField = .ok item') :
    item'.key = item.key ∧
      (∀ name, name ≠ keyField → name ≠ versionField →
        item'.stringField name = item.stringField name) ∧
      ∀ reference ∈ pairOf item keyField versionField,
        ∃ found, destinationOf reference.1 reference.2 = .ok found := by
  unfold updateRecordObjectReference at h
  unfold pairOf
  split at h
  · rename_i hkey hversion
    obtain rfl := Except.ok.inj h
    simp [hkey]
  · rename_i key version hkey hversion
    obtain ⟨found, hfound, h⟩ := bind_eq_ok.mp h
    obtain rfl := Except.ok.inj h
    refine ⟨rfl, fun name hname hname' => ?_, ?_⟩
    · rw [stringField_set_of_ne hname', stringField_set_of_ne hname]
    · simp only [hkey, hversion, List.mem_singleton, forall_eq]
      exact ⟨found, hfound⟩
  · cases h

theorem updateHeadObjectReference_ok {secretId kind revisionField versionField : String}
    (h : updateHeadObjectReference destinationOf item secretId kind revisionField versionField =
      .ok item') :
    item'.key = item.key ∧
      (∀ name, name ≠ versionField → item'.stringField name = item.stringField name) ∧
      ∀ reference ∈ pairOf item revisionField versionField,
        ∃ found, destinationOf (headObjectKey secretId kind reference.1) reference.2 =
          .ok found := by
  unfold updateHeadObjectReference at h
  unfold pairOf
  split at h
  · rename_i hrevisionId hversion
    obtain rfl := Except.ok.inj h
    simp [hrevisionId]
  · rename_i revisionId version hrevisionId hversion
    obtain ⟨found, hfound, h⟩ := bind_eq_ok.mp h
    obtain rfl := Except.ok.inj h
    refine ⟨rfl, fun name hname => stringField_set_of_ne hname, ?_⟩
    simp only [hrevisionId, hversion, List.mem_singleton, forall_eq]
    exact ⟨found, hfound⟩
  · cases h

theorem mem_referencesOf {reference : String × String} :
    reference ∈ referencesOf move ↔
      reference ∈ pairOf move.source "objectKey" "s3VersionId" ∨
        isHead move = true ∧
          ((∃ pair ∈ pairOf move.source "controlVersionId" "controlObjectVersionId",
              reference = (headObjectKey move.secretId "control" pair.1, pair.2)) ∨
            ∃ pair ∈ pairOf move.source "payloadVersionId" "payloadObjectVersionId",
              reference = (headObjectKey move.secretId "payload" pair.1, pair.2)) := by
  unfold referencesOf
  by_cases hhead : isHead move = true
  · rw [if_pos hhead]
    simp only [List.mem_append, List.mem_map, hhead, true_and, Prod.map, id, eq_comm]
  · rw [if_neg hhead]
    simp [hhead]

/-- **A row is rewritten by where its own objects went.** -/
theorem migratedSecretItem_congr
    (h : ∀ reference ∈ referencesOf move,
      destinationOf reference.1 reference.2 = destinationOf' reference.1 reference.2) :
    migratedSecretItem destinationOf move = migratedSecretItem destinationOf' move := by
  unfold migratedSecretItem
  cases hrevision : updateRevisionPk move
      { move.source with key := { pk := move.targetPk, sk := move.source.sk } } with
  | error issue => rfl
  | ok first =>
      obtain ⟨hfirstKey, hfirst⟩ := updateRevisionPk_ok hrevision
      have hrecord : updateRecordObjectReference destinationOf first "objectKey" "s3VersionId" =
          updateRecordObjectReference destinationOf' first "objectKey" "s3VersionId" := by
        refine updateRecordObjectReference_congr fun reference hmem => h reference ?_
        rw [pairOf_congr (hfirst _ (by decide)) (hfirst _ (by decide))] at hmem
        exact mem_referencesOf.mpr (.inl hmem)
      simp only [bind, Except.bind]
      rw [hrecord]
      cases hsecond : updateRecordObjectReference destinationOf' first "objectKey"
          "s3VersionId" with
      | error issue => rfl
      | ok second =>
          obtain ⟨hsecondKey, hsecondFields, -⟩ := updateRecordObjectReference_ok hsecond
          dsimp only
          split
          · rename_i hsk
            have hsk' : move.source.sk = "HEAD" := by
              have hkey := hsecondKey.trans hfirstKey
              exact (congrArg Key.sk hkey).symm.trans hsk
            have hhead : isHead move = true := decide_eq_true hsk'
            have hfields : ∀ name, name ≠ "revisionPk" → name ≠ "objectKey" →
                name ≠ "s3VersionId" → second.stringField name = move.source.stringField name :=
              fun name hname hname' hname'' =>
                (hsecondFields name hname' hname'').trans (hfirst name hname)
            have hcontrol : updateHeadObjectReference destinationOf second move.secretId "control"
                  "controlVersionId" "controlObjectVersionId" =
                updateHeadObjectReference destinationOf' second move.secretId "control"
                  "controlVersionId" "controlObjectVersionId" := by
              refine updateHeadObjectReference_congr fun pair hpair =>
                h (headObjectKey move.secretId "control" pair.1, pair.2) ?_
              rw [pairOf_congr (hfields _ (by decide) (by decide) (by decide))
                (hfields _ (by decide) (by decide) (by decide))] at hpair
              exact mem_referencesOf.mpr (.inr ⟨hhead, .inl ⟨pair, hpair, rfl⟩⟩)
            rw [hcontrol]
            cases hthird : updateHeadObjectReference destinationOf' second move.secretId "control"
                "controlVersionId" "controlObjectVersionId" with
            | error issue => rfl
            | ok third =>
                obtain ⟨-, hthirdFields, -⟩ := updateHeadObjectReference_ok hthird
                refine updateHeadObjectReference_congr fun pair hpair =>
                  h (headObjectKey move.secretId "payload" pair.1, pair.2) ?_
                rw [pairOf_congr
                  ((hthirdFields _ (by decide)).trans
                    (hfields _ (by decide) (by decide) (by decide)))
                  ((hthirdFields _ (by decide)).trans
                    (hfields _ (by decide) (by decide) (by decide)))] at hpair
                exact mem_referencesOf.mpr (.inr ⟨hhead, .inr ⟨pair, hpair, rfl⟩⟩)
          · rfl

/-- A row that was rewritten has its new key, and all its objects were found. -/
theorem migratedSecretItem_ok {target : Item} (h : migratedSecretItem destinationOf move = .ok target) :
    target.key = { pk := move.targetPk, sk := move.source.sk } ∧
      ∀ reference ∈ referencesOf move,
        ∃ found, destinationOf reference.1 reference.2 = .ok found := by
  unfold migratedSecretItem at h
  obtain ⟨first, hrevision, h⟩ := bind_eq_ok.mp h
  obtain ⟨second, hsecond, h⟩ := bind_eq_ok.mp h
  obtain ⟨hfirstKey, hfirst⟩ := updateRevisionPk_ok hrevision
  obtain ⟨hsecondKey, hsecondFields, hrecord⟩ := updateRecordObjectReference_ok hsecond
  rw [pairOf_congr (hfirst _ (by decide)) (hfirst _ (by decide))] at hrecord
  have hkey := hsecondKey.trans hfirstKey
  have hfields : ∀ name, name ≠ "revisionPk" → name ≠ "objectKey" →
      name ≠ "s3VersionId" → second.stringField name = move.source.stringField name :=
    fun name hname hname' hname'' =>
      (hsecondFields name hname' hname'').trans (hfirst name hname)
  split at h
  · obtain ⟨third, hthird, h⟩ := bind_eq_ok.mp h
    obtain ⟨hthirdKey, hthirdFields, hcontrol⟩ := updateHeadObjectReference_ok hthird
    obtain ⟨hlastKey, -, hpayload⟩ := updateHeadObjectReference_ok h
    rw [pairOf_congr (hfields _ (by decide) (by decide) (by decide))
      (hfields _ (by decide) (by decide) (by decide))] at hcontrol
    rw [pairOf_congr
      ((hthirdFields _ (by decide)).trans (hfields _ (by decide) (by decide) (by decide)))
      ((hthirdFields _ (by decide)).trans (hfields _ (by decide) (by decide) (by decide)))]
      at hpayload
    refine ⟨hlastKey.trans (hthirdKey.trans hkey), fun reference hmem => ?_⟩
    rcases mem_referencesOf.mp hmem with hpair | ⟨-, ⟨pair, hpair, rfl⟩ | ⟨pair, hpair, rfl⟩⟩
    · exact hrecord reference hpair
    · exact hcontrol pair hpair
    · exact hpayload pair hpair
  · rename_i hsk
    obtain rfl := Except.ok.inj h
    refine ⟨hkey, fun reference hmem => ?_⟩
    have hhead : ¬ isHead move = true := by
      intro hhead
      exact hsk ((congrArg Key.sk hkey).trans (of_decide_eq_true hhead))
    rcases mem_referencesOf.mp hmem with hpair | ⟨hhead', -⟩
    · exact hrecord reference hpair
    · exact absurd hhead' hhead

end References

/-! ## Steps of a run -/

/-- What a step does to the rows, once the objects are copied. -/
def rowOf (copies : List ObjectCopy) : Step → Except String RowStep
  | .copy _ => .error "The objects are copied first."
  | .secret move => do
      let target ← migratedSecretItem (destination copies) move
      return .move { pk := move.sourcePk, sk := move.source.sk }
        { pk := move.targetPk, sk := move.source.sk } target
  | .access move =>
      .ok (.move { pk := move.sourcePk, sk := move.sourceSk }
        { pk := move.sourcePk, sk := move.targetSk }
        { move.source with key := { pk := move.source.pk, sk := move.targetSk } })
  | .notification backfill => .ok (.fill backfill)

def IsCopy : Step → Prop
  | .copy _ => True
  | _ => False

theorem perform_row {step : Step} (hstep : ¬ IsCopy step) {progress progress' : Progress} :
    step.perform copyVersionId progress = .ok progress' ↔
      ∃ row, rowOf progress.copies step = .ok row ∧ ∃ table', row.perform progress.table =
        .ok table' ∧ progress' = { progress with table := table' } := by
  have hreturn : ∀ {result : Except String Table},
      (result >>= fun table => pure { progress with table }) = .ok progress' ↔
        ∃ table', result = .ok table' ∧ progress' = { progress with table := table' } := by
    intro result
    rw [bind_eq_ok]
    refine exists_congr fun table' => and_congr_right fun _ => ?_
    exact ⟨fun h => (Except.ok.inj h).symm, fun h => congrArg Except.ok h.symm⟩
  cases step with
  | copy object => exact absurd trivial hstep
  | secret move =>
      unfold Step.perform rowOf moveSecretItem
      rw [hreturn]
      simp only [bind_eq_ok]
      constructor
      · intro ⟨table', ⟨target, htarget, hmove⟩, hprogress⟩
        exact ⟨_, ⟨target, htarget, rfl⟩, table', hmove, hprogress⟩
      · intro ⟨row, ⟨target, htarget, hrow⟩, table', hmove, hprogress⟩
        obtain rfl := Except.ok.inj hrow
        exact ⟨table', ⟨target, htarget, hmove⟩, hprogress⟩
  | access move =>
      unfold Step.perform rowOf moveAccessItem
      rw [hreturn]
      constructor
      · intro ⟨table', hmove, hprogress⟩
        exact ⟨_, rfl, table', hmove, hprogress⟩
      · intro ⟨row, hrow, table', hmove, hprogress⟩
        obtain rfl := Except.ok.inj hrow
        exact ⟨table', hmove, hprogress⟩
  | notification backfill =>
      unfold Step.perform rowOf
      rw [hreturn]
      constructor
      · intro ⟨table', hmove, hprogress⟩
        exact ⟨_, rfl, table', hmove, hprogress⟩
      · intro ⟨row, hrow, table', hmove, hprogress⟩
        obtain rfl := Except.ok.inj hrow
        exact ⟨table', hmove, hprogress⟩

/-- Once the objects are copied, a run is what its steps do to the rows. -/
theorem foldlM_rows {steps : List Step} (hsteps : ∀ step ∈ steps, ¬ IsCopy step)
    {progress progress' : Progress} :
    steps.foldlM (Step.perform copyVersionId) progress = .ok progress' ↔
      ∃ rows, steps.mapM (rowOf progress.copies) = .ok rows ∧ ∃ table',
        rows.foldlM RowStep.perform progress.table = .ok table' ∧
          progress' = { progress with table := table' } := by
  induction steps generalizing progress with
  | nil =>
      constructor
      · intro h
        obtain rfl : progress = progress' := Except.ok.inj h
        exact ⟨[], rfl, progress.table, rfl, rfl⟩
      · intro ⟨rows, hrows, table', htable, hprogress⟩
        obtain rfl : [] = rows := Except.ok.inj hrows
        obtain rfl : progress.table = table' := Except.ok.inj htable
        rw [hprogress]
        rfl
  | cons step rest ih =>
      have hrest : ∀ other ∈ rest, ¬ IsCopy other := fun other hmem =>
        hsteps other (List.mem_cons_of_mem _ hmem)
      simp only [List.foldlM_cons, List.mapM_cons, bind_eq_ok,
        perform_row (hsteps step List.mem_cons_self), ih hrest]
      constructor
      · intro ⟨middle, ⟨row, hrow, table', hperform, hmiddle⟩, rows, hrows, last, hlast, hend⟩
        subst hmiddle
        refine ⟨row :: rows, ⟨row, hrow, rows, hrows, rfl⟩, last, ?_, hend⟩
        rw [List.foldlM_cons, bind_eq_ok]
        exact ⟨table', hperform, hlast⟩
      · intro ⟨all, ⟨row, hrow, rows, hrows, hall⟩, last, hlast, hend⟩
        obtain rfl := Except.ok.inj hall
        rw [List.foldlM_cons, bind_eq_ok] at hlast
        obtain ⟨table', hperform, hlast⟩ := hlast
        exact ⟨_, ⟨row, hrow, table', hperform, rfl⟩, rows, hrows, last, hlast, hend⟩

/-- The copies of a run, with where they went. -/
theorem foldlM_copies {copies : List ObjectCopy} {progress progress' : Progress} :
    (copies.map Step.copy).foldlM (Step.perform copyVersionId) progress = .ok progress' ↔
      ∃ bucket', copies.foldlM (performCopy copyVersionId) progress.bucket = .ok bucket' ∧
        progress' = { progress with
          bucket := bucket'
          copies := progress.copies ++ copies.map (located copyVersionId progress.bucket) } := by
  induction copies generalizing progress with
  | nil =>
      constructor
      · intro h
        obtain rfl : progress = progress' := Except.ok.inj h
        exact ⟨progress.bucket, rfl, by simp⟩
      · intro ⟨bucket', hbucket, hprogress⟩
        obtain rfl : progress.bucket = bucket' := Except.ok.inj hbucket
        rw [hprogress]
        simp [pure, Except.pure]
  | cons copy rest ih =>
      have hperform : ∀ {middle : Progress},
          (Step.copy copy).perform copyVersionId progress = .ok middle ↔
            ∃ bucket', performCopy copyVersionId progress.bucket copy = .ok bucket' ∧
              middle = { progress with
                bucket := bucket'
                copies := progress.copies ++ [located copyVersionId progress.bucket copy] } := by
        intro middle
        unfold Step.perform
        simp only [bind_eq_ok, ensureCopied_eq_ok, performCopy_eq_ok]
        constructor
        · intro ⟨result, ⟨source, hcopyable, hresult⟩, hmiddle⟩
          subst hresult
          exact ⟨_, ⟨source, hcopyable, rfl⟩, (Except.ok.inj hmiddle).symm⟩
        · intro ⟨bucket', ⟨source, hcopyable, hbucket⟩, hmiddle⟩
          subst hbucket
          exact ⟨_, ⟨source, hcopyable, rfl⟩, congrArg Except.ok hmiddle.symm⟩
      have hlocated : ∀ {bucket'}, performCopy copyVersionId progress.bucket copy = .ok bucket' →
          located copyVersionId bucket' = located copyVersionId progress.bucket := by
        intro bucket' hbucket
        obtain ⟨source, -, rfl⟩ := performCopy_eq_ok.mp hbucket
        funext other
        unfold located
        rw [versionAt_copyInto]
      simp only [List.map_cons, List.foldlM_cons, bind_eq_ok, hperform, ih]
      constructor
      · intro ⟨middle, ⟨bucket', hfirst, hmiddle⟩, last, hlast, hend⟩
        subst hmiddle
        refine ⟨last, ⟨bucket', hfirst, hlast⟩, ?_⟩
        rw [hend, hlocated hfirst]
        simp
      · intro ⟨last, ⟨bucket', hfirst, hlast⟩, hend⟩
        refine ⟨_, ⟨bucket', hfirst, rfl⟩, last, hlast, ?_⟩
        rw [hend, hlocated hfirst]
        simp

/-! ## Steps of a plan -/

/-- Where an object of a row is once it was copied. -/
def destinationAt (copyVersionId : String → String) (bucket : Bucket) (move : SecretMove)
    (sourceKey _sourceVersionId : String) : Except String (String × String) :=
  match destinationKey move sourceKey with
  | some key => .ok (key, versionAt copyVersionId bucket key)
  | none => .error ("Unexpected legacy revision object key " ++ sourceKey ++ ".")

/-- What a row of a secret becomes. -/
def targetOf (copyVersionId : String → String) (bucket : Bucket) (move : SecretMove) : Item :=
  match migratedSecretItem (destinationAt copyVersionId bucket move) move with
  | .ok target => target
  | .error _ => move.source

/-- What a step does to the rows, if it can be made at all. -/
def rowAt (copyVersionId : String → String) (bucket : Bucket) : Step → RowStep
  | .copy _ => .fill { eventId := "", environment := "" }
  | .secret move => .move { pk := move.sourcePk, sk := move.source.sk }
      { pk := move.targetPk, sk := move.source.sk } (targetOf copyVersionId bucket move)
  | .access move => .move { pk := move.sourcePk, sk := move.sourceSk }
      { pk := move.sourcePk, sk := move.targetSk }
      { move.source with key := { pk := move.source.pk, sk := move.targetSk } }
  | .notification backfill => .fill backfill

/-- The table asks for the step. -/
def IsStep (table : Table) : Step → Prop
  | .copy _ => False
  | .secret move => IsMove table move
  | .access move => IsAccessMove table move
  | .notification backfill => IsBackfill table backfill

/-- The steps once the objects are copied. -/
def MigrationPlan.rest (plan : MigrationPlan) : List Step :=
  plan.orderedSecretMoves.map .secret ++ plan.accessMoves.map .access ++
    plan.notificationBackfills.map .notification

theorem MigrationPlan.steps_eq {plan : MigrationPlan} (h : plan.secretMoves ≠ []) :
    plan.steps = plan.copies.map .copy ++ plan.rest := by
  unfold MigrationPlan.steps MigrationPlan.rest
  rw [if_neg fun hnone => h (List.length_eq_zero_iff.mp hnone)]
  simp only [List.append_assoc]

theorem not_isCopy_of_isStep {step : Step} (h : IsStep table step) : ¬ IsCopy step := by
  cases step with
  | copy object => exact absurd h id
  | secret move => exact id
  | access move => exact id
  | notification backfill => exact id

theorem orderedSecretMoves_perm (plan : MigrationPlan) :
    plan.orderedSecretMoves.Perm plan.secretMoves :=
  List.mergeSort_perm _ _

theorem PlanOf.mem_rest {plan : MigrationPlan} (h : PlanOf table plan) {step : Step} :
    step ∈ plan.rest ↔ IsStep table step := by
  unfold MigrationPlan.rest
  rw [List.mem_append, List.mem_append, List.mem_map, List.mem_map, List.mem_map]
  cases step with
  | copy object => simp [IsStep]
  | secret move =>
      simp only [Step.secret.injEq, exists_eq_right, reduceCtorEq, and_false, exists_false, or_false]
      rw [(orderedSecretMoves_perm plan).mem_iff, h.secretMoves]
      rfl
  | access move =>
      simp only [Step.access.injEq, exists_eq_right, reduceCtorEq, and_false, exists_false, or_false,
        false_or]
      rw [h.accessMoves]
      rfl
  | notification backfill =>
      simp only [Step.notification.injEq, exists_eq_right, reduceCtorEq, and_false, exists_false,
        false_or]
      rw [h.backfills]
      rfl

/-- Only notifications are given an environment more than once. -/
theorem PlanOf.rest_pairwise {plan : MigrationPlan} (h : PlanOf table plan) :
    plan.rest.Pairwise fun step step' =>
      step = step' → ∃ backfill, step = .notification backfill := by
  have hsecret : plan.orderedSecretMoves.Nodup :=
    (orderedSecretMoves_perm plan).nodup_iff.mpr (List.Nodup.of_map _ h.secretNodup)
  have haccess : plan.accessMoves.Nodup := List.Nodup.of_map _ h.accessNodup
  unfold MigrationPlan.rest
  rw [List.pairwise_append, List.pairwise_append]
  refine ⟨⟨?_, ?_, ?_⟩, ?_, ?_⟩
  · rw [List.pairwise_map]
    refine hsecret.imp fun hne heq => ?_
    exact absurd (Step.secret.inj heq) hne
  · rw [List.pairwise_map]
    refine haccess.imp fun hne heq => ?_
    exact absurd (Step.access.inj heq) hne
  · intro step hstep step' hstep' heq
    obtain ⟨move, -, rfl⟩ := List.mem_map.mp hstep
    obtain ⟨move', -, rfl⟩ := List.mem_map.mp hstep'
    cases heq
  · rw [List.pairwise_map]
    exact List.pairwise_of_forall fun backfill _ _ => ⟨backfill, rfl⟩
  · intro step hstep step' hstep' heq
    obtain ⟨backfill, -, rfl⟩ := List.mem_map.mp hstep'
    exact ⟨backfill, heq⟩

/-! ## Families of keys -/

/-- Families of rows are told apart by the first character of their keys. -/
theorem family {start text : String} (hstart : dropPrefix start text ≠ none)
    (hlong : 0 < start.toList.length) : text.toList[0]? = start.toList[0]? := by
  obtain ⟨rest, hrest⟩ := Option.ne_none_iff_exists'.mp hstart
  exact getElem?_of_dropPrefix hrest hlong

theorem family_legacy {pk secretId : String} (h : legacySecretId pk = some secretId) :
    pk.toList[0]? = some 'S' := by
  rw [(legacySecretId_eq_some.mp h).1]
  simp [String.toList_append]

theorem family_secretPk (environment secretId : String) :
    (secretPk environment secretId).toList[0]? = some 'S' := by
  rw [toList_secretPk]
  rfl

theorem family_access {item : Item} (h : isLegacyAccessItem item = true) :
    item.pk.toList[0]? = some 'C' := by
  have hboth := of_decide_eq_true h
  exact family (Option.isSome_iff_ne_none.mp hboth.1) (by decide)

theorem family_notification (eventId : String) :
    (notificationKey eventId).pk.toList[0]? = some 'N' := by
  simp [notificationKey, String.toList_append]

theorem family_pending {item : Item} (h : isPendingNotification item = true) :
    item.pk.toList[0]? = some 'N' := by
  have hboth := of_decide_eq_true h
  exact family (Option.isSome_iff_ne_none.mp hboth.1) (by decide)

theorem key_ne {key key' : Key} {c c' : Char} (h : key.pk.toList[0]? = some c)
    (h' : key'.pk.toList[0]? = some c') (hne : c ≠ c') : key ≠ key' := by
  rintro rfl
  exact hne (Option.some.inj (h.symm.trans h'))

theorem IsMove.sourceKey (h : IsMove table move) :
    ({ pk := move.sourcePk, sk := move.source.sk } : Key) = move.source.key :=
  Key.ext h.sourcePk rfl

theorem IsAccessMove.sourceKey {move : AccessMove} (h : IsAccessMove table move) :
    ({ pk := move.sourcePk, sk := move.sourceSk } : Key) = move.source.key :=
  Key.ext h.sourcePk h.sourceSk

theorem IsMove.family_source (h : IsMove table move) : move.sourcePk.toList[0]? = some 'S' := by
  rw [h.sourcePk]
  exact family_legacy h.legacy

theorem IsMove.family_target (h : IsMove table move) : move.targetPk.toList[0]? = some 'S' := by
  rw [h.targetPk]
  exact family_secretPk _ _

theorem IsAccessMove.family {move : AccessMove} (h : IsAccessMove table move) :
    move.sourcePk.toList[0]? = some 'C' := by
  rw [h.sourcePk]
  exact family_access h.legacy

/-- What is moved is there. -/
theorem given_of_isStep {step : Step} (h : IsStep table step) :
    (rowAt copyVersionId bucket step).Given table := by
  cases step with
  | copy object => exact absurd h id
  | secret move =>
      show table _ ≠ none
      rw [IsMove.sourceKey h, IsMove.stored h]
      simp
  | access move =>
      show table _ ≠ none
      rw [IsAccessMove.sourceKey h, IsAccessMove.stored h]
      simp
  | notification backfill => trivial

/-- No row is put where one is taken from. -/
theorem distinct_of_isStep {step step' : Step} (h : IsStep table step) (h' : IsStep table step')
    (hne : step = step' → ∃ backfill, step = .notification backfill) :
    (rowAt copyVersionId bucket step).Distinct (rowAt copyVersionId bucket step') := by
  cases step with
  | copy object => exact absurd h id
  | secret move =>
      have hmove : IsMove table move := h
      cases step' with
      | copy object => exact absurd h' id
      | secret move' =>
          have hmove' : IsMove table move' := h'
          have hmoved : ∀ {first second : SecretMove}, IsMove table first → IsMove table second →
              first.targetPk ≠ second.sourcePk := by
            intro first second hfirst hsecond hpk
            have hnone := legacySecretId_secretPk first.environment first.secretId
            rw [← hfirst.targetPk, hpk, hsecond.sourcePk, hsecond.legacy] at hnone
            cases hnone
          refine ⟨fun hkey => ?_, fun hkey => ?_, fun hkey => ?_⟩
          · rw [hmove.sourceKey, hmove'.sourceKey] at hkey
            have hsource : move.source = move'.source := Option.some.inj
              (hmove.stored.symm.trans ((congrArg table hkey).trans hmove'.stored))
            obtain ⟨backfill, hbackfill⟩ := hne (congrArg _ (hmove.unique hmove' hsource))
            cases hbackfill
          · exact hmoved hmove hmove' (congrArg Key.pk hkey)
          · exact hmoved hmove' hmove (congrArg Key.pk hkey).symm
      | access move' =>
          have hmove' : IsAccessMove table move' := h'
          exact ⟨key_ne hmove.family_source hmove'.family (by decide),
            key_ne hmove.family_target hmove'.family (by decide),
            key_ne hmove.family_source hmove'.family (by decide)⟩
      | notification backfill =>
          exact ⟨key_ne hmove.family_source (family_notification _) (by decide),
            key_ne hmove.family_target (family_notification _) (by decide)⟩
  | access move =>
      have hmove : IsAccessMove table move := h
      cases step' with
      | copy object => exact absurd h' id
      | secret move' =>
          have hmove' : IsMove table move' := h'
          exact ⟨key_ne hmove.family hmove'.family_source (by decide),
            key_ne hmove.family hmove'.family_source (by decide),
            key_ne hmove.family hmove'.family_target (by decide)⟩
      | access move' =>
          have hmove' : IsAccessMove table move' := h'
          have hmoved : ∀ {first second : AccessMove}, IsAccessMove table first →
              IsAccessMove table second → first.targetSk ≠ second.sourceSk := by
            intro first second hfirst hsecond hsk
            have hnone := legacySecretId_secretPk first.environment first.secretId
            have hsome : (legacySecretId second.source.sk).isSome :=
              (of_decide_eq_true hsecond.legacy).2
            rw [← hsecond.sourceSk, ← hsk, hfirst.targetSk, accessSk, hnone] at hsome
            cases hsome
          refine ⟨fun hkey => ?_, fun hkey => ?_, fun hkey => ?_⟩
          · rw [hmove.sourceKey, hmove'.sourceKey] at hkey
            have hsource : move.source = move'.source := Option.some.inj
              (hmove.stored.symm.trans ((congrArg table hkey).trans hmove'.stored))
            obtain ⟨backfill, hbackfill⟩ := hne (congrArg _ (hmove.unique hmove' hsource))
            cases hbackfill
          · exact hmoved hmove hmove' (congrArg Key.sk hkey)
          · exact hmoved hmove' hmove (congrArg Key.sk hkey).symm
      | notification backfill =>
          exact ⟨key_ne hmove.family (family_notification _) (by decide),
            key_ne hmove.family (family_notification _) (by decide)⟩
  | notification backfill =>
      cases step' with
      | copy object => exact absurd h' id
      | secret move' =>
          have hmove' : IsMove table move' := h'
          exact ⟨key_ne hmove'.family_source (family_notification _) (by decide),
            key_ne hmove'.family_target (family_notification _) (by decide)⟩
      | access move' =>
          have hmove' : IsAccessMove table move' := h'
          exact ⟨key_ne hmove'.family (family_notification _) (by decide),
            key_ne hmove'.family (family_notification _) (by decide)⟩
      | notification backfill' => trivial

theorem PlanOf.distinct {plan : MigrationPlan} (h : PlanOf table plan) :
    (plan.rest.map (rowAt copyVersionId bucket)).Pairwise RowStep.Distinct := by
  rw [List.pairwise_map]
  refine h.rest_pairwise.imp_of_mem fun hmem hmem' hne => ?_
  exact distinct_of_isStep (h.mem_rest.mp hmem) (h.mem_rest.mp hmem') hne

theorem PlanOf.given {plan : MigrationPlan} (h : PlanOf table plan) :
    ∀ row ∈ plan.rest.map (rowAt copyVersionId bucket), row.Given table := by
  intro row hrow
  obtain ⟨step, hstep, rfl⟩ := List.mem_map.mp hrow
  exact given_of_isStep (h.mem_rest.mp hstep)

end Hemlig.Scripts.MigrateSecretIdentity
