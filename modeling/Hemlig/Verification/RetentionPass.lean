import Hemlig.Verification.Undisturbed

/-!
# One retention pass

What a retention pass that runs undisturbed does with the due revisions it lists: it skips
those that are current or locked, reclaims the others, and ends at the first one whose
object is gone.
-/

namespace Hemlig

open Concurrent Store

variable {init s s' : Cloud} {pid : ℕ} {choose : Request → Choice}

/-! ## Due revisions -/

/-- The key of a workflow row. -/
abbrev RowKey := String × WorkflowSk

namespace Cloud

variable (s : Cloud) (key : RowKey)

/-- The retention index shows the revision as due. -/
def Due : Prop := ∃ row, s.index key.1 key.2 = some row ∧ row.retentionDue.any (· ≤ s.now) = true

/-- A head names the revision. -/
def CurrentRow : Prop := ∃ head, s.head key.1 = some head ∧ head.Names key.2

/-- The object of the revision, as its row names it. -/
def revision : Option StoredObject :=
  (s.workflow key.1 key.2).bind fun row =>
    row.s3VersionId.bind fun versionId => s.object ⟨row.objectKey, versionId⟩

/-- The object of the revision is there. -/
def StoredRow : Prop := (s.revision key).isSome

/-- Its lock is in force. -/
def LockedRow : Prop := ∃ object, s.revision key = some object ∧ object.locked s.now = true

/-- The object is deleted, and the revision is marked. -/
def Reclaimed : Prop := s.revision key = none ∧
  ∃ row, s.workflow key.1 key.2 = some row ∧ row.workflowState = .deleted

instance : Decidable (s.Due key) :=
  inferInstanceAs (Decidable (∃ row ∈ s.index key.1 key.2, row.retentionDue.any (· ≤ s.now) = true))

instance : Decidable (s.CurrentRow key) :=
  inferInstanceAs (Decidable (∃ head ∈ s.head key.1, Retention.isCurrent key.2 (some head) = true))

instance : Decidable (s.StoredRow key) :=
  inferInstanceAs (Decidable ((s.revision key).isSome = true))

instance : Decidable (s.LockedRow key) :=
  inferInstanceAs (Decidable (∃ object ∈ s.revision key, object.locked s.now = true))

instance : Decidable (s.Reclaimed key) :=
  inferInstanceAs (Decidable (s.revision key = none ∧
    ∃ row ∈ s.workflow key.1 key.2, row.workflowState = .deleted))

end Cloud

/-- What a due row looks like once the index has caught up. -/
structure DueRow (s : Cloud) (key : RowKey) (row : StoredWorkflow) (versionId : String)
    (head : HeadRecord) : Prop where
  workflow : s.workflow key.1 key.2 = some row
  index : s.index key.1 key.2 = some row
  due : row.retentionDue.any (· ≤ s.now) = true
  ready : row.workflowState = .ready
  version : row.s3VersionId = some versionId
  objectKey : row.objectKey = objectKeyOf key.1 key.2
  head : s.head key.1 = some head
  uid : secretIdentityFromPk key.1 = some key.1

theorem dueRow_of_due (hinv : Invariant init s)
    {key : RowKey} (hindex : s.index key.1 key.2 = s.workflow key.1 key.2) (hdue : s.Due key) :
    ∃ row versionId head, DueRow s key row versionId head := by
  obtain ⟨row, hrow, hnow⟩ := hdue
  have hworkflow : s.workflow key.1 key.2 = some row := hindex.symm.trans hrow
  have hok := hinv.rows.ok hworkflow
  have hready : row.workflowState = .ready := by
    refine hok.retention ?_
    cases hretention : row.retentionDue with
    | none => simp [hretention] at hnow
    | some time => rfl
  obtain ⟨versionId, hversion⟩ := Option.isSome_iff_exists.mp (hok.stored.mpr (.inl hready))
  obtain ⟨head, hhead, -⟩ := hinv.rows.settled hworkflow (.inl hready)
  obtain ⟨-, id, huid⟩ := hinv.heads.uid hhead
  refine ⟨row, versionId, head, hworkflow, hrow, hnow, hready, hversion, hok.objectKey, hhead, ?_⟩
  have hne : key.1 ≠ "" := by
    rw [huid]
    intro heq
    simpa using congrArg String.toList heq
  rw [secretIdentityFromPk, if_neg hne]

/-! ## One revision -/

/-- The state after a revision was deleted and marked. -/
def reclaim (s : Cloud) (key : RowKey) (row : StoredWorkflow) (versionId : String)
    (event : AuditEvent) : Cloud :=
  let deleted := (s.setObject row.objectKey none).record (.deleted ⟨row.objectKey, versionId⟩)
  { deleted with
    table := (DynamoRepository.markRetentionDeletedWrite key.1 key.2).apply deleted.table
    audit := deleted.audit ++ [event] }

theorem DueRow.revision {key : RowKey} {row : StoredWorkflow} {versionId : String}
    {head : HeadRecord} (h : DueRow s key row versionId head) :
    s.revision key = s.object ⟨row.objectKey, versionId⟩ := by
  rw [Cloud.revision, h.workflow, Option.bind_some, h.version, Option.bind_some]

theorem DueRow.current_iff {key : RowKey} {row : StoredWorkflow} {versionId : String}
    {head : HeadRecord} (h : DueRow s key row versionId head) :
    s.CurrentRow key ↔ head.Names key.2 := by
  constructor
  · rintro ⟨other, hother, hnames⟩
    rwa [← Option.some.inj (hother.symm.trans h.head)]
  · exact fun hnames => ⟨head, h.head, hnames⟩

section Examine

variable {key : RowKey} {row : StoredWorkflow} {versionId : String} {head : HeadRecord}
  (hchoose : Faultless choose) (h : DueRow s key row versionId head)
include hchoose h

/-- The head is read first. -/
theorem finish_examine : service.finish pid choose (Retention.examine ⟨key.1, key.2, row⟩) s =
    service.finish pid choose
      (if Retention.isCurrent key.2 (some head) then pure ()
        else do
          let canDelete ← ObjectStore.canDeleteVersion (Retention.objectReference row versionId)
          if canDelete then
            ObjectStore.deleteVersion (Retention.objectReference row versionId)
            DynamoRepository.markRetentionDeleted ⟨key.1, key.2, row⟩
            send (.auditWrite (Retention.deletedEvent ⟨key.1, key.2, row⟩ head.environment
              head.secretId))
          else pure ()) s := by
  have hget : service.finish pid choose (DynamoRepository.getHeadBySecretUid key.1) s =
      some (.ok (some head), s) := by
    refine finish_send hchoose ?_
    show some (Except.ok (s.head key.1), s) = _
    rw [h.head]
  unfold Retention.examine
  simp only [h.version, h.uid]
  exact System.finish_bind_ok hget

theorem examine_current (hcurrent : head.Names key.2) :
    service.finish pid choose (Retention.examine ⟨key.1, key.2, row⟩) s = some (.ok (), s) := by
  rw [finish_examine hchoose h, if_pos (show Retention.isCurrent key.2 (some head) = true from hcurrent)]
  rfl

omit h in
/-- The lock of an object. -/
theorem finish_canDeleteVersion {object : StoredObject}
    (hobject : s.object ⟨row.objectKey, versionId⟩ = some object) :
    service.finish pid choose
        (ObjectStore.canDeleteVersion (Retention.objectReference row versionId)) s =
      some (.ok (!object.locked s.now), s) := by
  have hnow : service.finish pid choose (send .now) s = some (.ok s.now, s) := finish_send hchoose rfl
  have hget : service.finish pid choose
      (send (.getRetention (Retention.objectReference row versionId))) s =
        some (.ok object.retainUntil, s) := by
    refine finish_send hchoose ?_
    have hobject' : s.object (Retention.objectReference row versionId) = some object := hobject
    simp only [perform, hobject']
  refine (System.finish_bind_ok hnow).trans ((System.finish_bind_ok hget).trans ?_)
  rw [StoredObject.locked]
  cases object.retainUntil with
  | none => rfl
  | some time =>
      show some (Except.ok (decide (time ≤ s.now)), s) = some (Except.ok (!decide (s.now < time)), s)
      simp only [← decide_not, not_lt]

theorem examine_locked (hcurrent : ¬ head.Names key.2) {object : StoredObject}
    (hobject : s.object ⟨row.objectKey, versionId⟩ = some object) (hlocked : object.locked s.now = true) :
    service.finish pid choose (Retention.examine ⟨key.1, key.2, row⟩) s = some (.ok (), s) := by
  rw [finish_examine hchoose h, if_neg (show ¬ Retention.isCurrent key.2 (some head) = true from hcurrent)]
  refine (System.finish_bind_ok (finish_canDeleteVersion hchoose hobject)).trans ?_
  rw [hlocked]
  rfl

/-- **A revision whose object is gone ends the pass.** -/
theorem examine_missing (hcurrent : ¬ head.Names key.2)
    (hmissing : s.object ⟨row.objectKey, versionId⟩ = none) :
    service.finish pid choose (Retention.examine ⟨key.1, key.2, row⟩) s =
      some (.error (.aws .noSuchVersion), s) := by
  have hnow : service.finish pid choose (send .now) s = some (.ok s.now, s) := finish_send hchoose rfl
  have hget : service.finish pid choose
      (send (.getRetention (Retention.objectReference row versionId))) s =
        some (.error (.aws .noSuchVersion), s) := by
    refine finish_send_error hchoose ?_
    have hmissing' : s.object (Retention.objectReference row versionId) = none := hmissing
    simp only [perform, hmissing']
  rw [finish_examine hchoose h, if_neg (show ¬ Retention.isCurrent key.2 (some head) = true from hcurrent)]
  refine System.finish_bind_error ?_
  exact (System.finish_bind_ok hnow).trans (System.finish_bind_error hget)

theorem examine_free (hcurrent : ¬ head.Names key.2) {object : StoredObject}
    (hobject : s.object ⟨row.objectKey, versionId⟩ = some object) (hfree : object.locked s.now = false) :
    service.finish pid choose (Retention.examine ⟨key.1, key.2, row⟩) s =
      some (.ok (), reclaim s key row versionId
        (Retention.deletedEvent ⟨key.1, key.2, row⟩ head.environment head.secretId)) := by
  have hdelete : service.finish pid choose
      (ObjectStore.deleteVersion (Retention.objectReference row versionId)) s =
        some (.ok (), (s.setObject row.objectKey none).record
          (.deleted ⟨row.objectKey, versionId⟩)) := by
    refine finish_send hchoose ?_
    have hobject' : s.object (Retention.objectReference row versionId) = some object := hobject
    simp only [perform, hobject', hfree]
    rfl
  rw [finish_examine hchoose h, if_neg (show ¬ Retention.isCurrent key.2 (some head) = true from hcurrent)]
  refine (System.finish_bind_ok (finish_canDeleteVersion hchoose hobject)).trans ?_
  rw [hfree]
  refine (System.finish_bind_ok hdelete).trans ?_
  have hmark : ∀ after : Cloud, after.workflow key.1 key.2 = some row →
      service.finish pid choose (DynamoRepository.markRetentionDeleted ⟨key.1, key.2, row⟩) after =
        some (.ok (), { after with table :=
          (DynamoRepository.markRetentionDeletedWrite key.1 key.2).apply after.table }) := by
    intro after hrow
    refine finish_send hchoose ?_
    have hholds : (DynamoRepository.markRetentionDeletedWrite key.1 key.2).holds after.table :=
      Write.holds_update.mpr ⟨row, hrow, by simpa using h.ready⟩
    simp only [perform, hholds, if_true]
  have hmark' := hmark ((s.setObject row.objectKey none).record
    (.deleted ⟨row.objectKey, versionId⟩)) h.workflow
  exact (System.finish_bind_ok hmark').trans (finish_send hchoose rfl)

end Examine

/-! ## Every revision of a page -/

/-- Every row names the object of its own key. -/
def Cloud.Keyed (s : Cloud) : Prop :=
  ∀ u sk row, s.workflow u sk = some row → row.objectKey = objectKeyOf u sk

/-- A part of a pass over other revisions leaves this one alone. -/
structure Beside (s s' : Cloud) (key : RowKey) : Prop where
  workflow : s'.workflow key.1 key.2 = s.workflow key.1 key.2
  index : s'.index key.1 key.2 = s.index key.1 key.2
  revision : s'.revision key = s.revision key

/-- What no part of a pass changes. -/
structure Around (s s' : Cloud) : Prop where
  head : ∀ u, s'.head u = s.head u
  now : s'.now = s.now
  keyed : s.Keyed → s'.Keyed

theorem Beside.refl (s : Cloud) (key : RowKey) : Beside s s key := ⟨rfl, rfl, rfl⟩

theorem Around.refl (s : Cloud) : Around s s := ⟨fun _ => rfl, rfl, id⟩

theorem Beside.trans {s₁ s₂ s₃ : Cloud} {key : RowKey} (h : Beside s₁ s₂ key)
    (h' : Beside s₂ s₃ key) : Beside s₁ s₃ key :=
  ⟨h'.workflow.trans h.workflow, h'.index.trans h.index, h'.revision.trans h.revision⟩

theorem Around.trans {s₁ s₂ s₃ : Cloud} (h : Around s₁ s₂) (h' : Around s₂ s₃) : Around s₁ s₃ :=
  ⟨fun u => (h'.head u).trans (h.head u), h'.now.trans h.now, fun hkeyed => h'.keyed (h.keyed hkeyed)⟩

theorem DueRow.beside {key : RowKey} {row : StoredWorkflow} {versionId : String}
    {head : HeadRecord} (h : DueRow s key row versionId head) (haround : Around s s')
    (hbeside : Beside s s' key) : DueRow s' key row versionId head where
  workflow := hbeside.workflow.trans h.workflow
  index := hbeside.index.trans h.index
  due := by rw [haround.now]; exact h.due
  ready := h.ready
  version := h.version
  objectKey := h.objectKey
  head := (haround.head _).trans h.head
  uid := h.uid

theorem Around.current (h : Around s s') (key : RowKey) : s'.CurrentRow key ↔ s.CurrentRow key := by
  unfold Cloud.CurrentRow
  simp only [h.head]

theorem Beside.locked {key : RowKey} (h : Beside s s' key) (haround : Around s s') :
    s'.LockedRow key ↔ s.LockedRow key := by
  unfold Cloud.LockedRow
  rw [h.revision, haround.now]

theorem Beside.stored {key : RowKey} (h : Beside s s' key) : s'.StoredRow key ↔ s.StoredRow key := by
  unfold Cloud.StoredRow
  rw [h.revision]

theorem Beside.reclaimed {key : RowKey} (h : Beside s s' key) :
    s'.Reclaimed key ↔ s.Reclaimed key := by
  unfold Cloud.Reclaimed
  rw [h.revision, h.workflow]

section Reclaim

variable {key : RowKey} {row : StoredWorkflow} {versionId : String} {head : HeadRecord}
  {event : AuditEvent} (h : DueRow s key row versionId head)
include h

theorem workflow_reclaim :
    (reclaim s key row versionId event).workflow key.1 key.2 =
      some (DynamoRepository.deletedRow row) :=
  (Write.get_apply_self _ _).trans (congrArg (Option.map _) h.workflow)

omit h in
theorem get_reclaim_of_ne {other : Key} (hne : other ≠ .workflow key.1 key.2) :
    (reclaim s key row versionId event).table.get other = s.table.get other :=
  Write.get_apply_of_ne _ _ hne

omit h in
theorem workflow_reclaim_of_ne {other : RowKey} (hne : other ≠ key) :
    (reclaim s key row versionId event).workflow other.1 other.2 = s.workflow other.1 other.2 :=
  get_reclaim_of_ne fun heq => hne (Prod.ext (Key.workflow.inj heq).1 (Key.workflow.inj heq).2)

theorem around_reclaim : Around s (reclaim s key row versionId event) where
  head _ := get_reclaim_of_ne nofun
  now := rfl
  keyed hkeyed := by
    intro u sk other hother
    by_cases hne : (u, sk) = key
    · subst hne
      obtain rfl := Option.some.inj (hother.symm.trans (workflow_reclaim h))
      exact h.objectKey
    · exact hkeyed u sk other ((workflow_reclaim_of_ne hne).symm.trans hother)

theorem beside_reclaim (hkeyed : s.Keyed) {other : RowKey} (hne : other ≠ key) :
    Beside s (reclaim s key row versionId event) other where
  workflow := workflow_reclaim_of_ne hne
  index := rfl
  revision := by
    rw [Cloud.revision, Cloud.revision, workflow_reclaim_of_ne hne]
    cases hother : s.workflow other.1 other.2 with
    | none => rfl
    | some otherRow =>
        have hobject : otherRow.objectKey ≠ row.objectKey := by
          rw [hkeyed _ _ _ hother, h.objectKey]
          intro heq
          exact hne (Prod.ext (objectKeyOf_inj heq).1 (objectKeyOf_inj heq).2)
        have hsame : (reclaim s key row versionId event).objects otherRow.objectKey =
            s.objects otherRow.objectKey := Function.update_of_ne hobject _ _
        simp only [Option.bind_some, Cloud.object, hsame]

theorem reclaimed_reclaim : (reclaim s key row versionId event).Reclaimed key := by
  refine ⟨?_, _, workflow_reclaim h, rfl⟩
  have hgone : (reclaim s key row versionId event).objects row.objectKey = none :=
    Function.update_self _ _ _
  have hversion : (DynamoRepository.deletedRow row).s3VersionId = some versionId := h.version
  have hkey : (DynamoRepository.deletedRow row).objectKey = row.objectKey := rfl
  simp only [Cloud.revision, workflow_reclaim h, Option.bind_some, hversion, hkey, Cloud.object,
    hgone, Option.filter_none]

end Reclaim

/-- The key of a listed row. -/
abbrev IndexedWorkflow.key (workflow : IndexedWorkflow) : RowKey :=
  (workflow.secretUid, workflow.sk)

/-- A query lists the rows of its page that the index shows as due. -/
theorem indexed_page {due : StoredWorkflow → Bool} {page : List RowKey}
    (hshown : ∀ key ∈ page, ∃ row, s.index key.1 key.2 = some row ∧ due row = true) :
    (s.indexed page due).map IndexedWorkflow.key = page ∧
      ∀ workflow ∈ s.indexed page due, workflow.key ∈ page ∧
        s.index workflow.key.1 workflow.key.2 = some workflow.row := by
  induction page with
  | nil => exact ⟨rfl, fun _ hmem => absurd hmem List.not_mem_nil⟩
  | cons key rest ih =>
      obtain ⟨row, hrow, hdue⟩ := hshown key List.mem_cons_self
      obtain ⟨hkeys, hrows⟩ := ih fun other hmem => hshown other (List.mem_cons_of_mem _ hmem)
      have hcons : s.indexed (key :: rest) due = ⟨key.1, key.2, row⟩ :: s.indexed rest due := by
        rw [Cloud.indexed, List.filterMap_cons_some (b := (⟨key.1, key.2, row⟩ : IndexedWorkflow))]
        · rfl
        · simp only [hrow, Option.filter_some, hdue, if_true, Option.map_some]
      rw [hcons]
      refine ⟨by rw [List.map_cons, hkeys], fun workflow hmem => ?_⟩
      rcases List.mem_cons.mp hmem with rfl | hmem
      · exact ⟨List.mem_cons_self, hrow⟩
      · exact ⟨List.mem_cons_of_mem _ (hrows workflow hmem).1, (hrows workflow hmem).2⟩

/-- What a part of a pass does with the revisions it comes to. -/
structure Passed (s s' : Cloud) (keys : List RowKey) : Prop where
  around : Around s s'
  /-- It leaves every other revision alone. -/
  beside : ∀ key, key ∉ keys → Beside s s' key
  /-- It never marks a revision whose object was gone before. -/
  missing : ∀ key, ¬ s.StoredRow key → Beside s s' key
  /-- Otherwise it reclaims what is neither current nor locked. -/
  reclaimed : (∀ key ∈ keys, s.CurrentRow key ∨ s.StoredRow key) →
    ∀ key ∈ keys, ¬ s.CurrentRow key → ¬ s.LockedRow key → s'.Reclaimed key

variable (pid) in
/-- **What a pass does with one revision.**  It goes on unless the revision is not current
and has lost its object. -/
theorem examine_due (hchoose : Faultless choose) (hkeyed : s.Keyed) {workflow : IndexedWorkflow}
    {versionId : String} {head : HeadRecord}
    (h : DueRow s workflow.key workflow.row versionId head) :
    ∃ outcome s', service.finish pid choose (Retention.examine workflow) s = some (outcome, s') ∧
      (s.CurrentRow workflow.key ∨ s.StoredRow workflow.key → outcome = .ok ()) ∧
      Passed s s' [workflow.key] := by
  have hunchanged : (s.CurrentRow workflow.key ∨ s.LockedRow workflow.key ∨
      ¬ s.StoredRow workflow.key) → Passed s s [workflow.key] := fun hwhy =>
    { around := .refl s
      beside := fun key _ => .refl s key
      missing := fun key _ => .refl s key
      reclaimed := by
        intro hall key hmem hcurrent hlocked
        obtain rfl := List.mem_singleton.mp hmem
        rcases hwhy with hwhy | hwhy | hwhy
        · exact (hcurrent hwhy).elim
        · exact (hlocked hwhy).elim
        · exact ((hall _ hmem).elim hcurrent hwhy).elim }
  by_cases hcurrent : head.Names workflow.key.2
  · exact ⟨_, _, examine_current hchoose h hcurrent, fun _ => rfl,
      hunchanged (.inl (h.current_iff.mpr hcurrent))⟩
  cases hobject : s.object ⟨workflow.row.objectKey, versionId⟩ with
  | none =>
      have hmissing : ¬ s.StoredRow workflow.key := by
        rw [Cloud.StoredRow, h.revision, hobject]
        exact Bool.false_ne_true
      refine ⟨_, _, examine_missing hchoose h hcurrent hobject, fun hwhy => ?_,
        hunchanged (.inr (.inr hmissing))⟩
      exact (hwhy.elim (fun hc => hcurrent (h.current_iff.mp hc)) hmissing).elim
  | some object =>
      have hrevision : s.revision workflow.key = some object := h.revision.trans hobject
      cases hlocked : object.locked s.now with
      | true =>
          exact ⟨_, _, examine_locked hchoose h hcurrent hobject hlocked, fun _ => rfl,
            hunchanged (.inr (.inl ⟨object, hrevision, hlocked⟩))⟩
      | false =>
          refine ⟨_, _, examine_free hchoose h hcurrent hobject hlocked, fun _ => rfl,
            around_reclaim h, fun key hne => beside_reclaim h hkeyed
              fun heq => hne (List.mem_singleton.mpr heq), fun key hmissing => ?_, ?_⟩
          · refine beside_reclaim h hkeyed ?_
            rintro rfl
            exact hmissing (by rw [Cloud.StoredRow, hrevision]; rfl)
          · intro _ key hmem _ _
            obtain rfl := List.mem_singleton.mp hmem
            exact reclaimed_reclaim h

variable (pid) in
/-- **What a pass does with a page.**  The induction is on the page; the revisions still to
come are as they were. -/
theorem examine_page (hchoose : Faultless choose) (page : List IndexedWorkflow) :
    ∀ {s : Cloud}, s.Keyed → (page.map IndexedWorkflow.key).Nodup →
      (∀ workflow ∈ page, ∃ versionId head, DueRow s workflow.key workflow.row versionId head) →
      ∃ outcome s', service.finish pid choose (page.forM Retention.examine) s =
        some (outcome, s') ∧ Passed s s' (page.map IndexedWorkflow.key) := by
  induction page with
  | nil =>
      intro s hkeyed hnodup hdue
      exact ⟨_, _, rfl, .refl s, fun key _ => .refl s key, fun key _ => .refl s key, nofun⟩
  | cons workflow rest ih =>
      intro s hkeyed hnodup hdue
      obtain ⟨versionId, head, hrow⟩ := hdue workflow List.mem_cons_self
      obtain ⟨outcome, after, hfinish, hok, hpassed⟩ := examine_due pid hchoose hkeyed hrow
      have hnot : workflow.key ∉ rest.map IndexedWorkflow.key := (List.nodup_cons.mp hnodup).1
      have hother : ∀ key ∈ rest.map IndexedWorkflow.key, Beside s after key := by
        intro key hmem
        refine hpassed.beside key fun heq => hnot ?_
        rwa [← List.mem_singleton.mp heq]
      cases outcome with
      | error failure =>
          refine ⟨_, _, System.finish_bind_error hfinish, hpassed.around, fun key hmem => ?_,
            hpassed.missing, fun hall => ?_⟩
          · refine hpassed.beside key fun heq => hmem ?_
            rw [List.mem_singleton.mp heq]
            exact List.mem_cons_self
          · exact nomatch hok (hall _ List.mem_cons_self)
      | ok value =>
          have hrest : ∀ other ∈ rest, ∃ versionId head,
              DueRow after other.key other.row versionId head := by
            intro other hmem
            obtain ⟨versionId, head, hother'⟩ := hdue other (List.mem_cons_of_mem _ hmem)
            exact ⟨versionId, head, hother'.beside hpassed.around
              (hother _ (List.mem_map_of_mem hmem))⟩
          obtain ⟨outcome, last, hlast, hpassed'⟩ :=
            ih (hpassed.around.keyed hkeyed) (List.nodup_cons.mp hnodup).2 hrest
          refine ⟨outcome, last, (System.finish_bind_ok hfinish).trans hlast,
            hpassed.around.trans hpassed'.around, fun key hmem => ?_, fun key hmissing => ?_, ?_⟩
          · have hmem' := not_or.mp (mt List.mem_cons.mpr hmem)
            exact (hpassed.beside key (mt List.mem_singleton.mp hmem'.1)).trans
              (hpassed'.beside key hmem'.2)
          · have hbeside := hpassed.missing key hmissing
            exact hbeside.trans (hpassed'.missing key (mt hbeside.stored.mp hmissing))
          · intro hall key hmem hcurrent hlocked
            rcases List.mem_cons.mp hmem with rfl | hmem
            · have hreclaimed := hpassed.reclaimed
                (fun other hother => by rw [List.mem_singleton.mp hother]; exact hall _ List.mem_cons_self)
                _ (List.mem_singleton.mpr rfl) hcurrent hlocked
              exact (hpassed'.beside _ hnot).reclaimed.mpr hreclaimed
            · have hbeside := hother key hmem
              refine hpassed'.reclaimed (fun other hmem' => ?_) key hmem
                (mt (Around.current hpassed.around key).mp hcurrent)
                (mt (hbeside.locked hpassed.around).mp hlocked)
              rw [Around.current hpassed.around, (hother other hmem').stored]
              exact hall other (List.mem_cons_of_mem _ hmem')

end Hemlig
