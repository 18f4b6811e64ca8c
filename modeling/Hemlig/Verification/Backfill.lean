import Hemlig.Verification.Mutations

/-!
# The backfill

A scan publishes every committed head that has no place in its index yet; what it
has passed stays published.  An index may serve only after a complete scan.
-/

namespace Hemlig

open Concurrent Store AgentSyncRepository

variable {init s s' : Cloud} {pid : ℕ}

/-! ## What a scan knows -/

/-- The head of the secret, if it is committed, has a sequence. -/
def Cloud.Synced (s : Cloud) (u : String) : Prop :=
  ∀ head, s.head u = some head → head.Committed → head.syncSequence ≠ none

/-- A committed head without a sequence is still to be published, or comes later. -/
def Cloud.SyncedBut (s : Cloud) (left : List String) (last : Option ℕ) : Prop :=
  ∀ u, ¬ s.Synced u → u ∈ left ∨ ∃ position, last = some position ∧ position ≤ s.placement u

theorem Evolves.synced {actor : Option ℕ} (h : Evolves actor s s') {u : String}
    (hsynced : s.Synced u) : s'.Synced u := by
  intro head' hhead' hcommitted' hnone'
  obtain ⟨head, hhead, hcommitted, hnone⟩ := h.unsynced hhead' hcommitted' hnone'
  exact hsynced head hhead hcommitted hnone

theorem lasts_synced {u : String} : Lasts init fun s => s.Synced u :=
  fun _ _ _ _ _ hevolves h => hevolves.synced h

theorem lasts_syncedBut {left : List String} {last : Option ℕ} :
    Lasts init fun s => s.SyncedBut left last := by
  intro s s' actor _ _ hevolves h u hnot
  rw [hevolves.placement]
  exact h u fun hsynced => hnot (hevolves.synced hsynced)

theorem lasts_allSynced : Lasts init fun s => s.AllSynced :=
  fun _ _ _ _ _ hevolves h => hevolves.allSynced h

theorem lasts_syncedBefore {position : ℕ} : Lasts init fun s => s.SyncedBefore position :=
  fun _ _ _ _ _ hevolves h => hevolves.syncedBefore h

theorem Cloud.syncedBefore_iff {position : ℕ} :
    s.SyncedBefore position ↔ ∀ u, ¬ s.Synced u → position ≤ s.placement u := by
  simp only [Cloud.SyncedBefore, Cloud.Synced]
  refine forall_congr' fun u => ⟨fun h hnot => ?_, fun h head hhead hcommitted hnone =>
    h fun hall => hall head hhead hcommitted hnone⟩
  push Not at hnot
  obtain ⟨head, hhead, hcommitted, hnone⟩ := hnot
  exact h head hhead hcommitted hnone

/-- What a page of the scan leaves to be published. -/
theorem syncedBut_of_page {position : ℕ} (h : s.SyncedBefore position) (last : Option ℕ) :
    s.SyncedBut ((s.readyHeads position last).map Prod.fst) last := by
  intro u hnot
  have hbefore := Cloud.syncedBefore_iff.mp h u hnot
  by_cases hpage : last.all (s.placement u < ·) = true
  · refine .inl ?_
    simp only [Cloud.Synced] at hnot
    push Not at hnot
    obtain ⟨head, hhead, hcommitted, -⟩ := hnot
    refine List.mem_map.mpr ⟨(u, head), List.mem_filterMap.mpr ⟨.head u, ?_, ?_⟩, rfl⟩
    · exact List.mem_dedup.mpr (s.table.covered _ (Option.isSome_iff_exists.mpr ⟨head, hhead⟩))
    · simp only [hbefore, hpage, and_self, if_true, hhead, Option.filter_some,
        show decide (head.workflowState = .ready) = true by simpa using hcommitted, Option.map_some]
  · cases last with
    | none => simp at hpage
    | some last => exact .inr ⟨last, rfl, by simpa using hpage⟩

theorem Cloud.SyncedBut.finish {last : Option ℕ} (h : s.SyncedBut [] last) :
    (last = none → s.AllSynced) ∧ ∀ position, last = some position → s.SyncedBefore position := by
  refine ⟨?_, ?_⟩
  · rintro rfl u head hhead hcommitted hnone
    rcases h u fun hsynced => hsynced head hhead hcommitted hnone with hmem | ⟨_, hlast, -⟩
    · cases hmem
    · cases hlast
  · rintro position rfl
    refine Cloud.syncedBefore_iff.mpr fun u hnot => ?_
    rcases h u hnot with hmem | ⟨_, hlast, hle⟩
    · cases hmem
    · cases hlast
      exact hle

section Specs

variable {issued : Request → Cloud → Prop} {F : Cloud → Prop}

/-! ## Publishing a head -/

theorem serializedControl_eq {row : Option StoredWorkflow} {control : ControlRevision}
    (h : serializedControl row = some control) :
    ∃ stored, row = some stored ∧ stored.serialized = .control control := by
  obtain ⟨stored, hstored, hserialized⟩ := Option.bind_eq_some_iff.mp h
  refine ⟨stored, hstored, ?_⟩
  split at hserialized
  · cases hserialized
    assumption
  · cases hserialized

theorem lasts_backfillReady {pk : String} {head : HeadRecord} {control : ControlRevision} :
    Lasts init fun s => BackfillReady s pk head control := by
  intro s s' actor _ _ hevolves h
  obtain ⟨row, hrow, hserialized⟩ := h.document
  obtain ⟨row', hrow', hstep, -⟩ := hevolves.rows hrow
  exact { h with document := ⟨row', hrow', hstep.serialized.trans hserialized⟩ }

/-- A published head has a sequence. -/
theorem synced_of_transact {pk : String} {head : HeadRecord} {environment : String}
    {record : AgentSyncRecord} {state : Option AgentSyncState} {epoch : String}
    {ttl previous : Option ℕ} {conflicts : List ℕ} {table : Table Key Item}
    (h : transact s.table conflicts (publicationWrites environment record (resequence pk head) state
      epoch ttl previous) = .ok table) : Cloud.Synced { s with table := table } pk := by
  obtain ⟨current, -, -, hafter⟩ := get_of_update h
    (mem_publicationWrites.mpr (.inr (.inl (List.mem_singleton_self _))))
  intro published hpublished _
  cases hafter.symm.trans hpublished
  nofun

theorem spec_backfillHead (hF : Persists init pid F) {pk : String} {head : HeadRecord}
    (huid : head.secretUid = pk) :
    Spec init issued pid F (backfillHead pk head) fun _ s => s.Synced pk := by
  refine .bind (R := fun row s => ∀ control, serializedControl row = some control →
    controlMatches control head = true → BackfillReady s pk head control)
    (.get hF _ fun s _ _ control hcontrol hmatches => ?_) fun row => ?_
  · obtain ⟨stored, hstored, hserialized⟩ := serializedControl_eq hcontrol
    exact ⟨huid, ⟨stored, hstored, hserialized⟩, hmatches⟩
  cases hcontrol : serializedControl row with
  | none => exact .raise
  | some control =>
      refine .ite (fun hmatches => ?_) fun _ => .raise
      have hready : Persists init pid fun s => F s ∧ BackfillReady s pk head control :=
        hF.and lasts_backfillReady.persists
      refine Spec.frame (G := fun s => F s ∧ BackfillReady s pk head control) ?_ fun s =>
        and_congr_right fun _ => ⟨fun h => h control rfl hmatches, fun h other hother _ =>
          Option.some.inj hother ▸ h⟩
      refine safe_publish hready (fun _ s _ hs => hs) fun items sequence => ?_
      have hsend : Spec init issued pid (fun s => (F s ∧ BackfillReady s pk head control) ∧
          Assembled s head.environment (syncRecord head.secretUid control) (resequence pk head)
            items sequence) (send (.transactWrite items none)) fun _ s => s.Synced pk := by
        refine .send (hready.and lasts_assembled.persists) rfl ?_ ?_
        · rintro s - ⟨⟨-, hbackfill⟩, state, epoch, ttl, previous, rfl, -, hpublish, -⟩
          exact .backfill hbackfill hpublish
        · rintro s choice answer s' - - ⟨-, state, epoch, ttl, previous, rfl, -⟩ - hperform
          simp only [perform] at hperform
          split at hperform <;> cases hperform
          exact synced_of_transact ‹_›
      exact hsend.weaken (fun _ _ h => h) (fun _ _ _ h => ⟨h.1.1, h.2⟩)
        fun _ _ _ h => ⟨h.1, fun _ => h.1⟩

theorem spec_publishHead (hF : Persists init pid F) (pk : String) (left : ℕ) :
    Spec init issued pid F (BackfillAgentSync.publishHead pk left) fun _ s => s.Synced pk := by
  induction left with
  | zero => exact .raise
  | succ left ih =>
      refine .bind (R := fun head _ => ∀ current, head = some current → current.secretUid = pk)
        (.get hF _ fun s hinv _ head hhead => (hinv.heads.uid hhead).1) fun head => ?_
      cases head with
      | none => exact .raise
      | some head =>
          refine .of_fact (fun s _ hs => hs.2 head rfl) fun huid => ?_
          refine Spec.frame (G := F) ?_ fun s => and_iff_left fun current hcurrent =>
            Option.some.inj hcurrent ▸ huid
          refine Discipline.Safe.recover (E := fun _ s => F s) (spec_backfillHead hF huid)
            fun failure => ?_
          exact .ite (fun _ => ih) fun _ => Discipline.Safe.raise fun _ _ hs => hs

/-! ## The scan -/

/-- Every head of a page is published. -/
theorem runs_candidates (knownEnvironments : List String) {heads : List (String × HeadRecord)}
    {last : Option ℕ} :
    Runs init issued pid (fun s => s.SyncedBut (heads.map Prod.fst) last)
      (heads.forM (BackfillAgentSync.candidate knownEnvironments true))
      fun _ s => s.SyncedBut [] last := by
  refine Discipline.Safe.forM_rest (P := fun (heads : List (String × HeadRecord)) (s : Cloud) =>
    s.SyncedBut (heads.map Prod.fst) last) (fun head rest => ?_) heads
  refine .ite (fun _ => .raise fun _ _ _ => trivial) fun _ => ?_
  refine ((spec_publishHead lasts_syncedBut.persists head.1 8).runs).post ?_
  rintro _ s - ⟨hleft, hsynced⟩ u hnot
  rcases hleft u hnot with hmem | hlater
  · rw [List.map_cons] at hmem
    rcases List.mem_cons.mp hmem with rfl | hrest
    · exact (hnot hsynced).elim
    · exact .inl hrest
  · exact .inr hlater

theorem runs_scan (knownEnvironments : List String) (left position : ℕ) :
    Runs init issued pid (fun s => s.SyncedBefore position)
      (BackfillAgentSync.scan knownEnvironments true left position) fun _ s => s.AllSynced := by
  induction left generalizing position with
  | zero => exact Runs.raise
  | succ left ih =>
      refine Spec.next (R := fun page s => s.SyncedBut (page.items.map Prod.fst) page.lastEvaluatedKey)
        (.send lasts_syncedBefore.persists rfl (fun _ _ _ => trivial) ?_) (fun _ _ _ _ h => h)
        fun page => ?_
      · rintro s choice page s' - - hs - hperform
        cases hperform
        exact syncedBut_of_page hs _
      refine Discipline.Safe.bind (runs_candidates knownEnvironments) fun _ => ?_
      cases page.lastEvaluatedKey with
      | none => exact .ret fun s _ hs => hs.finish.1 rfl
      | some next =>
          refine Discipline.Safe.bind ((ih next).of_pre fun s _ hs => hs.finish.2 next rfl)
            fun _ => .ret fun _ _ hs => hs

/-- **An index serves only when every committed head has a sequence.** -/
theorem spec_markReady (hF : Persists init pid F) (hsynced : ∀ s, F s → s.AllSynced)
    (environment : String) :
    Spec init issued pid F (markReady environment) fun _ _ => True := by
  have henable : Spec init issued pid F (enable environment) fun _ _ => True :=
    .send_any hF rfl fun s _ hs => SanctionedWrite.enable (hsynced s hs)
  refine Spec.skip (R := fun _ _ => True) (.get hF _ fun _ _ _ => trivial) fun current => ?_
  refine .ite (fun _ => ?_) fun _ => henable
  refine (spec_newId hF "").skip fun epoch => ?_
  refine Spec.skip (R := fun _ _ => True) ?_ fun created => ?_
  · refine Discipline.Safe.recover (E := fun _ s => F s) ?_ fun failure =>
      .ite (fun _ => .ret fun s _ hs => ⟨hs, trivial⟩) fun _ => Discipline.Safe.raise fun _ _ hs => hs
    exact Spec.skip (.send_any hF rfl fun s _ hs => .emptyState (hsynced s hs)) fun _ =>
      .ret fun _ _ _ => trivial
  · exact .ite (fun _ => .ret fun _ _ _ => trivial) fun _ => henable

theorem harmless_registry (left : ℕ) (startKey : Option String) :
    (BackfillAgentSync.registry left startKey).Only Request.Harmless := by
  induction left generalizing startKey with
  | zero => trivial
  | succ left ih =>
      refine .bind (Request.Harmless.send ⟨rfl, fun _ _ => trivial⟩) fun page => ?_
      cases page.lastEvaluatedKey with
      | none => trivial
      | some key => exact .bind (ih (some key)) fun _ => trivial

/-- Without `apply` the script only looks. -/
theorem harmless_scan (knownEnvironments : List String) (left position : ℕ) :
    (BackfillAgentSync.scan knownEnvironments false left position).Only Request.Harmless := by
  induction left generalizing position with
  | zero => trivial
  | succ left ih =>
      refine .bind (Request.Harmless.send ⟨rfl, fun _ _ => trivial⟩) fun page => ?_
      have hcandidate : ∀ head : String × HeadRecord, (BackfillAgentSync.candidate
          knownEnvironments false head).Only Request.Harmless := by
        refine fun head => .ite trivial ?_
        rw [if_neg Bool.false_ne_true]
        trivial
      refine .bind (.forM hcandidate _) fun _ => ?_
      cases page.lastEvaluatedKey with
      | none => trivial
      | some key => exact .bind (ih key) fun _ => trivial

theorem runs_backfill (hF : Persists init pid F) (apply : Bool) :
    Runs init issued pid F (BackfillAgentSync.backfillAgentSync apply) fun _ _ => True := by
  refine Spec.next (.send_any hF rfl fun _ _ _ => trivial) (fun _ _ _ hs _ => hs) fun most => ?_
  refine (Spec.harmless hF (harmless_registry _ _)).next (fun _ _ _ hs _ => hs)
    fun environments => ?_
  refine Spec.next (.send_any hF rfl fun _ _ _ => trivial) (fun _ _ _ hs _ => hs) fun pages => ?_
  cases apply with
  | false =>
      exact (Spec.harmless hF (harmless_scan _ _ _)).next (fun _ _ _ hs _ => hs) fun _ =>
        .ret fun _ _ _ => trivial
  | true =>
      refine Discipline.Safe.bind ((runs_scan _ pages 0).of_pre fun s _ _ u _ _ _ _ => Nat.zero_le _)
        fun heads => ?_
      refine Spec.next (Spec.forM fun environment _ =>
        spec_markReady lasts_allSynced.persists (fun _ hs => hs) environment.name)
        (fun _ _ _ hs _ => hs) fun _ => .ret fun _ _ _ => trivial

end Specs

end Hemlig
