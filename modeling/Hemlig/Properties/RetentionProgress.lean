import Hemlig.Properties.Delta
import Hemlig.Properties.Retention
import Hemlig.Verification.RetentionPass

/-!
# Retention makes progress, up to a point

A retention pass works on the first page of the due index and ends at the first revision
whose object is gone.  It reclaims all that is due and free exactly if nothing free is left
on the other pages and no revision of its page has lost its object to a pass that stopped
before the mark.
-/

namespace Hemlig

open Concurrent

variable {init s s' : Cloud} {pid : ℕ} {choose : Request → Choice}

/-- The due index in the order of a query, split after its first page.  The index has
caught up with every row that it shows. -/
structure DueListing (s : Cloud) (page rest : List RowKey) : Prop where
  due : ∀ key, key ∈ page ++ rest ↔ s.Due key
  nodup : (page ++ rest).Nodup
  caughtUp : ∀ key, s.Due key → s.index key.1 key.2 = s.workflow key.1 key.2

/-- Every due revision that is neither current nor locked is reclaimed. -/
def ReclaimsAll (s s' : Cloud) : Prop :=
  ∀ key, s.Due key → ¬ s.CurrentRow key → ¬ s.LockedRow key → s'.Reclaimed key

variable (pid) in
/-- The handler comes to the revisions of the first page. -/
theorem handler_page (hinv : Invariant init s) {page rest : List RowKey}
    (hlisting : DueListing s page rest) (hchoose : Faultless choose)
    (hpage : (choose (.readyWorkflows s.now)).rows = page) :
    ∃ outcome s', service.finish pid choose Retention.handler s = some (outcome, s') ∧
      Passed s s' page := by
  have hmem : ∀ key ∈ page, s.Due key := fun key hkey =>
    (hlisting.due key).mp (List.mem_append_left _ hkey)
  obtain ⟨hkeys, hshown⟩ := indexed_page hmem
  have hrows : ∀ workflow ∈ s.indexed page fun row => row.retentionDue.any (· ≤ s.now),
      ∃ versionId head, DueRow s workflow.key workflow.row versionId head := by
    intro workflow hworkflow
    obtain ⟨hkey, hindex⟩ := hshown workflow hworkflow
    have hdue := hmem _ hkey
    obtain ⟨row, versionId, head, hrow⟩ := dueRow_of_due hinv (hlisting.caughtUp _ hdue) hdue
    obtain rfl := Option.some.inj (hindex.symm.trans hrow.index)
    exact ⟨versionId, head, hrow⟩
  have hkeyed : s.Keyed := fun u sk row hrow => (hinv.rows.ok hrow).objectKey
  obtain ⟨outcome, s', hfinish, hpassed⟩ := examine_page pid hchoose _ hkeyed
    (by rw [hkeys]; exact (List.nodup_append.mp hlisting.nodup).1) hrows
  rw [hkeys] at hpassed
  have hnow : service.finish pid choose (send .now) s = some (.ok s.now, s) :=
    finish_send hchoose rfl
  have hlist : service.finish pid choose (send (.readyWorkflows s.now)) s =
      some (.ok (s.indexed page fun row => row.retentionDue.any (· ≤ s.now)), s) :=
    finish_send hchoose (by simp only [perform, hpage])
  have hready : service.finish pid choose DynamoRepository.listReadyWorkflows s =
      some (.ok (s.indexed page fun row => row.retentionDue.any (· ≤ s.now)), s) :=
    (System.finish_bind_ok hnow).trans hlist
  exact ⟨outcome, s', (System.finish_bind_ok hready).trans hfinish, hpassed⟩

/-- A due revision is not yet marked. -/
theorem not_reclaimed (hinv : Invariant init s) {key : RowKey} (hdue : s.Due key)
    (hindex : s.index key.1 key.2 = s.workflow key.1 key.2) (hbeside : Beside s s' key) :
    ¬ s'.Reclaimed key := by
  obtain ⟨row, versionId, head, hrow⟩ := dueRow_of_due hinv hindex hdue
  rintro ⟨-, other, hother, hdeleted⟩
  rw [hbeside.workflow, hrow.workflow] at hother
  cases hother
  rw [hrow.ready] at hdeleted
  cases hdeleted

/-- **When retention makes progress.**  In every state of every run, a pass that meets no
fault reclaims every due revision that is neither current nor locked if and only if every
revision on the first page of the due index is current or still has its object, and every
revision on the other pages is current or locked. -/
theorem retention_progress (hinit : Initial init) {w : ServiceWorld} {actions : List ServiceAction}
    (hrun : service.run (World.initial init) actions = some w) {page rest : List RowKey}
    (hlisting : DueListing w.store page rest) (hchoose : Faultless choose)
    (hpage : (choose (.readyWorkflows w.store.now)).rows = page) :
    ∃ outcome s', service.finish pid choose Retention.handler w.store = some (outcome, s') ∧
      (ReclaimsAll w.store s' ↔
        (∀ key ∈ page, w.store.CurrentRow key ∨ w.store.StoredRow key) ∧
        ∀ key ∈ rest, w.store.CurrentRow key ∨ w.store.LockedRow key) := by
  have hinv := invariant_of_run hinit hrun
  obtain ⟨outcome, s', hfinish, hpassed⟩ := handler_page pid hinv hlisting hchoose hpage
  refine ⟨outcome, s', hfinish, fun hall => ⟨fun key hmem => ?_, fun key hmem => ?_⟩,
    fun ⟨hfirst, hothers⟩ key hdue hcurrent hlocked => ?_⟩
  · by_contra hnot
    obtain ⟨hcurrent, hmissing⟩ := not_or.mp hnot
    have hdue := (hlisting.due key).mp (List.mem_append_left _ hmem)
    have hlocked : ¬ w.store.LockedRow key := by
      rintro ⟨object, hobject, -⟩
      exact hmissing (by rw [Cloud.StoredRow, hobject]; rfl)
    exact not_reclaimed hinv hdue (hlisting.caughtUp key hdue) (hpassed.missing key hmissing)
      (hall key hdue hcurrent hlocked)
  · by_contra hnot
    obtain ⟨hcurrent, hlocked⟩ := not_or.mp hnot
    have hdue := (hlisting.due key).mp (List.mem_append_right _ hmem)
    have hother : key ∉ page := fun hpage =>
      (List.nodup_append.mp hlisting.nodup).2.2 key hpage key hmem rfl
    exact not_reclaimed hinv hdue (hlisting.caughtUp key hdue) (hpassed.beside key hother)
      (hall key hdue hcurrent hlocked)
  · rcases List.mem_append.mp ((hlisting.due key).mpr hdue) with hmem | hmem
    · exact hpassed.reclaimed hfirst key hmem hcurrent hlocked
    · exact ((hothers key hmem).elim hcurrent hlocked).elim

/-! ## Interrupted passes -/

@[simp] theorem Cloud.index_recordAny (s : Cloud) (note : Option Event) :
    (s.recordAny note).index = s.index := by
  cases note <;> rfl

/-- No request changes what the index shows. -/
theorem index_exec {q : Request} {choice : Choice} {answer : Response q}
    (h : exec pid q choice s = some (answer, s')) : s'.index = s.index := by
  have hperform : ∀ {answer : Response q}, perform pid choice s q = some (answer, s') →
      s'.index = s.index := by
    intro answer h
    by_cases hroot : ∃ heq : q = .newRoot, True
    · obtain ⟨rfl, -⟩ := hroot
      obtain ⟨certificate, -, heq⟩ := Option.map_eq_some_iff.mp h
      cases heq
      rfl
    · cases q <;> simp only [perform] at h <;> (repeat' split at h) <;>
        first
        | exact absurd ⟨rfl, trivial⟩ hroot
        | (cases h <;> first | rfl | exact Cloud.index_recordAny _ _)
  unfold exec at h
  split at h
  · exact hperform h
  · split at h <;> cases h
    rfl
  · split at h
    · cases h
    · obtain ⟨⟨other, after⟩, hother, heq⟩ := Option.map_eq_some_iff.mp h
      cases heq
      exact hperform hother

/-- The rows that an action replicates. -/
def replicated : ServiceAction → Option RowKey
  | .environment (.replicate secretUid sk) => some (secretUid, sk)
  | _ => none

/-- **The index shows nothing but replicated rows.** -/
theorem index_of_run (hinit : ∀ u sk, init.index u sk = none) {w : ServiceWorld}
    {actions : List ServiceAction} (hrun : service.run (World.initial init) actions = some w)
    {key : RowKey} (hkey : key ∉ actions.filterMap replicated) : w.store.index key.1 key.2 = none := by
  refine service.run_induction (fun before w => key ∉ before.filterMap replicated →
    w.store.index key.1 key.2 = none) hrun (fun _ => hinit _ _) ?_ hkey
  intro before action middle next _ _ hact ih hkey
  rw [List.filterMap_append, List.mem_append, not_or] at hkey
  have hbefore := ih hkey.1
  rcases service.act_cases hact with ⟨pid, input, rfl, -, rfl⟩ |
    ⟨pid, choice, input, q, next, answer, after, rfl, -, hexec, rfl⟩ |
    ⟨event, after, rfl, hevent, rfl⟩
  · exact hbefore
  · show after.index key.1 key.2 = none
    rw [index_exec hexec, hbefore]
  · cases event with
    | replicate secretUid sk =>
        cases hevent
        have hne : ¬ (key.1 = secretUid ∧ key.2 = sk) := by
          rintro ⟨rfl, rfl⟩
          exact hkey.2 (by simp [replicated])
        exact (if_neg hne).trans hbefore
    | tick _ | replicateIdentity _ => cases hevent; exact hbefore
    | expireChange environment sk =>
        simp only [service, EnvironmentEvent.apply] at hevent
        split at hevent <;> cases hevent
        exact hbefore
    | expireCursor _ | expireCapability _ | foreign _ _ =>
        simp only [service, EnvironmentEvent.apply] at hevent
        split at hevent <;> cases hevent
        exact hbefore

namespace Sample

/-- The two due revisions. -/
def dueRows : List RowKey := [("sec-a", .control "ctl-a"), ("sec-a", .control "ctl-b")]

/-- Nothing else is due. -/
theorem mem_dueRows {key : RowKey} (hdue : halted.store.Due key) : key ∈ dueRows := by
  by_contra hnot
  obtain ⟨row, hrow, -⟩ := hdue
  have hnone := @index_of_run _ (fun _ _ => rfl) _ _ (run_reached interrupted_runs) key hnot
  rw [hrow] at hnone
  cases hnone

/-- The second pass meets no fault. -/
def undisturbed (_ : Request) : Choice := { rows := dueRows }

theorem halted_checked :
    (∀ key ∈ dueRows, halted.store.Due key ∧
      halted.store.index key.1 key.2 = halted.store.workflow key.1 key.2) ∧
    (¬ halted.store.CurrentRow ("sec-a", .control "ctl-b") ∧
      ¬ halted.store.LockedRow ("sec-a", .control "ctl-b")) ∧
    ∀ result ∈ service.finish 5 undisturbed Retention.handler halted.store,
      ¬ result.2.Reclaimed ("sec-a", .control "ctl-b") := by
  decide +kernel

theorem listing_halted : DueListing halted.store dueRows [] where
  due key := by
    rw [List.append_nil]
    exact ⟨fun hmem => (halted_checked.1 key hmem).1, mem_dueRows⟩
  nodup := by decide
  caughtUp key hdue := (halted_checked.1 key (mem_dueRows hdue)).2

end Sample

/-- **An interrupted pass stops the next one.**  The revision whose object it deleted
without marking it ends the next pass before the other revision, which is free. -/
theorem retention_stops : ¬ ∀ init, Initial init → ∀ actions w,
    service.run (World.initial init) actions = some w → ∀ pid choose page rest,
      DueListing w.store page rest → Faultless choose →
        (choose (.readyWorkflows w.store.now)).rows = page → ∀ outcome s',
          service.finish pid choose Retention.handler w.store = some (outcome, s') →
            ReclaimsAll w.store s' := by
  intro hall
  obtain ⟨outcome, s', hfinish, -⟩ := handler_page 5
    (invariant_of_run .empty (run_reached Sample.interrupted_runs)) Sample.listing_halted
    (fun _ => rfl : Faultless Sample.undisturbed) rfl
  have hreclaims := hall _ .empty _ _ (run_reached Sample.interrupted_runs) 5 Sample.undisturbed _ _
    Sample.listing_halted (fun _ => rfl) rfl outcome s' hfinish
  obtain ⟨hdue, ⟨hcurrent, hlocked⟩, hleft⟩ := Sample.halted_checked
  have hlast : ("sec-a", WorkflowSk.control "ctl-b") ∈ Sample.dueRows := by decide
  exact hleft _ hfinish (hreclaims _ (hdue _ hlast).1 hcurrent hlocked)

theorem retention_progress_interrupted : ∃ outcome s',
    service.finish 5 Sample.undisturbed Retention.handler Sample.halted.store = some (outcome, s') ∧
      (ReclaimsAll Sample.halted.store s' ↔
        (∀ key ∈ Sample.dueRows,
          Sample.halted.store.CurrentRow key ∨ Sample.halted.store.StoredRow key) ∧
        ∀ key ∈ [], Sample.halted.store.CurrentRow key ∨ Sample.halted.store.LockedRow key) :=
  retention_progress .empty (run_reached Sample.interrupted_runs) Sample.listing_halted
    (fun _ => rfl) rfl

end Hemlig
