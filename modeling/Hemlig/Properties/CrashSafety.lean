import Hemlig.Properties.Chain
import Hemlig.Verification.Requests

/-!
# Recovery is crash-safe, up to a point

An operation that still owns a head has a workflow in the due index, where a recovery pass
finds it, as long as no request takes the last one out.  The recovery handler does: it
marks the workflows of an operation before it looks after the head, and where it stops in
between, nothing leads back to the head.
-/

namespace Hemlig

open Concurrent Store DynamoRepository

variable {init s s' : Cloud} {pid : ℕ} {q : Request}

/-! ## Due workflows -/

namespace Cloud

variable (s : Cloud)

/-- A workflow of the operation is due. -/
def Traced (u operationId : String) : Prop :=
  ∃ sk row, s.workflow u sk = some row ∧ row.operationId = operationId ∧
    row.workflowDue.isSome = true

/-- **A recovery pass finds every operation that is neither completed nor cleaned up**: the
owner of a lease, and the create whose head is still prepared under its name. -/
structure Recoverable : Prop where
  leased : ∀ u head operationId, s.head u = some head → head.leaseOwner = some operationId →
    s.Traced u operationId
  creating : ∀ u head, s.head u = some head → ¬ head.Committed → ∃ mutation, s.Prepared mutation ∧
    (head = createdHead mutation ∨ head = unleasedHead (createdHead mutation)) ∧
      s.Traced u mutation.operationId

/-- A request takes no workflow out of the due index that is the last one of an operation
that still owns its head. -/
def Spares (q : Request) : Prop :=
  ∀ u sk row head, q = .write (markRetryableWrite u sk) → s.workflow u sk = some row →
    row.workflowState = .prepared → s.head u = some head →
      (head.leaseOwner = some row.operationId ∨ ¬ head.Committed) →
        ∃ sk' row', sk' ≠ sk ∧ s.workflow u sk' = some row' ∧
          row'.operationId = row.operationId ∧ row'.workflowDue.isSome = true

end Cloud

/-- A request that spares an operation leaves it traced. -/
theorem Requested.traced (h : Requested init pid q s s') (hspares : s.Spares q) {u operationId : String}
    {head head' : HeadRecord} (hhead : s.head u = some head) (hhead' : s'.head u = some head')
    (howns : head.leaseOwner = some operationId ∨ ¬ head.Committed)
    (howns' : head'.leaseOwner = some operationId ∨ ¬ head'.Committed)
    (htraced : s.Traced u operationId) : s'.Traced u operationId := by
  have hstays : ∀ sk row, s.workflow u sk = some row → row.operationId = operationId →
      row.workflowDue.isSome = true → q ≠ .write (markRetryableWrite u sk) →
        s'.Traced u operationId := by
    intro sk row hrow hid hdue hne
    have hprepared := (h.before.rows.ok hrow).due.mp hdue
    rcases h.prepared_row hrow hprepared with hsame | hmark | ⟨other, hother, hcommitted, hfree⟩
    · exact ⟨sk, row, hsame, hid, hdue⟩
    · exact (hne hmark).elim
    · obtain rfl := Option.some.inj (hhead'.symm.trans hother)
      rcases howns' with howner | hnot
      · cases hfree.symm.trans howner
      · exact (hnot hcommitted).elim
  obtain ⟨sk, row, hrow, rfl, hdue⟩ := htraced
  by_cases hmark : q = .write (markRetryableWrite u sk)
  · -- The marked workflow is not the last one.
    have hprepared := (h.before.rows.ok hrow).due.mp hdue
    obtain ⟨sk', row', hne, hrow', hid', hdue'⟩ := hspares u sk row head hmark hrow hprepared hhead howns
    refine hstays sk' row' hrow' hid' hdue' fun hmark' => ?_
    have heq := congrArg Write.key (Request.write.inj (hmark.symm.trans hmark'))
    simp only [markRetryableWrite, Write.key_update, Key.workflow.injEq, true_and] at heq
    exact hne heq.symm
  · exact hstays sk row hrow rfl hdue hmark

/-- A request that does not touch a secret leaves its operations traced. -/
theorem Cloud.Traced.of_row {u operationId : String} (h : s.Traced u operationId)
    (hrow : ∀ sk row, s.workflow u sk = some row → s'.workflow u sk = some row) :
    s'.Traced u operationId := by
  obtain ⟨sk, row, hbefore, hid, hdue⟩ := h
  exact ⟨sk, row, hrow sk row hbefore, hid, hdue⟩

/-- A preparation enters its own workflow. -/
theorem Preparation.traced {mutation : PreparedMutation} (h : Preparation s s' mutation)
    (hinv' : Invariant init s') : s'.Traced mutation.secretUid mutation.operationId := by
  obtain ⟨row, hrow, hid, -⟩ := h.control
  exact ⟨_, row, hrow, hid, (hinv'.rows.ok hrow).due.mpr (h.fresh _ _ row h.absent hrow).1⟩

/-! ## Steps -/

theorem Unasked.recoverable (h : Unasked init s s') (hs : s.Recoverable) : s'.Recoverable := by
  have hhead : ∀ u, s'.head u = s.head u := fun u => h.same (.head u) rfl
  have hrow : ∀ u sk row, s.workflow u sk = some row → s'.workflow u sk = some row :=
    fun u sk row hrow => (h.same (.workflow u sk) rfl).trans hrow
  constructor
  · intro u head operationId hhead' howner
    exact (hs.leased u head operationId ((hhead u).symm.trans hhead') howner).of_row (hrow u)
  · intro u head hhead' hnot
    obtain ⟨mutation, hprepared, hcreated, htraced⟩ := hs.creating u head ((hhead u).symm.trans hhead') hnot
    exact ⟨mutation, hprepared.mono h.quiet.gentle.history.history, hcreated, htraced.of_row (hrow u)⟩

theorem Requested.recoverable (h : Requested init pid q s s') (hspares : s.Spares q)
    (hs : s.Recoverable) : s'.Recoverable := by
  cases h.kept.transition with
  | gentle hgentle =>
      constructor
      · intro u head' operationId hhead' howner'
        obtain ⟨head, hhead, -⟩ := hgentle.heads.backward hhead'
        have howner := hgentle.lease hhead hhead' howner'
        exact h.traced hspares hhead hhead' (.inl howner) (.inl howner')
          (hs.leased u head operationId hhead howner)
      · intro u head' hhead' hnot'
        obtain ⟨head, hhead, hcontent⟩ := hgentle.heads.backward hhead'
        have hnot : ¬ head.Committed := mt (HeadRecord.committed_of_content hcontent).mpr hnot'
        obtain ⟨mutation, hprepared, hcreated, htraced⟩ := hs.creating u head hhead hnot
        refine ⟨mutation, hprepared.mono hgentle.history.history, ?_,
          h.traced hspares hhead hhead' (.inr hnot) (.inr hnot') htraced⟩
        rcases hgentle.creating hhead hhead' hnot with rfl | rfl
        · exact hcreated
        · rcases hcreated with rfl | rfl
          · exact .inr rfl
          · exact .inr rfl
  | undone hq hundone =>
      constructor
      · intro u head operationId hhead' howner
        exact (hs.leased u head operationId (hundone.head_backward hhead').2 howner).of_row
          fun sk row hrow => (hundone.row u sk).trans hrow
      · intro u head hhead' hnot
        obtain ⟨mutation, hprepared, hcreated, htraced⟩ :=
          hs.creating u head (hundone.head_backward hhead').2 hnot
        exact ⟨mutation, hprepared.mono hundone.historyKept.history, hcreated,
          htraced.of_row fun sk row hrow => (hundone.row u sk).trans hrow⟩
  | prepared hq hready hpreparation =>
      constructor
      · intro u head' operationId hhead' howner
        rcases hpreparation.head_backward hhead' with
          ⟨head, hhead, rfl | ⟨rfl, rfl, -, -⟩⟩ | ⟨rfl, -, rfl, -⟩
        · exact (hs.leased u _ operationId hhead howner).of_row
            fun sk row hrow => hpreparation.row_forward hrow
        · cases howner
          exact hpreparation.traced h.kept.invariant
        · cases howner
          exact hpreparation.traced h.kept.invariant
      · intro u head' hhead' hnot
        rcases hpreparation.head_backward hhead' with
          ⟨head, hhead, rfl | ⟨rfl, rfl, hcommitted, -⟩⟩ | ⟨rfl, -, rfl, -⟩
        · obtain ⟨mutation, hprepared, hcreated, htraced⟩ := hs.creating u _ hhead hnot
          exact ⟨mutation, hprepared.mono hpreparation.history_extends, hcreated,
            htraced.of_row fun sk row hrow => hpreparation.row_forward hrow⟩
        · exact (hnot hcommitted).elim
        · exact ⟨_, hpreparation.prepared, .inl rfl, hpreparation.traced h.kept.invariant⟩
  | @committed completed writes sequence extendedAt head hq hcommitting =>
      have hrow : ∀ {u}, u ≠ completed.prepared.secretUid → ∀ sk row,
          s.workflow u sk = some row → s'.workflow u sk = some row := by
        intro u hu sk row hrow
        cases hcommitting.effect.rows u sk with
        | same hsame => exact hsame.trans hrow
        | ready _ _ hu' => exact (hu hu').elim
        | candidate _ _ hu' => exact (hu hu').elim
      constructor
      · intro u head' operationId hhead' howner
        rcases hcommitting.head_backward hhead' with ⟨rfl, rfl⟩ | ⟨hu, hhead⟩
        · cases howner
        · exact (hs.leased u head' operationId hhead howner).of_row (hrow hu)
      · intro u head' hhead' hnot
        rcases hcommitting.head_backward hhead' with ⟨rfl, rfl⟩ | ⟨hu, hhead⟩
        · exact (hnot rfl).elim
        · obtain ⟨mutation, hprepared, hcreated, htraced⟩ := hs.creating u head' hhead hnot
          exact ⟨mutation, hprepared.mono hcommitting.effect.history_extends, hcreated,
            htraced.of_row (hrow hu)⟩

theorem Initial.recoverable (h : Initial s) : s.Recoverable where
  leased u head operationId hhead howner := by
    rw [(h.head hhead).2.2.2.1] at howner
    cases howner
  creating u head hhead hnot := (hnot (h.head hhead).1).elim

/-- The secret mutations and the recovery passes, and what founds an environment. -/
def Input.recoverable : Input → Bool
  | .createEnvironment _ _ | .create _ | .update _ | .archive _ | .agentUpdate _
  | .revoke _ _ _ _ | .reconcile _ | .recovery => true
  | _ => false

/-- A run of nothing else. -/
def recoverableRun (actions : List ServiceAction) : Bool :=
  actions.all fun
    | .start _ input => input.recoverable
    | _ => true

namespace Sample

/-- A create expires, and a recovery pass stops after it marked its workflow. -/
def abandoned : List ServiceAction :=
  founding ++ .start 1 (.create (creation "k1")) :: steps 1
    [plain, plain, fresh "a", fresh "a", plain, fresh "op-a", plain, plain, plain] ++
  [.environment (.tick day), .environment (.replicate "sec-a" (.control "ctl-a")),
    .start 2 .recovery] ++
  steps 2 [plain, { rows := [("sec-a", .control "ctl-a")] }, plain, plain]

/-- The key is one of a workflow that is due. -/
def storesDue (s : Cloud) : Key → Bool
  | .workflow u sk => (s.workflow u sk).any (·.workflowDue.isSome)
  | _ => false

/-- No workflow is due, the head is still leased, and the name stays taken. -/
theorem abandoned_checked : (service.run (World.initial Cloud.empty) abandoned).any (fun w => decide
    ((∀ key ∈ w.store.table.keys, storesDue w.store key = false) ∧
      (w.store.head "sec-a").any (fun head => head.leaseOwner = some "op-a") = true ∧
      (w.store.lookup "prod" "api-key").map SecretLookup.secretUid = some "sec-a")) = true := by
  decide +kernel

theorem abandoned_runs :
    (service.run (World.initial Cloud.empty) abandoned).isSome = true :=
  Option.isSome_of_any abandoned_checked

theorem not_due_abandoned (u : String) (sk : WorkflowSk) (row : StoredWorkflow)
    (hrow : (reached Cloud.empty _ abandoned_runs).store.workflow u sk = some row) :
    ¬ row.workflowDue.isSome = true := by
  obtain ⟨hkeys, -⟩ := reached_of_any abandoned_checked
  have hmem := (reached Cloud.empty _ abandoned_runs).store.table.covered (.workflow u sk)
    (Option.isSome_iff_exists.mpr ⟨row, hrow⟩)
  have hnone := (Option.any_eq_false _ _).mp (hkeys _ hmem) row hrow
  exact ne_true_of_eq_false hnone

/-- A request changes no workflow on its own. -/
def leavesRows (q : Request) (_ : Cloud) : Bool :=
  match q with
  | .write write =>
      match write.key with
      | .workflow _ _ => false
      | _ => true
  | _ => true

theorem spares_of_leavesRows (h : leavesRows q s = true) : s.Spares q := by
  rintro u sk row head rfl
  cases h

end Sample

end Hemlig
