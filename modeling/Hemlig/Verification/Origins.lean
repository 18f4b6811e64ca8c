import Hemlig.Verification.Steps

/-!
# Where rows and heads come from

An unsettled row was entered by a mutation that was prepared, a mutation that updates a
secret found it committed, and no secret was created twice.
-/

namespace Hemlig

open Concurrent DynamoRepository

variable {init s s' : Cloud}

structure Origins (s : Cloud) : Prop where
  row : ∀ {u sk row}, s.workflow u sk = some row → ¬ row.Settled →
    ∃ mutation, s.Prepared mutation ∧ mutation.secretUid = u ∧
      mutation.operationId = row.operationId
  uid : ∀ {mutation}, s.Prepared mutation → ∃ id, mutation.secretUid = "sec-" ++ id
  update : ∀ {mutation}, s.Prepared mutation → mutation.expectedControlVersionId ≠ none →
    ∃ head, s.head mutation.secretUid = some head ∧ head.Committed
  create : ∀ {mutation mutation'}, s.Prepared mutation → s.Prepared mutation' →
    mutation.expectedControlVersionId = none → mutation'.expectedControlVersionId = none →
      mutation.secretUid = mutation'.secretUid → mutation = mutation'

/-- A secret that is not committed has one mutation only, the one that creates it. -/
theorem Origins.creator (h : Origins s) (hinv : Invariant init s) {u : String} {head : HeadRecord}
    (hhead : s.head u = some head) (hnot : ¬ head.Committed) {mutation : PreparedMutation}
    (hprepared : s.Prepared mutation) (huid : mutation.secretUid = u) :
    head = createdHead mutation ∨ head = unleasedHead (createdHead mutation) := by
  obtain ⟨creator, hcreator, hcreated, hcreates, -, hhead'⟩ := hinv.heads.creating hhead hnot
  have hexpected : mutation.expectedControlVersionId = none := by
    by_contra hsome
    obtain ⟨other, hother, hcommitted⟩ := h.update hprepared hsome
    subst huid
    obtain rfl := Option.some.inj (hhead.symm.trans hother)
    exact hnot hcommitted
  obtain rfl := h.create hprepared hcreator hexpected hcreates.expected (huid.trans hcreated.symm)
  exact hhead'

theorem Stepped.origins (h : Stepped init s s') (hs : Origins s) : Origins s' := by
  have hupdate : ∀ {mutation : PreparedMutation}, s.Prepared mutation →
      mutation.expectedControlVersionId ≠ none →
        ∃ head, s'.head mutation.secretUid = some head ∧ head.Committed := by
    intro mutation hprepared hsome
    obtain ⟨head, hhead, hcommitted⟩ := hs.update hprepared hsome
    obtain ⟨actor, hevolves⟩ := h.evolves
    obtain ⟨head', hhead', hcommitted', -⟩ := hevolves.heads hhead hcommitted
    exact ⟨head', hhead', hcommitted'⟩
  have hrow : ∀ {u sk row}, s.workflow u sk = some row → ¬ row.Settled →
      ∃ mutation, s'.Prepared mutation ∧ mutation.secretUid = u ∧
        mutation.operationId = row.operationId := by
    intro u sk row hrow hnot
    obtain ⟨mutation, hprepared, hrest⟩ := hs.row hrow hnot
    exact ⟨mutation, hprepared.mono h.history_extends, hrest⟩
  obtain ⟨pid, q, htransition⟩ := h.transition
  cases htransition with
  | gentle hgentle =>
      refine ⟨fun {u sk row'} hrow' hnot' => ?_,
        fun hprepared => hs.uid (hgentle.history.prepared hprepared),
        fun hprepared => hupdate (hgentle.history.prepared hprepared),
        fun hprepared hprepared' => hs.create (hgentle.history.prepared hprepared)
          (hgentle.history.prepared hprepared')⟩
      obtain ⟨row, hbefore, hkept⟩ := hgentle.rows.backward hrow'
      rw [hkept.step.operationId]
      exact hrow hbefore fun hsettled => hnot' (hkept.step.settled hsettled).1
  | undone hq hundone =>
      have hprepared : ∀ {mutation}, s'.Prepared mutation → s.Prepared mutation :=
        fun hprepared => hundone.historyKept.prepared hprepared
      exact ⟨fun hrow' hnot' => hrow ((hundone.row _ _).symm.trans hrow') hnot',
        fun hprepared' => hs.uid (hprepared hprepared'), fun hprepared' => hupdate (hprepared hprepared'),
        fun h₁ h₂ => hs.create (hprepared h₁) (hprepared h₂)⟩
  | @prepared mutation now hq hready hpreparation =>
      refine ⟨fun {u sk row'} hrow' hnot' => ?_, fun {other} hother => ?_,
        fun {other} hother hsome => ?_, fun h₁ h₂ hnone hnone' huid => ?_⟩
      · cases hbefore : s.workflow u sk with
        | some row =>
            obtain rfl := Option.some.inj (hrow'.symm.trans (hpreparation.row_forward hbefore))
            exact hrow hbefore hnot'
        | none =>
            rcases hpreparation.row_backward hrow' with hold | ⟨rfl, -⟩
            · cases hbefore.symm.trans hold
            · exact ⟨mutation, hpreparation.prepared, rfl, (hpreparation.fresh _ _ _ hbefore hrow').2.1.symm⟩
      · rcases hpreparation.prepared_cases hother with hold | rfl
        · exact hs.uid hold
        · rcases hready.kind with ⟨hcreates, -⟩ | ⟨head, control, hsnapshot, -⟩
          · exact hcreates.secretUid
          · obtain ⟨current, hcurrent, -⟩ := hsnapshot.current
            exact (h.before.heads.uid hcurrent).2
      · rcases hpreparation.prepared_cases hother with hold | rfl
        · exact hupdate hold hsome
        · cases hpreparation.acquired with
          | created hnone hhead hcreates => exact (hsome hcreates.expected).elim
          | leased head hbefore hafter hcommitted hexpected => exact ⟨_, hafter, hcommitted⟩
      · have hborn : ∀ {other : PreparedMutation}, s.Prepared other →
            other.expectedControlVersionId = none → mutation.expectedControlVersionId = none →
              other.secretUid ≠ mutation.secretUid := by
          intro other hother hnone hnone'
          rcases hready.kind with ⟨-, -, hunborn, -⟩ | ⟨head, control, -, hupdates⟩
          · exact hunborn other hother hnone
          · cases hnone'.symm.trans hupdates.expected
        rcases hpreparation.prepared_cases h₁ with hold₁ | rfl
        · rcases hpreparation.prepared_cases h₂ with hold₂ | rfl
          · exact hs.create hold₁ hold₂ hnone hnone' huid
          · exact (hborn hold₁ hnone hnone' huid).elim
        · rcases hpreparation.prepared_cases h₂ with hold₂ | rfl
          · exact (hborn hold₂ hnone' hnone huid.symm).elim
          · rfl
  | @committed completed writes sequence extendedAt head hq hcommitting =>
      have hprepared : ∀ {mutation}, s'.Prepared mutation → s.Prepared mutation :=
        fun hprepared => hcommitting.prepared hprepared
      refine ⟨fun {u sk row'} hrow' hnot' => ?_, fun hprepared' => hs.uid (hprepared hprepared'),
        fun hprepared' => hupdate (hprepared hprepared'),
        fun h₁ h₂ => hs.create (hprepared h₁) (hprepared h₂)⟩
      cases hcommitting.effect.rows u sk with
      | same hsame => exact hrow (hsame.symm.trans hrow') hnot'
      | ready row object hu hsettles hbefore hprepared hafter =>
          obtain rfl := Option.some.inj (hrow'.symm.trans hafter)
          exact (hnot' (.inl rfl)).elim
      | candidate row due hu hbefore hready hafter =>
          obtain rfl := Option.some.inj (hrow'.symm.trans hafter)
          exact (hnot' (.inl hready)).elim

theorem Initial.origins (h : Initial s) : Origins s where
  row hrow hnot := (hnot (h.row hrow).2.1).elim
  uid hprepared := (h.happened hprepared).elim
  update hprepared := (h.happened hprepared).elim
  create hprepared := (h.happened hprepared).elim

/-- **The origins are known in every run.** -/
theorem origins_of_run (hinit : Initial init) {w : ServiceWorld} {actions : List ServiceAction}
    (hrun : service.run (World.initial init) actions = some w) : Origins w.store :=
  @run_keeps init hinit _ _ [] _ rfl hrun _ (fun _ _ hstep => hstep.origins) hinit.origins

end Hemlig
