import Hemlig.Verification.Agreement
import Hemlig.Verification.Steps

/-!
# The documents of a secret

Every control and payload revision repeats the secret that it belongs to, and a secret that
is active has a payload.  A row gets its document when its mutation is prepared and keeps it
for good, so only a preparation has to be looked at.
-/

namespace Hemlig

open Concurrent DynamoRepository

variable {init s s' : Cloud}

/-! ## Steps -/

/-- A revision that was there before belongs to the secret still. -/
theorem Documented.kept (hs : Documented s) {actor : Option ℕ} (hevolves : Evolves actor s s')
    {u : String} {sk : WorkflowSk} {row : StoredWorkflow} (hrow : s.workflow u sk = some row) :
    (∀ control, row.serialized = .control control → control.Documented u) ∧
      ∀ payload, row.serialized = .payload payload → ∃ head, s'.head u = some head ∧
        head.Committed ∧ payload.Belongs u head.secretId head.environment := by
  refine ⟨fun control hcontrol => hs.control hrow hcontrol, fun payload hpayload => ?_⟩
  obtain ⟨head, hhead, hcommitted, hbelongs⟩ := hs.payload hrow hpayload
  obtain ⟨head', hhead', hcommitted', -⟩ := hevolves.heads hhead hcommitted
  obtain ⟨henvironment, hsecretId⟩ := hevolves.identity hhead hhead'
  rw [← henvironment, ← hsecretId] at hbelongs
  exact ⟨head', hhead', hcommitted', hbelongs⟩

/-- A step that writes no document. -/
theorem Documented.of_rows (hs : Documented s) {actor : Option ℕ} (hevolves : Evolves actor s s')
    (hrows : ∀ {u sk row'}, s'.workflow u sk = some row' →
      ∃ row, s.workflow u sk = some row ∧ row'.serialized = row.serialized) : Documented s' := by
  constructor
  · intro u sk row' control hrow' hserialized
    obtain ⟨row, hrow, hsame⟩ := hrows hrow'
    exact (hs.kept hevolves hrow).1 control (hsame.symm.trans hserialized)
  · intro u sk row' payload hrow' hserialized
    obtain ⟨row, hrow, hsame⟩ := hrows hrow'
    exact (hs.kept hevolves hrow).2 payload (hsame.symm.trans hserialized)

/-- The control revision of a mutation is documented, if the one it was made from is. -/
theorem PrepareReady.documented {pid : ℕ} {mutation : PreparedMutation}
    (hready : PrepareReady pid s mutation) (hs : Documented s) :
    mutation.control.Documented mutation.secretUid := by
  have hwell : mutation.WellFormed := hready.wellFormed
  rcases hready.kind with ⟨hcreates, -⟩ | ⟨head, prior, hsnapshot, hupdates⟩
  · exact ⟨hcreates.schemaVersion, hwell.uid, fun hactive => (hcreates.inactive hactive).elim⟩
  · obtain ⟨row, hrow, -, hserialized⟩ := hsnapshot.settled
    have hprior : prior.Documented mutation.secretUid := hs.control hrow hserialized
    refine ⟨?_, hwell.uid, fun hactive => ?_⟩
    · rcases hupdates.schemaVersion with hone | hsame
      · exact hone
      · exact hsame.trans hprior.schemaVersion
    · -- An active revision carries a payload, or keeps the one of an active revision.
      cases hpayload : mutation.payload with
      | some payload =>
          rw [(hwell.payload payload hpayload).2]
          rfl
      | none =>
          have hbefore : prior.state = .active := by
            simpa [hpayload] using hupdates.active hactive
          rw [hupdates.payloadVersionId hpayload]
          exact hprior.active hbefore

theorem Stepped.documented (h : Stepped init s s') (hs : Documented s) : Documented s' := by
  obtain ⟨actor, hevolves⟩ := h.evolves
  obtain ⟨pid, q, htransition⟩ := h.transition
  cases htransition with
  | gentle hgentle =>
      refine hs.of_rows hevolves fun hrow' => ?_
      obtain ⟨row, hrow, hkept⟩ := hgentle.rows.backward hrow'
      exact ⟨row, hrow, hkept.step.serialized⟩
  | undone hq hundone =>
      exact hs.of_rows hevolves fun {u sk row'} hrow' => ⟨row', (hundone.row u sk).symm.trans hrow', rfl⟩
  | @prepared mutation now hq hready hpreparation =>
      have hcontrol := hready.documented hs
      have hnew : ∀ {u sk row'}, s'.workflow u sk = some row' → s.workflow u sk = none →
          u = mutation.secretUid ∧ mutation.Writes row'.serialized := by
        intro u sk row' hrow' hnone
        refine ⟨?_, (hpreparation.fresh u sk row' hnone hrow').2.2⟩
        rcases hpreparation.row_backward hrow' with hold | ⟨hu, -⟩
        · cases hold.symm.trans hnone
        · exact hu
      have hold : ∀ {u sk row row'}, s'.workflow u sk = some row' → s.workflow u sk = some row →
          row' = row := fun hrow' hrow =>
        Option.some.inj (hrow'.symm.trans (hpreparation.row_forward hrow))
      constructor
      · intro u sk row' control hrow' hserialized
        cases hrow : s.workflow u sk with
        | some row => exact hs.control hrow (hold hrow' hrow ▸ hserialized)
        | none =>
            obtain ⟨rfl, -⟩ := hnew hrow' hrow
            exact hpreparation.fresh_control hrow hrow' hserialized ▸ hcontrol
      · intro u sk row' payload hrow' hserialized
        cases hrow : s.workflow u sk with
        | some row =>
            exact (hs.kept hevolves hrow).2 payload (hold hrow' hrow ▸ hserialized)
        | none =>
            obtain ⟨rfl, hcontrol | ⟨prepared, hprepared, hbody⟩⟩ := hnew hrow' hrow
            · cases hserialized.symm.trans hcontrol
            · obtain rfl : payload = prepared.revision :=
                ObjectBody.payload.inj (hserialized.symm.trans hbody)
              have hbelongs := hready.wellFormed.belongs prepared hprepared
              -- A mutation with a payload updates a secret that is committed.
              rcases hready.kind with ⟨hcreates, -⟩ | ⟨head, prior, hsnapshot, hupdates⟩
              · cases hprepared.symm.trans hcreates.payload
              · obtain ⟨current, hcurrent, hcommitted, henvironment, hsecretId, -⟩ := hsnapshot.current
                obtain ⟨current', hcurrent', hcommitted', -⟩ := hevolves.heads hcurrent hcommitted
                obtain ⟨henvironment', hsecretId'⟩ := hevolves.identity hcurrent hcurrent'
                refine ⟨current', hcurrent', hcommitted', ?_⟩
                rw [henvironment', hsecretId', henvironment, hsecretId, ← hupdates.environment,
                  ← hupdates.secretId]
                exact hbelongs
  | @committed completed writes sequence extendedAt head hq hcommitting =>
      refine hs.of_rows hevolves fun {u sk row'} hrow' => ?_
      cases hcommitting.effect.rows u sk with
      | same hsame => exact ⟨row', hsame.symm.trans hrow', rfl⟩
      | ready row object hu hsettles hbefore hprepared hafter =>
          obtain rfl := Option.some.inj (hrow'.symm.trans hafter)
          exact ⟨row, hbefore, rfl⟩
      | candidate row due hu hbefore hready hafter =>
          obtain rfl := Option.some.inj (hrow'.symm.trans hafter)
          exact ⟨row, hbefore, rfl⟩

end Hemlig
