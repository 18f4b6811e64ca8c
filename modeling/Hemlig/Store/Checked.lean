import Mathlib.Logic.Basic
import Mathlib.Data.List.Pairwise

/-!
# Steps that check before they act

A program makes its steps one after another, each only if a check of the state passes.  Whether
all of them are made can be read off the state it starts from, when one step can do no more to
the check of another than decide it: every check passes at the start, and no two steps are in
each other's way.  So the order of the steps does not count.
-/

namespace Hemlig.Store

variable {σ α ε : Type}

/-- What the steps check, and how one step changes what another one checks.

* `Given`: what the state of the start promises to a step that is still to come.
* `Ready`: the check of a step.
* `Distinct`: what is known of any two steps.
* `Compatible`: the two steps are not in each other's way. -/
structure Checked (perform : σ → α → Except ε σ) (Given Ready : σ → α → Prop)
    (Distinct Compatible : α → α → Prop) : Prop where
  ready : ∀ {s a}, Given s a → ((∃ s', perform s a = .ok s') ↔ Ready s a)
  given : ∀ {s s' a b}, Given s a → Given s b → Distinct a b → perform s a = .ok s' → Given s' b
  next : ∀ {s s' a b}, Given s a → Given s b → Distinct a b → perform s a = .ok s' →
    (Ready s' b ↔ Ready s b ∧ Compatible a b)

variable {perform : σ → α → Except ε σ} {Given Ready : σ → α → Prop}
  {Distinct Compatible : α → α → Prop}

/-- **All steps are made exactly when each is ready at the start and none hinders another.** -/
theorem Checked.foldlM_ok (h : Checked perform Given Ready Distinct Compatible) {steps : List α}
    {s : σ} (hgiven : ∀ a ∈ steps, Given s a) (hdistinct : steps.Pairwise Distinct) :
    (∃ s', steps.foldlM perform s = .ok s') ↔
      (∀ a ∈ steps, Ready s a) ∧ steps.Pairwise Compatible := by
  induction steps generalizing s with
  | nil => simp [pure, Except.pure]
  | cons a steps ih =>
      rw [List.pairwise_cons] at hdistinct
      obtain ⟨hfirst, hlater⟩ := hdistinct
      have ha : Given s a := hgiven a List.mem_cons_self
      have hrest : ∀ b ∈ steps, Given s b := fun b hb => hgiven b (List.mem_cons_of_mem _ hb)
      rw [List.foldlM_cons, List.forall_mem_cons, List.pairwise_cons]
      cases hperform : perform s a with
      | error issue =>
          have hstuck : ¬ Ready s a := by
            rw [← h.ready ha, hperform]
            simp
          constructor
          · rintro ⟨s', hs'⟩
            cases hs'
          · intro hall
            exact absurd hall.1.1 hstuck
      | ok s' =>
          have hready : Ready s a := (h.ready ha).mp ⟨s', hperform⟩
          have hgiven' : ∀ b ∈ steps, Given s' b := fun b hb =>
            h.given ha (hrest b hb) (hfirst b hb) hperform
          have hnext : ∀ b ∈ steps, Ready s' b ↔ Ready s b ∧ Compatible a b := fun b hb =>
            h.next ha (hrest b hb) (hfirst b hb) hperform
          show (∃ end', steps.foldlM perform s' = .ok end') ↔ _
          rw [ih hgiven' hlater]
          constructor
          · intro hall
            refine ⟨⟨hready, fun b hb => ?_⟩, fun b hb => ?_, hall.2⟩
            · exact ((hnext b hb).mp (hall.1 b hb)).1
            · exact ((hnext b hb).mp (hall.1 b hb)).2
          · intro hall
            refine ⟨fun b hb => ?_, hall.2.2⟩
            exact (hnext b hb).mpr ⟨hall.1.2 b hb, hall.2.1 b hb⟩

end Hemlig.Store
