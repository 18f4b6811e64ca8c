import Hemlig.Verification.Verified

/-!
# Steps of a run

Every action of a run is one of four: it prepares a mutation, commits one, undoes a
create, or is gentle.  What the first three can do is said by `Preparation`,
`Committing` and `Undone`.
-/

namespace Hemlig

open Concurrent

variable {init s s' : Cloud}

/-- One action of a run, by its store before and after. -/
structure Stepped (init s s' : Cloud) : Prop where
  before : Invariant init s
  after : Invariant init s'
  evolves : ∃ actor, Evolves actor s s'
  transition : ∃ pid q, Transition init pid q s s'

theorem Quiet.stepped (hinv : Invariant init s) (h : Quiet init s s') : Stepped init s s' :=
  ⟨hinv, h.invariant, ⟨none, h.evolves none⟩, ⟨0, .now, .gentle h.gentle⟩⟩

/-- **Every action of a run is such a step.** -/
theorem stepped_of_act (hinit : Initial init) {w w' : ServiceWorld} {actions : List ServiceAction}
    (hrun : service.run (World.initial init) actions = some w) {action : ServiceAction}
    (hact : service.act w action = some w') : Stepped init w.store w'.store := by
  have hinv := invariant_of_run hinit hrun
  rcases service.act_cases hact with ⟨pid, input, rfl, -, rfl⟩ |
    ⟨pid, choice, input, q, next, answer, after, rfl, hproc, hexec, rfl⟩ |
    ⟨event, after, rfl, hevent, rfl⟩
  · exact (quiet_register hinv input).stepped hinv
  · have hkept := kept_exec hinv (ready_of_run hinit hrun hproc) hexec
    exact ⟨hinv, hkept.invariant, ⟨_, hkept.evolves⟩, ⟨pid, q, hkept.transition⟩⟩
  · exact (quiet_event hinv hevent).stepped hinv

/-- What every step keeps, the rest of a run keeps. -/
theorem run_keeps (hinit : Initial init) {w w' : ServiceWorld} {actions later : List ServiceAction}
    (hrun : service.run (World.initial init) actions = some w)
    (hlater : service.run w later = some w') {P : Cloud → Prop}
    (hstep : ∀ s s', Stepped init s s' → P s → P s') (hstart : P w.store) : P w'.store := by
  refine service.run_induction (fun _ w => P w.store) hlater hstart ?_
  intro before action middle next _ hmiddle hact hP
  have hreached : service.run (World.initial init) (actions ++ before) = some middle := by
    rw [service.run_append, hrun]
    exact hmiddle
  exact hstep _ _ (stepped_of_act hinit hreached hact) hP

/-- The world that a possible run reaches. -/
def reached (init : Cloud) (actions : List ServiceAction)
    (h : (service.run (World.initial init) actions).isSome = true) : ServiceWorld :=
  (service.run (World.initial init) actions).get h

theorem run_reached {actions : List ServiceAction}
    (h : (service.run (World.initial init) actions).isSome = true) :
    service.run (World.initial init) actions = some (reached init actions h) :=
  (Option.some_get h).symm

/-- What was checked of the world that a run reaches. -/
theorem reached_of_any {actions : List ServiceAction} {p : ServiceWorld → Prop} [DecidablePred p]
    (h : (service.run (World.initial init) actions).any (fun w => decide (p w)) = true) :
    p (reached init actions (Option.isSome_of_any h)) :=
  of_decide_eq_true (Option.get_of_any_eq_true _ _ h)

theorem run_reached_append {actions later : List ServiceAction}
    (h : (service.run (World.initial init) actions).isSome = true)
    (hlater : (service.run (World.initial init) (actions ++ later)).isSome = true) :
    service.run (reached init actions h) later = some (reached init (actions ++ later) hlater) := by
  have hwhole := run_reached hlater
  rw [service.run_append, run_reached h] at hwhole
  exact hwhole

namespace Stepped

variable (h : Stepped init s s')
include h

theorem history_extends : s.history <+: s'.history :=
  h.evolves.elim fun _ hevolves => hevolves.history

/-- **Only an operation that holds its lease commits.** -/
theorem commits (u : String) : ∃ later, s'.commits u = s.commits u ++ later ∧
    ∀ completed ∈ later, ¬ s.Dead completed.prepared.operationId := by
  have hnone : s'.commits u = s.commits u → ∃ later, s'.commits u = s.commits u ++ later ∧
      ∀ completed ∈ later, ¬ s.Dead completed.prepared.operationId :=
    fun hsame => ⟨[], by rw [hsame, List.append_nil], fun _ hmem => absurd hmem List.not_mem_nil⟩
  obtain ⟨pid, q, htransition⟩ := h.transition
  cases htransition with
  | gentle hgentle => exact hnone (hgentle.history.commits u)
  | undone hq hundone => exact hnone (hundone.historyKept.commits u)
  | prepared hq hready hpreparation => exact hnone (by simp [Cloud.commits, hpreparation.history])
  | @committed completed writes sequence extendedAt head hq hcommitting =>
      by_cases hu : u = completed.prepared.secretUid
      · subst hu
        refine ⟨[completed], hcommitting.commits_self, fun other hother hdead => ?_⟩
        rw [List.mem_singleton.mp hother] at hdead
        exact hdead.2 _ _ hcommitting.before hcommitting.owner
      · exact hnone (hcommitting.commits_other hu)

/-- The step that records a commit is that commit. -/
theorem committing {completed : CompletedMutation} {sequence : ℕ} {extendedAt : Option Time}
    (hhistory : s'.history =
      s.history ++ [⟨s.now, s.known, .committed completed sequence extendedAt⟩]) :
    ∃ pid head, Committing init s s' completed sequence extendedAt pid head := by
  have hcommits : s'.commits completed.prepared.secretUid =
      s.commits completed.prepared.secretUid ++ [completed] := by simp [Cloud.commits, hhistory]
  have hne : s'.commits completed.prepared.secretUid ≠ s.commits completed.prepared.secretUid := by
    simp [hcommits]
  obtain ⟨pid, q, htransition⟩ := h.transition
  cases htransition with
  | gentle hgentle => exact (hne (hgentle.history.commits _)).elim
  | undone hq hundone => exact (hne (hundone.historyKept.commits _)).elim
  | prepared hq hready hpreparation =>
      simp [hpreparation.history] at hhistory
  | @committed other writes sequence' extendedAt' head hq hcommitting =>
      rw [hcommitting.effect.history] at hhistory
      simp only [List.append_cancel_left_eq, List.cons.injEq, Entry.mk.injEq, Event.committed.injEq,
        true_and, and_true] at hhistory
      obtain ⟨rfl, rfl, rfl⟩ := hhistory
      exact ⟨pid, head, hcommitting⟩

end Stepped

end Hemlig
