import Hemlig.Concurrent.Program
import Mathlib.Data.List.Induction

/-!
# Interleaved runs

A system is a shared store, a meaning for each request, and the program each
input starts.  A world is a store together with the processes: what each was
started with and what is left of its program.  One step of a run

* starts a process under an identifier not used before,
* lets one process issue its next request, or
* is an event of the environment.

A request may have several outcomes (which identifier is fresh, where a page
ends, which write meets another transaction); the choice is part of the action,
so that `run` is a function of the actions and a run can be evaluated.  A process
that is never scheduled again has crashed.
-/

namespace Hemlig.Concurrent

/-- The meaning of requests, and the programs that issue them. -/
structure System (Q : Type) (A : Q → Type) (ε α σ χ ι η : Type) where
  /-- The answer to a request of a process, and the store it leaves. -/
  exec : ℕ → (q : Q) → χ → σ → Option (A q × σ)
  /-- The program of a process started with an input. -/
  code : ι → Program Q A ε α
  /-- What the store records about an input when its process starts. -/
  register : ι → σ → σ
  /-- What happens to the store without any process. -/
  environment : η → σ → Option σ

/-- A store and the processes that share it. -/
structure World (Q : Type) (A : Q → Type) (ε α σ ι : Type) where
  store : σ
  procs : ℕ → Option (ι × Program Q A ε α)

/-- One step of a run. -/
inductive Action (χ ι η : Type) where
  | start (pid : ℕ) (input : ι)
  | step (pid : ℕ) (choice : χ)
  | environment (event : η)

variable {Q : Type} {A : Q → Type} {ε α σ χ ι η : Type}

/-- The world before any process has started. -/
def World.initial (store : σ) : World Q A ε α σ ι where
  store := store
  procs _ := none

namespace System

variable (S : System Q A ε α σ χ ι η)

/-- The effect of one action, if it is possible. -/
def act (w : World Q A ε α σ ι) : Action χ ι η → Option (World Q A ε α σ ι)
  | .start pid input =>
      match w.procs pid with
      | some _ => none
      | none =>
          some ⟨S.register input w.store,
            Function.update w.procs pid (some (input, S.code input))⟩
  | .step pid choice =>
      match w.procs pid with
      | some (input, .call q next) =>
          (S.exec pid q choice w.store).map fun outcome =>
            ⟨outcome.2, Function.update w.procs pid (some (input, next outcome.1))⟩
      | _ => none
  | .environment event =>
      (S.environment event w.store).map fun store => { w with store := store }

/-- A finite run: the actions one after the other. -/
def run (w : World Q A ε α σ ι) : List (Action χ ι η) → Option (World Q A ε α σ ι)
  | [] => some w
  | action :: rest => (S.act w action).bind fun next => run next rest

@[simp] theorem run_nil (w : World Q A ε α σ ι) : S.run w [] = some w := rfl

theorem run_cons (w : World Q A ε α σ ι) (action : Action χ ι η) (rest : List (Action χ ι η)) :
    S.run w (action :: rest) = (S.act w action).bind fun next => S.run next rest := rfl

theorem run_append (w : World Q A ε α σ ι) (before after : List (Action χ ι η)) :
    S.run w (before ++ after) = (S.run w before).bind fun middle => S.run middle after := by
  induction before generalizing w with
  | nil => rfl
  | cons action rest ih =>
      rw [List.cons_append, run_cons, run_cons]
      cases S.act w action with
      | none => rfl
      | some next => exact ih next

theorem run_concat {w w' : World Q A ε α σ ι} {before : List (Action χ ι η)}
    {action : Action χ ι η} (h : S.run w (before ++ [action]) = some w') :
    ∃ middle, S.run w before = some middle ∧ S.act middle action = some w' := by
  rw [run_append] at h
  obtain ⟨middle, hmiddle, hlast⟩ := Option.bind_eq_some_iff.mp h
  refine ⟨middle, hmiddle, ?_⟩
  obtain ⟨next, hnext, heq⟩ := Option.bind_eq_some_iff.mp hlast
  rw [hnext, Option.some.inj heq]

/-- A store from which a world is reached by some run. -/
def Reachable (init w : World Q A ε α σ ι) : Prop :=
  ∃ actions, S.run init actions = some w

theorem Reachable.step {init w w' : World Q A ε α σ ι} {action : Action χ ι η}
    (h : S.Reachable init w) (hact : S.act w action = some w') : S.Reachable init w' := by
  obtain ⟨actions, hrun⟩ := h
  exact ⟨actions ++ [action], by rw [run_append, hrun]; simp [run_cons, hact]⟩

/-- The three kinds of action, each with what it did. -/
theorem act_cases {w w' : World Q A ε α σ ι} {action : Action χ ι η}
    (h : S.act w action = some w') :
    (∃ pid input, action = .start pid input ∧ w.procs pid = none ∧
      w' = ⟨S.register input w.store,
        Function.update w.procs pid (some (input, S.code input))⟩) ∨
    (∃ pid choice input q next answer store, action = .step pid choice ∧
      w.procs pid = some (input, .call q next) ∧
      S.exec pid q choice w.store = some (answer, store) ∧
      w' = ⟨store, Function.update w.procs pid (some (input, next answer))⟩) ∨
    (∃ event store, action = .environment event ∧ S.environment event w.store = some store ∧
      w' = { w with store := store }) := by
  cases action with
  | start pid input =>
      cases hproc : w.procs pid with
      | none => exact .inl ⟨pid, input, rfl, hproc, by simpa [act, hproc] using h.symm⟩
      | some process => simp [act, hproc] at h
  | step pid choice =>
      simp only [act] at h
      split at h
      · rename_i input q next hproc
        obtain ⟨⟨answer, store⟩, hexec, hw⟩ := Option.map_eq_some_iff.mp h
        exact .inr (.inl ⟨pid, choice, input, q, next, answer, store, rfl, hproc, hexec, hw.symm⟩)
      · simp at h
  | environment event =>
      obtain ⟨store, hstore, hw⟩ := Option.map_eq_some_iff.mp h
      exact .inr (.inr ⟨event, store, rfl, hstore, hw.symm⟩)

/-- **Invariants of runs.**  What holds of the first world and is kept by every
action holds of every world of a run. -/
theorem run_induction {init w : World Q A ε α σ ι} {actions : List (Action χ ι η)}
    (motive : List (Action χ ι η) → World Q A ε α σ ι → Prop)
    (hrun : S.run init actions = some w) (hinit : motive [] init)
    (hstep : ∀ before action middle next, before ++ [action] <+: actions →
      S.run init before = some middle → S.act middle action = some next →
      motive before middle → motive (before ++ [action]) next) :
    motive actions w := by
  suffices h : ∀ before, before <+: actions → ∀ w', S.run init before = some w' →
      motive before w' from h actions List.prefix_rfl w hrun
  intro before
  induction before using List.reverseRecOn with
  | nil =>
      intro _ w' hw'
      cases hw'
      exact hinit
  | append_singleton before action ih =>
      intro hsub w' hw'
      obtain ⟨middle, hmiddle, hact⟩ := S.run_concat hw'
      exact hstep before action middle w' hsub hmiddle hact
        (ih ((List.prefix_append before [action]).trans hsub) middle hmiddle)

/-! ## Running one process alone -/

/-- Run one program with nothing interleaved, one choice for each request, until
it returns, raises, or the choices end. -/
def solo (pid : ℕ) : Program Q A ε α → List χ → σ → Option (Program Q A ε α × σ)
  | .call q next, choice :: rest, store =>
      (S.exec pid q choice store).bind fun outcome =>
        solo pid (next outcome.1) rest outcome.2
  | program, _, store => some (program, store)

/-- A solo run is a run of the system in which only this process steps. -/
theorem run_of_solo {pid : ℕ} {input : ι} {program last : Program Q A ε α} {choices : List χ}
    {w : World Q A ε α σ ι} {store : σ} (hproc : w.procs pid = some (input, program))
    (h : S.solo pid program choices w.store = some (last, store)) :
    ∃ actions w', S.run w actions = some w' ∧ w'.store = store ∧
      w'.procs pid = some (input, last) := by
  induction choices generalizing program w with
  | nil =>
      refine ⟨[], w, rfl, ?_⟩
      cases program <;> simp [solo] at h <;> simp [← h.1, ← h.2, hproc]
  | cons choice rest ih =>
      cases program with
      | ret value =>
          simp only [solo, Option.some.injEq, Prod.mk.injEq] at h
          exact ⟨[], w, rfl, h.2, h.1 ▸ hproc⟩
      | raise error =>
          simp only [solo, Option.some.injEq, Prod.mk.injEq] at h
          exact ⟨[], w, rfl, h.2, h.1 ▸ hproc⟩
      | call q next =>
          simp only [solo] at h
          obtain ⟨⟨answer, store'⟩, hexec, hrest⟩ := Option.bind_eq_some_iff.mp h
          obtain ⟨actions, w', hrun, hstore, hlast⟩ := ih
            (w := ⟨store', Function.update w.procs pid (some (input, next answer))⟩)
            (by simp) hrest
          refine ⟨.step pid choice :: actions, w', ?_, hstore, hlast⟩
          simp [run_cons, act, hproc, hexec, hrun]

end System

end Hemlig.Concurrent
