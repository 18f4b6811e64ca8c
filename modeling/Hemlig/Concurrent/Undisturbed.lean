import Hemlig.Concurrent.Interleaving

/-!
# Undisturbed programs

A program that runs to its end while no other process takes a step, with a fixed choice
for each request.  It is one of the runs of the system (`run_of_finish`).
-/

namespace Hemlig.Concurrent

variable {Q : Type} {A : Q → Type} {ε α β γ σ χ ι η : Type}

namespace System

variable (S : System Q A ε α σ χ ι η) (pid : ℕ) (choose : Q → χ)

/-- Run a program to its end; `none` where a choice is not possible. -/
def finish : Program Q A ε β → σ → Option (Except ε β × σ)
  | .ret value, store => some (.ok value, store)
  | .raise error, store => some (.error error, store)
  | .call q next, store =>
      (S.exec pid q (choose q) store).bind fun outcome => finish (next outcome.1) outcome.2

variable {S pid choose}

@[simp] theorem finish_ret (value : β) (store : σ) :
    S.finish pid choose (.ret value) store = some (.ok value, store) := rfl

@[simp] theorem finish_raise (error : ε) (store : σ) :
    S.finish pid choose (.raise error : Program Q A ε β) store = some (.error error, store) := rfl

theorem finish_call (q : Q) (next : A q → Program Q A ε β) (store : σ) :
    S.finish pid choose (.call q next) store =
      (S.exec pid q (choose q) store).bind fun outcome =>
        S.finish pid choose (next outcome.1) outcome.2 := rfl

/-- What follows a program runs after it. -/
theorem finish_bind (program : Program Q A ε β) (next : β → Program Q A ε γ) (store : σ) :
    S.finish pid choose (program.bind next) store =
      (S.finish pid choose program store).bind fun
        | (.ok value, after) => S.finish pid choose (next value) after
        | (.error error, after) => some (.error error, after) := by
  induction program generalizing store with
  | ret value => rfl
  | raise error => rfl
  | call q continuation ih =>
      simp only [Program.bind, finish_call, Option.bind_assoc]
      exact congrArg _ (funext fun outcome => ih outcome.1 outcome.2)

theorem finish_bind_ok {program : Program Q A ε β} {next : β → Program Q A ε γ} {store after : σ}
    {value : β} (h : S.finish pid choose program store = some (.ok value, after)) :
    S.finish pid choose (program.bind next) store = S.finish pid choose (next value) after := by
  rw [finish_bind, h]
  rfl

/-- What a composite returned, its second part returned after its first. -/
theorem finish_bind_inv {program : Program Q A ε β} {next : β → Program Q A ε γ} {store after : σ}
    {value : γ} (h : S.finish pid choose (program.bind next) store = some (.ok value, after)) :
    ∃ first middle, S.finish pid choose program store = some (.ok first, middle) ∧
      S.finish pid choose (next first) middle = some (.ok value, after) := by
  rw [finish_bind] at h
  obtain ⟨⟨outcome, middle⟩, hfirst, hrest⟩ := Option.bind_eq_some_iff.mp h
  cases outcome with
  | ok first => exact ⟨first, middle, hfirst, hrest⟩
  | error error => cases hrest

theorem finish_bind_error {program : Program Q A ε β} {next : β → Program Q A ε γ}
    {store after : σ} {error : ε}
    (h : S.finish pid choose program store = some (.error error, after)) :
    S.finish pid choose (program.bind next) store = some (.error error, after) := by
  rw [finish_bind, h]
  rfl

/-- A handler runs after an error. -/
theorem finish_recover (program : Program Q A ε β) (handler : ε → Program Q A ε β) (store : σ) :
    S.finish pid choose (program.recover handler) store =
      (S.finish pid choose program store).bind fun
        | (.ok value, after) => some (.ok value, after)
        | (.error error, after) => S.finish pid choose (handler error) after := by
  induction program generalizing store with
  | ret value => rfl
  | raise error => rfl
  | call q continuation ih =>
      simp only [Program.recover, finish_call, Option.bind_assoc]
      exact congrArg _ (funext fun outcome => ih outcome.1 outcome.2)

/-- **An undisturbed run is a run of the system.** -/
theorem run_of_finish {input : ι} {program : Program Q A ε α} {w : World Q A ε α σ ι}
    {outcome : Except ε α} {store : σ} (hproc : w.procs pid = some (input, program))
    (h : S.finish pid choose program w.store = some (outcome, store)) :
    ∃ choices : List χ, ∃ w', S.run w (choices.map (.step pid)) = some w' ∧ w'.store = store ∧
      w'.procs pid = some (input, .ofExcept outcome) := by
  induction program generalizing w with
  | ret value =>
      simp only [finish_ret, Option.some.injEq, Prod.mk.injEq] at h
      obtain ⟨rfl, rfl⟩ := h
      exact ⟨[], w, rfl, rfl, hproc⟩
  | raise error =>
      simp only [finish_raise, Option.some.injEq, Prod.mk.injEq] at h
      obtain ⟨rfl, rfl⟩ := h
      exact ⟨[], w, rfl, rfl, hproc⟩
  | call q next ih =>
      rw [finish_call] at h
      obtain ⟨⟨answer, after⟩, hexec, hrest⟩ := Option.bind_eq_some_iff.mp h
      obtain ⟨choices, w', hrun, hstore, hlast⟩ := ih answer
        (w := ⟨after, Function.update w.procs pid (some (input, next answer))⟩) (by simp) hrest
      refine ⟨choose q :: choices, w', ?_, hstore, hlast⟩
      simp [run_cons, act, hproc, hexec, hrun]

end System

end Hemlig.Concurrent
