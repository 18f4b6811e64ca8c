import Hemlig.Concurrent.Interleaving

/-!
# Programs on a tape

A program that runs to its end alone, with the choices of a tape for its requests: one choice for
each request, all of them used.  In contrast to a fixed choice for each request, the environment
may answer one request differently each time.
-/

namespace Hemlig.Concurrent

variable {Q : Type} {A : Q → Type} {ε α β γ σ χ ι η : Type}

namespace System

variable (S : System Q A ε α σ χ ι η) (pid : ℕ)

/-- Run a program to its end on a tape; `none` where a choice is not possible, or where the
tape is too short or too long. -/
def onTape : Program Q A ε β → List χ → σ → Option (Except ε β × σ)
  | .ret value, [], store => some (.ok value, store)
  | .raise error, [], store => some (.error error, store)
  | .call q next, choice :: tape, store =>
      (S.exec pid q choice store).bind fun outcome => onTape (next outcome.1) tape outcome.2
  | _, _, _ => none

variable {S pid} {program : Program Q A ε β} {next : β → Program Q A ε γ}
  {handler : ε → Program Q A ε β} {front back tape : List χ} {store middle after : σ}

theorem onTape_ret {value : β} {outcome : Except ε β}
    (h : S.onTape pid (.ret value) tape store = some (outcome, after)) :
    tape = [] ∧ outcome = .ok value ∧ after = store := by
  cases tape with
  | nil =>
      obtain ⟨rfl, rfl⟩ := Prod.mk.inj (Option.some.inj h)
      exact ⟨rfl, rfl, rfl⟩
  | cons choice tape => cases h

theorem onTape_raise {error : ε} {outcome : Except ε β}
    (h : S.onTape pid (.raise error) tape store = some (outcome, after)) :
    tape = [] ∧ outcome = .error error ∧ after = store := by
  cases tape with
  | nil =>
      obtain ⟨rfl, rfl⟩ := Prod.mk.inj (Option.some.inj h)
      exact ⟨rfl, rfl, rfl⟩
  | cons choice tape => cases h

/-- The first request of a program, and what follows it. -/
theorem onTape_call {q : Q} {continuation : A q → Program Q A ε β} {outcome : Except ε β}
    (h : S.onTape pid (.call q continuation) tape store = some (outcome, after)) :
    ∃ choice rest answer middle, tape = choice :: rest ∧
      S.exec pid q choice store = some (answer, middle) ∧
        S.onTape pid (continuation answer) rest middle = some (outcome, after) := by
  cases tape with
  | nil => cases h
  | cons choice rest =>
      obtain ⟨⟨answer, middle⟩, hexec, hrest⟩ := Option.bind_eq_some_iff.mp h
      exact ⟨choice, rest, answer, middle, rfl, hexec, hrest⟩

/-- What follows a program uses the rest of the tape. -/
theorem onTape_bind {value : β}
    (h : S.onTape pid program front store = some (.ok value, middle)) :
    S.onTape pid (program.bind next) (front ++ back) store =
      S.onTape pid (next value) back middle := by
  induction program generalizing front store with
  | ret first =>
      obtain ⟨rfl, heq, rfl⟩ := onTape_ret h
      rw [Except.ok.inj heq]
      rfl
  | raise error =>
      obtain ⟨-, heq, -⟩ := onTape_raise h
      cases heq
  | call q continuation ih =>
      obtain ⟨choice, rest, answer, between, rfl, hexec, hrest⟩ := onTape_call h
      show (S.exec pid q choice store).bind _ = _
      rw [hexec]
      exact ih answer hrest

/-- Nothing follows an error. -/
theorem onTape_bind_error {error : ε}
    (h : S.onTape pid program tape store = some (.error error, after)) :
    S.onTape pid (program.bind next) tape store = some (.error error, after) := by
  induction program generalizing tape store with
  | ret first =>
      obtain ⟨-, heq, -⟩ := onTape_ret h
      cases heq
  | raise error' =>
      obtain ⟨rfl, heq, rfl⟩ := onTape_raise h
      rw [Except.error.inj heq]
      rfl
  | call q continuation ih =>
      obtain ⟨choice, rest, answer, between, rfl, hexec, hrest⟩ := onTape_call h
      show (S.exec pid q choice store).bind _ = _
      rw [hexec]
      exact ih answer hrest

/-- A composite ends with an error of its first part, or runs its second part after it. -/
theorem onTape_bind_inv {outcome : Except ε γ}
    (h : S.onTape pid (program.bind next) tape store = some (outcome, after)) :
    (∃ error, outcome = .error error ∧
      S.onTape pid program tape store = some (.error error, after)) ∨
    ∃ value front back middle, tape = front ++ back ∧
      S.onTape pid program front store = some (.ok value, middle) ∧
        S.onTape pid (next value) back middle = some (outcome, after) := by
  induction program generalizing tape store with
  | ret value => exact .inr ⟨value, [], tape, store, rfl, rfl, h⟩
  | raise error =>
      obtain ⟨rfl, rfl, rfl⟩ := onTape_raise h
      exact .inl ⟨error, rfl, rfl⟩
  | call q continuation ih =>
      obtain ⟨choice, rest, answer, between, rfl, hexec, hrest⟩ := onTape_call h
      have hcall : ∀ (tape : List χ) (result : Except ε β × σ),
          S.onTape pid (continuation answer) tape between = some result →
            S.onTape pid (.call q continuation) (choice :: tape) store = some result := by
        intro tape result hresult
        show (S.exec pid q choice store).bind _ = _
        rw [hexec]
        exact hresult
      rcases ih answer hrest with ⟨error, rfl, herror⟩ | ⟨value, front, back, middle, rfl, hok, hnext⟩
      · exact .inl ⟨error, rfl, hcall _ _ herror⟩
      · exact .inr ⟨value, choice :: front, back, middle, rfl, hcall _ _ hok, hnext⟩

/-- A handler uses the rest of the tape after an error, with the program behind it. -/
theorem onTape_recover_bind {error : ε}
    (h : S.onTape pid program front store = some (.error error, middle)) :
    S.onTape pid ((program.recover handler).bind next) (front ++ back) store =
      S.onTape pid ((handler error).bind next) back middle := by
  induction program generalizing front store with
  | ret first =>
      obtain ⟨-, heq, -⟩ := onTape_ret h
      cases heq
  | raise error' =>
      obtain ⟨rfl, heq, rfl⟩ := onTape_raise h
      rw [Except.error.inj heq]
      rfl
  | call q continuation ih =>
      obtain ⟨choice, rest, answer, between, rfl, hexec, hrest⟩ := onTape_call h
      show (S.exec pid q choice store).bind _ = _
      rw [hexec]
      exact ih answer hrest

/-- A program with a handler returned, or the handler ran after an error. -/
theorem onTape_recover_inv {outcome : Except ε β}
    (h : S.onTape pid (program.recover handler) tape store = some (outcome, after)) :
    (∃ value, outcome = .ok value ∧
      S.onTape pid program tape store = some (.ok value, after)) ∨
    ∃ error front back middle, tape = front ++ back ∧
      S.onTape pid program front store = some (.error error, middle) ∧
        S.onTape pid (handler error) back middle = some (outcome, after) := by
  induction program generalizing tape store with
  | ret value =>
      obtain ⟨rfl, rfl, rfl⟩ := onTape_ret h
      exact .inl ⟨value, rfl, rfl⟩
  | raise error => exact .inr ⟨error, [], tape, store, rfl, rfl, h⟩
  | call q continuation ih =>
      obtain ⟨choice, rest, answer, between, rfl, hexec, hrest⟩ := onTape_call h
      have hcall : ∀ (tape : List χ) (result : Except ε β × σ),
          S.onTape pid (continuation answer) tape between = some result →
            S.onTape pid (.call q continuation) (choice :: tape) store = some result := by
        intro tape result hresult
        show (S.exec pid q choice store).bind _ = _
        rw [hexec]
        exact hresult
      rcases ih answer hrest with ⟨value, rfl, hok⟩ | ⟨error, front, back, middle, rfl, herror, hnext⟩
      · exact .inl ⟨value, rfl, hcall _ _ hok⟩
      · exact .inr ⟨error, choice :: front, back, middle, rfl, hcall _ _ herror, hnext⟩

/-- What every request of a program keeps, the program keeps. -/
theorem onTape_keeps {p : Q → Prop} {P : σ → Prop} (hprogram : program.Only p)
    (hstep : ∀ q choice answer s s', p q → S.exec pid q choice s = some (answer, s') → P s → P s')
    {outcome : Except ε β} (h : S.onTape pid program tape store = some (outcome, after))
    (hstart : P store) : P after := by
  induction program generalizing tape store with
  | ret value =>
      obtain ⟨-, -, rfl⟩ := onTape_ret h
      exact hstart
  | raise error =>
      obtain ⟨-, -, rfl⟩ := onTape_raise h
      exact hstart
  | call q continuation ih =>
      obtain ⟨choice, rest, answer, between, rfl, hexec, hrest⟩ := onTape_call h
      exact ih answer (hprogram.2 answer) hrest (hstep q choice answer _ _ hprogram.1 hexec hstart)

end System

end Hemlig.Concurrent
