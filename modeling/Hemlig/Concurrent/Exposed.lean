import Hemlig.Concurrent.Interleaving

/-!
# Exposed programs

A program that runs to its end while others do anything that keeps a property of the store.  The
stores of its requests need not follow from each other: what the program learns is what all stores
with the property have in common.
-/

namespace Hemlig.Concurrent

variable {Q : Type} {A : Q → Type} {ε α β σ χ ι η : Type}

namespace System

variable (S : System Q A ε α σ χ ι η) (pid : ℕ) (P : σ → Prop)

/-- The outcome of a program all of whose requests start and end in stores with a property. -/
inductive Exposed : {β : Type} → Program Q A ε β → Except ε β → Prop
  | ret {β : Type} (value : β) : Exposed (.ret value) (.ok value)
  | raise {β : Type} (error : ε) : Exposed (.raise error : Program Q A ε β) (.error error)
  | call {β : Type} {q : Q} {next : A q → Program Q A ε β} {choice : χ} {answer : A q}
      {store store' : σ} {outcome : Except ε β} (hbefore : P store)
      (hexec : S.exec pid q choice store = some (answer, store')) (hafter : P store')
      (hrest : Exposed (next answer) outcome) : Exposed (.call q next) outcome

variable {S pid P}

theorem Exposed.of_ret {value result : β}
    (h : S.Exposed pid P (.ret value) (.ok result)) : value = result := by
  cases h
  rfl

theorem Exposed.not_raise {error : ε} {result : β} :
    ¬ S.Exposed pid P (.raise error) (.ok result) := by
  intro h
  cases h

/-- The first request of a program, and what follows it. -/
theorem Exposed.call_inv {q : Q} {next : A q → Program Q A ε β} {outcome : Except ε β}
    (h : S.Exposed pid P (.call q next) outcome) :
    ∃ choice answer store store', P store ∧ S.exec pid q choice store = some (answer, store') ∧
      P store' ∧ S.Exposed pid P (next answer) outcome := by
  cases h with
  | call hbefore hexec hafter hrest => exact ⟨_, _, _, _, hbefore, hexec, hafter, hrest⟩

/-- A composite runs its second part after its first. -/
theorem Exposed.bind {program : Program Q A ε β} {γ : Type} {next : β → Program Q A ε γ}
    {b : β} {outcome : Except ε γ} (hfirst : S.Exposed pid P program (.ok b))
    (hnext : S.Exposed pid P (next b) outcome) :
    S.Exposed pid P (program.bind next) outcome := by
  induction program with
  | ret value => exact hfirst.of_ret ▸ hnext
  | raise error => exact (not_raise hfirst).elim
  | call q continuation ih =>
      obtain ⟨choice, answer, store, store', hbefore, hexec, hafter, hrest⟩ := hfirst.call_inv
      exact .call hbefore hexec hafter (ih answer hrest)

/-- What a composite returned, its second part returned after its first. -/
theorem Exposed.bind_inv {program : Program Q A ε β} {γ : Type} {next : β → Program Q A ε γ}
    {value : γ} (h : S.Exposed pid P (program.bind next) (.ok value)) :
    ∃ first, S.Exposed pid P program (.ok first) ∧ S.Exposed pid P (next first) (.ok value) := by
  induction program with
  | ret first => exact ⟨first, .ret first, h⟩
  | raise error => exact (not_raise h).elim
  | call q continuation ih =>
      cases h with
      | call hbefore hexec hafter hrest =>
          obtain ⟨first, hfirst, hnext⟩ := ih _ hrest
          exact ⟨first, .call hbefore hexec hafter hfirst, hnext⟩

/-- A handler is not used where a program returns. -/
theorem Exposed.recover {program : Program Q A ε β} {handler : ε → Program Q A ε β} {value : β}
    (h : S.Exposed pid P program (.ok value)) :
    S.Exposed pid P (program.recover handler) (.ok value) := by
  induction program with
  | ret first => exact h
  | raise error => exact (not_raise h).elim
  | call q continuation ih =>
      obtain ⟨choice, answer, store, store', hbefore, hexec, hafter, hrest⟩ := h.call_inv
      exact .call hbefore hexec hafter (ih answer hrest)

/-- A program with a handler returned, or the handler did after an error. -/
theorem Exposed.recover_inv {program : Program Q A ε β} {handler : ε → Program Q A ε β} {value : β}
    (h : S.Exposed pid P (program.recover handler) (.ok value)) :
    S.Exposed pid P program (.ok value) ∨ ∃ error, S.Exposed pid P program (.error error) ∧
      S.Exposed pid P (handler error) (.ok value) := by
  induction program with
  | ret first => exact .inl h
  | raise error => exact .inr ⟨error, .raise error, h⟩
  | call q continuation ih =>
      cases h with
      | call hbefore hexec hafter hrest =>
          rcases ih _ hrest with hreturned | ⟨error, hraised, hhandled⟩
          · exact .inl (.call hbefore hexec hafter hreturned)
          · exact .inr ⟨error, .call hbefore hexec hafter hraised, hhandled⟩

end System

end Hemlig.Concurrent
