import Hemlig.Concurrent.RelyGuarantee

/-!
# Programs amid events

A program that runs to its end on a tape, with events of the environment between its requests and
no other process.  What a discipline proves safe keeps its postcondition there (`Safe.amid`).
-/

namespace Hemlig.Concurrent

variable {Q : Type} {A : Q → Type} {ε α β σ χ ι η : Type}

namespace System

variable (S : System Q A ε α σ χ ι η) (pid : ℕ)

/-- Run a program to its end; the tape holds a choice for each request, and the events that happen
before it.  `none` where a step is not possible, or where the tape is too short or too long. -/
def amid : Program Q A ε β → List (χ ⊕ η) → σ → Option (Except ε β × σ)
  | .ret value, [], store => some (.ok value, store)
  | .raise error, [], store => some (.error error, store)
  | .call q next, .inl choice :: tape, store =>
      (S.exec pid q choice store).bind fun outcome => amid (next outcome.1) tape outcome.2
  | .call q next, .inr event :: tape, store =>
      (S.environment event store).bind fun store => amid (.call q next) tape store
  | _, _, _ => none

end System

namespace Discipline

variable {S : System Q A ε α σ χ ι η} {D : Discipline S} {issued : Q → σ → Prop} {pid : ℕ}

/-- By induction on the tape; an event is an interference of the discipline. -/
theorem Safe.amid {program : Program Q A ε β} {P : σ → Prop} {R : β → σ → Prop}
    {E : ε → σ → Prop} (h : D.Safe issued pid P program R E) (hpreserved : D.Preserved)
    (hissued : ∀ q s, issued q s) {tape : List (χ ⊕ η)} {s s' : σ} {value : β} (hinv : D.inv s)
    (hs : P s) (hrun : S.amid pid program tape s = some (.ok value, s')) : R value s' := by
  induction tape generalizing program P s with
  | nil =>
      cases program with
      | ret value =>
          obtain ⟨heq, rfl⟩ := Prod.mk.inj (Option.some.inj hrun)
          obtain rfl := Except.ok.inj heq
          exact h s hinv hs
      | raise error => cases hrun
      | call q next => cases hrun
  | cons entry tape ih =>
      cases program with
      | ret value => cases hrun
      | raise error => cases hrun
      | call q next =>
          obtain ⟨P₁, hsub, hstable, hcall⟩ := h
          have hs₁ := hsub s hinv hs
          cases entry with
          | inl choice =>
              obtain ⟨⟨answer, middle⟩, hexec, hrest⟩ := Option.bind_eq_some_iff.mp hrun
              obtain ⟨hpre, hnext⟩ := hcall s hinv hs₁
              obtain ⟨P₂, hs₂, hsafe⟩ := hnext choice answer middle (hissued q s) hexec
              exact ih hsafe (hpreserved.request hinv hpre hexec) hs₂ hrest
          | inr event =>
              obtain ⟨middle, hevent, hrest⟩ := Option.bind_eq_some_iff.mp hrun
              have hs' : P₁ middle := hstable s middle hinv (.environment hevent) hs₁
              have hsafe : D.Safe issued pid P₁ (.call q next) R E :=
                ⟨P₁, fun _ _ h => h, hstable, hcall⟩
              exact ih hsafe (hpreserved.environment hinv hevent) hs' hrest

end Discipline

end Hemlig.Concurrent
