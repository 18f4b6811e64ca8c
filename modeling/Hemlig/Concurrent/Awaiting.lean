import Hemlig.Concurrent.Interleaving

/-!
# Programs that await an answer

A program awaits an answer if it cannot return before it has been given one, whatever else it is
answered.  A process with such a program that has returned was given the answer at some step of
its run (`answered_of_returned`).  What every path returns (`Program.Returns`), the process has
returned.
-/

namespace Hemlig.Concurrent

variable {Q : Type} {A : Q → Type} {ε α β σ χ ι η : Type}

namespace Program

/-- No path of answers without `p` leads to a value. -/
def Awaits (p : (q : Q) → A q → Prop) : Program Q A ε β → Prop
  | .ret _ => False
  | .raise _ => True
  | .call q next => ∀ answer, ¬ p q answer → Awaits p (next answer)

variable {p : (q : Q) → A q → Prop} {program : Program Q A ε α} {next : α → Program Q A ε β}

/-- What awaits an answer awaits it before whatever follows. -/
theorem Awaits.before (h : program.Awaits p) : (program.bind next).Awaits p := by
  induction program with
  | ret value => exact h.elim
  | raise error => trivial
  | call q continuation ih => exact fun answer hanswer => ih answer (h answer hanswer)

/-- The answer may also be awaited later. -/
theorem Awaits.after (h : ∀ value, (next value).Awaits p) : (program.bind next).Awaits p := by
  induction program with
  | ret value => exact h value
  | raise error => trivial
  | call q continuation ih => exact fun answer _ => ih answer

/-- A handler that cannot return by itself leaves the answer awaited. -/
theorem Awaits.recover {handler : ε → Program Q A ε α} (h : program.Awaits p)
    (hhandler : ∀ error, (handler error).Awaits p) : (program.recover handler).Awaits p := by
  induction program with
  | ret value => exact h.elim
  | raise error => exact hhandler error
  | call q continuation ih => exact fun answer hanswer => ih answer (h answer hanswer)

theorem Awaits.ite {c : Prop} [Decidable c] {first second : Program Q A ε α}
    (hfirst : first.Awaits p) (hsecond : second.Awaits p) :
    (if c then first else second).Awaits p := by
  split
  · exact hfirst
  · exact hsecond

/-- Every value that the program may return satisfies `r`, whatever is answered. -/
def Returns (r : β → Prop) : Program Q A ε β → Prop
  | .ret value => r value
  | .raise _ => True
  | .call _ next => ∀ answer, Returns r (next answer)

/-- What follows decides what is returned. -/
theorem Returns.after {r : β → Prop} (h : ∀ value, (next value).Returns r) :
    (program.bind next).Returns r := by
  induction program with
  | ret value => exact h value
  | raise error => trivial
  | call q continuation ih => exact fun answer => ih answer

theorem Returns.bind {r : α → Prop} {r' : β → Prop} (h : program.Returns r)
    (hnext : ∀ value, r value → (next value).Returns r') : (program.bind next).Returns r' := by
  induction program with
  | ret value => exact hnext value h
  | raise error => trivial
  | call q continuation ih => exact fun answer => ih answer (h answer)

end Program

namespace System

variable {S : System Q A ε α σ χ ι η} {w w' : World Q A ε α σ ι} {actions : List (Action χ ι η)}
  {p : (q : Q) → A q → Prop} {pid : ℕ} {input : ι}

/-- Some request of the process was answered with `p`. -/
def Answered (S : System Q A ε α σ χ ι η) (w : World Q A ε α σ ι)
    (actions : List (Action χ ι η)) (pid : ℕ) (input : ι) (p : (q : Q) → A q → Prop) : Prop :=
  ∃ before choice middle q next answer store, before ++ [.step pid choice] <+: actions ∧
    S.run w before = some middle ∧ middle.procs pid = some (input, .call q next) ∧
      S.exec pid q choice middle.store = some (answer, store) ∧ p q answer

theorem Answered.mono {later : List (Action χ ι η)} (h : S.Answered w actions pid input p)
    (hearlier : actions <+: later) : S.Answered w later pid input p := by
  obtain ⟨before, choice, middle, q, next, answer, store, hbefore, hrest⟩ := h
  exact ⟨before, choice, middle, q, next, answer, store, hbefore.trans hearlier, hrest⟩

/-- The run before and after such an answer. -/
theorem Answered.split (h : S.Answered w actions pid input p) (hrun : S.run w actions = some w') :
    ∃ before choice after middle next q answer, actions = (before ++ [.step pid choice]) ++ after ∧
      S.run w before = some middle ∧ S.run w (before ++ [.step pid choice]) = some next ∧
      S.run next after = some w' ∧ S.exec pid q choice middle.store = some (answer, next.store) ∧
      p q answer := by
  obtain ⟨before, choice, middle, q, continuation, answer, store, ⟨after, rfl⟩, hmiddle, hproc,
    hexec, hanswer⟩ := h
  rw [S.run_append] at hrun
  obtain ⟨next, hnext, hafter⟩ := Option.bind_eq_some_iff.mp hrun
  obtain ⟨middle', hmiddle', hact⟩ := S.run_concat hnext
  obtain rfl := Option.some.inj (hmiddle.symm.trans hmiddle')
  simp only [act, hproc, hexec, Option.map_some, Option.some.injEq] at hact
  obtain rfl : next.store = store := hact ▸ rfl
  exact ⟨before, choice, after, middle, next, q, answer, rfl, hmiddle, hnext, hafter, hexec, hanswer⟩

/-- **A process that has returned was given the answer that its program awaits.** -/
theorem answered_of_returned (hrun : S.run w actions = some w') (hfresh : w.procs pid = none)
    (hcode : (S.code input).Awaits p) {output : α}
    (hreturned : w'.procs pid = some (input, .ret output)) : S.Answered w actions pid input p := by
  have hinv : w'.procs pid = none ∨ S.Answered w actions pid input p ∨
      ∃ input' program, w'.procs pid = some (input', program) ∧
        (input' = input → program.Awaits p) := by
    refine S.run_induction (fun before middle => middle.procs pid = none ∨
      S.Answered w before pid input p ∨ ∃ input' program,
        middle.procs pid = some (input', program) ∧ (input' = input → program.Awaits p)) hrun
      (.inl hfresh) ?_
    intro before action middle after hbefore hmiddle hact hprior
    rcases hprior with hnone | hanswered | ⟨input', program, hproc, hawaits⟩
    · -- the process has not been started
      rcases S.act_cases hact with ⟨pid', input', rfl, -, rfl⟩ |
        ⟨pid', choice, input', q, next, answer, store, rfl, hproc, -, rfl⟩ |
        ⟨event, store, rfl, -, rfl⟩
      · by_cases hpid : pid = pid'
        · subst hpid
          exact .inr (.inr ⟨input', _, Function.update_self .., fun h => h ▸ hcode⟩)
        · exact .inl ((Function.update_of_ne hpid _ _).trans hnone)
      · have hpid : pid ≠ pid' := by
          rintro rfl
          rw [hnone] at hproc
          cases hproc
        exact .inl ((Function.update_of_ne hpid _ _).trans hnone)
      · exact .inl hnone
    · exact .inr (.inl (hanswered.mono (List.prefix_append _ _)))
    · rcases S.act_cases hact with ⟨pid', input'', rfl, hnone, rfl⟩ |
        ⟨pid', choice, input'', q, next, answer, store, rfl, hcall, hexec, rfl⟩ |
        ⟨event, store, rfl, -, rfl⟩
      · have hpid : pid ≠ pid' := by
          rintro rfl
          rw [hproc] at hnone
          cases hnone
        exact .inr (.inr ⟨input', program, (Function.update_of_ne hpid _ _).trans hproc, hawaits⟩)
      · by_cases hpid : pid = pid'
        · subst hpid
          obtain ⟨rfl, rfl⟩ := Prod.mk.inj (Option.some.inj (hproc.symm.trans hcall))
          by_cases hanswer : input' = input ∧ p q answer
          · obtain ⟨rfl, hanswer⟩ := hanswer
            exact .inr (.inl ⟨before, choice, middle, q, next, answer, store, List.prefix_rfl,
              hmiddle, hproc, hexec, hanswer⟩)
          · refine .inr (.inr ⟨input', next answer, Function.update_self .., fun hinput => ?_⟩)
            exact hawaits hinput answer fun hp => hanswer ⟨hinput, hp⟩
        · exact .inr (.inr
            ⟨input', program, (Function.update_of_ne hpid _ _).trans hproc, hawaits⟩)
      · exact .inr (.inr ⟨input', program, hproc, hawaits⟩)
  rcases hinv with hnone | hanswered | ⟨input', program, hproc, hawaits⟩
  · rw [hnone] at hreturned
    cases hreturned
  · exact hanswered
  · obtain ⟨rfl, rfl⟩ := Prod.mk.inj (Option.some.inj (hproc.symm.trans hreturned))
    exact (hawaits rfl).elim

/-- **A process has returned what its program returns.** -/
theorem returned_of_returns (hrun : S.run w actions = some w') (hfresh : w.procs pid = none)
    {r : α → Prop} (hcode : (S.code input).Returns r) {output : α}
    (hreturned : w'.procs pid = some (input, .ret output)) : r output := by
  have hinv : ∀ program, w'.procs pid = some (input, program) → program.Returns r := by
    refine S.run_induction (fun _ middle => ∀ program, middle.procs pid = some (input, program) →
      program.Returns r) hrun (fun program hproc => ?_) ?_
    · rw [hfresh] at hproc
      cases hproc
    intro before action middle after hbefore hmiddle hact hprior program hproc
    rcases S.act_cases hact with ⟨pid', input', rfl, -, rfl⟩ |
      ⟨pid', choice, input', q, next, answer, store, rfl, hcall, -, rfl⟩ |
      ⟨event, store, rfl, -, rfl⟩
    · by_cases hpid : pid = pid'
      · subst hpid
        dsimp only at hproc
        rw [Function.update_self] at hproc
        obtain ⟨rfl, rfl⟩ := Prod.mk.inj (Option.some.inj hproc)
        exact hcode
      · exact hprior program ((Function.update_of_ne hpid _ _).symm.trans hproc)
    · by_cases hpid : pid = pid'
      · subst hpid
        dsimp only at hproc
        rw [Function.update_self] at hproc
        obtain ⟨rfl, rfl⟩ := Prod.mk.inj (Option.some.inj hproc)
        exact hprior _ hcall answer
      · exact hprior program ((Function.update_of_ne hpid _ _).symm.trans hproc)
    · exact hprior program hproc
  exact hinv _ hreturned

end System

end Hemlig.Concurrent
