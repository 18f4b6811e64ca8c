import Mathlib.Logic.Function.Basic

/-!
# Programs that issue requests

A program is a tree of requests: it returns, raises an error, or issues one
request and continues with the answer.  A request is the unit of atomicity.
Nothing is said here about what answers a request; `Interleaving.lean` runs many
programs against one shared store.
-/

namespace Hemlig.Concurrent

/-- A program over the requests `Q` with answers `A`, errors `ε` and result `α`. -/
inductive Program (Q : Type) (A : Q → Type) (ε α : Type) : Type
  | ret (value : α)
  | raise (error : ε)
  | call (request : Q) (next : A request → Program Q A ε α)

variable {Q : Type} {A : Q → Type} {ε α β : Type}

namespace Program

/-- Sequential composition; an error ends the program. -/
def bind : Program Q A ε α → (α → Program Q A ε β) → Program Q A ε β
  | ret value, continuation => continuation value
  | raise error, _ => raise error
  | call request next, continuation => call request fun answer => (next answer).bind continuation

/-- Run a handler where the program raises. -/
def recover : Program Q A ε α → (ε → Program Q A ε α) → Program Q A ε α
  | ret value, _ => ret value
  | raise error, handler => handler error
  | call request next, handler => call request fun answer => (next answer).recover handler

/-- Issue one request and return its answer. -/
def request (q : Q) : Program Q A ε (A q) :=
  call q ret

instance : Monad (Program Q A ε) where
  pure := ret
  bind := bind

instance : MonadExceptOf ε (Program Q A ε) where
  throw := raise
  tryCatch := recover

/-- Return the value of a computation that may fail, or raise its error. -/
def ofExcept : Except ε α → Program Q A ε α
  | .ok value => ret value
  | .error error => raise error

@[simp] theorem pure_eq (value : α) : (pure value : Program Q A ε α) = ret value := rfl

@[simp] theorem throw_eq (error : ε) : (throw error : Program Q A ε α) = raise error := rfl

@[simp] theorem bind_eq (program : Program Q A ε α) (continuation : α → Program Q A ε β) :
    program >>= continuation = program.bind continuation := rfl

@[simp] theorem bind_ret (value : α) (continuation : α → Program Q A ε β) :
    (ret value).bind continuation = continuation value := rfl

@[simp] theorem bind_raise (error : ε) (continuation : α → Program Q A ε β) :
    (raise error).bind continuation = raise error := rfl

@[simp] theorem map_eq (f : α → β) (program : Program Q A ε α) :
    f <$> program = program.bind fun value => ret (f value) := rfl

@[simp] theorem tryCatch_eq (program : Program Q A ε α) (handler : ε → Program Q A ε α) :
    tryCatchThe ε program handler = program.recover handler := rfl

theorem bind_return (program : Program Q A ε α) : program.bind ret = program := by
  induction program with
  | ret value => rfl
  | raise error => rfl
  | call q next ih => exact congrArg (call q) (funext ih)

theorem bind_assoc {γ : Type} (program : Program Q A ε α) (f : α → Program Q A ε β)
    (g : β → Program Q A ε γ) : (program.bind f).bind g = program.bind fun value => (f value).bind g := by
  induction program with
  | ret value => rfl
  | raise error => rfl
  | call q next ih => exact congrArg (call q) (funext ih)

instance : LawfulMonad (Program Q A ε) :=
  LawfulMonad.mk' _ bind_return (fun _ _ => rfl) bind_assoc

/-! ## Programs of few requests -/

/-- Every request that the program may issue satisfies `p`. -/
def Only (p : Q → Prop) : Program Q A ε α → Prop
  | ret _ => True
  | raise _ => True
  | call q next => p q ∧ ∀ answer, Only p (next answer)

theorem Only.request {p : Q → Prop} {q : Q} (h : p q) :
    (Program.request q : Program Q A ε (A q)).Only p :=
  ⟨h, fun _ => trivial⟩

theorem Only.bind {p : Q → Prop} {program : Program Q A ε α}
    {continuation : α → Program Q A ε β} (h : program.Only p)
    (hnext : ∀ value, (continuation value).Only p) : (program.bind continuation).Only p := by
  induction program with
  | ret value => exact hnext value
  | raise error => trivial
  | call q next ih => exact ⟨h.1, fun answer => ih answer (h.2 answer)⟩

theorem Only.recover {p : Q → Prop} {program : Program Q A ε α} {handler : ε → Program Q A ε α}
    (h : program.Only p) (hhandler : ∀ error, (handler error).Only p) :
    (program.recover handler).Only p := by
  induction program with
  | ret value => trivial
  | raise error => exact hhandler error
  | call q next ih => exact ⟨h.1, fun answer => ih answer (h.2 answer)⟩

theorem Only.ofExcept {p : Q → Prop} (outcome : Except ε α) :
    (ofExcept outcome : Program Q A ε α).Only p := by
  cases outcome <;> trivial

theorem Only.ite {p : Q → Prop} {c : Prop} [Decidable c] {first second : Program Q A ε α}
    (hfirst : first.Only p) (hsecond : second.Only p) :
    (if c then first else second).Only p := by
  split
  · exact hfirst
  · exact hsecond

theorem Only.mapM {γ : Type} {p : Q → Prop} {f : γ → Program Q A ε α}
    (h : ∀ item, (f item).Only p) (items : List γ) : (items.mapM f).Only p := by
  rw [← List.mapM'_eq_mapM]
  induction items with
  | nil => trivial
  | cons item rest ih =>
      rw [List.mapM'_cons]
      exact .bind (h item) fun _ => .bind ih fun _ => trivial

theorem Only.forM {γ : Type} {p : Q → Prop} {f : γ → Program Q A ε PUnit}
    (h : ∀ item, (f item).Only p) (items : List γ) : (items.forM f).Only p := by
  induction items with
  | nil => trivial
  | cons item rest ih => exact .bind (h item) fun _ => ih

/-! ## Programs of few errors -/

/-- Every error that the program may raise satisfies `p`, whatever is answered. -/
def Raises (p : ε → Prop) : Program Q A ε α → Prop
  | ret _ => True
  | raise error => p error
  | call _ next => ∀ answer, Raises p (next answer)

theorem Raises.bind {p : ε → Prop} {program : Program Q A ε α}
    {continuation : α → Program Q A ε β} (h : program.Raises p)
    (hnext : ∀ value, (continuation value).Raises p) :
    (program.bind continuation).Raises p := by
  induction program with
  | ret value => exact hnext value
  | raise error => exact h
  | call q next ih => exact fun answer => ih answer (h answer)

theorem Raises.ofExcept {p : ε → Prop} (outcome : Except ε α)
    (h : ∀ error, outcome = .error error → p error) :
    (ofExcept outcome : Program Q A ε α).Raises p := by
  cases outcome with
  | ok value => trivial
  | error error => exact h error rfl

theorem Raises.ite {p : ε → Prop} {c : Prop} [Decidable c] {first second : Program Q A ε α}
    (hfirst : first.Raises p) (hsecond : second.Raises p) :
    (if c then first else second).Raises p := by
  split
  · exact hfirst
  · exact hsecond

end Program

end Hemlig.Concurrent
