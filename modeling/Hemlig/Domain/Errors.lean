import Mathlib.Data.Nat.Notation

/-!
# API errors

The errors of `src/domain/errors.ts`, with the messages that are not given where
they are thrown.
-/

namespace Hemlig

structure ApiError where
  statusCode : ℕ
  code : String
  message : String
  deriving DecidableEq, Repr

def badRequest (message : String) : ApiError := ⟨400, "bad_request", message⟩

def forbidden
    (message : String := "The caller is not permitted to perform this operation.") : ApiError :=
  ⟨403, "forbidden", message⟩

def notFound (message : String := "The requested resource was not found.") : ApiError :=
  ⟨404, "not_found", message⟩

def conflict (message : String) : ApiError := ⟨409, "conflict", message⟩

def enrollmentFailed (message : String) : ApiError := ⟨409, "enrollment_failed", message⟩

def preconditionFailed (message : String) : ApiError := ⟨412, "precondition_failed", message⟩

def serviceUnavailable (message : String) : ApiError := ⟨503, "service_unavailable", message⟩

/-- A computation of two parts succeeds with both. -/
theorem bind_eq_ok {ε α β : Type} {x : Except ε α} {f : α → Except ε β} {result : β} :
    (x >>= f) = .ok result ↔ ∃ value, x = .ok value ∧ f value = .ok result := by
  cases x with
  | error issue => simp [bind, Except.bind]
  | ok value => simp [bind, Except.bind]

end Hemlig
