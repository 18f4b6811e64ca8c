import Hemlig.Concurrent.Undisturbed
import Hemlig.Verification.Steps

/-!
# Handlers that run undisturbed

What a single request answers when no fault occurs and no other process takes a step.
-/

namespace Hemlig

open Concurrent

/-- No request meets a fault. -/
def Faultless (choose : Request → Choice) : Prop := ∀ q, (choose q).fault = .none

/-- Nor does a transaction meet another one. -/
structure Calm (choose : Request → Choice) : Prop where
  faultless : Faultless choose
  conflicts : ∀ q, (choose q).conflicts = []

variable {pid : ℕ} {choose : Request → Choice} {s s' : Cloud}

theorem exec_of_faultless (hchoose : Faultless choose) (q : Request) :
    exec pid q (choose q) s = perform pid (choose q) s q := by
  rw [exec, hchoose q]

/-- A request that is answered. -/
theorem finish_send (hchoose : Faultless choose) {q : Request} {answer : Answer q}
    (h : perform pid (choose q) s q = some (.ok answer, s')) :
    service.finish pid choose (send q) s = some (.ok answer, s') := by
  have hexec : service.exec pid q (choose q) s = some (.ok answer, s') :=
    (exec_of_faultless hchoose q).trans h
  have hrequest : service.finish pid choose (Program.request q : Service (Response q)) s =
      some (.ok (.ok answer), s') := by simp [Program.request, System.finish, hexec]
  exact (System.finish_bind_ok hrequest).trans rfl

/-- A request that is refused. -/
theorem finish_send_error (hchoose : Faultless choose) {q : Request} {failure : AwsFailure}
    (h : perform pid (choose q) s q = some (.error failure, s')) :
    service.finish pid choose (send q) s = some (.error (.aws failure), s') := by
  have hexec : service.exec pid q (choose q) s = some (.error failure, s') :=
    (exec_of_faultless hchoose q).trans h
  have hrequest : service.finish pid choose (Program.request q : Service (Response q)) s =
      some (.ok (.error failure), s') := by simp [Program.request, System.finish, hexec]
  exact (System.finish_bind_ok hrequest).trans rfl

/-- A conditional write that is made. -/
theorem finish_conditionally_ok {write : Service Unit}
    (h : service.finish pid choose write s = some (.ok (), s')) :
    service.finish pid choose (conditionally write) s = some (.ok true, s') := by
  refine (System.finish_recover _ _ _).trans ?_
  rw [show service.finish pid choose (write >>= fun _ => pure true) s = some (.ok true, s') from
    System.finish_bind_ok h]
  rfl

/-- A conditional write that fails for another reason than its condition. -/
theorem finish_conditionally_error {write : Service Unit} {failure : Failure}
    (h : service.finish pid choose write s = some (.error failure, s'))
    (hnot : isConditionalCheckFailure failure = false) :
    service.finish pid choose (conditionally write) s = some (.error failure, s') := by
  refine (System.finish_recover _ _ _).trans ?_
  rw [show service.finish pid choose (write >>= fun _ => pure true) s = some (.error failure, s') from
    System.finish_bind_error h]
  show service.finish pid choose
    (if isConditionalCheckFailure failure then pure false else throw failure) s' = _
  rw [hnot]
  rfl

/-- A write whose condition holds. -/
theorem finish_write (hchoose : Faultless choose) {write : TableWrite}
    (hholds : write.holds s.table = true) :
    service.finish pid choose (send (.write write)) s =
      some (.ok (), { s with table := write.apply s.table }) :=
  finish_send hchoose (by simp only [perform, hholds, if_true])

end Hemlig
