import Hemlig.Controller.Exports
import Hemlig.Properties.CrashSafety
import Hemlig.Properties.Enrollments
import Hemlig.Verification.MutationKeys

/-!
# A key is claimed for good

The transaction that prepares a mutation claims the idempotency key of its request, and no later
step takes the claim back: neither the recovery of the operation nor the removal of the secret it
was to create.  A request that uses the key again is refused, whatever became of the first one.
-/

namespace Hemlig

open Concurrent Store DynamoRepository

variable {init s s' : Cloud} {w w' : ServiceWorld} {actions later : List ServiceAction} {pid : ℕ}
  {input : Input} {actor : Actor} {idempotencyKey : String}

/-! ## Claims -/

/-- Some operation has claimed the key. -/
def Cloud.Taken (s : Cloud) (actor : Actor) (idempotencyKey : String) : Prop :=
  ∃ record, s.idempotency actor idempotencyKey = some record

theorem Cloud.Taken.of_extends (h : s.Taken actor idempotencyKey)
    (hextends : s.registry.Extends s'.registry) : s'.Taken actor idempotencyKey := by
  obtain ⟨record, hrecord⟩ := h
  have hstored : s.registry.records (actor, idempotencyKey) = some record := hrecord
  obtain ⟨record', hrecord', -⟩ := hextends.records hstored
  exact ⟨record', hrecord'⟩

/-- A prepared mutation has claimed its key. -/
theorem taken_of_prepared (hinit : Initial init)
    (hrun : service.run (World.initial init) actions = some w) {mutation : PreparedMutation}
    (hprepared : w.store.Prepared mutation) :
    w.store.Taken mutation.actor mutation.idempotencyKey := by
  obtain ⟨record, hrecord, -⟩ := (invariant_of_run hinit hrun).records.claimed rfl hprepared
  exact ⟨record, hrecord⟩

/-- What has happened stays in the history. -/
theorem happened_of_run (hinit : Initial init)
    (hrun : service.run (World.initial init) actions = some w)
    (hlater : service.run w later = some w') {event : Event} (h : w.store.Happened event) :
    w'.store.Happened event := by
  refine run_keeps hinit hrun hlater (P := fun s => s.Happened event) ?_ h
  intro s s' hstep hhappened
  obtain ⟨actor, hevolves⟩ := hstep.evolves
  exact hhappened.mono hevolves.history

/-- A key is claimed by one mutation only. -/
theorem prepared_once (hinv : Invariant init s) {first second : PreparedMutation}
    (hfirst : s.Prepared first) (hsecond : s.Prepared second)
    (hactor : second.actor = first.actor) (hkey : second.idempotencyKey = first.idempotencyKey) :
    second = first := by
  obtain ⟨record, hrecord, hfixed⟩ := hinv.records.claimed rfl hfirst
  obtain ⟨record', hrecord', hfixed'⟩ := hinv.records.claimed rfl hsecond
  dsimp only at hrecord hrecord'
  rw [hactor, hkey, hrecord] at hrecord'
  obtain rfl := Option.some.inj hrecord'
  have hsame : (idempotencyItem second).fixed.operationId =
      (idempotencyItem first).fixed.operationId :=
    congrArg IdempotencyRecord.operationId (hfixed'.symm.trans hfixed)
  exact hinv.history.operation hsecond hfirst (Option.some.inj hsame)

/-- The transaction is only made where the key is free, and leaves the record of its mutation. -/
theorem claim_of_preparedUnder {q : Request} {choice : Choice} {response : Response q}
    (hexec : exec pid q choice s = some (response, s'))
    (h : PreparedUnder actor idempotencyKey q response) :
    s.idempotency actor idempotencyKey = none ∧
      ∃ mutation, s'.idempotency actor idempotencyKey = some (idempotencyItem mutation) := by
  obtain ⟨mutation, now, rfl, rfl, rfl, answer, rfl⟩ := h
  have hperform := perform_of_exec hexec
  simp only [perform] at hperform
  cases htransact : transact s.table choice.conflicts (prepareWrites mutation now) with
  | error error => cases error <;> simp [htransact] at hperform
  | ok table =>
      simp only [htransact, Option.some.injEq, Prod.mk.injEq] at hperform
      have hclaim : Write.create (.idempotency mutation.actor mutation.idempotencyKey)
          (idempotencyItem mutation) ∈ prepareWrites mutation now := List.mem_cons_self
      obtain ⟨hfree, hstored⟩ := get_of_create htransact hclaim
      refine ⟨hfree, mutation, ?_⟩
      rw [← hperform.2]
      exact hstored

/-- A key that is taken is claimed by no other transaction. -/
theorem not_answered_of_taken (hinit : Initial init)
    (hrun : service.run (World.initial init) actions = some w)
    (htaken : w.store.Taken actor idempotencyKey) :
    ¬ service.Answered w later pid input (PreparedUnder actor idempotencyKey) := by
  rintro ⟨before, choice, middle, q, next, response, store, hprefix, hmiddle, -, hexec, hprepared⟩
  obtain ⟨record, hrecord⟩ := htaken.of_extends (extends_of_run hinit hrun hmiddle)
  cases (claim_of_preparedUnder hexec hprepared).1.symm.trans hrecord

/-! ## Requests that use a key again -/

/-- The error of `persistMutation` for a key that is taken. -/
def keyUsed : Failure := .api (conflict "This idempotency key has already been used.")

namespace Sample

/-- The pass removes the head that the create has left. -/
def cleared : List ServiceAction := abandoned ++ steps 2 [plain, plain]

/-- The create is asked for again. -/
def retrying : List ServiceAction :=
  .start 3 (.create (creation "k1")) :: steps 3 [plain, plain, fresh "b", fresh "b", plain]

/-- The mutation that the event prepares, under the key of the sample. -/
def preparesFirst : Event → Bool
  | .prepared mutation => mutation.actor = admin ∧ mutation.idempotencyKey = "k1"
  | _ => false

/-- The event commits no mutation. -/
def commitsNothing : Event → Bool
  | .committed _ _ _ => false
  | _ => true

/-- The key is one of a head that is stored. -/
def storesHead (s : Cloud) : Key → Bool
  | .head u => (s.head u).isSome
  | _ => false

/-- The process was refused for its key. -/
def refused (w : ServiceWorld) (pid : ℕ) : Bool :=
  match w.procs pid with
  | some (.create request, .raise failure) => request = creation "k1" ∧ failure = keyUsed
  | _ => false

theorem cleared_checked :
    (service.run (World.initial Cloud.empty) cleared).any (fun w => decide
      ((w.store.history.any fun entry => preparesFirst entry.event) = true ∧
        (w.store.history.all fun entry => commitsNothing entry.event) = true ∧
        (∀ key ∈ w.store.table.keys, storesHead w.store key = false) ∧
        (w.procs 3).isNone = true)) = true ∧
    (service.run (World.initial Cloud.empty) (cleared ++ retrying)).any (fun w => decide
      (refused w 3 = true)) = true := by
  decide +kernel

theorem cleared_runs : (service.run (World.initial Cloud.empty) cleared).isSome = true :=
  Option.isSome_of_any cleared_checked.1

theorem retried_runs :
    (service.run (World.initial Cloud.empty) (cleared ++ retrying)).isSome = true :=
  Option.isSome_of_any cleared_checked.2

theorem prepared_cleared : ∃ mutation, (reached Cloud.empty _ cleared_runs).store.Prepared mutation ∧
    mutation.actor = admin ∧ mutation.idempotencyKey = "k1" := by
  obtain ⟨hany, -⟩ := reached_of_any cleared_checked.1
  obtain ⟨entry, hentry, hevent⟩ := List.any_eq_true.mp hany
  obtain ⟨time, known, event⟩ := entry
  cases event with
  | prepared mutation => exact ⟨mutation, ⟨_, hentry, rfl⟩, of_decide_eq_true hevent⟩
  | _ => cases hevent

theorem not_commits_cleared (completed : CompletedMutation) :
    ¬ (reached Cloud.empty _ cleared_runs).store.Commits completed := by
  rintro ⟨sequence, extendedAt, entry, hentry, hevent⟩
  obtain ⟨-, hall, -⟩ := reached_of_any cleared_checked.1
  have hnot := List.all_eq_true.mp hall entry hentry
  rw [hevent] at hnot
  cases hnot

/-- No head is left. -/
theorem not_head_cleared (u : String) : (reached Cloud.empty _ cleared_runs).store.head u = none := by
  obtain ⟨-, -, hkeys, -⟩ := reached_of_any cleared_checked.1
  by_contra hsome
  have hstored := Option.isSome_iff_ne_none.mpr hsome
  exact Bool.false_ne_true ((hkeys _ ((reached Cloud.empty _ cleared_runs).store.table.covered
    (.head u) hstored)).symm.trans hstored)

theorem of_refused (h : refused w pid = true) :
    w.procs pid = some (.create (creation "k1"), .raise keyUsed) := by
  unfold refused at h
  split at h
  · rename_i hproc
    obtain ⟨rfl, rfl⟩ := of_decide_eq_true h
    exact hproc
  · cases h

end Sample

end Hemlig
