import Hemlig.Repositories.Dynamo

/-!
# The recovery handler

`src/handlers/recovery.ts`, for the workflows of secret mutations: each expired
operation leaves the due index; a create that never committed loses its head and
its name, any other operation its lease.  The branch of consumer enrollments works
on other items; it has a pass of its own.
-/

namespace Hemlig

open Concurrent

/-- The identity in the partition key of a secret. -/
def secretIdentityFromPk (secretUid : String) : Option String :=
  if secretUid = "" then none else some secretUid

namespace Recovery

open DynamoRepository

/-- The outcome of a program, with its error as a value. -/
def attempt {α : Type} (program : Service α) : Service (Except Failure α) :=
  tryCatch (Except.ok <$> program) fun failure => pure (.error failure)

/-- Settle the updates of all workflows of an operation, in any order. -/
def markAll.settle : ℕ → List IndexedWorkflow → Service (List (Except Failure Bool))
  | 0, _ => pure []
  | left + 1, pending => do
      let next ← send .choose
      match pending[next % pending.length]? with
      | none => return []
      | some workflow =>
          let result ← attempt (markRetryable workflow)
          return result :: (← settle left (pending.eraseIdx (next % pending.length)))

/-- The first error of the outcomes, or all results. -/
def firstError : List (Except Failure Bool) → Except Failure (List Bool)
  | [] => .ok []
  | .error failure :: _ => .error failure
  | .ok result :: rest => (firstError rest).map (result :: ·)

/-- The updates are sent together; one that fails does not stop the others. -/
def markAll (workflows : List IndexedWorkflow) : Service (List Bool) := do
  let results ← markAll.settle workflows.length workflows
  Program.ofExcept (firstError results)

def expiredEvent (operationId environment secretId : String) : AuditEvent where
  correlationId := operationId
  outcome := .failed
  actor := { type := .system, id := "recovery" }
  operation := "workflow.recovery"
  target := [("environment", environment), ("secretId", secretId)]
  reasonCode := some "prepared_workflow_expired"

/-- Remove the head of a create, or else the lease of the operation. -/
def releaseHead (operationId secretUid : String) (head : HeadRecord) : Service Bool := do
  let abortedCreate ← abortPreparedCreate head.environment head.secretId secretUid operationId
  if abortedCreate then return true else releaseLease secretUid operationId

/-- The head of an operation whose workflows were just marked. -/
def settleHead (operationId secretUid : String) (head : HeadRecord) : Service Unit := do
  let releasedLease ← releaseHead operationId secretUid head
  if releasedLease then
    send (.auditWrite (expiredEvent operationId head.environment head.secretId))
  else return ()

/-- One expired operation, with its due workflows. -/
def recoverOperation (operationId : String) (workflows : List IndexedWorkflow) : Service Unit :=
  match workflows with
  | [] => pure ()
  | workflow :: _ => do
      let retryResults ← markAll workflows
      if retryResults.any id then
        match secretIdentityFromPk workflow.secretUid with
        | none => return ()
        | some secretUid =>
            match ← getHeadBySecretUid secretUid with
            | none => return ()
            | some head => settleHead operationId secretUid head
      else return ()

/-- The operations of the listed workflows, in the order they are met. -/
def operationsOf (expired : List IndexedWorkflow) : List String :=
  distinct (expired.map (·.row.operationId))

/-- The listed workflows of an operation. -/
def workflowsOf (expired : List IndexedWorkflow) (operationId : String) : List IndexedWorkflow :=
  expired.filter (·.row.operationId = operationId)

def handler : Service Unit := do
  let now ← send .now
  let expired ← listExpiredPrepared now
  (operationsOf expired).forM fun operationId =>
    recoverOperation operationId (workflowsOf expired operationId)
  send .reconcileTruststore

end Recovery

end Hemlig
