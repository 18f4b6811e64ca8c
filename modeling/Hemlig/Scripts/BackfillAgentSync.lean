import Hemlig.Repositories.AgentSync

/-!
# Backfilling the sync index

`src/scripts/backfill-agent-sync.ts`: publish every committed head that a scan
finds, then let the index of each registered environment serve.  The loops over
pages end with the last page; a script that is stopped earlier raises `timeout`.
-/

namespace Hemlig.BackfillAgentSync

open Concurrent

def registry : ℕ → Option String → Service (List EnvironmentRecord)
  | 0, _ => throw .timeout
  | left + 1, startKey => do
      let page ← send (.environmentPage startKey)
      match page.lastEvaluatedKey with
      | none => return page.items
      | some key => return page.items ++ (← registry left (some key))

/-- The second write of the publication, on the head, was refused. -/
def revisionRace : Failure → Bool
  | .aws (.transactionCanceled reasons) => reasons[1]? = some .conditionalCheckFailed
  | _ => false

/-- Publish a head as it is now; again if it changes meanwhile. -/
def publishHead (pk : String) : ℕ → Service Unit
  | 0 => throw (.error
      "A changing head could not be backfilled; rerun before enabling sync.")
  | left + 1 => do
      match ← send (.get (.head pk)) with
      | none => throw (.error "A head disappeared during sync backfill.")
      | some head =>
          tryCatch (AgentSyncRepository.backfillHead pk head) fun failure =>
            if revisionRace failure then publishHead pk left else throw failure

/-- One head of the scan. -/
def candidate (knownEnvironments : List String) (apply : Bool) (head : String × HeadRecord) :
    Service Unit :=
  if head.2.environment ∉ knownEnvironments then
    throw (.error "A head needs identity/environment migration before sync backfill.")
  else if apply then publishHead head.1 8
  else pure ()

/-- Scan the heads, and count them. -/
def scan (knownEnvironments : List String) (apply : Bool) : ℕ → ℕ → Service ℕ
  | 0, _ => throw .timeout
  | left + 1, startKey => do
      let page ← send (.scanHeads startKey)
      page.items.forM (candidate knownEnvironments apply)
      match page.lastEvaluatedKey with
      | none => return page.items.length
      | some key => return page.items.length + (← scan knownEnvironments apply left key)

def backfillAgentSync (apply : Bool) : Service (ℕ × ℕ) := do
  let most ← send .choose
  let environments ← registry most none
  let knownEnvironments := environments.map EnvironmentRecord.name
  let pages ← send .choose
  let heads ← scan knownEnvironments apply pages 0
  if apply then environments.forM fun environment => AgentSyncRepository.markReady environment.name
  else pure ()
  return (heads, environments.length)

end Hemlig.BackfillAgentSync
