import Hemlig.Aws.Requests
import Mathlib.Algebra.GroupWithZero.Nat

/-!
# The agent sync index

`src/repositories/agent-sync.ts`: for each environment a counter (`STATE`) and
one row for each secret that was ever published (`CHANGE#<sequence>#<uid>`), at
the sequence of its last publication.  A publication moves the counter, the head
and the row in one transaction.
-/

namespace Hemlig

open Store Concurrent

/-- `7 * 24 * 60 * 60 * 1_000`. -/
def syncCheckpointLifetime : Time := 7 * 24 * 60 * 60 * 1000

/-- `8 * 24 * 60 * 60`, in seconds. -/
def archiveLifetime : ℕ := 8 * 24 * 60 * 60

/-- `Number.MAX_SAFE_INTEGER`. -/
def maximumSafeInteger : ℕ := 2 ^ 53 - 1

/-- `value.padStart(width, "0")`. -/
def padStart (width : ℕ) (value : String) : String :=
  String.ofList (List.replicate (width - value.length) '0') ++ value

/-- What the sort keys of a sequence start with. -/
def sequenceKey (sequence : ℕ) : String := "CHANGE#" ++ padStart 16 (toString sequence) ++ "#"

def syncSk (sequence : ℕ) (secretUid : String) : String := sequenceKey sequence ++ secretUid

def syncRecord (secretUid : String) (control : ControlRevision) : AgentSyncRecord where
  secretUid := secretUid
  secretId := control.secretId
  controlVersionId := control.controlVersionId
  payloadVersionId := control.payloadVersionId
  state := control.state
  metadata := control.metadata
  readConsumerIds :=
    (control.acl.filter fun grant => .read ∈ grant.permissions).map Grant.consumerId

/-- The transaction was refused for nothing but its first write, the counter, or
for meeting other transactions. -/
def counterContention : Failure → Bool
  | .aws (.transactionCanceled reasons) =>
      reasons.any (fun reason => reason = .conditionalCheckFailed ∨ reason = .transactionConflict) &&
        (reasons.mapIdx fun index reason => decide (reason = .none ∨
          reason = .transactionConflict ∨ index = 0 ∧ reason = .conditionalCheckFailed)).all id
  | _ => false

namespace AgentSyncRepository

/-- A new index, ready because its environment has no secrets. -/
def emptyState (environment epoch : String) : TableWrite :=
  .create (.syncState environment) { epoch := epoch, sequence := 0, ready := true }

def state (environment : String) : Service (Option AgentSyncState) :=
  send (.get (.syncState environment))

/-- At most a hundred of the records published after `after` and up to `through`. -/
def page (environment : String) (after through : ℕ) (lastSk : Option String) :
    Service (List AgentSyncRecord × Option String) := do
  if after = through then
    return ([], none)
  else
    let response ← send (.changePage environment (syncSk (after + 1) "")
      (sequenceKey through ++ "\uffff") lastSk)
    return (response.items.map fun item => item.2.record, response.lastEvaluatedKey)

/-! ## Publication -/

/-- The write of the counter: a new one, or a compare-and-set. -/
def counterWrite (environment : String) (state : Option AgentSyncState) (epoch : String)
    (sequence : ℕ) : TableWrite :=
  match state with
  | none => .create (.syncState environment) { epoch := epoch, sequence := sequence, ready := false }
  | some state =>
      .update (.syncState environment)
        (fun item => item.sequence = state.sequence ∧ item.epoch = state.epoch)
        fun item => { item with sequence := sequence }

/-- The row of the publication. -/
def rowWrite (environment : String) (record : AgentSyncRecord) (sequence : ℕ) (ttl : Option ℕ) :
    TableWrite :=
  .create (.change environment (syncSk sequence record.secretUid)) { record := record, ttl := ttl }

/-- The removal of the row of the previous publication. -/
def previousWrites (environment secretUid : String) (previousSequence : Option ℕ) :
    List TableWrite :=
  previousSequence.toList.map fun sequence => .remove (.change environment (syncSk sequence secretUid))

/-- The sequence that comes after a state. -/
def nextSequence (state : Option AgentSyncState) : ℕ :=
  (state.map AgentSyncState.sequence).getD 0 + 1

/-- All writes of a publication. -/
def publicationWrites (environment : String) (record : AgentSyncRecord)
    (build : ℕ → List TableWrite) (state : Option AgentSyncState) (epoch : String)
    (ttl : Option ℕ) (previousSequence : Option ℕ) : List TableWrite :=
  counterWrite environment state epoch (nextSequence state) ::
    (build (nextSequence state) ++
      rowWrite environment record (nextSequence state) ttl ::
        previousWrites environment record.secretUid previousSequence)

/-- `Math.ceil(Date.now() / 1_000) + archiveLifetime`. -/
def archiveTtl (now : Time) : ℕ := (now + 999) / 1000 + archiveLifetime

/-- The epoch of a counter that does not exist yet. -/
def newEpoch (state : Option AgentSyncState) : Service String :=
  if state.isNone then send (.newId "") else pure ""

/-- The row of an archived secret expires. -/
def rowTtl (record : AgentSyncRecord) : Service (Option ℕ) :=
  if record.state = .archived then do
    let now ← send .now
    return some (archiveTtl now)
  else pure none

/-- One attempt, up to its transaction. -/
def assemble (environment : String) (record : AgentSyncRecord) (build : ℕ → List TableWrite) :
    Service (List TableWrite × ℕ) := do
  -- The counter is read before the head.
  let state ← state environment
  let head ← send (.get (.head record.secretUid))
  let previousSequence := head.bind HeadRecord.syncSequence
  if nextSequence state > maximumSafeInteger then
    reject (serviceUnavailable "The sync index sequence is exhausted.")
  else
    let epoch ← newEpoch state
    let ttl ← rowTtl record
    let items := publicationWrites environment record build state epoch ttl previousSequence
    if items.length > 100 then
      reject (serviceUnavailable "Mutation exceeds the DynamoDB transaction limit.")
    else return (items, nextSequence state)

/-- The attempts that are left.  `note` is the event the history keeps. -/
def publish.attempts (environment : String) (record : AgentSyncRecord)
    (build : ℕ → List TableWrite) (note : ℕ → Option Event) : ℕ → Service Unit
  | 0 => reject (serviceUnavailable "The sync index is busy; retry the mutation.")
  | left + 1 => do
      let (items, sequence) ← assemble environment record build
      tryCatch (send (.transactWrite items (note sequence))) fun failure =>
        if counterContention failure then attempts environment record build note left
        else throw failure

/-- The counter and the row commit with the caller's writes. -/
def publish (environment : String) (record : AgentSyncRecord) (build : ℕ → List TableWrite)
    (note : ℕ → Option Event) : Service Unit :=
  publish.attempts environment record build note 8

/-! ## Backfill -/

/-- The control revision in a workflow row. -/
def serializedControl (row : Option StoredWorkflow) : Option ControlRevision :=
  row.bind fun row => match row.serialized with
    | .control control => some control
    | .payload _ => none

/-- A control revision is the one a head names. -/
def controlMatches (control : ControlRevision) (head : HeadRecord) : Bool :=
  control.controlVersionId = head.controlVersionId ∧ control.environment = head.environment ∧
    control.secretId = head.secretId ∧ control.secretUid.all (· = head.secretUid)

/-- The head keeps its revision and gets a sequence. -/
def resequence (pk : String) (head : HeadRecord) (sequence : ℕ) : List TableWrite :=
  [.update (.head pk)
    (fun item => item.controlVersionId = head.controlVersionId ∧ item.workflowState = .ready)
    fun item => { item with syncSequence := some sequence }]

/-- Publish the control revision of a head `SECRET#<pk>`, if it is still current. -/
def backfillHead (pk : String) (head : HeadRecord) : Service Unit := do
  let row ← send (.get (.workflow pk (.control head.controlVersionId)))
  match serializedControl row with
  | none => reject ⟨503, "sync_backfill_incomplete",
      "The current control revision is unavailable for sync backfill."⟩
  | some control =>
      if controlMatches control head then
        publish head.environment (syncRecord head.secretUid control) (resequence pk head)
          fun _ => none
      else reject ⟨503, "sync_backfill_incomplete",
        "The current control revision is unavailable for sync backfill."⟩

/-- The counter exists: let it serve. -/
def enableWrite (environment : String) : TableWrite :=
  .update (.syncState environment) (fun _ => true) fun item => { item with ready := true }

def enable (environment : String) : Service Unit := send (.write (enableWrite environment))

def markReady (environment : String) : Service Unit := do
  let current ← state environment
  if current.isNone then
    let epoch ← send (.newId "")
    let created ← tryCatch
      (do
        send (.transactWrite [emptyState environment epoch] none)
        pure true)
      fun failure => if counterContention failure then pure false else throw failure
    if created then return () else enable environment
  else enable environment

end AgentSyncRepository

end Hemlig
