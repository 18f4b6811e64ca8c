import Hemlig.Repositories.Dynamo

/-!
# The agent sync service

`src/services/agent-sync.ts`: one request answers with one page of the index and
a cursor, either to the next page or, after the last one, to a checkpoint from
which a later request continues.  The cursors of `src/services/cursor.ts` are
opaque tokens; what they stand for is stored in the control table.
-/

namespace Hemlig

open Concurrent

/-- An entry of a page, as the agent sees it. -/
structure AgentSyncEntry where
  secretUid : String
  secretId : String
  controlVersionId : String
  state : SecretState
  permissions : List AgentCapability
  payloadVersionId : Option String
  metadata : Option SecretMetadata
  deriving DecidableEq, Repr

structure AgentSyncPage where
  snapshot : Bool
  changes : List AgentSyncEntry
  nextCursor : Option String
  syncCursor : Option String
  deriving DecidableEq, Repr

structure SyncQuery where
  syncCursor : Option String
  cursor : Option String
  deriving DecidableEq, Repr

namespace CursorService

def encode.attempts (cursor : StoredCursor) : ℕ → Service String
  | 0 => reject (serviceUnavailable "Could not allocate pagination state.")
  | left + 1 => do
      let token ← send (.newId "")
      let created ← DynamoRepository.createCursor token cursor
      if created then return token else attempts cursor left

/-- Store a cursor under a new token. -/
def encode (cursor : StoredCursor) : Service String := encode.attempts cursor 3

end CursorService

namespace AgentSyncService

def resetRequired : ApiError :=
  ⟨410, "sync_reset_required", "Start a fresh agent sync snapshot."⟩

/-- The grants in the order of their UIDs, with sorted permissions. -/
def digestGrants (secretGrants : List AgentSecretGrant) : List AgentSecretGrant :=
  (secretGrants.map fun entry =>
    { entry with permissions := entry.permissions.insertionSort fun left right =>
        left = .read ∨ right = .write }).insertionSort fun left right =>
    left.secretUid ≤ right.secretUid

/-- What the digest of a grant is a digest of. -/
def grantDigest (grant : AgentGrantRecord) : List AgentCapability × List AgentSecretGrant × String :=
  (grant.capabilities.insertionSort fun left right => left = .read ∨ right = .write,
    digestGrants grant.secretGrants, grant.grantId)

/-- What an agent sees of a record, given its permissions for the secret. -/
def visibleEntry (record : AgentSyncRecord) (grant : AgentGrantRecord)
    (selected : List AgentCapability) : AgentSyncEntry :=
  let live : Bool := record.state = .active ∨ record.state = .pendingValue
  let write : Bool := live ∧ .write ∈ grant.capabilities ∧ .write ∈ selected
  let read : Bool := live ∧ .read ∈ grant.capabilities ∧ .read ∈ selected ∧
    grant.consumerId ∈ record.readConsumerIds
  { secretUid := record.secretUid
    secretId := record.secretId
    controlVersionId := record.controlVersionId
    state := if read || write then record.state else .revoked
    permissions := (if read then [.read] else []) ++ (if write then [.write] else [])
    payloadVersionId := if read || write then record.payloadVersionId else none
    metadata := if write then some record.metadata else none }

/-- The last grant for a UID, if it also names the secret. -/
def selectedGrant (grant : AgentGrantRecord) (record : AgentSyncRecord) :
    Option AgentSecretGrant :=
  (grant.secretGrants.reverse.find? (·.secretUid = record.secretUid)).filter
    (·.secretId = record.secretId)

/-- The entry of a record, if the grant covers its secret. -/
def entryOf (grant : AgentGrantRecord) (record : AgentSyncRecord) : Option AgentSyncEntry :=
  (selectedGrant grant record).map fun selected => visibleEntry record grant selected.permissions

/-- The entries of the records that the grant covers. -/
def visibleEntries (grant : AgentGrantRecord) (records : List AgentSyncRecord) :
    List AgentSyncEntry :=
  records.filterMap (entryOf grant)

/-- The position a token stands for. -/
def decode (token scope : String) : Service Position := do
  let stored ← requireSome resetRequired (← DynamoRepository.getCursor token)
  if stored.scope ≠ scope then
    reject (badRequest "The sync cursor belongs to another scope.")
  else
    let now ← send .now
    if stored.expiresAt ≤ now then reject resetRequired
    else if stored.position.after > stored.position.through then
      reject (badRequest "The sync cursor position is invalid.")
    else return stored.position

def encode (scope : String) (position : Position) : Service String :=
  CursorService.encode
    { scope := scope
      position := position
      expiresAt := match position.kind with
        | .page => position.pageExpiresAt
        | .checkpoint => position.checkpointExpiresAt }

/-- The caller presents its own active grant. -/
def grantAccepted (grant : AgentGrantRecord) (consumerId environment : String) : Bool :=
  grant.status = .active ∧ grant.consumerId = consumerId ∧ grant.environment = environment

/-- A stored position still fits the index and the grant. -/
def positionFits (position : Position) (state : AgentSyncState) (grant : AgentGrantRecord) : Bool :=
  position.epoch = state.epoch ∧ position.digest = grantDigest grant ∧
    position.through ≤ state.sequence

/-- A checkpoint continues with what was published since. -/
def continueFrom (position : Position) (state : AgentSyncState)
    (checkpointExpiresAt pageExpiresAt : Time) : Position :=
  { position with
    checkpointExpiresAt := checkpointExpiresAt
    pageExpiresAt := pageExpiresAt
    after := position.through
    through := state.sequence
    snapshot := false
    lastSk := none }

/-- Where a request starts to read. -/
def startPosition (scope : String) (query : SyncQuery) (grant : AgentGrantRecord)
    (state : AgentSyncState) (now : Time) : Service Position := do
  let checkpointExpiresAt := now + syncCheckpointLifetime
  let pageExpiresAt := now + 15 * 60 * 1000
  match query.cursor, query.syncCursor with
  | some token, _ =>
      let position ← decode token scope
      if positionFits position state grant then
        if position.kind = .page then return position
        else reject (badRequest "cursor must be a page continuation.")
      else reject resetRequired
  | none, some token =>
      let position ← decode token scope
      if positionFits position state grant then
        if position.kind = .checkpoint then
          return continueFrom position state checkpointExpiresAt pageExpiresAt
        else reject (badRequest "syncCursor must be a completed checkpoint.")
      else reject resetRequired
  | none, none =>
      return {
        kind := .page
        epoch := state.epoch
        digest := grantDigest grant
        after := 0
        through := state.sequence
        snapshot := true
        checkpointExpiresAt := checkpointExpiresAt
        pageExpiresAt := pageExpiresAt
        lastSk := none }

/-- The checkpoint after the last page; an unchanged one is handed back. -/
def checkpoint (scope : String) (query : SyncQuery) (position : Position) : Service String :=
  match query.syncCursor with
  | some token =>
      if position.after = position.through then pure token
      else encode scope
        { position with kind := .checkpoint, after := position.through, lastSk := none }
  | none => encode scope
      { position with kind := .checkpoint, after := position.through, lastSk := none }

/-- The page at a position, and the cursor that continues after it. -/
def answer (environment scope : String) (query : SyncQuery) (grant : AgentGrantRecord)
    (position : Position) : Service AgentSyncPage := do
  let (records, lastSk) ← AgentSyncRepository.page environment position.after position.through
    position.lastSk
  let changes := visibleEntries grant records
  match lastSk with
  | some lastSk =>
      let nextCursor ← encode scope { position with kind := .page, lastSk := some lastSk }
      return {
        snapshot := position.snapshot
        changes := changes
        nextCursor := some nextCursor
        syncCursor := none }
  | none =>
      let syncCursor ← checkpoint scope query position
      return {
        snapshot := position.snapshot
        changes := changes
        nextCursor := none
        syncCursor := some syncCursor }

def sync (consumerId environment : String) (query : SyncQuery)
    (grant : Option AgentGrantRecord) : Service AgentSyncPage := do
  let grant ← requireSome
    (forbidden "An active UID-scoped agent grant is required for synchronization.")
    (grant.filter fun grant => grantAccepted grant consumerId environment)
  if query.syncCursor.isSome ∧ query.cursor.isSome then
    reject (badRequest "Pass either syncCursor or cursor.")
  else
    let scope := "agent-sync:" ++ environment ++ ":" ++ consumerId
    let state ← requireSome
      ⟨503, "sync_index_not_ready", "The agent sync index needs a completed backfill."⟩
      ((← AgentSyncRepository.state environment).filter AgentSyncState.ready)
    let now ← send .now
    let position ← startPosition scope query grant state now
    answer environment scope query grant position

end AgentSyncService

end Hemlig
