import Hemlig.Services.AgentSync

/-!
# The synchronizing client

`synchronize` of `packages/kubernetes-controller/src/v1beta.ts`, which follows the
page cursors of one cycle, and a client that runs one cycle after the other and
applies the entries of each completed one.  The number of pages a cycle may have,
a thousand in the source, is a parameter.
-/

namespace Hemlig.Controller

open Concurrent

/-- The entries a client holds, by UID. -/
abbrev Entries := String → Option AgentSyncEntry

/-- `entries.set(entry.secretUid, entry)` for every entry of a page. -/
def setAll (entries : Entries) (changes : List AgentSyncEntry) : Entries :=
  changes.foldl (fun entries entry => Function.update entries entry.secretUid (some entry)) entries

/-- What a completed cycle has collected. -/
structure Synchronized where
  entries : Entries
  snapshot : Bool
  checkpoint : String

/-- Who synchronizes what. -/
structure Follower where
  consumerId : String
  environment : String
  grant : AgentGrantRecord
  pageLimit : ℕ
  deriving DecidableEq, Repr

/-- The pages of one cycle. -/
def synchronize.pages (follower : Follower) :
    ℕ → SyncQuery → Entries → Service Synchronized
  | 0, _, _ => throw (.error "Hemlig sync exceeded its page limit.")
  | left + 1, query, entries => do
      let page ← AgentSyncService.sync follower.consumerId follower.environment query
        (some follower.grant)
      let entries := setAll entries page.changes
      match page.nextCursor, page.syncCursor with
      | some cursor, _ => pages follower left ⟨none, some cursor⟩ entries
      | none, some checkpoint =>
          return { entries := entries, snapshot := page.snapshot, checkpoint := checkpoint }
      | none, none => throw (.error "Hemlig sync did not return a completed checkpoint.")

/-- `error instanceof HemligError && error.status === 410`. -/
def isReset : Failure → Bool
  | .api error => error.statusCode = 410
  | _ => false

/-- One cycle; an expired or outdated checkpoint is given up for a snapshot, once. -/
def synchronize (follower : Follower) (syncCursor : Option String) : Service Synchronized :=
  tryCatch (synchronize.pages follower follower.pageLimit ⟨syncCursor, none⟩ fun _ => none)
    fun failure =>
      if isReset failure then
        synchronize.pages follower follower.pageLimit ⟨none, none⟩ fun _ => none
      else throw failure

/-- What a client holds after a cycle: a snapshot replaces what it held, other entries
are added to it. -/
def applyCycle (held : Entries) (cycle : Synchronized) : Entries := fun secretUid =>
  if cycle.snapshot then cycle.entries secretUid
  else (cycle.entries secretUid).or (held secretUid)

/-- What a client holds after several cycles, the last one first. -/
def heldAfter : List Synchronized → Entries
  | [] => fun _ => none
  | cycle :: earlier => applyCycle (heldAfter earlier) cycle

/-- Several cycles, one after the other, each from the checkpoint of the one before it;
the result is in the order of completion, the last cycle first. -/
def follow (follower : Follower) : ℕ → List Synchronized → Service (List Synchronized)
  | 0, done => pure done
  | left + 1, done => do
      let cycle ← synchronize follower (done.head?.map Synchronized.checkpoint)
      follow follower left (cycle :: done)

end Hemlig.Controller
