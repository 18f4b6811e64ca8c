import Hemlig.Paging.Collapse
import Hemlig.Repositories.Dynamo

/-!
# The change feed of a consumer

`listAccess` of `src/repositories/dynamo.ts`: a page of the access records of a consumer,
each brought up to date with its head.  A name that was archived and used again has several
records; of those on one page the feed shows one.
-/

namespace Hemlig

open Concurrent

/-- The entry of a secret that the consumer may no longer read. -/
def AccessRecord.revokedEntry (access : AccessRecord) : AccessRecord :=
  { access with
    permissions := []
    payloadVersionId := none
    state := .revoked
    changeKind := .revoked }

/-- What the feed shows of an access record, by the head of its secret. -/
def AccessRecord.snapshot (access : AccessRecord) (head : Option HeadRecord) : AccessRecord :=
  match head with
  | none => access.revokedEntry
  | some head =>
      if head.environment ≠ access.environment ∨ head.state ≠ .active then access.revokedEntry
      else
        { access with
          controlVersionId := head.controlVersionId
          payloadVersionId := head.payloadVersionId
          state := head.state
          changeKind := .changed }

/-- The record that stands for a name: that of the live secret, or a revocation. -/
def chooseChange (liveSecretUid : Option String) (first : AccessRecord) (group : List AccessRecord) :
    AccessRecord :=
  match group.find? fun change => some change.secretUid = liveSecretUid with
  | some liveChange => liveChange
  | none =>
      (group.find? fun change => change.state = .revoked ∨ .read ∉ change.permissions).getD
        first.revokedEntry

namespace DynamoRepository

/-- Access records are grants; the head says what is current. -/
def currentAccessSnapshot (access : AccessRecord) : Service AccessRecord := do
  if .read ∉ access.permissions ∨ access.state = .revoked then return access
  else return access.snapshot (← getHeadBySecretUid access.secretUid)

/-- The entry of one name. -/
def collapseGroup (environment secretId : String) : List AccessRecord → Service (List AccessRecord)
  | [] => pure []
  | [first] => pure [first]
  | first :: rest => do
      let liveSecretUid ← getSecretUid environment secretId
      return [chooseChange liveSecretUid first (first :: rest)]

/-- One entry for each name of a page. -/
def collapseReusedSecretIds (environment : String) (changes : List AccessRecord) :
    Service (List AccessRecord) := do
  let current ← (Paging.keys AccessRecord.secretId changes).mapM fun secretId =>
    collapseGroup environment secretId (Paging.group AccessRecord.secretId changes secretId)
  return current.flatten

def listAccess (consumerId environment : String) (startKey : Option String) :
    Service (Page AccessRecord String) := do
  let response ← send (.accessPage consumerId environment startKey)
  let changes ← response.items.mapM currentAccessSnapshot
  let currentChanges ← collapseReusedSecretIds environment changes
  return { items := currentChanges, lastEvaluatedKey := response.lastEvaluatedKey }

end DynamoRepository

/-- A consumer follows the cursors of `GET /v1/changes` to the end. -/
def Consumer.allChanges (consumerId environment : String) :
    ℕ → Option String → Service (List AccessRecord)
  | 0, _ => throw .timeout
  | left + 1, cursor => do
      let page ← DynamoRepository.listAccess consumerId environment cursor
      match page.lastEvaluatedKey with
      | none => return page.items
      | some key => return page.items ++ (← allChanges consumerId environment left (some key))

end Hemlig
