import Hemlig.Handlers.Recovery
import Hemlig.Repositories.ObjectStore

/-!
# The retention handler

`src/handlers/retention.ts`: a due revision that its head does not name and whose
lock has ended loses its object, and then its place in the retention index.
-/

namespace Hemlig.Retention

open Concurrent DynamoRepository

/-- The head names the revision. -/
def isCurrent (sk : WorkflowSk) : Option HeadRecord → Bool
  | none => false
  | some head =>
      match sk with
      | .control controlVersionId => controlVersionId = head.controlVersionId
      | .payload payloadVersionId => head.payloadVersionId = some payloadVersionId

def skText : WorkflowSk → String
  | .control controlVersionId => "CONTROL#" ++ controlVersionId
  | .payload payloadVersionId => "PAYLOAD#" ++ payloadVersionId

/-- The environment and the secret in a revision document. -/
def serializedName : ObjectBody → String × String
  | .control control => (control.environment, control.secretId)
  | .payload payload => (payload.environment, payload.secretId)

def deletedEvent (workflow : IndexedWorkflow) (environment secretId : String) : AuditEvent where
  correlationId := workflow.row.operationId
  outcome := .succeeded
  actor := { type := .system, id := "retention" }
  operation := "revision.retention.delete"
  target := [("environment", environment), ("secretId", secretId),
    ("workflow", skText workflow.sk)]
  reasonCode := none

/-- The object version a workflow row refers to. -/
def objectReference (row : StoredWorkflow) (versionId : String) : ObjectReference where
  key := row.objectKey
  versionId := versionId

/-- One due workflow. -/
def examine (workflow : IndexedWorkflow) : Service Unit := do
  match workflow.row.s3VersionId, secretIdentityFromPk workflow.secretUid with
  | some versionId, some secretUid =>
      let head ← getHeadBySecretUid secretUid
      let name := (head.map fun head => (head.environment, head.secretId)).getD
        (serializedName workflow.row.serialized)
      if isCurrent workflow.sk head then return ()
      else
        let reference := objectReference workflow.row versionId
        let canDelete ← ObjectStore.canDeleteVersion reference
        if canDelete then
          ObjectStore.deleteVersion reference
          markRetentionDeleted workflow
          send (.auditWrite (deletedEvent workflow name.1 name.2))
        else return ()
  | _, _ => return ()

def handler : Service Unit := do
  let workflows ← listReadyWorkflows
  workflows.forM examine

end Hemlig.Retention
