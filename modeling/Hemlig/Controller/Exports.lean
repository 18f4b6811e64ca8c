import Hemlig.Services.Agents

/-!
# Exports

The writes of `reconcileExport` in `packages/kubernetes-controller/src/v1beta.ts`.  Their
idempotency keys are digests of what the controller knows of the resource, the source and the
remote secret, so that an attempt that is made again uses the same key again.  The digest is a
parameter.
-/

namespace Hemlig.Controller

/-- `ObjectMeta`, what a key is made of. -/
structure ObjectMeta where
  uid : Option String
  generation : Option ℕ
  inNamespace : String
  name : String
  deriving DecidableEq, Repr

def resourceKey (metadata : ObjectMeta) : String := metadata.inNamespace ++ "/" ++ metadata.name

/-- The key of a write for a resource. -/
def operationKey (sha256Hex : String → String) (metadata : ObjectMeta) (operation : String) :
    String :=
  sha256Hex (metadata.uid.getD (resourceKey metadata) ++ ":" ++
    toString (metadata.generation.getD 0) ++ ":" ++ operation)

/-- What `reconcileExport` knows when it writes the payload of its source; `actor` is the
certificate that the consumer presents. -/
structure ExportWrite where
  metadata : ObjectMeta
  actor : Actor
  consumerId : String
  environment : String
  secretId : String
  controlVersionId : String
  checksum : String
  payload : SecretPayload
  deriving DecidableEq, Repr

/-- `putAgentPayload`, as the service receives it. -/
def ExportWrite.request (sha256Hex : String → String) (attempt : ExportWrite) :
    AgentSecretWriteInput where
  consumerId := attempt.consumerId
  environment := attempt.environment
  secretId := attempt.secretId
  expectedControlVersionId := some attempt.controlVersionId
  metadata := none
  payload := some attempt.payload
  actor := attempt.actor
  idempotencyKey := operationKey sha256Hex attempt.metadata
    ("payload:" ++ attempt.checksum ++ ":" ++ attempt.controlVersionId)

/-- Nothing has changed between two attempts: the resource, the checksum of the source, the remote
control version, and the certificate. -/
structure ExportWrite.Repeats (attempt earlier : ExportWrite) : Prop where
  uid : attempt.metadata.uid = earlier.metadata.uid ∧ attempt.metadata.uid.isSome = true
  generation : attempt.metadata.generation = earlier.metadata.generation
  checksum : attempt.checksum = earlier.checksum
  controlVersionId : attempt.controlVersionId = earlier.controlVersionId
  actor : attempt.actor = earlier.actor

/-- A repeated attempt uses the same key. -/
theorem ExportWrite.Repeats.idempotencyKey {attempt earlier : ExportWrite}
    (h : attempt.Repeats earlier) (sha256Hex : String → String) :
    (attempt.request sha256Hex).idempotencyKey = (earlier.request sha256Hex).idempotencyKey := by
  obtain ⟨uid, huid⟩ := Option.isSome_iff_exists.mp h.uid.2
  unfold ExportWrite.request operationKey
  rw [← h.uid.1, huid, h.generation, h.checksum, h.controlVersionId]
  rfl

end Hemlig.Controller
