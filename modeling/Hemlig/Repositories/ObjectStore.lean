import Hemlig.Aws.Requests

/-!
# The object store

`src/repositories/object-store.ts`, for the revision bucket.  A body is stored as
it is; its checksum is not modelled.
-/

namespace Hemlig.ObjectStore

/-- Store a new object under a key that has none. -/
def putImmutable (key : ObjectKey) (body : ObjectBody) : Service ObjectReference := do
  let versionId ← send (.putObject key body)
  return { key := key, versionId := versionId }

def getJson (reference : ObjectReference) : Service ObjectBody := send (.getObject reference)

def extendComplianceRetention (reference : ObjectReference) (retainUntil : Time) : Service Unit :=
  send (.extendRetention reference retainUntil)

/-- The version is not locked any more. -/
def canDeleteVersion (reference : ObjectReference) : Service Bool := do
  let now ← send .now
  let retainUntil ← send (.getRetention reference)
  return retainUntil.all (· ≤ now)

def deleteVersion (reference : ObjectReference) : Service Unit := send (.deleteObject reference)

end Hemlig.ObjectStore
