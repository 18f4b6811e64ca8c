import Hemlig.Repositories.Registry

/-!
# Human operations

`src/services/operations.ts`: the success of a human operation goes to the audit
archive, and then onto its idempotency record.
-/

namespace Hemlig

def succeededEvent (actor : Actor) (correlationId operation : String)
    (target : List (String × String)) : AuditEvent where
  correlationId := correlationId
  outcome := .succeeded
  actor := actor
  operation := operation
  target := target
  reasonCode := none

def humanOperation (actor : Actor) (idempotencyKey correlationId operation : String)
    (target : List (String × String)) : Service Unit := do
  let eventId ← send (.newId "")
  send (.auditWrite
    { succeededEvent actor correlationId operation target with eventId := some eventId })
  DynamoRepository.markAuditSucceeded actor idempotencyKey eventId

end Hemlig
