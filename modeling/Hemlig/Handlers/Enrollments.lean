import Hemlig.Handlers.Recovery
import Hemlig.Services.Consumers

/-!
# The recovery of enrollments

The branch of `src/handlers/recovery.ts` for consumer enrollments: an expired
operation is resumed once more; whatever goes wrong then, it fails.
-/

namespace Hemlig.Recovery

open Concurrent DynamoRepository

/-- `AuditWriter.write`: the event gets an identifier of its own. -/
def writeEvent (event : AuditEvent) : Service String := do
  let eventId ← send (.newId "")
  send (.auditWrite { event with eventId := some eventId })
  return eventId

def enrolledEvent (operationId : String) (actor : Actor) (result : ConsumerProvisioningResult) :
    AuditEvent where
  correlationId := operationId
  outcome := .succeeded
  actor := actor
  operation := "consumer.enroll"
  target := [("consumerId", result.consumerId), ("rootFingerprint", result.rootFingerprint),
    ("apiFingerprint", result.apiFingerprint)]
  reasonCode := none

def enrollmentExpiredEvent (operationId : String) : AuditEvent where
  correlationId := operationId
  outcome := .failed
  actor := { type := .system, id := "recovery" }
  operation := "consumer.enrollment.recovery"
  target := [("operationId", operationId)]
  reasonCode := some "enrollment_expired"

/-- The success of an enrollment is put on record, unless it is already. -/
def recordSuccess (operationId : String) (result : ConsumerProvisioningResult)
    (enrollment : EnrollmentRecord) : Service Unit := do
  let idempotency ← getIdempotency enrollment.actor enrollment.idempotencyKey
  if idempotency.any (·.status = .succeeded) then return ()
  else
    let eventId ← writeEvent (enrolledEvent operationId enrollment.actor result)
    markAuditSucceeded enrollment.actor enrollment.idempotencyKey eventId

/-- Resume the operation. -/
def resumeExpired (operationId : String) : Service Unit := do
  let result ← ConsumerService.resume operationId
  match ← getEnrollment operationId with
  | none => return ()
  | some enrollment => recordSuccess operationId result enrollment

/-- A stalled operation fails; a concurrent completion or lease takeover wins. -/
def failExpired (operationId : String) : Service Unit := do
  let enrollment ← getEnrollment operationId
  match enrollment.filter (·.workflowState = .prepared) with
  | some enrollment => tryCatch (failEnrollment enrollment) fun _ => pure ()
  | none => pure ()
  let _ ← writeEvent (enrollmentExpiredEvent operationId)
  return ()

def recoverEnrollment (operationId : String) : Service Unit :=
  tryCatch (resumeExpired operationId) fun _ => failExpired operationId

def enrollments : Service Unit := do
  let now ← send .now
  let expired ← listExpiredEnrollments now
  (distinct expired).forM recoverEnrollment
  ConsumerService.reconcileTruststore

end Hemlig.Recovery
