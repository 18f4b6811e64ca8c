import Hemlig.Services.Agents

/-!
# The consumer handler

The routes of `src/handlers/consumer.ts` that read a secret: the authorization is
put on record before anything is decrypted.
-/

namespace Hemlig.Consumer

open Concurrent

def authorizedEvent (correlationId consumerId environment secretId operation : String) :
    AuditEvent where
  correlationId := correlationId
  outcome := .authorized
  actor := { type := .consumer, id := consumerId }
  operation := operation
  target := [("environment", environment), ("secretId", secretId)]
  reasonCode := none

/-- `GET /v1/secrets/<id>`. -/
def read (consumerId environment secretId : String) (ifNoneMatch : Option String)
    (correlationId : String) : Service SecretReadResult :=
  SecretService.read consumerId environment secretId ifNoneMatch
    (send (.auditWrite (authorizedEvent correlationId consumerId environment secretId
      ("consumerget:/v1/secrets/" ++ secretId))))

/-- `GET /v1/agent/secrets/<id>`. -/
def agentRead (consumerId environment secretId : String) (ifNoneMatch : Option String)
    (correlationId : String) : Service SecretReadResult :=
  AgentService.read consumerId environment secretId ifNoneMatch
    (send (.auditWrite (authorizedEvent correlationId consumerId environment secretId
      ("agentget:/v1/agent/secrets/" ++ secretId))))

end Hemlig.Consumer
