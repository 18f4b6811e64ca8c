import Hemlig.Services.Secrets

/-!
# The environment service

`src/services/environments.ts`.
-/

namespace Hemlig.EnvironmentService

def create (name : String) (actor : Actor) : Service EnvironmentRecord := do
  assertOk (assertEnvironmentName name)
  let now ← send .now
  let environment : EnvironmentRecord := { name := name, createdAt := now, createdBy := actor }
  DynamoRepository.createEnvironment environment
  return environment

end Hemlig.EnvironmentService
