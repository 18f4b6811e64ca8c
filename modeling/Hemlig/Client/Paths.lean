import Hemlig.Domain.Tags
import Hemlig.Handlers.Routes

/-!
# Paths of the client

The requests that `packages/client/src/index.ts` makes for one secret, on the surfaces of
administrators and of agents, and the operation that each of them is meant to reach.
-/

namespace Hemlig.Client

open Text Routes

inductive SecretOperation
  | getAdminSecret
  | getAdminSecretPayload
  | listSecretRevisions
  | updateAdminSecret
  | putAdminPayload
  | archiveAdminSecret
  | getAgentSecret
  | getAgentControl
  | updateAgentSecret
  | putAgentPayload
  deriving DecidableEq, Repr

namespace SecretOperation

def method : SecretOperation → Method
  | getAdminSecret => .get
  | getAdminSecretPayload => .get
  | listSecretRevisions => .get
  | updateAdminSecret => .put
  | putAdminPayload => .put
  | archiveAdminSecret => .post
  | getAgentSecret => .get
  | getAgentControl => .get
  | updateAgentSecret => .put
  | putAgentPayload => .put

/-- What precedes the id in the path. -/
def first : SecretOperation → String
  | getAdminSecret => "/v1/admin/secrets/"
  | getAdminSecretPayload => "/v1/admin/secrets/"
  | listSecretRevisions => "/v1/admin/secrets/"
  | updateAdminSecret => "/v1/admin/secrets/"
  | putAdminPayload => "/v1/admin/secrets/"
  | archiveAdminSecret => "/v1/admin/secrets/"
  | getAgentSecret => "/v1/agent/secrets/"
  | getAgentControl => "/v1/agent/secrets/"
  | updateAgentSecret => "/v1/agent/secrets/"
  | putAgentPayload => "/v1/agent/secrets/"

/-- What follows it. -/
def last : SecretOperation → String
  | getAdminSecret => ""
  | getAdminSecretPayload => "/payload"
  | listSecretRevisions => "/revisions"
  | updateAdminSecret => ""
  | putAdminPayload => "/payload"
  | archiveAdminSecret => "/archive"
  | getAgentSecret => ""
  | getAgentControl => "/control"
  | updateAgentSecret => ""
  | putAgentPayload => "/payload"

/-- The path of the request; the query is no part of it. -/
def requestPath (operation : SecretOperation) (secretId : String) : Path :=
  operation.first.toList ++ encodeURIComponent secretId.toList ++ operation.last.toList

end SecretOperation

/-- What a handler does for a request. -/
inductive Served
  | admin (route : AdminRoute)
  | consumer (route : ConsumerRoute)
  deriving DecidableEq, Repr

namespace SecretOperation

/-- The operation that is meant, with the id that is meant. -/
def intended (operation : SecretOperation) (secretId : String) : Served :=
  match operation with
  | getAdminSecret => .admin (.control secretId)
  | getAdminSecretPayload => .admin (.payload secretId)
  | listSecretRevisions => .admin (.revisions secretId)
  | updateAdminSecret => .admin (.update secretId)
  | putAdminPayload => .admin (.putPayload secretId)
  | archiveAdminSecret => .admin (.archive secretId)
  | getAgentSecret => .consumer (.agentRead secretId)
  | getAgentControl => .consumer (.agentControl secretId)
  | updateAgentSecret => .consumer (.agentUpdate secretId)
  | putAgentPayload => .consumer (.agentPutPayload secretId)

/-- The handler of the surface finds a route for the request; agents authenticate as consumers. -/
def served (operation : SecretOperation) (isAgent : Bool) (secretId : String) :
    Except ApiError Served :=
  match operation.intended secretId with
  | .admin _ => (adminRoute operation.method (operation.requestPath secretId)).map .admin
  | .consumer _ =>
      (consumerRoute isAgent operation.method (operation.requestPath secretId)).map .consumer

end SecretOperation

/-! ## The query of a listing -/

/-- The `tags` of `listSecrets`: sorted by their keys, and joined with commas. -/
def tagsParameter (localeBefore : String → String → Bool) (tags : List (String × String)) :
    String :=
  String.ofList ([','].intercalate ((sortTags localeBefore tags).map tagFilter))

end Hemlig.Client
