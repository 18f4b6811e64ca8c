import Hemlig.Domain.Validation
import Hemlig.Text.Uri

/-!
# Routes

How `src/handlers/admin.ts` and `src/handlers/consumer.ts` find the operation of a request: they
compare the method and the path with one route after the other.  Some routes are compared with
the path as it was sent, others with the decoded path, in which the slashes of an id are no
longer told from those between the parts of the path.
-/

namespace Hemlig.Routes

open Text

inductive Method
  | get
  | post
  | put
  | delete
  | other
  deriving DecidableEq, Repr

/-- Paths are sequences of characters. -/
abbrev Path := List Char

/-! ## Patterns -/

/-- What follows a text at the start. -/
def stripFirst (first : String) (target : Path) : Option Path :=
  if first.toList.isPrefixOf target then some (target.drop first.toList.length) else none

/-- What precedes a text at the end. -/
def stripLast (last : String) (target : Path) : Option Path :=
  if last.toList.isSuffixOf target then some (target.take (target.length - last.toList.length))
  else none

/-- `^first(.*)$`, where the group is in a grammar. -/
def captureAfter (first : String) (grammar : Path → Bool) (target : Path) : Option String :=
  ((stripFirst first target).filter grammar).map String.ofList

/-- `^first(.*)last$`, where the group is in a grammar. -/
def captureBetween (first last : String) (grammar : Path → Bool) (target : Path) :
    Option String :=
  (((stripFirst first target).bind (stripLast last)).filter grammar).map String.ofList

/-- `[a-z][a-z0-9-]{2,63}`. -/
def identifierPart (part : Path) : Bool := isName 2 63 part

/-- `[a-z][a-z0-9-]{2,63}(?:/[a-z][a-z0-9-]{2,63})*`. -/
def secretIdRoutePart (part : Path) : Bool := (part.splitOn '/').all (isName 2 63)

/-- `grant-[a-z0-9-]{3,80}` and `sec-[a-z0-9-]{3,127}`. -/
def prefixedPart (first : String) (most : ℕ) (part : Path) : Bool :=
  match stripFirst first part with
  | none => false
  | some rest => 3 ≤ rest.length && rest.length ≤ most && rest.all isIdentifierChar

/-- `[a-f0-9]{64}`. -/
def fingerprintPart (part : Path) : Bool :=
  part.length = 64 && part.all fun c => ('a' ≤ c && c ≤ 'f') || ('0' ≤ c && c ≤ '9')

def decodeRequestPath (value : Path) : Except ApiError Path :=
  match decodeURIComponent value with
  | some decoded => .ok decoded
  | none => .error (badRequest "The request path is not valid URL encoding.")

/-! ## The handler of administrators -/

/-- The operations of the handler, with what the path names. -/
inductive AdminRoute
  | listEnvironments
  | createEnvironment
  | listSecrets
  | createSecret
  | secretTree
  | createAgentGrant
  | updateAgentGrant (grantId : String)
  | issueBootstrapCapability (grantId : String)
  | listConsumers
  | registerConsumer
  | getIssuer
  | registerIssuer
  | getConsumer (consumerId : String)
  | listConsumerGrants (consumerId : String)
  | revokeConsumerSecretGrant (consumerId secretId : String)
  | listApiIdentities (consumerId : String)
  | rotateApiIdentity (consumerId : String)
  | revokeApiIdentity (consumerId apiFingerprint : String)
  | getArchivedSecret (secretUid : String)
  | archive (secretId : String)
  | revisions (secretId : String)
  | control (secretId : String)
  | payload (secretId : String)
  | update (secretId : String)
  | putPayload (secretId : String)
  deriving DecidableEq, Repr

def adminPrefix : String := "/v1/admin/secrets/"

/-- The fixed suffix is taken off before the remaining id is checked. -/
def secretIdFromSuffixedPath (decodedPath : Path) (suffix : String) : Option String :=
  if adminPrefix.toList.isPrefixOf decodedPath ∧ suffix.toList.isSuffixOf decodedPath then
    let secretId := (decodedPath.take (decodedPath.length - suffix.toList.length)).drop
      adminPrefix.toList.length
    if secretIdRoutePart secretId then some (String.ofList secretId) else none
  else none

/-- A consumer and a secret: the first segment is the consumer. -/
def consumerGrantTargetFromPath (decodedPath : Path) : Option (String × String) :=
  match stripFirst "/v1/admin/consumers/" decodedPath with
  | none => none
  | some rest =>
      let consumerId := rest.takeWhile (· ≠ '/')
      match stripFirst "/grants/" (rest.drop consumerId.length) with
      | none => none
      | some secretId =>
          if identifierPart consumerId && secretIdRoutePart secretId then
            some (String.ofList consumerId, String.ofList secretId)
          else none

def revokeMatch (rawPath : Path) : Option (String × String) :=
  match stripFirst "/v1/admin/consumers/" rawPath with
  | none => none
  | some rest =>
      let consumerId := rest.takeWhile (· ≠ '/')
      match stripFirst "/api-identities/" (rest.drop consumerId.length) with
      | none => none
      | some fingerprint =>
          if identifierPart consumerId && fingerprintPart fingerprint then
            some (String.ofList consumerId, String.ofList fingerprint)
          else none

/-- The routes that are compared with the path as it was sent, and the one of a grant. -/
def adminRawRoute (method : Method) (rawPath decodedPath : Path) : Option AdminRoute :=
  if method = .get ∧ rawPath = "/v1/admin/environments".toList then some .listEnvironments
  else if method = .post ∧ rawPath = "/v1/admin/environments".toList then some .createEnvironment
  else if method = .get ∧ rawPath = "/v1/admin/secrets".toList then some .listSecrets
  else if method = .post ∧ rawPath = "/v1/admin/secrets".toList then some .createSecret
  else if method = .get ∧ rawPath = "/v1/admin/secrets/tree".toList then some .secretTree
  else if method = .post ∧ rawPath = "/v1/admin/agent-grants".toList then some .createAgentGrant
  else
    match method, captureAfter "/v1/admin/agent-grants/" (prefixedPart "grant-" 80) rawPath with
    | .put, some grantId => some (.updateAgentGrant grantId)
    | _, _ =>
    match method, captureBetween "/v1/admin/agent-grants/" "/bootstrap-capabilities"
        (prefixedPart "grant-" 80) rawPath with
    | .post, some grantId => some (.issueBootstrapCapability grantId)
    | _, _ =>
    if method = .get ∧ rawPath = "/v1/admin/consumers".toList then some .listConsumers
    else if method = .post ∧ rawPath = "/v1/admin/consumers".toList then some .registerConsumer
    else if method = .get ∧ rawPath = "/v1/admin/issuer".toList then some .getIssuer
    else if method = .post ∧ rawPath = "/v1/admin/issuer".toList then some .registerIssuer
    else
    match method, captureAfter "/v1/admin/consumers/" identifierPart rawPath with
    | .get, some consumerId => some (.getConsumer consumerId)
    | _, _ =>
    match method, captureBetween "/v1/admin/consumers/" "/grants" identifierPart rawPath with
    | .get, some consumerId => some (.listConsumerGrants consumerId)
    | _, _ =>
    match method, consumerGrantTargetFromPath decodedPath with
    | .delete, some (consumerId, secretId) =>
        some (.revokeConsumerSecretGrant consumerId secretId)
    | _, _ =>
    match method, captureBetween "/v1/admin/consumers/" "/api-identities" identifierPart
        rawPath with
    | .get, some consumerId => some (.listApiIdentities consumerId)
    | .post, some consumerId => some (.rotateApiIdentity consumerId)
    | _, _ =>
    match method, revokeMatch rawPath with
    | .delete, some (consumerId, fingerprint) => some (.revokeApiIdentity consumerId fingerprint)
    | _, _ => none

/-- The route of one secret, by what the patterns capture; the general pattern captures the id of
a path with a suffix, too, and is passed over then. -/
def chooseAdminRoute (method : Method) (archivedSecret secretMatch revisionSecretId payloadSecretId
    archiveSecretId : Option String) : Option AdminRoute :=
  match method, archivedSecret, secretMatch, revisionSecretId, payloadSecretId, archiveSecretId with
  | .get, some secretUid, _, _, _, _ => some (.getArchivedSecret secretUid)
  | .post, _, _, _, _, some secretId => some (.archive secretId)
  | .get, none, _, some secretId, _, _ => some (.revisions secretId)
  | .get, none, some secretId, none, none, none => some (.control secretId)
  | .get, none, _, none, some secretId, _ => some (.payload secretId)
  | .put, _, some secretId, none, none, none => some (.update secretId)
  | .put, _, _, _, some secretId, _ => some (.putPayload secretId)
  | _, _, _, _, _, _ => none

def adminSecretRoute (method : Method) (decodedPath : Path) : Option AdminRoute :=
  chooseAdminRoute method
    (captureAfter "/v1/admin/archived-secrets/" (prefixedPart "sec-" 127) decodedPath)
    (captureAfter adminPrefix secretIdRoutePart decodedPath)
    (secretIdFromSuffixedPath decodedPath "/revisions")
    (secretIdFromSuffixedPath decodedPath "/payload")
    (secretIdFromSuffixedPath decodedPath "/archive")

def adminRoute (method : Method) (rawPath : Path) : Except ApiError AdminRoute := do
  let decodedPath ← decodeRequestPath rawPath
  match adminRawRoute method rawPath decodedPath with
  | some route => .ok route
  | none =>
      match adminSecretRoute method decodedPath with
      | some route => .ok route
      | none => .error (badRequest
          "The requested administrative route is not supported by this handler.")

/-! ## The handler of consumers -/

inductive ConsumerRoute
  | sync
  | config
  | agentControl (secretId : String)
  | agentUpdate (secretId : String)
  | agentPutPayload (secretId : String)
  | agentRead (secretId : String)
  | read (secretId : String)
  | changes
  deriving DecidableEq, Repr

def agentPrefix : String := "/v1/agent/secrets/"

/-- The route of one secret, by what the patterns capture; an agent does not fall back to the
generic read. -/
def chooseConsumerRoute (isAgent : Bool) (method : Method) (secretMatch agentSecretMatch
    agentPayloadMatch agentControlMatch : Option String) : Option ConsumerRoute :=
  match method, secretMatch, agentSecretMatch, agentPayloadMatch, agentControlMatch with
  | .get, _, _, _, some secretId => some (.agentControl secretId)
  | .put, _, some secretId, none, _ => some (.agentUpdate secretId)
  | .put, _, _, some secretId, _ => some (.agentPutPayload secretId)
  | .get, _, some secretId, _, none => some (.agentRead secretId)
  | .get, some secretId, none, _, none =>
      some (if isAgent then .agentRead secretId else .read secretId)
  | _, _, _, _, _ => none

def consumerSecretRoute (isAgent : Bool) (method : Method) (decodedPath : Path) :
    Option ConsumerRoute :=
  chooseConsumerRoute isAgent method
    (captureAfter "/v1/secrets/" secretIdRoutePart decodedPath)
    (captureAfter agentPrefix secretIdRoutePart decodedPath)
    (captureBetween agentPrefix "/payload" secretIdRoutePart decodedPath)
    (captureBetween agentPrefix "/control" secretIdRoutePart decodedPath)

def consumerRoute (isAgent : Bool) (method : Method) (rawPath : Path) :
    Except ApiError ConsumerRoute :=
  if method = .get ∧ rawPath = "/v1/agent/sync".toList then .ok .sync
  else do
    let decodedPath ← decodeRequestPath rawPath
    if method = .get ∧ rawPath = "/v1/agent/config".toList then .ok .config
    else
      match consumerSecretRoute isAgent method decodedPath with
      | some route => .ok route
      | none =>
          if method = .get ∧ rawPath = "/v1/changes".toList then .ok .changes
          else .error (badRequest
            "The requested consumer route is not supported by this handler.")

end Hemlig.Routes
