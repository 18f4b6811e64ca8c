import Hemlig.Aws.Cloud
import Hemlig.Concurrent.Interleaving
import Hemlig.Domain.Errors
import Mathlib.Data.List.Sort

/-!
# Requests

The requests a process sends, what they answer and what they do to the shared
state.  Whatever the source leaves to AWS is a `Choice`: which identifier is
drawn, which writes of a transaction meet another one, where a page ends, which
rows an eventually consistent index shows and in which order, and whether the
request fails on the way there or its answer on the way back.
-/

namespace Hemlig

open Store Concurrent

/-! ## Failures -/

/-- The exceptions of the AWS clients. -/
inductive AwsFailure
  /-- `ConditionalCheckFailedException` of a single write. -/
  | conditionalCheckFailed
  /-- `TransactionCanceledException` of a transaction. -/
  | transactionCanceled (reasons : List CancellationReason)
  /-- `ValidationException`. -/
  | validation
  /-- `PreconditionFailed`: the object exists. -/
  | preconditionFailed
  /-- `NoSuchVersion`. -/
  | noSuchVersion
  /-- `AccessDenied`: the object lock forbids it. -/
  | accessDenied
  /-- The service did not answer. -/
  | unavailable
  /-- `BadRequestException`, `ConflictException` and `TooManyRequestsException` of API
  Gateway. -/
  | badRequest
  | conflict
  | tooManyRequests
  deriving DecidableEq, Repr

/-- What a program can throw: an API error, an exception of a client, a plain
`Error`, or the end of the process at its time limit. -/
inductive Failure
  | api (error : ApiError)
  | aws (failure : AwsFailure)
  | error (message : String)
  | timeout
  deriving DecidableEq, Repr

/-- Why the private key of the issuer could not be opened. -/
inductive IssuerKeyFailure
  | undecrypted
  | invalid
  deriving DecidableEq, Repr

/-! ## Requests and their answers -/

/-- A request; `note` is the event that the history keeps of a write. -/
inductive Request
  /-- An identifier `<tag><uuid>`. -/
  | newId (tag : String)
  | now
  /-- A number only the environment knows: which of several pending promises
  settles next, or how many pages there will be. -/
  | choose
  | get (key : Key)
  | transactGet (first second : Key)
  | write (write : TableWrite)
  /-- A single write that the history keeps. -/
  | writeNoted (write : TableWrite) (note : Event)
  | transactWrite (writes : List TableWrite) (note : Option Event)
  /-- A query of the workflow due index. -/
  | expiredPrepared (now : Time)
  /-- One page of the retention due index. -/
  | readyWorkflows (now : Time)
  /-- One page of the `CHANGE#` rows of an environment. -/
  | changePage (environment first last : String) (startKey : Option String)
  /-- One page of the registry. -/
  | environmentPage (startKey : Option String)
  /-- One page of the access records of a consumer. -/
  | accessPage (consumerId environment : String) (startKey : Option String)
  /-- One page of a scan for `READY` heads. -/
  | scanHeads (startKey : ℕ)
  | putObject (key : ObjectKey) (body : ObjectBody)
  | getObject (reference : ObjectReference)
  | extendRetention (reference : ObjectReference) (retainUntil : Time)
  | getRetention (reference : ObjectReference)
  | deleteObject (reference : ObjectReference)
  /-- The envelope of a payload under a new data key. -/
  | encrypt (payload : SecretPayload)
  | decrypt (revision : PayloadRevision)
  | auditWrite (event : AuditEvent)
  | reconcileTruststore
  /-- A query of the workflow due index, for the operations of enrollments. -/
  | dueEnrollments (now : Time)
  /-- One page of the roots of the truststore. -/
  | truststoreRootPage (startKey : Option String)
  | putBundle (key pem : String)
  | getBundle (key : String)
  /-- A new key pair with its self-signed certificate. -/
  | newRoot
  /-- A leaf certificate signed by the issuer. -/
  | issueLeaf (issuer : IssuerRecord) (consumerId : String) (certificateRequest : CertificateRequest)
  | encryptIssuerKey
  | decryptIssuerKey (encryptedPrivateKey : String)
  | getDomainName
  | updateDomainName (truststoreUri truststoreVersion : String)
  /-- The newest identities of a consumer: the first page of their index. -/
  | identityPage (consumerId : String)
  /-- Register the certificate of an agent with the broker. -/
  | provision (consumerId certificateFingerprint : String) (certificatePem : LeafCertificate)

/-- A page of an index and the key its next page starts after. -/
structure Page (α κ : Type) where
  items : List α
  lastEvaluatedKey : Option κ
  deriving DecidableEq, Repr

/-- A row of an index: its primary key and its attributes. -/
structure IndexedWorkflow where
  secretUid : String
  sk : WorkflowSk
  row : StoredWorkflow
  deriving DecidableEq, Repr

abbrev Answer : Request → Type
  | .newId _ => String
  | .now => Time
  | .choose => ℕ
  | .get key => Option (Item key)
  | .transactGet first second => Option (Item first) × Option (Item second)
  | .write _ => Unit
  | .writeNoted _ _ => Unit
  | .transactWrite _ _ => Unit
  | .expiredPrepared _ => List IndexedWorkflow
  | .readyWorkflows _ => List IndexedWorkflow
  | .changePage _ _ _ _ => Page (String × ChangeRow) String
  | .environmentPage _ => Page EnvironmentRecord String
  | .accessPage _ _ _ => Page AccessRecord String
  | .scanHeads _ => Page (String × HeadRecord) ℕ
  | .putObject _ _ => String
  | .getObject _ => ObjectBody
  | .extendRetention _ _ => Unit
  | .getRetention _ => Option Time
  | .deleteObject _ => Unit
  | .encrypt _ => EncryptedPayload
  | .decrypt _ => SecretPayload
  | .auditWrite _ => Unit
  | .reconcileTruststore => Unit
  | .dueEnrollments _ => List String
  | .truststoreRootPage _ => Page TruststoreRootRecord String
  | .putBundle _ _ => String
  | .getBundle _ => StoredBundle
  | .newRoot => Certificate
  | .issueLeaf _ _ _ => Option Certificate
  | .encryptIssuerKey => Option String
  | .decryptIssuerKey _ => Option IssuerKeyFailure
  | .getDomainName => DomainName
  | .updateDomainName _ _ => Unit
  | .identityPage _ => List IdentityRecord
  | .provision _ _ _ => Unit

/-- A request is answered or fails. -/
abbrev Response (q : Request) := Except AwsFailure (Answer q)

/-- The programs of the service. -/
abbrev Service := Program Request Response Failure

/-- Send one request; its failure is thrown. -/
def send (q : Request) : Service (Answer q) := do
  match ← Program.request q with
  | .ok answer => pure answer
  | .error failure => throw (.aws failure)

/-- Throw an API error. -/
def reject {α : Type} (error : ApiError) : Service α := throw (.api error)

/-- The outcome of a check that throws. -/
def assertOk {α : Type} (outcome : Except ApiError α) : Service α :=
  Program.ofExcept (outcome.mapError .api)

/-- The value of an optional item, or an API error. -/
def requireSome {α : Type} (error : ApiError) : Option α → Service α
  | some value => pure value
  | none => reject error

/-! ## What the environment decides -/

/-- How a request can fail without the service refusing it. -/
inductive Fault
  | none
  /-- It never arrives. -/
  | lost
  /-- It takes effect, but the answer never arrives. -/
  | unanswered
  deriving DecidableEq, Repr

structure Choice where
  fault : Fault := .none
  /-- A fresh identifier: a UUID or an object version. -/
  id : String := ""
  number : ℕ := 0
  /-- The writes that meet a concurrent transaction. -/
  conflicts : List ℕ := []
  /-- The rows an index shows, in order. -/
  rows : List (String × WorkflowSk) := []
  /-- The last key of a page. -/
  last : Option String := none
  /-- Where a page of a scan ends. -/
  position : Option ℕ := none
  /-- The default retention of the bucket. -/
  retainUntil : Option Time := none
  envelope : EncryptedPayload := ⟨"", "", "", ""⟩
  plaintext : SecretPayload := []
  /-- The operations an index shows, in order. -/
  operations : List String := []
  certificate : Option Certificate := none
  /-- What KMS makes of the issuer's private key. -/
  encryptedKey : Option String := none
  keyFailure : Option IssuerKeyFailure := none
  domain : DomainName := {}
  /-- API Gateway or the broker refuses a request. -/
  refusal : Option AwsFailure := none
  deriving DecidableEq, Repr

/-- The process itself answers these. -/
def Request.isLocal : Request → Bool
  | .newId _ | .now | .choose | .newRoot | .issueLeaf _ _ _ => true
  | _ => false

namespace Cloud

/-- The rows of an index that a query shows. -/
def indexed (s : Cloud) (rows : List (String × WorkflowSk)) (due : StoredWorkflow → Bool) :
    List IndexedWorkflow :=
  rows.filterMap fun (secretUid, sk) =>
    ((s.index secretUid sk).filter due).map fun row => ⟨secretUid, sk, row⟩

/-- The `CHANGE#` rows of an environment between two sort keys, in order, after
an exclusive start key. -/
def changesBetween (s : Cloud) (environment first last : String) (startKey : Option String) :
    List (String × ChangeRow) :=
  (s.table.keys.dedup.filterMap fun
    | .change environment' sk =>
        if environment' = environment ∧ first ≤ sk ∧ sk ≤ last ∧ startKey.all (· < sk) then
          (s.change environment sk).map fun row => (sk, row)
        else none
    | _ => none).insertionSort fun left right => left.1 ≤ right.1

/-- The registered environments after a start key, up to the end of the page. -/
def environmentsFrom (s : Cloud) (startKey last : Option String) : List EnvironmentRecord :=
  s.table.keys.dedup.filterMap fun
    | .environment name =>
        if startKey.all (· < name) ∧ last.all (name ≤ ·) then s.environment name else none
    | _ => none

/-- The access records of a consumer after a start key, up to the end of the page. -/
def accessFrom (s : Cloud) (consumerId environment : String) (startKey last : Option String) :
    List AccessRecord :=
  s.table.keys.dedup.filterMap fun
    | .access consumerId' environment' secretUid =>
        if consumerId' = consumerId ∧ environment' = environment ∧
            startKey.all (· < secretUid) ∧ last.all (secretUid ≤ ·) then
          s.access consumerId environment secretUid
        else none
    | _ => none

/-- The enrollments that a query of the due index shows: an operation that is still due
is shown once it has expired, one that has left the index may be shown for a while. -/
def dueEnrollments (s : Cloud) (operations : List String) (now : Time) : List String :=
  operations.filter fun operationId =>
    (s.enrollment operationId).any fun row => row.record.workflowDue.all (· < now)

/-- The order of the identity index: the latest end of validity first. -/
def newerIdentity (left right : IdentityRecord) : Bool :=
  right.notAfter < left.notAfter ||
    (left.notAfter = right.notAfter && right.fingerprint ≤ left.fingerprint)

/-- The identities of a consumer that the index shows, newest first. -/
def identitiesOf (s : Cloud) (consumerId : String) : List IdentityRecord :=
  (s.table.keys.dedup.filterMap fun
    | .identity fingerprint => (s.identityIndex fingerprint).filter (·.consumerId = consumerId)
    | _ => none).insertionSort fun left right => newerIdentity left right = true

/-- The limit of a page counts identities of every kind. -/
def identityPage (s : Cloud) (consumerId : String) : List IdentityRecord :=
  ((s.identitiesOf consumerId).take 100).filter (·.kind = .api)

/-- The roots of the truststore after a start key, up to the end of the page. -/
def truststoreRootsFrom (s : Cloud) (startKey last : Option String) :
    List TruststoreRootRecord :=
  s.table.keys.dedup.filterMap fun
    | .truststoreRoot fingerprint =>
        if startKey.all (· < fingerprint) ∧ last.all (fingerprint ≤ ·) then
          s.table.get (.truststoreRoot fingerprint)
        else none
    | _ => none

/-- The `READY` heads between two positions of a scan. -/
def readyHeads (s : Cloud) (first : ℕ) (last : Option ℕ) : List (String × HeadRecord) :=
  s.table.keys.dedup.filterMap fun
    | .head secretUid =>
        if first ≤ s.placement secretUid ∧ last.all (s.placement secretUid < ·) then
          ((s.head secretUid).filter (·.workflowState = .ready)).map fun head => (secretUid, head)
        else none
    | _ => none

/-- The object under a reference, if its version is still there. -/
def object (s : Cloud) (reference : ObjectReference) : Option StoredObject :=
  (s.objects reference.key).filter (·.versionId = reference.versionId)

/-- Replace or remove the object of a key. -/
def setObject (s : Cloud) (key : ObjectKey) (object : Option StoredObject) : Cloud :=
  { s with objects := Function.update s.objects key object }

end Cloud

/-! ## Their meaning -/

/-- A page of at least one and at most a hundred rows, if there are any. -/
def pageOf (rows : List (String × ChangeRow)) (choice : Choice) :
    Page (String × ChangeRow) String :=
  let items := rows.take (choice.number % 100 + 1)
  { items := items
    lastEvaluatedKey :=
      if items.length < rows.length ∨ choice.last.isSome then items.getLast?.map Prod.fst
      else none }

/-- The answer to a request and the state it leaves; `none` where the choice is
not one the environment has. -/
def perform (pid : ℕ) (choice : Choice) (s : Cloud) : (q : Request) → Option (Response q × Cloud)
  | .newId tag =>
      if tag ++ choice.id ∈ s.known then none
      else some (.ok (tag ++ choice.id),
        { s with
          known := (tag ++ choice.id) :: s.known
          drawnBy := Function.update s.drawnBy (tag ++ choice.id) (some pid) })
  | .now => some (.ok s.now, s)
  | .choose => some (.ok choice.number, s)
  | .get key => some (.ok (s.table.get key), s)
  | .transactGet first second => some (.ok (s.table.get first, s.table.get second), s)
  | .write write =>
      if write.holds s.table then some (.ok (), { s with table := write.apply s.table })
      else some (.error .conditionalCheckFailed, s)
  | .writeNoted write note =>
      if write.holds s.table then
        some (.ok (), { s with table := write.apply s.table }.record note)
      else some (.error .conditionalCheckFailed, s)
  | .transactWrite writes note =>
      match transact s.table choice.conflicts writes with
      | .ok table => some (.ok (), { s with table := table }.recordAny note)
      | .error .validation => some (.error .validation, s)
      | .error (.canceled reasons) => some (.error (.transactionCanceled reasons), s)
  | .expiredPrepared now =>
      some (.ok (s.indexed choice.rows fun row => row.workflowDue.any (· < now)), s)
  | .readyWorkflows now =>
      some (.ok (s.indexed choice.rows fun row => row.retentionDue.any (· ≤ now)), s)
  | .changePage environment first last startKey =>
      some (.ok (pageOf (s.changesBetween environment first last startKey) choice), s)
  | .environmentPage startKey =>
      some (.ok ⟨s.environmentsFrom startKey choice.last, choice.last⟩, s)
  | .accessPage consumerId environment startKey =>
      some (.ok ⟨s.accessFrom consumerId environment startKey choice.last, choice.last⟩, s)
  | .scanHeads startKey =>
      some (.ok ⟨s.readyHeads startKey choice.position, choice.position⟩, s)
  | .putObject key body =>
      match s.objects key with
      | some _ => some (.error .preconditionFailed, s)
      | none =>
          if choice.id ∈ s.known then none
          else some (.ok choice.id,
            { s with known := choice.id :: s.known }.setObject key
              (some ⟨choice.id, body, choice.retainUntil⟩))
  | .getObject reference =>
      match s.object reference with
      | some object => some (.ok object.body, s)
      | none => some (.error .noSuchVersion, s)
  | .extendRetention reference retainUntil =>
      match s.object reference with
      | some object =>
          -- A compliance lock can be extended, never shortened.
          if object.retainUntil.any (retainUntil < ·) then some (.error .accessDenied, s)
          else some (.ok (),
            s.setObject reference.key (some { object with retainUntil := some retainUntil }))
      | none => some (.error .noSuchVersion, s)
  | .getRetention reference =>
      match s.object reference with
      | some object => some (.ok object.retainUntil, s)
      | none => some (.error .noSuchVersion, s)
  | .deleteObject reference =>
      match s.object reference with
      | some object =>
          if object.locked s.now then some (.error .accessDenied, s)
          else some (.ok (), (s.setObject reference.key none).record (.deleted reference))
      | none => some (.ok (), s)
  | .encrypt _ => some (.ok choice.envelope, s)
  | .decrypt _ => some (.ok choice.plaintext, s)
  | .auditWrite event => some (.ok (), { s with audit := s.audit ++ [event] })
  | .reconcileTruststore => some (.ok (), s.record .truststoreReconciled)
  | .dueEnrollments now => some (.ok (s.dueEnrollments choice.operations now), s)
  | .truststoreRootPage startKey =>
      some (.ok ⟨s.truststoreRootsFrom startKey choice.last, choice.last⟩, s)
  | .putBundle key pem =>
      match s.bundles key with
      | some _ => some (.error .preconditionFailed, s)
      | none =>
          if choice.id ∈ s.known then none
          else some (.ok choice.id,
            { s with
              known := choice.id :: s.known
              bundles := Function.update s.bundles key (some ⟨choice.id, pem⟩) })
  | .getBundle key =>
      match s.bundles key with
      | some bundle => some (.ok bundle, s)
      | none => some (.error .noSuchVersion, s)
  | .newRoot => choice.certificate.map fun certificate => (.ok certificate, s)
  | .issueLeaf _ _ _ => some (.ok choice.certificate, s)
  | .encryptIssuerKey => some (.ok choice.encryptedKey, s)
  | .decryptIssuerKey _ => some (.ok choice.keyFailure, s)
  | .getDomainName => some (.ok choice.domain, s)
  | .updateDomainName _ _ =>
      match choice.refusal with
      | some failure => some (.error failure, s)
      | none => some (.ok (), s)
  | .identityPage consumerId => some (.ok (s.identityPage consumerId), s)
  | .provision _ _ _ =>
      match choice.refusal with
      | some failure => some (.error failure, s)
      | none => some (.ok (), s)

/-- A request, with the faults of the way there and back. -/
def exec (pid : ℕ) (q : Request) (choice : Choice) (s : Cloud) : Option (Response q × Cloud) :=
  match choice.fault with
  | .none => perform pid choice s q
  | .lost => if q.isLocal then none else some (.error .unavailable, s)
  | .unanswered =>
      if q.isLocal then none
      else (perform pid choice s q).map fun outcome => (.error .unavailable, outcome.2)

end Hemlig
