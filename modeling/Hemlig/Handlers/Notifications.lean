import Hemlig.Concurrent.Interleaving
import Hemlig.Domain.Types
import Hemlig.Store.Transact

/-!
# The notification handler

`src/handlers/notifications.ts`, with `markNotificationDelivered` of `src/repositories/dynamo.ts`:
the stream of the control table hands batches of its records to invocations of the handler, which
publish each pending notification to its consumers and then mark it delivered.

A batch may be handed out again at any time, and invocations run beside each other.  A request fails
before or after its effect; an invocation that throws ends there.  What else happens to the rows of
the outbox is left to the environment: commits create them, a migration fills in the environment of
older ones, and DynamoDB removes delivered ones after a while.
-/

namespace Hemlig.Notifications

open Concurrent Store

/-! ## Records -/

/-- `NOTIFICATION#<event> / EVENT`, also as older deployments have written it: for a single
consumer, and without an environment. -/
structure OutboxItem where
  eventId : String
  consumerIds : Option (List String)
  consumerId : Option String
  secretId : String
  environment : Option String
  controlVersionId : String
  payloadVersionId : Option String
  kind : ChangeKind
  status : NotificationStatus
  deriving DecidableEq, Repr

/-- What is published to a consumer. -/
structure Message where
  kind : ChangeKind
  secretId : String
  environment : Option String
  controlVersionId : String
  payloadVersionId : Option String
  deriving DecidableEq, Repr

namespace OutboxItem

/-- The row that a commit creates. -/
def ofRecord (record : NotificationOutboxRecord) : OutboxItem where
  eventId := record.eventId
  consumerIds := some record.consumerIds
  consumerId := none
  secretId := record.secretId
  environment := some record.environment
  controlVersionId := record.controlVersionId
  payloadVersionId := record.payloadVersionId
  kind := record.kind
  status := record.status

/-- `record.consumerIds ?? (record.consumerId === undefined ? [] : [record.consumerId])`. -/
def recipients (item : OutboxItem) : List String := item.consumerIds.getD item.consumerId.toList

def message (item : OutboxItem) : Message where
  kind := item.kind
  secretId := item.secretId
  environment := item.environment
  controlVersionId := item.controlVersionId
  payloadVersionId := item.payloadVersionId

end OutboxItem

inductive EventName
  | insert
  | modify
  | remove
  deriving DecidableEq, Repr

/-- What a stream record shows of an item: a row of the outbox, or another item. -/
inductive Image
  | outbox (item : OutboxItem)
  | other
  deriving DecidableEq, Repr

structure StreamRecord where
  eventName : EventName
  newImage : Option Image
  deriving DecidableEq, Repr

/-- The notification that a stream record asks to deliver. -/
def StreamRecord.pendingItem (record : StreamRecord) : Option OutboxItem :=
  match record.newImage with
  | some (.outbox item) =>
      if record.eventName ≠ .remove ∧ item.status = .pending then some item else none
  | _ => none

/-! ## The handler -/

inductive Request
  /-- The invocation is given a batch, by the positions of its records in the stream. -/
  | receive (batch : List ℕ)
  | publish (consumerId : String) (message : Message)
  | markNotificationDelivered (eventId : String)
  deriving DecidableEq, Repr

def Request.Reply : Request → Type
  | .receive _ => List StreamRecord
  | .publish _ _ => Unit
  | .markNotificationDelivered _ => Bool

/-- A request returns, or it fails. -/
abbrev Request.Answer (q : Request) : Type := Except String q.Reply

abbrev Handler (α : Type) : Type := Program Request Request.Answer String α

/-- Issue a request, and throw what it fails with. -/
def send (q : Request) : Handler q.Reply :=
  (Program.request q).bind Program.ofExcept

def deliver (item : OutboxItem) : Handler PUnit := do
  item.recipients.forM fun consumerId => do
    let _ ← send (.publish consumerId item.message)
    return ()
  let _ ← send (.markNotificationDelivered item.eventId)
  return ()

def handler (batch : List ℕ) : Handler PUnit := do
  let records : List StreamRecord ← send (.receive batch)
  (records.filterMap StreamRecord.pendingItem).forM deliver

/-! ## The outbox -/

/-- The rows of the outbox, the stream of the table, and what the broker has accepted. -/
structure Outbox where
  items : Table String fun _ => OutboxItem
  stream : List StreamRecord
  published : List (String × Message)

namespace Outbox

/-- A row is written, and the stream shows it. -/
def put (s : Outbox) (eventId : String) (eventName : EventName) (item : OutboxItem) : Outbox :=
  { s with
    items := s.items.set eventId (some item)
    stream := s.stream ++ [⟨eventName, some (.outbox item)⟩] }

/-- The effect of a request. -/
def perform (s : Outbox) : (q : Request) → q.Reply × Outbox
  | .receive batch => (batch.filterMap (s.stream[·]?), s)
  | .publish consumerId message =>
      ((), { s with published := s.published ++ [(consumerId, message)] })
  | .markNotificationDelivered eventId =>
      match s.items.get eventId with
      | some item =>
          if item.status = .pending then
            (true, s.put eventId .modify { item with status := .delivered })
          else (false, s)
      | none => (false, s)

end Outbox

/-- A request can fail before it has any effect, or after it. -/
inductive Fault
  | none
  | refused (error : String)
  | unanswered (error : String)

/-- A batch holds records that the stream has. -/
def Request.possible (s : Outbox) : Request → Bool
  | .receive batch => batch.all (· < s.stream.length)
  | _ => true

def Outbox.exec (q : Request) (fault : Fault) (s : Outbox) : Option (q.Answer × Outbox) :=
  if q.possible s then
    match fault with
    | .none => some (.ok (s.perform q).1, (s.perform q).2)
    | .refused error => some (.error error, s)
    | .unanswered error => some (.error error, (s.perform q).2)
  else none

/-! ## What happens without the handler -/

inductive Event
  /-- A commit creates a row, under a new identifier. -/
  | created (record : NotificationOutboxRecord)
  /-- The migration fills in the environment of a row. -/
  | backfilled (eventId environment : String)
  /-- DynamoDB removes a row with a TTL; only delivered ones have one. -/
  | expired (eventId : String)
  /-- Another item of the table changes. -/
  | other (eventName : EventName)

/-- The rows that the stream has shown. -/
def Outbox.images (s : Outbox) : List OutboxItem :=
  s.stream.filterMap fun record =>
    match record.newImage with
    | some (.outbox item) => some item
    | _ => none

/-- The effect of an event, if it is possible. -/
def Outbox.environment (event : Event) (s : Outbox) : Option Outbox :=
  match event with
  | .created record =>
      if record.status = .pending ∧ s.items.get record.eventId = none ∧
          s.images.all (·.eventId ≠ record.eventId) then
        some (s.put record.eventId .insert (.ofRecord record))
      else none
  | .backfilled eventId environment =>
      match s.items.get eventId with
      | some item =>
          if item.environment = none ∨ item.environment = some environment then
            some (s.put eventId .modify { item with environment := some environment })
          else none
      | none => none
  | .expired eventId =>
      if (s.items.get eventId).any fun item => item.status = .delivered then
        some { s with
          items := s.items.set eventId none
          stream := s.stream ++ [⟨.remove, none⟩] }
      else none
  | .other eventName => some { s with stream := s.stream ++ [⟨eventName, some .other⟩] }

/-- Any number of invocations over one outbox. -/
def notifications : System Request Request.Answer String PUnit Outbox Fault (List ℕ) Event where
  exec _ q fault s := s.exec q fault
  code batch := handler batch
  register _ s := s
  environment event s := s.environment event

abbrev NotificationWorld := World Request Request.Answer String PUnit Outbox (List ℕ)

abbrev NotificationAction := Action Fault (List ℕ) Event

end Hemlig.Notifications
