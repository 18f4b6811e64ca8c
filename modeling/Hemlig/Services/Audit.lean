import Hemlig.Domain.Errors
import Hemlig.Domain.Types
import Hemlig.Text.Calendar

/-!
# The audit archive

`src/services/audit.ts`: events are written once, under keys whose order is that of their
times reversed, and listed by day.  The bucket lists its keys in byte order, which for texts
in UTF-8 is the order of their characters; where it ends a page is up to it.
-/

namespace Hemlig.Audit

open Text

abbrev ObjectKey := List Char

def auditPageSize : ℕ := 50

def maximumAuditEpochMilliseconds : ℕ := 9999999999999

/-- An event once its identifier and its time are filled in; the time is written in the form
of `toISOString`. -/
structure CompletedEvent where
  event : AuditEvent
  eventId : String
  time : ℕ
  deriving DecidableEq, Repr

/-- `event.at`. -/
def CompletedEvent.isoTime (event : CompletedEvent) : List Char := isoString event.time

/-! ## Keys -/

/-- The prefix without one slash at its end. -/
def withoutSlash (auditPrefix : String) : List Char :=
  if auditPrefix.toList.getLast? = some '/' then auditPrefix.toList.dropLast else auditPrefix.toList

/-- `date.replaceAll("-", "/")`. -/
def slashed (date : List Char) : List Char := date.map fun c => if c = '-' then '/' else c

/-- `String(n).padStart(width, "0")`. -/
def padStart (width n : ℕ) : List Char :=
  List.replicate (width - (Nat.toDigits 10 n).length) '0' ++ Nat.toDigits 10 n

def auditObjectKey (auditPrefix : String) (event : CompletedEvent) : Except String ObjectKey :=
  if maximumAuditEpochMilliseconds < event.time then .error "audit event timestamp is invalid."
  else
    let date := slashed (event.isoTime.take 10)
    let order := padStart 13 (maximumAuditEpochMilliseconds - event.time)
    .ok (withoutSlash auditPrefix ++ '/' :: (date ++ '/' :: (order ++ '-' ::
      (event.eventId.toList ++ ".json".toList))))

def auditPrefixForDate (auditPrefix : String) (date : List Char) : ObjectKey :=
  withoutSlash auditPrefix ++ '/' :: (slashed date ++ ['/'])

/-! ## The bucket -/

abbrev Bucket := List (ObjectKey × CompletedEvent)

/-- An object is put where there is none. -/
def putImmutable (bucket : Bucket) (key : ObjectKey) (body : CompletedEvent) :
    Except String Bucket :=
  if key ∈ bucket.map Prod.fst then .error "PreconditionFailed" else .ok (bucket ++ [(key, body)])

def getJson (bucket : Bucket) (key : ObjectKey) : Except String CompletedEvent :=
  match bucket.find? (·.1 = key) with
  | some object => .ok object.2
  | none => .error "NoSuchKey"

/-- The keys under a prefix, in byte order. -/
def keysUnder (bucket : Bucket) (prefixKey : ObjectKey) : List ObjectKey :=
  ((bucket.map Prod.fst).filter (prefixKey.isPrefixOf ·)).mergeSort fun key key' => key ≤ key'

structure KeyPage where
  keys : List ObjectKey
  nextContinuationToken : Option ℕ

/-- A page of keys.  A token says how many keys came before it; `size` is how many the bucket
chooses to return, at most `maxKeys`. -/
def listKeys (bucket : Bucket) (prefixKey : ObjectKey) (continuationToken : Option ℕ)
    (maxKeys size : ℕ) : KeyPage :=
  let start := continuationToken.getD 0
  let remaining := (keysUnder bucket prefixKey).drop start
  let taken := min size maxKeys
  if remaining.length ≤ taken then { keys := remaining, nextContinuationToken := none }
  else { keys := remaining.take taken, nextContinuationToken := some (start + taken) }

/-! ## Writing and listing -/

/-- `AuditWriter.write`, of a completed event. -/
def write (auditPrefix : String) (bucket : Bucket) (event : CompletedEvent) :
    Except String Bucket := do
  let key ← auditObjectKey auditPrefix event
  putImmutable bucket key event

def writeAll (auditPrefix : String) (events : List CompletedEvent) : Except String Bucket :=
  events.foldlM (write auditPrefix) []

structure AuditPage where
  date : List Char
  events : List CompletedEvent
  nextContinuationToken : Option ℕ
  deriving DecidableEq, Repr

/-- The event is of the secret and of the environment that are asked for. -/
def matchesFilter (secretId environment : Option String) (event : CompletedEvent) : Bool :=
  (secretId = none ∨ event.event.target.lookup "secretId" = secretId) ∧
    (environment = none ∨ event.event.target.lookup "environment" = environment)

/-- `AuditQueryService.list`. -/
def list (auditPrefix : String) (bucket : Bucket) (date : List Char) (continuationToken : Option ℕ)
    (secretId environment : Option String) (size : ℕ) : Except String AuditPage := do
  let page := listKeys bucket (auditPrefixForDate auditPrefix date) continuationToken auditPageSize
    size
  let events ← page.keys.mapM (getJson bucket)
  let matched := events.filter (matchesFilter secretId environment)
  return {
    date := date
    events := matched.mergeSort fun left right => right.isoTime ≤ left.isoTime
    nextContinuationToken := page.nextContinuationToken }

/-- The pages that following the tokens to the end yields, where the bucket splits them into
pages of the given sizes. -/
inductive Follows (auditPrefix : String) (bucket : Bucket) (date : List Char)
    (secretId environment : Option String) : List ℕ → Option ℕ → List AuditPage → Prop
  | last {token : Option ℕ} {size : ℕ} {page : AuditPage}
      (h : list auditPrefix bucket date token secretId environment size = .ok page)
      (hlast : page.nextContinuationToken = none) :
      Follows auditPrefix bucket date secretId environment [size] token [page]
  | more {token : Option ℕ} {size next : ℕ} {sizes : List ℕ} {page : AuditPage}
      {pages : List AuditPage}
      (h : list auditPrefix bucket date token secretId environment size = .ok page)
      (hnext : page.nextContinuationToken = some next)
      (hrest : Follows auditPrefix bucket date secretId environment sizes (some next) pages) :
      Follows auditPrefix bucket date secretId environment (size :: sizes) token (page :: pages)

/-! ## Dates -/

/-- The number that decimal digits write. -/
def number (digits : List Char) : ℕ := digits.foldl (fun n c => 10 * n + (c.toNat - 48)) 0

/-- The parts of a text of the form `YYYY-MM-DD`. -/
def dateParts : List Char → Option (List Char × List Char × List Char)
  | [y₁, y₂, y₃, y₄, '-', m₁, m₂, '-', d₁, d₂] =>
      if [y₁, y₂, y₃, y₄, m₁, m₂, d₁, d₂].all Char.isDigit then
        some ([y₁, y₂, y₃, y₄], [m₁, m₂], [d₁, d₂])
      else none
  | _ => none

/-- `parseAuditDate`.  A date that is none is rejected by `new Date`, or comes back as another
one. -/
def parseAuditDate (value : Option (List Char)) (now : ℕ) : Except ApiError (List Char) :=
  let date := value.getD ((isoString now).take 10)
  match dateParts date with
  | none => .error (badRequest "date must use YYYY-MM-DD.")
  | some (year, month, day) =>
      if 1 ≤ number month ∧ number month ≤ 12 ∧ 1 ≤ number day ∧
          number day ≤ daysInMonth (number year) (number month) then .ok date
      else .error (badRequest "date must be a real UTC calendar date.")

end Hemlig.Audit
