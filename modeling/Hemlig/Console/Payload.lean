import Hemlig.Domain.Payload

/-!
# The payload form of the console

The parts of `packages/console/src/api/payload.ts` that check payload rows, make a payload of
them, and write and read them as JSON.
-/

namespace Hemlig.Console

open Text Json

def MAX_PAYLOAD_BYTES : ℕ := 768000

/-- The mirror of the function of the service, which re-encodes with `btoa`. -/
def isCanonicalBase64 (value : JsString) : Bool :=
  if value.length = 0 then true
  else if !matchesBase64 value || value.length % 4 ≠ 0 then false
  else
    match atob value with
    -- `atob` throws.
    | none => false
    | some binary =>
        let decoded : List UInt8 := binary.map (·.toUInt8)
        btoa (decoded.map (·.toUInt16)) = some value

def rowError (row : PayloadRow) : Option String :=
  if row.key.length = 0 then some "A key is required."
  else if !entryKey row.key then
    some "Keys may contain only letters, digits, '.', '_', and '-'."
  else if row.encoding = .base64 && !isCanonicalBase64 row.value then
    some "Value is not canonical RFC 4648 base64."
  else none

/-- The entry of a row. -/
def payloadEntry (row : PayloadRow) : JsString × Validation.SecretEntry :=
  (row.key, ⟨row.encoding, row.value⟩)

def toPayload (rows : List PayloadRow) : Validation.SecretPayload :=
  Entries.fromEntries (rows.map payloadEntry)

def payloadBytes (rows : List PayloadRow) : ℕ :=
  (utf8 (stringify 0 (Validation.payloadJson (toPayload rows)))).size

/-- `Set.prototype.add`: the set has its keys in the order in which they were added. -/
def addKey (keys : List JsString) (key : JsString) : List JsString :=
  if key ∈ keys then keys else keys ++ [key]

/-- One row: the keys seen so far, and the duplicates. -/
def noteKey (sets : List JsString × List JsString) (row : PayloadRow) :
    List JsString × List JsString :=
  if row.key.length = 0 then sets
  else
    (addKey sets.1 row.key, if row.key ∈ sets.1 then addKey sets.2 row.key else sets.2)

def duplicateKeys (rows : List PayloadRow) : List JsString := (rows.foldl noteKey ([], [])).2

structure PayloadProblems where
  rows : Entries String
  duplicates : List JsString
  bytes : ℕ
  oversize : Bool
  valid : Bool

/-- One row: its problem is set under the identifier of the row. -/
def noteProblem (problems : Entries String) (row : PayloadRow) : Entries String :=
  match rowError row with
  | some error => problems.put row.id error
  | none => problems

def rowProblems (rows : List PayloadRow) : Entries String := rows.foldl noteProblem []

def inspectPayload (rows : List PayloadRow) : PayloadProblems :=
  let problems := rowProblems rows
  let duplicates := duplicateKeys rows
  let bytes := payloadBytes rows
  let oversize : Bool := bytes > MAX_PAYLOAD_BYTES
  { rows := problems
    duplicates
    bytes
    oversize
    valid := problems.length = 0 && duplicates.length = 0 && !oversize && rows.length > 0 }

/-- The body of the request that puts a payload. -/
def payloadBody (rows : List PayloadRow) : JsString :=
  stringify 0 (.object [(units "payload", Validation.payloadJson (toPayload rows))])

/-! ## The JSON tab -/

def toJsonText (rows : List PayloadRow) : JsString :=
  stringify 2 (Validation.payloadJson (toPayload rows))

/-- One entry of the text, and the row that is made of it. -/
def parseJsonEntry (id : JsString) (field : JsString × Value) :
    Except Validation.Message PayloadRow :=
  if !entryKey field.1 then
    .error (units "payload key " ++ field.1 ++ units " is invalid.")
  else
    match Validation.readEntry field.2 with
    | none => .error (units "payload entry " ++ field.1 ++
        units " must contain encoding=utf8|base64 and string value.")
    | some entry =>
        if entry.encoding = .base64 && !isCanonicalBase64 entry.value then
          .error (units "payload entry " ++ field.1 ++ units " is not canonical base64.")
        else .ok ⟨id, field.1, entry.value, entry.encoding⟩

/-- The identifier of a row is drawn when the row is made; `message` is what `JSON.parse` says of
a text that it does not accept. -/
def parseJsonPayload (message : JsString → Validation.Message) (id : ℕ → JsString)
    (text : JsString) : Except Validation.Message (List PayloadRow) :=
  match parse text with
  | none => .error (units "Invalid JSON: " ++ message text)
  | some (.object fields) =>
      (Entries.enumerate fields).zipIdx.mapM fun field => parseJsonEntry (id field.2) field.1
  | some _ => .error (units "payload must be an object of Secret entries.")

end Hemlig.Console
