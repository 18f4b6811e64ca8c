import Hemlig.Console.DotEnv
import Hemlig.Json.RoundTrip
import Hemlig.Text.Base64
import Hemlig.Text.Utf8

/-!
# Payloads of requests

The parser of a payload in `src/domain/validation.ts`, and what the handler hands it.  A payload
is a JSON object of entries, of which each has an encoding and a value.
-/

namespace Hemlig.Validation

open Text Json
open Console (isKeyUnit)

structure SecretEntry where
  encoding : Console.Encoding
  value : JsString
  deriving DecidableEq

abbrev SecretPayload := Entries SecretEntry

/-! ## Entries as JSON values -/

def encodingName : Console.Encoding → JsString
  | .utf8 => units "utf8"
  | .base64 => units "base64"

def encodingOf (name : JsString) : Option Console.Encoding :=
  if name = units "utf8" then some .utf8
  else if name = units "base64" then some .base64
  else none

def entryFields (entry : SecretEntry) : Entries Value :=
  [(units "encoding", .string (encodingName entry.encoding)), (units "value", .string entry.value)]

def entryJson (entry : SecretEntry) : Value := .object (entryFields entry)

def payloadJson (payload : SecretPayload) : Value := .object (payload.mapValues entryJson)

/-! ## The parser -/

/-- An object with `encoding=utf8|base64` and a string value. -/
def readEntry : Value → Option SecretEntry
  | .object fields =>
      match Entries.get (units "encoding") fields, Entries.get (units "value") fields with
      | some (.string name), some (.string value) => (encodingOf name).map (⟨·, value⟩)
      | _, _ => none
  | _ => none

/-- `/^[A-Za-z0-9._-]+$/`. -/
def secretEntryKey (key : JsString) : Bool := !key.isEmpty && key.all isKeyUnit

def isCanonicalBase64 (value : JsString) : Bool :=
  if value.length = 0 then true
  else if !matchesBase64 value || value.length % 4 ≠ 0 then false
  else encodeBase64 (bufferFromBase64 value) = value

/-- The texts of the errors that are thrown. -/
abbrev Message := JsString

def parsePayloadEntry (field : JsString × Value) : Except Message (JsString × SecretEntry) :=
  if !secretEntryKey field.1 then
    .error (units "payload key " ++ field.1 ++ units " is invalid.")
  else
    match readEntry field.2 with
    | none => .error (units "payload entry " ++ field.1 ++
        units " must contain encoding=utf8|base64 and string value.")
    | some entry =>
        if entry.encoding = .base64 && !isCanonicalBase64 entry.value then
          .error (units "payload entry " ++ field.1 ++ units " is not canonical base64.")
        else .ok (field.1, entry)

/-- `Buffer.byteLength(JSON.stringify(payload), "utf8")`. -/
def payloadSize (payload : SecretPayload) : ℕ := (utf8 (stringify 0 (payloadJson payload))).size

def parsePayload (value : Value) (maxBytes : ℕ) : Except Message SecretPayload :=
  match value with
  | .object fields => do
      let entries ← (Entries.enumerate fields).mapM parsePayloadEntry
      let payload := Entries.fromEntries entries
      if payloadSize payload > maxBytes then
        .error (units "payload exceeds the " ++ (natDigits maxBytes).map digit ++
          units " byte limit.")
      else .ok payload
  | _ => .error (units "payload must be an object of Secret entries.")

/-- `parsePayload(body.payload, maxBytes)` for the body that `parseObjectBody` makes of a text. -/
def requestPayload (body : JsString) (maxBytes : ℕ) : Except Message SecretPayload :=
  match parse (if body = [] then units "{}" else body) with
  | none => .error (units "The request could not be completed.")
  | some (.object fields) =>
      match Entries.get (units "payload") fields with
      | some value => parsePayload value maxBytes
      | none => .error (units "payload must be an object of Secret entries.")
  | some _ => .error (units "The request body must be a JSON object.")

/-! ## Canonical base64 -/

theorem isCanonicalBase64_iff (value : JsString) :
    isCanonicalBase64 value = true ↔ ∃ bytes, value = encodeBase64 bytes := by
  constructor
  · intro h
    unfold isCanonicalBase64 at h
    split_ifs at h with hempty hgrammar
    · exact ⟨[], List.length_eq_zero_iff.mp hempty⟩
    · exact ⟨_, (of_decide_eq_true h).symm⟩
  · rintro ⟨bytes, rfl⟩
    have hmatches := matchesBase64_encodeBase64 bytes
    have hlength := length_encodeBase64 bytes
    unfold isCanonicalBase64
    split_ifs with hempty hgrammar
    · rfl
    · simp [hmatches, hlength] at hgrammar
    · rw [bufferFromBase64_encodeBase64]
      exact decide_eq_true rfl

/-! ## Payloads are read where they were written -/

theorem encodingOf_encodingName (encoding : Console.Encoding) :
    encodingOf (encodingName encoding) = some encoding := by
  cases encoding <;> decide

theorem readEntry_entryJson (entry : SecretEntry) : readEntry (entryJson entry) = some entry := by
  have hencoding : (entryFields entry).get (units "encoding") =
      some (.string (encodingName entry.encoding)) := by
    simp [entryFields, Entries.get]
  have hne : units "encoding" ≠ units "value" := by decide
  have hvalue : (entryFields entry).get (units "value") = some (.string entry.value) := by
    simp [entryFields, Entries.get, hne]
  unfold entryJson
  simp only [readEntry, hencoding, hvalue, encodingOf_encodingName, Option.map_some]

/-- The key is in the grammar, and a value in base64 is canonical. -/
def Acceptable (key : JsString) (entry : SecretEntry) : Prop :=
  secretEntryKey key = true ∧ (entry.encoding = .base64 → isCanonicalBase64 entry.value = true)

theorem parsePayloadEntry_ok_iff {key : JsString} {entry : SecretEntry}
    {parsed : JsString × SecretEntry} :
    parsePayloadEntry (key, entryJson entry) = .ok parsed ↔
      Acceptable key entry ∧ parsed = (key, entry) := by
  unfold parsePayloadEntry Acceptable
  rw [readEntry_entryJson]
  dsimp only
  by_cases hkey : secretEntryKey key = true
  · rw [if_neg (by simp [hkey])]
    by_cases hbase64 : (entry.encoding = .base64 && !isCanonicalBase64 entry.value) = true
    · rw [if_pos hbase64]
      simp only [Bool.and_eq_true, decide_eq_true_eq, Bool.not_eq_true'] at hbase64
      refine ⟨nofun, fun ⟨⟨_, hcanonical⟩, _⟩ => ?_⟩
      rw [hcanonical hbase64.1] at hbase64
      cases hbase64.2
    · rw [if_neg hbase64]
      have hcanonical : entry.encoding = .base64 → isCanonicalBase64 entry.value = true := by
        simpa using hbase64
      refine ⟨fun h => ⟨⟨hkey, hcanonical⟩, (Except.ok.inj h).symm⟩, fun ⟨_, hparsed⟩ => ?_⟩
      rw [hparsed]
  · rw [if_pos (by simp [hkey])]
    exact ⟨nofun, fun h => absurd h.1.1 hkey⟩

end Hemlig.Validation
