import Hemlig.Json.Strings
import Hemlig.Json.Value

/-!
# Texts of JSON values

`stringify` writes a value as `JSON.stringify` does, with a given number of spaces for each level,
or all in one line.  `parse` reads a text of the grammar of JSON, as `JSON.parse` does.  The
parser is given more steps than the text is long.
-/

namespace Hemlig.Json

open Text

def comma : CodeUnit := 44
def colon : CodeUnit := 58
def openBracket : CodeUnit := 91
def closeBracket : CodeUnit := 93
def openBrace : CodeUnit := 123
def closeBrace : CodeUnit := 125
def space : CodeUnit := 32

/-! ## Writing -/

section Writing

-- The number of spaces for each level.
variable (gap : ℕ)

/-- The start of a line at a level, or nothing where all is in one line. -/
def newLine (depth : ℕ) : JsString :=
  if gap = 0 then [] else lineFeed :: List.replicate (gap * depth) space

/-- Items between brackets. -/
def bracketed (first last : CodeUnit) (depth : ℕ) (items : List JsString) : JsString :=
  if items.isEmpty then [first, last]
  else first :: (newLine gap (depth + 1) ++
    (comma :: newLine gap (depth + 1)).intercalate items ++ newLine gap depth ++ [last])

/-- An entry of an object. -/
def member (entry : JsString × JsString) : JsString :=
  quote entry.1 ++ colon :: ((if gap = 0 then [] else [space]) ++ entry.2)

mutual

/-- `SerializeJSONProperty` at a level. -/
def write (depth : ℕ) : Value → JsString
  | .null => units "null"
  | .bool true => units "true"
  | .bool false => units "false"
  | .number value => value.text
  | .string text => quote text
  | .array values => bracketed gap openBracket closeBracket depth (writeAll (depth + 1) values)
  | .object entries => bracketed gap openBrace closeBrace depth
      ((writeEntries (depth + 1) entries).enumerate.map (member gap))

def writeAll (depth : ℕ) : List Value → List JsString
  | [] => []
  | value :: rest => write depth value :: writeAll depth rest

def writeEntries (depth : ℕ) : Entries Value → Entries JsString
  | [] => []
  | (key, value) :: rest => (key, write depth value) :: writeEntries depth rest

end

theorem writeAll_eq (depth : ℕ) (values : List Value) :
    writeAll gap depth values = values.map (write gap depth) := by
  induction values with
  | nil => rfl
  | cons value rest ih => rw [writeAll, ih, List.map_cons]

theorem writeEntries_eq (depth : ℕ) (entries : Entries Value) :
    writeEntries gap depth entries = entries.mapValues (write gap depth) := by
  induction entries with
  | nil => rfl
  | cons entry rest ih =>
      rw [writeEntries, ih]
      rfl

end Writing

/-- `JSON.stringify(value, null, gap)`. -/
def stringify (gap : ℕ) (value : Value) : JsString := write gap 0 value

/-! ## Reading -/

def isWhiteSpace (c : CodeUnit) : Bool := c = 9 ∨ c = 10 ∨ c = 13 ∨ c = 32

def skip (text : JsString) : JsString := text.dropWhile isWhiteSpace

/-- A word at the start of a text is a value. -/
def readWord (word : String) (value : Value) (text : JsString) : Option (Value × JsString) :=
  if (units word).isPrefixOf text then some (value, text.drop word.length) else none

/-- The text after a unit and the white space before it. -/
def expect (c : CodeUnit) (text : JsString) : Option JsString :=
  match skip text with
  | [] => none
  | first :: rest => if first = c then some rest else none

mutual

def parseValue : ℕ → JsString → Option (Value × JsString)
  | 0, _ => none
  | fuel + 1, text =>
      match skip text with
      | [] => none
      | c :: rest =>
          if c = quotationMark then (readString rest).map (Prod.map .string id)
          else if c = openBracket then
            match expect closeBracket rest with
            | some rest => some (.array [], rest)
            | none => (parseItems fuel rest).map (Prod.map .array id)
          else if c = openBrace then
            match expect closeBrace rest with
            | some rest => some (.object [], rest)
            | none => (parseMembers fuel rest).map (Prod.map (.object ∘ Entries.fromEntries) id)
          else if c = 110 then readWord "null" .null (c :: rest)
          else if c = 116 then readWord "true" (.bool true) (c :: rest)
          else if c = 102 then readWord "false" (.bool false) (c :: rest)
          else (readNumber (c :: rest)).map (Prod.map .number id)

/-- The items of an array, up to the closing bracket. -/
def parseItems : ℕ → JsString → Option (List Value × JsString)
  | 0, _ => none
  | fuel + 1, text =>
      match parseValue fuel text with
      | none => none
      | some (value, rest) =>
          match expect comma rest with
          | some rest => (parseItems fuel rest).map (Prod.map (value :: ·) id)
          | none => (expect closeBracket rest).map ([value], ·)

/-- The entries of an object, up to the closing brace. -/
def parseMembers : ℕ → JsString → Option (Entries Value × JsString)
  | 0, _ => none
  | fuel + 1, text =>
      match (expect quotationMark text).bind readString with
      | none => none
      | some (key, rest) =>
          match (expect colon rest).bind (parseValue fuel) with
          | none => none
          | some (value, rest) =>
              match expect comma rest with
              | some rest => (parseMembers fuel rest).map (Prod.map ((key, value) :: ·) id)
              | none => (expect closeBrace rest).map ([(key, value)], ·)

end

/-- `JSON.parse`. -/
def parse (text : JsString) : Option Value :=
  match parseValue (text.length + 1) text with
  | none => none
  | some (value, rest) => if skip rest = [] then some value else none

end Hemlig.Json
