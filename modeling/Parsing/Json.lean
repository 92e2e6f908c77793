import Parsing.Position
import Parsing.Range

/-!
# Ranges, positions and failures as JSON

A record is written as an object with its fields in order. It is read from an
object that has all its fields, whatever else is in it, and from an array that
holds just the values of the fields in order. Offsets are whole numbers that
can be named; nothing else stands for one. No relation between the fields is
asked for, so a range is read even where its start lies past its end.
-/

namespace Parsing

/-- JSON values. Of a number that is not whole only this is kept. -/
inductive Json where
  | null
  | bool (b : Bool)
  | whole (n : Int)
  | fraction
  | str (s : String)
  | arr (items : List Json)
  | obj (fields : List (String × Json))

namespace Json

/-- A hexadecimal digit. -/
def hexDigit (n : Nat) : Char := Char.ofNat (if n < 10 then 48 + n else 87 + n)

/-- A character as it stands in a string. -/
def escaped (c : Char) : List Char :=
  if c = '"' then ['\\', '"']
  else if c = '\\' then ['\\', '\\']
  else if c = '\x08' then ['\\', 'b']
  else if c = '\t' then ['\\', 't']
  else if c = '\n' then ['\\', 'n']
  else if c = '\x0c' then ['\\', 'f']
  else if c = '\r' then ['\\', 'r']
  else if c.toNat < 32 then ['\\', 'u', '0', '0', hexDigit (c.toNat / 16), hexDigit (c.toNat % 16)]
  else [c]

/-- A string in quotes. -/
def quoted (s : String) : String := "\"" ++ String.ofList (s.toList.flatMap escaped) ++ "\""

/-- A record of numbers and strings that are already written. -/
def object (fields : List (String × String)) : String :=
  "\x7b" ++ ",".intercalate (fields.map fun (name, value) => quoted name ++ ":" ++ value) ++ "\x7d"

/-- The values of the named fields, in this order. -/
def fields? (names : List String) : Json → Option (List Json)
  | .obj fields => names.mapM fun name => fields.lookup name
  | .arr items => if items.length = names.length then some items else none
  | _ => none

/-- An offset. -/
def offset? : Json → Option Nat
  | .whole n => if 0 ≤ n ∧ n.toNat ≤ maxOffset then some n.toNat else none
  | _ => none

/-- A text. -/
def text? : Json → Option String
  | .str s => some s
  | _ => none

end Json

/-- Read a range. -/
def Range.ofJson? (json : Json) : Option Range := do
  match ← json.fields? ["start", "end"] with
  | [start, stop] => return ⟨← start.offset?, ← stop.offset?⟩
  | _ => none

/-- Write a range. -/
def Range.json (r : Range) : String :=
  Json.object [("start", toString r.start), ("end", toString r.stop)]

/-- Read a position. -/
def Position.ofJson? (json : Json) : Option Position := do
  match ← json.fields? ["idx", "ln", "col"] with
  | [idx, line, column] => return ⟨← idx.offset?, ← line.offset?, ← column.offset?⟩
  | _ => none

/-- Write a position. -/
def Position.json (p : Position) : String :=
  Json.object [("idx", toString p.idx), ("ln", toString p.line), ("col", toString p.column)]

/-- Read a failure. -/
def ParseError.ofJson? (json : Json) : Option ParseError := do
  match ← json.fields? ["idx", "message"] with
  | [idx, message] => return ⟨← idx.offset?, ← message.text?⟩
  | _ => none

/-- Write a failure. -/
def ParseError.json (e : ParseError) : String :=
  Json.object [("idx", toString e.idx), ("message", Json.quoted e.message)]

end Parsing
