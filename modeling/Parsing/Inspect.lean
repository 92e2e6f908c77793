import Parsing.Cursor
import Parsing.Parser.Loop
import Parsing.Report
import Parsing.Text.Plain

/-!
# Looking at values

A `Shape` is a value as its author sees it: named records with named fields,
lists, numbers and quoted texts. It has two layouts with the same content, one
on a single line, and one with each field and item on a line of its own, four
spaces deeper than what it is part of.
-/

namespace Parsing

/-- What is shown of a value. -/
inductive Shape where
  | number (n : Int)
  | text (s : String)
  | record (name : String) (fields : List (String × Shape))
  | list (items : List Shape)

namespace Shape

/-- A character by its number. -/
def numbered (c : Char) : List Char :=
  ['\\', 'u', '\x7b'] ++ Nat.toDigits 16 c.toNat ++ ['\x7d']

/-- A character as it stands between quotes: by itself, unless it is a quote or a
backslash, or is not plain. -/
def escaped (c : Char) : List Char :=
  if c = '\x00' then ['\\', '0']
  else if c = '\t' then ['\\', 't']
  else if c = '\r' then ['\\', 'r']
  else if c = '\n' then ['\\', 'n']
  else if c = '"' then ['\\', '"']
  else if c = '\\' then ['\\', '\\']
  else if Text.isPlain c then [c]
  else numbered c

/-- A text in quotes. -/
def quoted (s : String) : String := "\"" ++ String.ofList (s.toList.flatMap escaped) ++ "\""

mutual
/-- The layout on one line. -/
def inline : Shape → String
  | .number n => toString n
  | .text s => quoted s
  | .record name fields => name ++ " \x7b " ++ ", ".intercalate (inlineFields fields) ++ " \x7d"
  | .list items => "[" ++ ", ".intercalate (inlineItems items) ++ "]"
/-- The fields of a record, each on one line. -/
def inlineFields : List (String × Shape) → List String
  | [] => []
  | (name, shape) :: more => (name ++ ": " ++ shape.inline) :: inlineFields more
/-- The items of a list, each on one line. -/
def inlineItems : List Shape → List String
  | [] => []
  | shape :: more => shape.inline :: inlineItems more
end

/-- The white space at the start of a line at some depth. -/
def margin (depth : Nat) : String := String.ofList (List.replicate (4 * depth) ' ')

mutual
/-- The layout with a line for each part, for a value at some depth. -/
def indented (depth : Nat) : Shape → String
  | .number n => toString n
  | .text s => quoted s
  | .record name fields =>
    name ++ " \x7b\n" ++ indentedFields (depth + 1) fields ++ margin depth ++ "\x7d"
  | .list [] => "[]"
  | .list (item :: items) =>
    "[\n" ++ indentedItems (depth + 1) (item :: items) ++ margin depth ++ "]"
/-- The lines of the fields of a record. -/
def indentedFields (depth : Nat) : List (String × Shape) → String
  | [] => ""
  | (name, shape) :: more =>
    margin depth ++ name ++ ": " ++ shape.indented depth ++ ",\n" ++ indentedFields depth more
/-- The lines of the items of a list. -/
def indentedItems (depth : Nat) : List Shape → String
  | [] => ""
  | shape :: more =>
    margin depth ++ shape.indented depth ++ ",\n" ++ indentedItems depth more
end

end Shape

/-- A range as it is shown. -/
def Range.shape (r : Range) : Shape :=
  .record "Range" [("start", .number r.start), ("end", .number r.stop)]

/-- A parsed value as it is shown. -/
def Parsed.shape (parsed : Parsed Int) : Shape :=
  .record "Parsed" [("range", parsed.range.shape), ("value", .number parsed.value)]

/-- A position as it is shown. -/
def Position.shape (p : Position) : Shape :=
  .record "DocPos" [("idx", .number p.idx), ("ln", .number p.line), ("col", .number p.column)]

/-- A failure as it is shown. -/
def ParseError.shape (e : ParseError) : Shape :=
  .record "ParseError" [("idx", .number e.idx), ("message", .text e.message)]

/-- A resolved failure as it is shown. -/
def SyntaxError.shape (e : SyntaxError) : Shape :=
  .record "RunError" [("position", e.position.shape), ("message", .text e.message)]

/-- A refused move as it is shown. -/
def OutOfRange.shape (e : OutOfRange) : Shape :=
  .record "OutOfRange"
    [("requested", .number e.requested), ("current", .number e.current), ("len", .number e.len)]

/-- A cursor as it is shown. -/
def Cursor.shape (c : Cursor) : Shape :=
  .record "Cursor"
    [("text", .text (String.ofList c.text)), ("len", .number c.len), ("idx", .number c.idx),
      ("byte", .number c.byte)]

/-- What a loop leaves behind, as it is shown. -/
def LoopOutput.shape (out : LoopOutput String) : Shape :=
  .record "ForOutput"
    [("accumulated", .text out.accumulated), ("items", .list (out.items.map .text))]

/-- A parser as it is shown: only changes of its errors can be seen. -/
inductive Labelled where
  | leaf (name : String)
  | mapped (inner : Labelled)
  | labelled (inner : Labelled) (message : String)

/-- A parser as it is shown; functions cannot be looked into. -/
def Labelled.shape : Labelled → Shape
  | .leaf name => .text name
  | .mapped inner => .record "MapErr" [("parser", inner.shape), ("mapper", .text "<function>")]
  | .labelled inner message =>
    .record "SetErrorMessage" [("parser", inner.shape), ("message", .text message)]

end Parsing
