import Parsing.Position

/-!
# Reporting a syntax error

A `SyntaxError` is a failure whose offset has been resolved to a line and a
column. `render` shows it with the lines around it, at most two before and two
after, and points at the column. The lines are those of the text between its
line feeds; an empty last one is shown only if the error lies in it.
-/

namespace Parsing

/-- A failure at a line and a column. -/
structure SyntaxError where
  position : Position
  message : String
  deriving DecidableEq, Repr

namespace SyntaxError

/-- A failure with its offset resolved in the text it comes from. -/
def resolve (error : ParseError) (text : Text) : Except Fault SyntaxError :=
  (Position.create error.idx text).map (⟨·, error.message⟩)

/-- The error on one line. -/
def display (e : SyntaxError) : String :=
  s!"syntax error at line {e.position.line}, column {e.position.column}: {e.message}"

/-- What stands before the content of line `n`. -/
def margin (n : Nat) (marked : Bool) : String :=
  (if marked then "  > " else "    ") ++ toString n ++ " | "

/-- How many spaces there are before the pointer: as many as the margin has bytes, and one
for each column before that of the error. -/
def pointerOffset (margin : String) (column : Nat) : Except Fault Nat := do
  let sum ← addOffsets (Text.byteSize margin.toList) column
  return sum - 1

/-- The line that points at a column of a line with this margin. -/
def pointer (margin : String) (column : Nat) : Except Fault String := do
  let offset ← pointerOffset margin column
  return String.ofList (List.replicate offset ' ') ++ "^--- here"

/-- The numbered lines of a text, counted from `n`. -/
def numbered (n : Nat) : List Text → List (Nat × Text)
  | [] => []
  | line :: more => (n, line) :: numbered (n + 1) more

/-- Whether line `n` out of `count` lines is shown around the line `marked`, up to
the line `last`. -/
def isShown (marked last count n : Nat) (content : Text) : Bool :=
  max (marked - 2) 1 ≤ n && n ≤ last && !(n == count && content.isEmpty && n != marked)

/-- A line as it is shown, and the pointer behind it if it is the marked one. -/
def showLine (e : SyntaxError) (n : Nat) (content : Text) : Except Fault (List String) :=
  if n = e.position.line then do
    let margin := margin n true
    let pointer ← pointer margin e.position.column
    return [margin ++ String.ofList content, pointer]
  else return [margin n false ++ String.ofList content]

/-- The lines around the error, with the pointer. -/
def context (e : SyntaxError) (text : Text) : Except Fault (List String) := do
  let last ← addOffsets e.position.line 2
  let lines := text.lines
  let shown := (numbered 1 lines).filter fun (n, content) =>
    isShown e.position.line last lines.length n content
  let blocks ← shown.mapM fun (n, content) => e.showLine n content
  return blocks.flatten

/-- The error with the lines around it. -/
def render (e : SyntaxError) (text : Text) : Except Fault String := do
  let lines ← e.context text
  return e.display ++ "\n\n" ++ String.join (lines.map (· ++ "\n"))

end SyntaxError

end Parsing
