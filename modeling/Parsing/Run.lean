import Parsing.Parser.Basic
import Parsing.Report

/-!
# Running a parser on a text

`parseFrom` parses from a given offset, `scan` from every offset of a text.
`run` parses from the start and resolves the offset of a failure to a line and a
column; an offset that the text does not have is a fault.
-/

namespace Parsing.Parser

variable {α : Type}

/-- Parse `text` from offset `idx`. -/
def parseFrom (p : Parser α) (text : Text) (idx : Nat) : Outcome (Parsed α) := do
  let cursor ← .ofChecked ((Cursor.new text).goto idx)
  p.parse cursor

/-- Parse `text` from each of its offsets, its end included. -/
def scan (p : Parser α) (text : Text) : List (Outcome (Parsed α)) :=
  (List.range (text.length + 1)).map (p.parseFrom text)

/-- Parse `text` from its start, and record how it went. -/
def run (p : Parser α) (text : Text) : Outcome (Except SyntaxError α) := do
  .record (.running text.length)
  match ← (p.parse (.new text)).attempt with
  | .ok parsed =>
    .record (.succeeded parsed.range.start parsed.range.stop)
    return .ok parsed.value
  | .error error =>
    let error ← .ofChecked (SyntaxError.resolve error text)
    .record (.failed error.position.line error.position.column error.message)
    return .error error

/-- What a run comes to, by what the parse comes to. -/
theorem result_run (p : Parser α) (text : Text) : (p.run text).result =
    match (p.parse (.new text)).result with
    | .ok parsed => .ok (.ok parsed.value)
    | .fail error => .ofChecked ((SyntaxError.resolve error text).map .error)
    | .fault cause => .fault cause
    | .exhausted => .exhausted := by
  unfold run
  rw [Outcome.result_bind, Outcome.result_record, Result.ok_bind, Outcome.result_bind,
    Outcome.result_attempt]
  cases (p.parse (.new text)).result with
  | ok parsed => rfl
  | fail error =>
    rw [Result.attempt_fail, Result.ok_bind, Outcome.result_bind, Outcome.result_ofChecked]
    dsimp only
    cases SyntaxError.resolve error text <;> rfl
  | fault cause => rfl
  | exhausted => rfl

end Parsing.Parser
