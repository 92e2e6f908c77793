import Parsing.Run
import Parsing.Script.Meaning

/-!
# Running a script

The parser of a program is made first, as a whole, and then run on a text. What
goes wrong in the making is therefore found whatever the text is and wherever
the parse was to begin (`parseFrom_of_error`).
-/

namespace Parsing.Script.Program

/-- Parse `text` from offset `idx`. -/
def parseFrom (program : Program) (text : Text) (idx : Nat) : Outcome (Parsed Value) := do
  let p ← .ofChecked program.parser
  p.parseFrom text idx

/-- Parse `text` from each of its offsets, its end included. -/
def scan (program : Program) (text : Text) : List (Outcome (Parsed Value)) :=
  (List.range (text.length + 1)).map (program.parseFrom text)

/-- Parse `text` from its start, and record how it went. -/
def run (program : Program) (text : Text) : Outcome (Except SyntaxError Value) := do
  let p ← .ofChecked program.parser
  p.run text

theorem parseFrom_of_error {program : Program} {cause : Fault}
    (h : program.parser = .error cause) (text : Text) (idx : Nat) :
    (program.parseFrom text idx).result = .fault cause := by
  simp [parseFrom, h]

end Parsing.Script.Program
