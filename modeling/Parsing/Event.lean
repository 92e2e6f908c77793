import Parsing.Error

/-!
# The record of a run

While a parser works it leaves a record: how a run begins and ends, and the
places where a loop or a choice had to give up. Each event has a level, a
message and named values in a fixed order.
-/

namespace Parsing

/-- How much attention an event asks for. -/
inductive Level where
  | debug
  | trace
  deriving DecidableEq, Repr

/-- The name of a level. -/
def Level.name : Level → String
  | .debug => "DEBUG"
  | .trace => "TRACE"

/-- Something worth recording. -/
inductive Event where
  /-- A run begins on a text of `len` characters. -/
  | running (len : Nat)
  /-- A run ended with a value that was read from this range. -/
  | succeeded (start stop : Nat)
  /-- A run ended with a syntax error. -/
  | failed (line column : Nat) (message : String)
  /-- A repetition stops because its parser succeeded without going forward. -/
  | zeroWidth (idx : Nat)
  /-- None of the alternatives, of which the last one's error is kept, applies. -/
  | firstOfExhausted (idx alternatives : Nat)
  /-- None of the alternatives, whose errors are all dropped, applies. -/
  | choiceExhausted (idx alternatives : Nat)
  /-- A loop ends because its condition failed. -/
  | conditionFailed (idx : Nat) (error : ParseError)
  /-- A loop goes one character on because its iteration consumed nothing. -/
  | forcedForward (idx : Nat)
  deriving DecidableEq, Repr

namespace Event

/-- The start and the end of a run are of interest to everyone, the rest only to
the author of a grammar. -/
def level : Event → Level
  | .running .. | .succeeded .. | .failed .. => .debug
  | _ => .trace

/-- The message of an event. -/
def message : Event → String
  | .running _ => "running parser"
  | .succeeded .. => "parse succeeded"
  | .failed .. => "parse failed"
  | .zeroWidth _ => "zero-width repetition, stopping"
  | .firstOfExhausted .. => "first_of exhausted"
  | .choiceExhausted .. => "pchoice exhausted"
  | .conditionFailed .. => "loop condition failed, stopping"
  | .forcedForward _ => "iteration consumed nothing, forcing one char forward"

/-- The named values of an event, after its message. -/
def details : Event → List (String × String)
  | .running len => [("len", toString len)]
  | .succeeded start stop => [("start", toString start), ("end", toString stop)]
  | .failed line column message =>
    [("ln", toString line), ("col", toString column), ("message", message)]
  | .zeroWidth idx => [("idx", toString idx)]
  | .firstOfExhausted idx n => [("idx", toString idx), ("alternatives", toString n)]
  | .choiceExhausted idx n => [("idx", toString idx), ("alternatives", toString n)]
  | .conditionFailed idx error => [("idx", toString idx), ("error", error.display)]
  | .forcedForward idx => [("idx", toString idx)]

/-- All fields of an event in the order they are written. -/
def fields (e : Event) : List (String × String) := ("message", e.message) :: e.details

end Event

end Parsing
