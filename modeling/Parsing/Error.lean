/-!
# What can go wrong

Three things are kept apart. A `ParseError` is an ordinary outcome of a parser:
the input does not have the expected form at some offset. An `OutOfRange` is
the answer of a cursor that is asked to move to a place it cannot reach. A
`Fault` is a broken promise of the caller (a parser that reports a range it
cannot have read, a position that no text has); no parser recovers from one.
-/

namespace Parsing

/-- The largest offset that can be named, a number of 64 bits. -/
def maxOffset : Nat := 0xFFFFFFFFFFFFFFFF

/-- The most bytes that a text can have, a signed number of 64 bits. -/
def maxTextSize : Nat := 0x7FFFFFFFFFFFFFFF

/-- The sum of two offsets, if it can be named. -/
def addOffsets? (a b : Nat) : Option Nat :=
  if a + b ≤ maxOffset then some (a + b) else none

theorem addOffsets?_eq_some {a b c : Nat} (h : addOffsets? a b = some c) : c = a + b := by
  unfold addOffsets? at h
  split at h
  · exact (Option.some.inj h).symm
  · cases h

/-- A move to an offset outside `current..=len`. -/
structure OutOfRange where
  requested : Nat
  current : Nat
  len : Nat
  deriving DecidableEq, Repr

/-- The wording of a refused move. -/
def OutOfRange.message (e : OutOfRange) : String :=
  s!"cannot move to offset {e.requested}: valid offsets are {e.current}..={e.len}"

/-- A parser's failure: the offset it is reported at, and why. -/
structure ParseError where
  idx : Nat
  message : String
  deriving DecidableEq, Repr

namespace ParseError

/-- The same failure under another message. -/
def withMessage (e : ParseError) (message : String) : ParseError := { e with message }

/-- A failure on one line, with its offset. -/
def display (e : ParseError) : String := s!"{e.message} (at offset {e.idx})"

@[simp] theorem idx_withMessage (e : ParseError) (message : String) :
    (e.withMessage message).idx = e.idx := rfl

@[simp] theorem message_withMessage (e : ParseError) (message : String) :
    (e.withMessage message).message = message := rfl

end ParseError

/-- A broken promise of the caller, from which no parser recovers. -/
inductive Fault where
  /-- A move that had to succeed was out of range. -/
  | outOfRange (move : OutOfRange)
  /-- A range was built whose start lies past its end. -/
  | invertedRange (start stop : Nat)
  /-- The length of an inverted range was asked for. -/
  | subtractionOverflow
  /-- A sum of offsets, or of the numbers of values, is out of bounds. -/
  | additionOverflow
  /-- A text was cut by ends that are out of order. -/
  | badSlice
  /-- A cursor was to step over something else than the text that comes next. -/
  | badStep
  deriving DecidableEq, Repr

/-- The wording of a fault, where it has one. -/
def Fault.message? : Fault → Option String
  | .outOfRange move => some move.message
  | .invertedRange start stop => some s!"range start {start} is past its end {stop}"
  | .subtractionOverflow => some "attempt to subtract with overflow"
  | .additionOverflow => some "attempt to add with overflow"
  | .badSlice => none
  | .badStep => none

/-- The sum of two offsets, which has to be one that can be named. -/
def addOffsets (a b : Nat) : Except Fault Nat :=
  match addOffsets? a b with
  | some sum => .ok sum
  | none => .error .additionOverflow

theorem addOffsets_of_le {a b : Nat} (h : a + b ≤ maxOffset) : addOffsets a b = .ok (a + b) := by
  rw [addOffsets, addOffsets?, if_pos h]

theorem addOffsets_eq_ok {a b c : Nat} (h : addOffsets a b = .ok c) : c = a + b := by
  unfold addOffsets at h
  split at h
  · next hsum =>
    cases Except.ok.inj h
    exact addOffsets?_eq_some hsum
  · cases h

end Parsing
