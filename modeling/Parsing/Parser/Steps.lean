import Parsing.Parser.Basic

/-!
# Step by step

`Steps start` are computations that move a cursor step by step, beginning at
`start`. Their state is a cursor that `start` leads to: a step runs a parser and
goes on behind what it read, and a place that was passed before can be put back,
but no step leads behind `start` or off its text. `sequence` makes a parser of
such a computation, which reads from `start` to where the steps end.
-/

namespace Parsing

/-- A cursor at `start` or ahead of it. -/
structure Ahead (start : Cursor) where
  cursor : Cursor
  leadsTo : start.LeadsTo cursor

namespace Ahead

variable {start : Cursor}

/-- The beginning. -/
def origin (start : Cursor) : Ahead start := ⟨start, .refl start⟩

/-- A move that has to succeed. -/
def goto (here : Ahead start) (idx : Nat) : Except Fault (Ahead start) :=
  match h : here.cursor.goto idx with
  | .ok next => .ok ⟨next, here.leadsTo.trans (Cursor.leadsTo_of_goto h)⟩
  | .error cause => .error cause

@[simp] theorem cursor_origin (start : Cursor) : (origin start).cursor = start := rfl

@[ext] theorem ext {a b : Ahead start} (h : a.cursor = b.cursor) : a = b := by
  cases a
  cases b
  cases h
  rfl

/-- The move is the cursor's move. -/
theorem map_cursor_goto (here : Ahead start) (idx : Nat) :
    (here.goto idx).map cursor = here.cursor.goto idx := by
  unfold goto
  split
  · next h => exact h.symm
  · next h => exact h.symm

end Ahead

/-- Computations that move a cursor step by step, beginning at `start`. -/
abbrev Steps (start : Cursor) (α : Type) : Type := StateT (Ahead start) Outcome α

namespace Steps

variable {start : Cursor} {α : Type}

/-- Run a parser and go on behind what it read. -/
def parseRanged (p : Parser α) : Steps start (Parsed α) := fun here => do
  let parsed ← p.parse here.cursor
  let behind ← .ofChecked (here.goto parsed.range.stop)
  return (parsed, behind)

/-- Run a parser, go on behind what it read, and keep the value only. -/
def parse (p : Parser α) : Steps start α := do
  let parsed ← parseRanged p
  return parsed.value

/-- Steps whose failure is turned into a value and leaves the cursor where it was
before them. -/
def attempt (steps : Steps start α) : Steps start (Except ParseError α) := fun here => do
  match ← (StateT.run steps here).attempt with
  | .ok (value, behind) => return (.ok value, behind)
  | .error error => return (.error error, here)

/-- Fail with an error. -/
def raise (error : ParseError) : Steps start α := fun _ => .fail error

/-- Fail where the cursor is. -/
def fail (message : String) : Steps start α := fun here =>
  .fail ⟨here.cursor.idx, message⟩

end Steps

/-- The parser that takes the steps of `body` and reads from where they begin to
where they end. -/
def Parser.sequence {α : Type} (body : (start : Cursor) → Steps start α) : Parser α where
  parse cursor := do
    let (value, behind) ← StateT.run (body cursor) (.origin cursor)
    .ofChecked (Parsed.new cursor.idx behind.cursor.idx value)

end Parsing
