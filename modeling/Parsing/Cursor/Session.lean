import Parsing.Cursor

/-!
# A session at a cursor

A session is a current cursor together with the cursors that were put aside;
the fresh cursor is the first of these. A refused move leaves the session as it
was. Cursors are values: putting one aside keeps it as it is then.
-/

namespace Parsing

/-- A current cursor and the ones put aside, oldest first. -/
structure Session where
  current : Cursor
  saved : List Cursor

/-- What can be asked of a session. -/
inductive Move where
  | goto (idx : Nat)
  | walk (n : Nat)
  | tryGoto (idx : Nat)
  | canGoto (idx : Nat)
  | canWalk (n : Nat)
  /-- Put the current cursor aside. -/
  | save
  /-- Go back to the cursor put aside as number `slot`. -/
  | load (slot : Nat)
  /-- Compare the current cursor with the one put aside as number `slot`. -/
  | same (slot : Nat)
  /-- The whole text. -/
  | text

/-- A session's answer. -/
inductive Reply where
  | done
  | fault (fault : Fault)
  | refused (move : OutOfRange)
  | truth (value : Bool)
  | slot (index : Nat)
  | text (text : Text)
  /-- No cursor was put aside under this number. -/
  | noSuchSlot

namespace Session

/-- The session at the start of a text. -/
def new (text : Text) : Session := ⟨.new text, [.new text]⟩

/-- One question or move, with the session after it. -/
def step (s : Session) : Move → Reply × Session
  | .goto idx =>
    match s.current.goto idx with
    | .ok c => (.done, { s with current := c })
    | .error f => (.fault f, s)
  | .walk n =>
    match s.current.walk n with
    | .ok c => (.done, { s with current := c })
    | .error f => (.fault f, s)
  | .tryGoto idx =>
    match s.current.tryGoto idx with
    | .ok c => (.done, { s with current := c })
    | .error e => (.refused e, s)
  | .canGoto idx => (.truth (s.current.canGoto idx), s)
  | .canWalk n => (.truth (s.current.canWalk n), s)
  | .save => (.slot s.saved.length, { s with saved := s.saved ++ [s.current] })
  | .load i =>
    match s.saved[i]? with
    | some c => (.done, { s with current := c })
    | none => (.noSuchSlot, s)
  | .same i =>
    match s.saved[i]? with
    | some c => (.truth (c == s.current), s)
    | none => (.noSuchSlot, s)
  | .text => (.text s.current.text, s)

/-- The answers to a list of moves, each with the cursor it leaves. -/
def replay (s : Session) : List Move → List (Reply × Cursor)
  | [] => []
  | move :: more =>
    let (reply, next) := s.step move
    (reply, next.current) :: next.replay more

end Session

end Parsing
