import Parsing.Grammar

/-!
# Expressions of a script

A script is a grammar written down with names: its expressions compute values
from the values that were parsed so far. A `Scope` holds these, the latest
binding of a name in front, and, inside a body, what the body can see.
-/

namespace Parsing.Script

/-- The named values, latest first, and the view of the body around, if any. -/
structure Scope where
  bindings : List (String × Value)
  view : Option View

namespace Scope

/-- No names, and no body around. -/
def empty : Scope := ⟨[], none⟩

/-- Bind a name, if one is given. -/
def bind (scope : Scope) (name : Option String) (value : Value) : Scope :=
  match name with
  | some name => { scope with bindings := (name, value) :: scope.bindings }
  | none => scope

/-- The value of a name; a name that is not bound is worth nothing. -/
def get (scope : Scope) (name : String) : Value := (scope.bindings.lookup name).getD .unit

/-- The same names inside a body that sees `view`. -/
def within (scope : Scope) (view : View) : Scope := { scope with view := some view }

end Scope

/-- The functions that a script can apply to a value. -/
inductive Fn where
  | id
  | text
  | len
  | int
  | inc
  | sum
  | fst
  | snd
  | some
  | unwrap
  | not
  | unit
  deriving DecidableEq, Repr

/-- Apply a function. A function that asks for a shape the value does not have
returns the value unchanged or reads it as text. Sums that are no numbers of a
value, and the length of an inverted range, are faults. -/
def Fn.apply : Fn → Value → Except Fault Value
  | .id, value => .ok value
  | .text, value => .ok (.str value.text)
  | .len, .list items => .ok (.int items.length)
  | .len, .range r => r.len.map fun n => .int n
  | .len, value => .ok (.int value.text.length)
  | .int, value => .ok (.int value.toInt)
  | .inc, value => (Value.addInts value.toInt 1).map .int
  | .sum, .list items => (Value.sumInts (items.map Value.toInt)).map .int
  | .sum, value => .ok (.int value.toInt)
  | .fst, .pair left _ => .ok left
  | .fst, value => .ok value
  | .snd, .pair _ right => .ok right
  | .snd, value => .ok value
  | .some, value => .ok (.some value)
  | .unwrap, .some inner => .ok inner
  | .unwrap, value => .ok value
  | .not, value => .ok (.bool !value.truthy)
  | .unit, _ => .ok .unit

/-- Expressions. -/
inductive Expr where
  | const (value : Value)
  | var (name : String)
  | apply (f : Fn) (x : Expr)
  | pair (left right : Expr)
  | list (items : List Expr)
  | eq (left right : Expr)
  /-- The offset of the body around. -/
  | idx
  /-- Whether the body around has passed the whole text. -/
  | atEnd
  /-- The text that the body around has before it. -/
  | rest
  /-- The next character of the body around. -/
  | peek
  /-- What the loop around has accumulated. -/
  | acc
  /-- What the loop around has yielded. -/
  | items
  /-- Whether the loop around was asked to stop. -/
  | stopped

namespace Expr

/-- What a body sees of itself, or nothing outside of bodies. -/
def seen (scope : Scope) (look : View → Value) : Value :=
  match scope.view with
  | some view => look view
  | none => .unit

mutual
/-- The value of an expression. All its parts are evaluated, from left to right. -/
def eval (scope : Scope) : Expr → Except Fault Value
  | .const value => return value
  | .var name => return scope.get name
  | .apply f x => do f.apply (← eval scope x)
  | .pair left right => return .pair (← eval scope left) (← eval scope right)
  | .list xs => return .list (← evalAll scope xs)
  | .eq left right => return .bool ((← eval scope left) == (← eval scope right))
  | .idx => return seen scope fun view => .int view.cursor.idx
  | .atEnd => return seen scope fun view => .bool view.cursor.atEnd
  | .rest => return seen scope fun view => .str (String.ofList view.cursor.rest)
  | .peek => return seen scope fun view => .ofOption (view.cursor.peek.map .char)
  | .acc => return seen scope fun view => .str view.loop.accumulated
  | .items => return seen scope fun view => .list view.loop.items
  | .stopped => return seen scope fun view => .bool view.loop.stopRequested
/-- The values of expressions, in order. -/
def evalAll (scope : Scope) : List Expr → Except Fault (List Value)
  | [] => return []
  | x :: xs => return (← eval scope x) :: (← evalAll scope xs)
end

end Expr

end Parsing.Script
