import Parsing.Range

/-!
# Values

The values of parsers whose shape is known only when they run: the results of
primitive parsers, and what the combinators build from them. `text` reads every
value as a string; it puts the parts of a pair or a list together in order, so
nothing that was read is lost in it.
-/

namespace Parsing

/-- A value of a parser. -/
inductive Value where
  | unit
  | bool (b : Bool)
  | int (n : Int)
  | char (c : Char)
  | str (s : String)
  | list (items : List Value)
  | pair (left right : Value)
  | none
  | some (inner : Value)
  | range (r : Range)
  /-- What a loop leaves behind. -/
  | loop (accumulated : String) (items : List Value)
  deriving Repr

namespace Value

mutual
/-- Whether two values are built in the same way; values of different kinds never
are. -/
def same : Value → Value → Bool
  | .unit, .unit => true
  | .bool a, .bool b => a == b
  | .int a, .int b => a == b
  | .char a, .char b => a == b
  | .str a, .str b => a == b
  | .list as, .list bs => sameItems as bs
  | .pair a₁ a₂, .pair b₁ b₂ => same a₁ b₁ && same a₂ b₂
  | .none, .none => true
  | .some a, .some b => same a b
  | .range a, .range b => a == b
  | .loop a as, .loop b bs => a == b && sameItems as bs
  | _, _ => false
def sameItems : List Value → List Value → Bool
  | [], [] => true
  | a :: as, b :: bs => same a b && sameItems as bs
  | _, _ => false
end

mutual
theorem same_iff (a b : Value) : same a b = true ↔ a = b := by
  cases a with
  | list as => cases b <;> simp [same, sameItems_iff as]
  | pair a₁ a₂ => cases b <;> simp [same, same_iff a₁, same_iff a₂]
  | some a => cases b <;> simp [same, same_iff a]
  | loop a as => cases b <;> simp [same, sameItems_iff as]
  | _ => cases b <;> simp [same]
theorem sameItems_iff (as bs : List Value) : sameItems as bs = true ↔ as = bs := by
  cases as with
  | nil => cases bs <;> simp [sameItems]
  | cons a as => cases bs <;> simp [sameItems, same_iff a, sameItems_iff as]
end

instance : DecidableEq Value := fun a b => decidable_of_iff _ (same_iff a b)

/-- The values of a list; any other value stands alone. -/
def items : Value → List Value
  | .list items => items
  | value => [value]

mutual
/-- A value as text. -/
def text : Value → String
  | .unit => ""
  | .bool b => if b then "true" else "false"
  | .int n => toString n
  | .char c => c.toString
  | .str s => s
  | .list items => texts items
  | .pair left right => left.text ++ right.text
  | .none => ""
  | .some inner => inner.text
  | .range r => s!"{r.start}..{r.stop}"
  | .loop accumulated _ => accumulated
/-- The texts of values, put together. -/
def texts : List Value → String
  | [] => ""
  | value :: more => value.text ++ texts more
end

/-- The least number that a value can be. -/
def minInt : Int := -0x8000000000000000

/-- The greatest number that a value can be. -/
def maxInt : Int := 0x7FFFFFFFFFFFFFFF

/-- The sum of two numbers, if a value can be that number. -/
def addInts (a b : Int) : Except Fault Int :=
  if minInt ≤ a + b ∧ a + b ≤ maxInt then .ok (a + b) else .error .additionOverflow

/-- The sum of numbers, added up from the first one on. It is a fault if any of the
partial sums is no number of a value. -/
def sumInts (numbers : List Int) : Except Fault Int := numbers.foldlM addInts 0

/-- The most digits that are read as a number. -/
def maxDigits : Nat := 18

/-- The number that digits stand for. -/
def ofDigits (digits : List Char) : Nat :=
  digits.foldl (fun n c => 10 * n + (c.toNat - '0'.toNat)) 0

/-- A value as a number: any but a number itself is read off its text, and counts
as 0 unless that is a short row of decimal digits. -/
def toInt : Value → Int
  | .int n => n
  | value =>
    let digits := value.text.toList
    if digits ≠ [] ∧ digits.length ≤ maxDigits ∧ digits.all Char.isDigit then ofDigits digits
    else 0

/-- A value as a condition: true, and everything that is there, counts as true. -/
def truthy : Value → Bool
  | .bool b => b
  | .some _ => true
  | _ => false

/-- A value as an offset or a count. Numbers are taken modulo the number of
offsets, so a negative one counts down from the end of these. -/
def toOffset (value : Value) : Nat := (value.toInt % (maxOffset + 1)).toNat

/-- A value that may be missing. -/
def ofOption : Option Value → Value
  | .some value => .some value
  | .none => .none

end Value

end Parsing
