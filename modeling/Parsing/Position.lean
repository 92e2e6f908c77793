import Parsing.Error
import Parsing.Text

/-!
# Lines and columns

`Position.resolve` walks a text from its start to an offset and counts: a line
feed begins a new line, any other character moves one column on. Lines and
columns count from 1, the columns in characters.
-/

namespace Parsing

/-- An offset together with the line and the column it lies in. -/
structure Position where
  idx : Nat
  line : Nat
  column : Nat
  deriving DecidableEq, Repr

namespace Position

/-- The position of the first character of every text. -/
def origin : Position := ⟨0, 1, 1⟩

/-- The position after one more character. -/
def advance (p : Position) (c : Char) : Position :=
  if c = '\n' then ⟨p.idx + 1, p.line + 1, 1⟩ else ⟨p.idx + 1, p.line, p.column + 1⟩

/-- The position reached by going on to offset `target`, or to the end of the
text when there are too few characters. -/
def walkTo (target : Nat) : Text → Position → Position
  | [], p => p
  | c :: text, p => if p.idx = target then p else walkTo target text (p.advance c)

/-- The position of an offset in a text. -/
def resolve (idx : Nat) (text : Text) : Except OutOfRange Position :=
  let reached := walkTo idx text origin
  if reached.idx < idx then .error ⟨idx, 0, reached.idx⟩
  else .ok ⟨idx, reached.line, reached.column⟩

/-- The position of an offset that has to be in the text. -/
def create (idx : Nat) (text : Text) : Except Fault Position :=
  (resolve idx text).mapError .outOfRange

/-- The positions of all offsets of a text, and the answer for the first
offset past them. -/
def resolveAll (text : Text) : List (Except OutOfRange Position) :=
  (List.range (text.length + 2)).map (resolve · text)

@[simp] theorem idx_advance (p : Position) (c : Char) : (p.advance c).idx = p.idx + 1 := by
  unfold advance
  split <;> rfl

/-- A walk stops where it was to go, if the text reaches that far. -/
theorem idx_walkTo {target : Nat} : ∀ (text : Text) (p : Position), p.idx ≤ target →
    target ≤ p.idx + text.length → (walkTo target text p).idx = target := by
  intro text
  induction text with
  | nil =>
    intro p hlo hhi
    exact Nat.le_antisymm hlo hhi
  | cons c text ih =>
    intro p hlo hhi
    rw [List.length_cons] at hhi
    rw [walkTo]
    by_cases hp : p.idx = target
    · rw [if_pos hp, hp]
    · rw [if_neg hp]
      refine ih (p.advance c) ?_ ?_
      · rw [idx_advance]; omega
      · rw [idx_advance]; omega

/-- Every offset of a text has a position. -/
theorem create_of_le {idx : Nat} {text : Text} (h : idx ≤ text.length) :
    ∃ position, create idx text = .ok position := by
  have hreached : (walkTo idx text origin).idx = idx :=
    idx_walkTo text origin (Nat.zero_le _) (by rw [origin]; omega)
  refine ⟨⟨idx, (walkTo idx text origin).line, (walkTo idx text origin).column⟩, ?_⟩
  rw [create, resolve, hreached, if_neg (Nat.lt_irrefl _)]
  rfl

end Position

end Parsing
