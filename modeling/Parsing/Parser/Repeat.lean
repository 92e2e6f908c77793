import Parsing.Parser.Basic

/-!
# Repetition

A repetition runs its parser again and again, each time from where the last one
stopped, until the parser fails or succeeds without going forward. In the
second case its value is kept once. Every further round starts at a later
offset, so a repetition ends on every text, whatever its parser is.
-/

namespace Parsing.Parser

variable {α : Type}

/-- The values of a repetition from a cursor on, and the cursor it stops at. -/
def collect (p : Parser α) (current : Cursor) : Outcome (List α × Cursor) := do
  match ← (p.parse current).attempt with
  | .error _ => return ([], current)
  | .ok parsed =>
    if _hstop : parsed.range.stop ≤ current.idx then
      .record (.zeroWidth current.idx)
      return ([parsed.value], current)
    else
      match _hgo : current.goto parsed.range.stop with
      | .error cause => .fault cause
      | .ok next =>
        let (values, last) ← p.collect next
        return (parsed.value :: values, last)
termination_by current.remaining
decreasing_by exact Cursor.remaining_lt_of_goto _hgo (Nat.lt_of_not_le _hstop)

/-- One round of a repetition, and the rounds after it. -/
theorem collect_eq (p : Parser α) (current : Cursor) : p.collect current = (do
    match ← (p.parse current).attempt with
    | .error _ => return ([], current)
    | .ok parsed =>
      if parsed.range.stop ≤ current.idx then
        .record (.zeroWidth current.idx)
        return ([parsed.value], current)
      else
        let next ← .ofChecked (current.goto parsed.range.stop)
        let (values, last) ← p.collect next
        return (parsed.value :: values, last)) := by
  rw [collect]
  congr 1
  funext attempted
  cases attempted with
  | error e => rfl
  | ok parsed =>
    dsimp only
    split
    · rfl
    · split
      · next h => rw [h]; rfl
      · next h => rw [h]; rfl

/-- A repetition that has to come to at least `min` values. -/
def atLeast (min : Nat) (p : Parser α) : Parser (List α) where
  parse cursor := do
    let (values, last) ← p.collect cursor
    if values.length < min then
      .fail ⟨last.idx, s!"expected at least {min} occurrences, found {values.length}"⟩
    else .ofChecked (Parsed.new cursor.idx last.idx values)

/-- Any number of values. -/
def many (p : Parser α) : Parser (List α) := p.atLeast 0

/-- One value or more; the failure is reported where the repetition began. -/
def many1 (p : Parser α) : Parser (List α) where
  parse cursor := do
    let parsed ← p.many.parse cursor
    if parsed.value.isEmpty then .fail ⟨cursor.idx, "expected at least one element"⟩
    else return parsed

end Parsing.Parser
