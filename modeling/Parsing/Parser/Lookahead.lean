import Parsing.Parser.Basic

/-!
# Looking ahead

These parsers turn the failure of another parser into a value or the other way
round. `lookahead`, `fails` and `notFollowedBy` never go forward; `optional` and
`succeeds` go as far as the parser they run.
-/

namespace Parsing.Parser

variable {α : Type}

/-- The value, if there is one; nothing is read. -/
def lookahead (p : Parser α) : Parser (Option α) where
  parse cursor := do
    match ← (p.parse cursor).attempt with
    | .ok parsed => return .empty cursor.idx (some parsed.value)
    | .error _ => return .empty cursor.idx none

/-- The value, if there is one; nothing is read where there is none. -/
def optional (p : Parser α) : Parser (Option α) where
  parse cursor := do
    match ← (p.parse cursor).attempt with
    | .ok parsed => return parsed.map some
    | .error _ => return .empty cursor.idx none

/-- Whether the parser succeeds; what it reads counts as read. -/
def succeeds (p : Parser α) : Parser Bool where
  parse cursor := do
    match ← (p.parse cursor).attempt with
    | .ok parsed => return parsed.map fun _ => true
    | .error _ => return .empty cursor.idx false

/-- Whether the parser fails; nothing is read. -/
def fails (p : Parser α) : Parser Bool where
  parse cursor := do
    match ← (p.parse cursor).attempt with
    | .ok _ => return .empty cursor.idx false
    | .error _ => return .empty cursor.idx true

/-- Succeed, without reading, where the parser fails. -/
def notFollowedBy (p : Parser α) : Parser Unit where
  parse cursor := do
    match ← (p.parse cursor).attempt with
    | .ok _ => .fail ⟨cursor.idx, "unexpected"⟩
    | .error _ => return .empty cursor.idx ()

end Parsing.Parser
