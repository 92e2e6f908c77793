import Parsing.Parser.Basic

/-!
# Parsers of single characters, literals and places

These parsers look at the text. Each one fails where its cursor is.
-/

namespace Parsing.Parser

/-- The message for a missing character. -/
def expectedMore : String := "Expected more characters, but reached end of input"

/-- One character of any kind. -/
def anyChar : Parser Char where
  parse cursor :=
    match cursor.peek with
    | some c => .ofChecked do
      let stop ← addOffsets cursor.idx 1
      Parsed.new cursor.idx stop c
    | none => .fail ⟨cursor.idx, expectedMore⟩

/-- One character that is accepted; another one is described by `describe`. -/
def satisfy (accepts : Char → Bool) (describe : Char → String) : Parser Char where
  parse cursor :=
    match cursor.peek with
    | some c =>
      if accepts c then .ofChecked do
        let stop ← addOffsets cursor.idx 1
        Parsed.new cursor.idx stop c
      else .fail ⟨cursor.idx, describe c⟩
    | none => .fail ⟨cursor.idx, expectedMore⟩

/-- The end of the text. -/
def endOfInput : Parser Unit where
  parse cursor :=
    if cursor.atEnd then Pure.pure (.empty cursor.idx ())
    else .fail ⟨cursor.idx, "Expected end of input."⟩

/-- Everything up to offset `idx`, whatever it is. -/
def moveTo (idx : Nat) : Parser Unit where
  parse cursor :=
    if cursor.canGoto idx then .ofChecked (Parsed.new cursor.idx idx ())
    else .fail ⟨cursor.idx,
      s!"cannot move to offset {idx} from offset {cursor.idx} (text length {cursor.len})"⟩

/-- Exactly this text. -/
def literal (expected : String) : Parser String where
  parse cursor :=
    if cursor.rest.startsWith expected.toList then
      .ofChecked do
        let behind ← cursor.stepOver expected.toList
        Parsed.new cursor.idx behind.idx expected
    else .fail ⟨cursor.idx, s!"Expected: '{expected}'"⟩

/-! ## What they read -/

variable {cursor : Cursor}

theorem range_of_one {c : Char} {parsed : Parsed Char}
    (h : (Outcome.ofChecked do
      let stop ← addOffsets cursor.idx 1
      Parsed.new cursor.idx stop c).result = .ok parsed) :
    parsed.range = ⟨cursor.idx, cursor.idx + 1⟩ := by
  have hone := Result.ofChecked_eq_ok h
  cases hstop : addOffsets cursor.idx 1 with
  | error cause => rw [hstop] at hone; cases hone
  | ok stop =>
    rw [hstop] at hone
    obtain ⟨hparsed, _⟩ := Parsed.new_eq_ok hone
    rw [hparsed, addOffsets_eq_ok hstop]

theorem range_of_anyChar {parsed : Parsed Char} (h : (anyChar.parse cursor).result = .ok parsed) :
    parsed.range = ⟨cursor.idx, cursor.idx + 1⟩ := by
  unfold anyChar at h
  dsimp only at h
  split at h
  · exact range_of_one h
  · cases h

theorem range_of_satisfy {accepts : Char → Bool} {describe : Char → String} {parsed : Parsed Char}
    (h : ((satisfy accepts describe).parse cursor).result = .ok parsed) :
    parsed.range = ⟨cursor.idx, cursor.idx + 1⟩ := by
  unfold satisfy at h
  dsimp only at h
  split at h
  · split at h
    · exact range_of_one h
    · cases h
  · cases h

theorem range_of_literal {expected : String} {parsed : Parsed String}
    (h : ((literal expected).parse cursor).result = .ok parsed) :
    parsed.range = ⟨cursor.idx, cursor.idx + expected.toList.length⟩ := by
  unfold literal at h
  dsimp only at h
  split at h
  · have hread := Result.ofChecked_eq_ok h
    cases hstep : cursor.stepOver expected.toList with
    | error cause => rw [hstep] at hread; cases hread
    | ok behind =>
      rw [hstep] at hread
      obtain ⟨hparsed, _⟩ := Parsed.new_eq_ok hread
      rw [hparsed, Cursor.idx_of_stepOver hstep]
  · cases h

end Parsing.Parser
