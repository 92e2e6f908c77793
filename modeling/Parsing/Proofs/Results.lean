import Parsing.Parser.Choice
import Parsing.Parser.Lookahead
import Parsing.Parser.Primitive
import Parsing.Parser.Steps
import Parsing.Proofs.Moves

/-!
# What parsers come to

Where a parser is known, what it comes to can be computed. On a sound cursor the
parsers that look at the text are told by the characters that come next:

> `result_anyChar`, `result_satisfy`, `result_literal`

No sum in them is too large there, so they succeed or fail and never fault. What a
combinator comes to is told by what its parts come to (`result_both`,
`result_orElse`, …); these statements hold for all parsers and on all cursors.
-/

namespace Parsing

namespace Parser

variable {α β : Type} {c : Cursor}

/-! ## Parsers that look at the text -/

theorem result_one (hc : c.Sound) {char : Char} (h : c.peek = some char) :
    (Outcome.ofChecked do
      let stop ← addOffsets c.idx 1
      Parsed.new c.idx stop char).result = .ok ⟨⟨c.idx, c.idx + 1⟩, char⟩ := by
  have hnext := hc.idx_lt_len_of_peek h
  rw [addOffsets_of_le (Nat.le_trans hnext hc.len_le_maxOffset)]
  show (Outcome.ofChecked (Parsed.new c.idx (c.idx + 1) char)).result = _
  rw [Parsed.new_of_le (Nat.le_succ _)]
  rfl

theorem result_anyChar (hc : c.Sound) : (anyChar.parse c).result =
    match c.peek with
    | some char => .ok ⟨⟨c.idx, c.idx + 1⟩, char⟩
    | none => .fail ⟨c.idx, expectedMore⟩ := by
  unfold anyChar
  dsimp only
  cases hpeek : c.peek with
  | some char => exact result_one hc hpeek
  | none => rfl

theorem result_satisfy (hc : c.Sound) (accepts : Char → Bool) (describe : Char → String) :
    ((satisfy accepts describe).parse c).result =
    match c.peek with
    | some char =>
      if accepts char then .ok ⟨⟨c.idx, c.idx + 1⟩, char⟩ else .fail ⟨c.idx, describe char⟩
    | none => .fail ⟨c.idx, expectedMore⟩ := by
  unfold satisfy
  dsimp only
  cases hpeek : c.peek with
  | some char =>
    dsimp only
    by_cases hchar : accepts char = true
    · rw [if_pos hchar, if_pos hchar]
      exact result_one hc hpeek
    · rw [if_neg hchar, if_neg hchar]
      rfl
  | none => rfl

/-- A literal is read where it comes next. -/
theorem result_literal (hc : c.Sound) (expected : String) :
    ((literal expected).parse c).result =
    if expected.toList <+: c.rest then
      .ok ⟨⟨c.idx, c.idx + expected.length⟩, expected⟩
    else .fail ⟨c.idx, s!"Expected: '{expected}'"⟩ := by
  unfold literal
  dsimp only
  by_cases hnext : expected.toList <+: c.rest
  · rw [if_pos hnext, if_pos ((Text.startsWith_iff_isPrefix _ _).mpr hnext), hc.stepOver_eq hnext]
    show (Outcome.ofChecked (Parsed.new c.idx (c.idx + expected.toList.length) expected)).result = _
    rw [Parsed.new_of_le (Nat.le_add_right _ _), String.length_toList]
    rfl
  · rw [if_neg hnext, if_neg fun h => hnext ((Text.startsWith_iff_isPrefix _ _).mp h)]
    rfl

/-! ## Combinators -/

theorem result_map (f : α → β) (p : Parser α) (c : Cursor) :
    ((p.map f).parse c).result = (do
      let parsed ← (p.parse c).result
      return parsed.map f) := by
  unfold map
  rw [Outcome.result_bind]
  rfl

/-- Two changes of the value are one. -/
theorem map_map {γ : Type} (f : α → β) (g : β → γ) (p : Parser α) :
    (p.map f).map g = p.map fun value => g (f value) := by
  ext cursor
  show ((p.map f).parse cursor >>= fun parsed => return parsed.map g) = _
  simp only [map, bind_assoc, pure_bind]
  rfl

theorem result_mapChecked (f : α → Except Fault β) (p : Parser α) (c : Cursor) :
    ((p.mapChecked f).parse c).result = (do
      let parsed ← (p.parse c).result
      let value ← .ofChecked (f parsed.value)
      return ⟨parsed.range, value⟩) := by
  unfold mapChecked
  simp only [Outcome.result_bind, Outcome.result_ofChecked, Outcome.result_pure,
    Result.pure_eq_ok]

theorem result_both (p : Parser α) (q : Parser β) (c : Cursor) :
    ((p.both q).parse c).result = (do
      let left ← (p.parse c).result
      let behind ← .ofChecked (c.goto left.range.stop)
      let right ← (q.parse behind).result
      let range ← .ofChecked (left.range.merge right.range)
      return ⟨range, (left.value, right.value)⟩) := by
  unfold both
  simp only [Outcome.result_bind, Outcome.result_ofChecked, Outcome.result_pure,
    Result.pure_eq_ok]

section

variable {p : Parser α} {q : Parser β} {left : Parsed α} {right : Parsed β} {behind : Cursor}
  {error : ParseError}

theorem both_of_fail (hp : (p.parse c).result = .fail error) :
    ((p.both q).parse c).result = .fail error := by
  rw [result_both, hp]
  rfl

theorem both_of_ok_of_ok (hp : (p.parse c).result = .ok left)
    (hgo : c.goto left.range.stop = .ok behind) (hq : (q.parse behind).result = .ok right)
    (hle : left.range.start ≤ right.range.stop) : ((p.both q).parse c).result =
      .ok ⟨⟨left.range.start, right.range.stop⟩, (left.value, right.value)⟩ := by
  rw [result_both, hp, Result.ok_bind, hgo, Result.ofChecked_ok, Result.ok_bind, hq,
    Result.ok_bind, Range.merge, Range.new_of_le hle]
  rfl

theorem both_of_ok_of_fail (hp : (p.parse c).result = .ok left)
    (hgo : c.goto left.range.stop = .ok behind) (hq : (q.parse behind).result = .fail error) :
    ((p.both q).parse c).result = .fail error := by
  rw [result_both, hp, Result.ok_bind, hgo, Result.ofChecked_ok, Result.ok_bind, hq]
  rfl

end

/-- What follows an attempt follows its success or its failure. -/
theorem result_attempt_bind (x : Outcome α) (next : Except ParseError α → Outcome β) :
    (x.attempt >>= next).result =
    match x.result with
    | .ok a => (next (.ok a)).result
    | .fail error => (next (.error error)).result
    | .fault cause => .fault cause
    | .exhausted => .exhausted := by
  rw [Outcome.result_bind, Outcome.result_attempt]
  cases x.result <;> rfl

theorem result_orElse (p q : Parser α) (c : Cursor) : ((p.orElse q).parse c).result =
    match (p.parse c).result with
    | .fail _ => (q.parse c).result
    | other => other := by
  unfold orElse
  rw [result_attempt_bind]
  cases (p.parse c).result <;> rfl

theorem result_optional (p : Parser α) (c : Cursor) : (p.optional.parse c).result =
    match (p.parse c).result with
    | .ok parsed => .ok (parsed.map some)
    | .fail _ => .ok (.empty c.idx none)
    | .fault cause => .fault cause
    | .exhausted => .exhausted := by
  unfold optional
  rw [result_attempt_bind]
  cases (p.parse c).result <;> rfl

theorem result_notFollowedBy (p : Parser α) (c : Cursor) : (p.notFollowedBy.parse c).result =
    match (p.parse c).result with
    | .ok _ => .fail ⟨c.idx, "unexpected"⟩
    | .fail _ => .ok (.empty c.idx ())
    | .fault cause => .fault cause
    | .exhausted => .exhausted := by
  unfold notFollowedBy
  rw [result_attempt_bind]
  cases (p.parse c).result <;> rfl

end Parser

/-! ## Steps -/

/-- An attempt that fails stays where it was made. -/
theorem Steps.result_attempt {α : Type} {start : Cursor} (steps : Steps start α)
    (here : Ahead start) :
    ((attempt steps).run here).result =
    match (steps.run here).result with
    | .ok (value, behind) => .ok (.ok value, behind)
    | .fail error => .ok (.error error, here)
    | .fault cause => .fault cause
    | .exhausted => .exhausted := by
  show ((steps.run here).attempt >>= _).result = _
  rw [Parser.result_attempt_bind]
  cases (steps.run here).result <;> rfl

end Parsing
