import Parsing.Cursor
import Parsing.Outcome
import Parsing.Range

/-!
# Parsers and their sequencing

A parser takes a cursor to an outcome: a value with the range it was read from,
or a failure with the offset it is reported at. The range is the parser's own
report. Whatever runs a parser and goes on behind it moves its cursor with
`Cursor.goto`, so a report of a place that the cursor cannot reach is a fault,
and the next parser never sees it.

`bind` reports the range of its second parser only; the pairing combinators
report the range from the start of the first to the stop of the second.
-/

namespace Parsing

/-- A value and the range it was read from. -/
structure Parsed (α : Type) where
  range : Range
  value : α
  deriving DecidableEq, Repr

namespace Parsed

variable {α β : Type}

/-- A value read from `start` up to `stop`. -/
def new (start stop : Nat) (value : α) : Except Fault (Parsed α) :=
  (Range.new start stop).map (⟨·, value⟩)

/-- A value for which nothing was read. -/
def empty (idx : Nat) (value : α) : Parsed α := ⟨.empty idx, value⟩

/-- Another value from the same range. -/
def map (f : α → β) (parsed : Parsed α) : Parsed β := ⟨parsed.range, f parsed.value⟩

@[simp] theorem range_map (f : α → β) (parsed : Parsed α) :
    (parsed.map f).range = parsed.range := rfl

@[simp] theorem value_map (f : α → β) (parsed : Parsed α) :
    (parsed.map f).value = f parsed.value := rfl

theorem new_of_le {start stop : Nat} (h : start ≤ stop) (value : α) :
    new start stop value = .ok ⟨⟨start, stop⟩, value⟩ := by
  rw [new, Range.new_of_le h]
  rfl

theorem new_eq_ok {start stop : Nat} {value : α} {parsed : Parsed α}
    (h : new start stop value = .ok parsed) : parsed = ⟨⟨start, stop⟩, value⟩ ∧ start ≤ stop := by
  unfold new at h
  cases hrange : Range.new start stop with
  | error cause => rw [hrange] at h; cases h
  | ok range =>
    obtain ⟨hrange', hle⟩ := Range.new_eq_ok hrange
    rw [hrange, hrange'] at h
    exact ⟨(Except.ok.inj h).symm, hle⟩

end Parsed

/-- A parser of values of type `α`. -/
structure Parser (α : Type) where
  parse : Cursor → Outcome (Parsed α)

namespace Parser

variable {α β : Type}

/-- Succeed with a value and read nothing. -/
def pure (value : α) : Parser α where
  parse cursor := Pure.pure (.empty cursor.idx value)

/-- Fail where the cursor is. -/
def fail (message : String) : Parser α where
  parse cursor := .fail ⟨cursor.idx, message⟩

/-- A parser that reports `start`, `stop` and `value` whatever the text is. -/
def report (start stop : Nat) (value : α) : Parser α where
  parse _ := .ofChecked (Parsed.new start stop value)

/-- A parser that breaks a promise whatever the text is. -/
def faulty (cause : Fault) : Parser α where
  parse _ := .fault cause

/-- Change the value. -/
def map (f : α → β) (p : Parser α) : Parser β where
  parse cursor := do
    let parsed ← p.parse cursor
    return parsed.map f

/-- Change the value. The change may break a promise. -/
def mapChecked (f : α → Except Fault β) (p : Parser α) : Parser β where
  parse cursor := do
    let parsed ← p.parse cursor
    let value ← .ofChecked (f parsed.value)
    return ⟨parsed.range, value⟩

/-- Run `first`, then the parser that `next` makes of its value from where
`first` stopped. The range is that of the second parser. -/
def bind (first : Parser α) (next : α → Parser β) : Parser β where
  parse cursor := do
    let parsed ← first.parse cursor
    let behind ← .ofChecked (cursor.goto parsed.range.stop)
    (next parsed.value).parse behind

/-- Change the error of a failure. The change may itself break a promise. -/
def mapError (change : ParseError → Except Fault ParseError) (p : Parser α) : Parser α where
  parse cursor := do
    match ← (p.parse cursor).attempt with
    | .ok parsed => return parsed
    | .error error =>
      let changed ← .ofChecked (change error)
      .fail changed

/-- Say `message` in place of the message of a failure. -/
def label (message : String) (p : Parser α) : Parser α :=
  p.mapError fun error => .ok (error.withMessage message)

/-- Run two parsers one behind the other and keep both values. -/
def both (first : Parser α) (second : Parser β) : Parser (α × β) where
  parse cursor := do
    let left ← first.parse cursor
    let behind ← .ofChecked (cursor.goto left.range.stop)
    let right ← second.parse behind
    let range ← .ofChecked (left.range.merge right.range)
    return ⟨range, (left.value, right.value)⟩

/-- Run two parsers one behind the other and keep the first value. -/
def keepLeft (first : Parser α) (second : Parser β) : Parser α :=
  (first.both second).map Prod.fst

/-- Run two parsers one behind the other and keep the second value. -/
def keepRight (first : Parser α) (second : Parser β) : Parser β :=
  (first.both second).map Prod.snd

/-- Keep the range beside the value. -/
def withRange (p : Parser α) : Parser (α × Range) where
  parse cursor := do
    let parsed ← p.parse cursor
    return ⟨parsed.range, (parsed.value, parsed.range)⟩

/-- The texts that were read, put together. -/
def joined (p : Parser (List String)) : Parser String := p.map String.join

@[ext] theorem ext {p q : Parser α} (h : ∀ cursor, p.parse cursor = q.parse cursor) : p = q := by
  cases p
  cases q
  exact congrArg Parser.mk (funext h)

theorem map_eq_ok {f : α → β} {p : Parser α} {cursor : Cursor} {b : Parsed β}
    (h : ((p.map f).parse cursor).result = .ok b) :
    ∃ a, (p.parse cursor).result = .ok a ∧ b = a.map f := by
  unfold map at h
  rw [Outcome.result_bind] at h
  obtain ⟨a, ha, hb⟩ := Result.bind_eq_ok h
  exact ⟨a, ha, (Result.ok.inj hb).symm⟩

end Parser

end Parsing
