import Parsing.Parser.Steps

/-!
# Loops

A loop alternates a condition, which is a parser, with a body, which takes the
condition's value and goes on in steps from where the condition stopped. The
body keeps a `LoopState`: a text it appends to, items it yields, and whether it
asked to stop. The loop ends where the condition fails, where a body asked to
stop, and at the end of the text; the failure of a body is the failure of the
loop. An iteration that did not go forward is followed by a step over one
character, so every further iteration starts at a later offset.
-/

namespace Parsing

/-- What the bodies of a loop have done so far. -/
structure LoopState (ι : Type) where
  stopRequested : Bool
  accumulated : String
  items : List ι
  deriving DecidableEq, Repr

/-- What a loop leaves behind. -/
structure LoopOutput (ι : Type) where
  accumulated : String
  items : List ι
  deriving DecidableEq, Repr

/-- What the body of a loop can do to the loop's state. -/
inductive LoopAction (ι : Type) where
  /-- Let this iteration be the last one. -/
  | stop
  /-- Append to the accumulated text. -/
  | append (text : String)
  /-- Add an item. -/
  | yield (item : ι)
  /-- Add what has been accumulated so far, as an item. -/
  | snapshot (toItem : String → ι)

namespace LoopState

variable {ι : Type}

/-- Nothing done. -/
def initial : LoopState ι := ⟨false, "", []⟩

/-- The state after an action. -/
def act (state : LoopState ι) : LoopAction ι → LoopState ι
  | .stop => { state with stopRequested := true }
  | .append text => { state with accumulated := state.accumulated ++ text }
  | .yield item => { state with items := state.items ++ [item] }
  | .snapshot toItem => { state with items := state.items ++ [toItem state.accumulated] }

/-- What is left of the state when the loop is over. -/
def finish (state : LoopState ι) : LoopOutput ι := ⟨state.accumulated, state.items⟩

end LoopState

namespace Parser

variable {α ι : Type}

/-- The iterations of a loop from a cursor on: the state and the cursor they end
with. -/
def iterate (condition : Parser α)
    (body : α → LoopState ι → (start : Cursor) → Steps start (LoopState ι))
    (state : LoopState ι) (current : Cursor) : Outcome (LoopState ι × Cursor) := do
  match ← (condition.parse current).attempt with
  | .error error =>
    .record (.conditionFailed current.idx error)
    return (state, current)
  | .ok matched =>
    match _hgo : current.goto matched.range.stop with
    | .error cause => .fault cause
    | .ok inside =>
      let (state, behind) ← StateT.run (body matched.value state inside) (.origin inside)
      if state.stopRequested || behind.cursor.atEnd then
        return (state, behind.cursor)
      else if _hforward : current.idx < behind.cursor.idx then
        iterate condition body state behind.cursor
      else if _hcan : behind.cursor.canWalk 1 then
        .record (.forcedForward current.idx)
        match _hwalk : behind.cursor.walk 1 with
        | .error cause => .fault cause
        | .ok next => iterate condition body state next
      else
        return (state, behind.cursor)
termination_by current.remaining
decreasing_by
  · have hlead := (Cursor.leadsTo_of_goto _hgo).trans behind.leadsTo
    have hlen := hlead.len_eq
    have hgo' := Cursor.goto_eq_ok _hgo
    have hle := hlead.idx_le_len (by omega)
    unfold Cursor.remaining
    omega
  · have hlead := (Cursor.leadsTo_of_goto _hgo).trans behind.leadsTo
    refine Nat.lt_of_lt_of_le (Cursor.remaining_lt_of_walk_one _hcan _hwalk) ?_
    have hlen := hlead.len_eq
    have hle := hlead.idx_le
    unfold Cursor.remaining
    omega

/-- One iteration of a loop, and the iterations after it. -/
theorem iterate_eq (condition : Parser α)
    (body : α → LoopState ι → (start : Cursor) → Steps start (LoopState ι))
    (state : LoopState ι) (current : Cursor) : iterate condition body state current = (do
    match ← (condition.parse current).attempt with
    | .error error =>
      .record (.conditionFailed current.idx error)
      return (state, current)
    | .ok matched =>
      let inside ← .ofChecked (current.goto matched.range.stop)
      let (state, behind) ← StateT.run (body matched.value state inside) (.origin inside)
      if state.stopRequested || behind.cursor.atEnd then
        return (state, behind.cursor)
      else if current.idx < behind.cursor.idx then
        iterate condition body state behind.cursor
      else if behind.cursor.canWalk 1 then
        .record (.forcedForward current.idx)
        let next ← .ofChecked (behind.cursor.walk 1)
        iterate condition body state next
      else
        return (state, behind.cursor)) := by
  rw [iterate]
  congr 1
  funext attempted
  cases attempted with
  | error e => rfl
  | ok matched =>
    dsimp only
    split
    · next h => rw [h]; rfl
    · next inside h =>
      rw [h, Outcome.ofChecked_ok, pure_bind]
      congr 1
      funext after
      obtain ⟨state, behind⟩ := after
      dsimp only
      split
      · rfl
      · split
        · rfl
        · split
          · congr 1
            funext _
            split
            · next h => rw [h]; rfl
            · next h => rw [h]; rfl
          · rfl

/-- The loop of `condition` and `body`. -/
def forEach (condition : Parser α)
    (body : α → LoopState ι → (start : Cursor) → Steps start (LoopState ι)) :
    Parser (LoopOutput ι) where
  parse cursor := do
    let (state, last) ← iterate condition body .initial cursor
    .ofChecked (Parsed.new cursor.idx last.idx state.finish)

end Parser

end Parsing
