import Parsing.Proofs.Answers
import Parsing.Proofs.Moves

/-!
# The course of a loop

A loop is told without its cursors by the offsets at which its iterations begin. What
an iteration leads to, from an offset and a state on, is a `turn`: the loop is over,
or it goes on from a later offset. A `Course` is the turns one after the other.

> `forEach_follows_course`: a loop has exactly one course, its iterations begin
> further and further on in the text, and it comes to what the last turn says.

The one thing asked of a body is that it leaves its steps at a place of the text,
which all bodies do that are made of parsers, places kept and places put back
(`keepsPlaces_loopSteps`). So a loop never steps on in vain: where it has not moved
and is not at the end, there is a character to step over.
-/

namespace Parsing

/-! ## Where bodies leave their steps -/

theorem Ahead.idx_bounds {text : Text} {idx : Nat} (here : Ahead (.atOffset text idx))
    (hidx : idx ≤ text.length) : idx ≤ here.cursor.idx ∧ here.cursor.idx ≤ text.length := by
  have hle := here.leadsTo.idx_le_len hidx
  rw [here.leadsTo.len_eq] at hle
  exact ⟨here.leadsTo.idx_le, hle⟩

/-- Runs of one program with itself, on the cursors that it can hold. -/
def SameRuns.reachable : SameRuns :=
  .withSameErrors Cursor.Reachable (fun hc hgo => .goto hc hgo) True False

namespace Parser

variable {α ι : Type}

/-- A body that ends its steps at a place that a program can hold. -/
def KeepsPlaces (body : α → LoopState ι → (start : Cursor) → Steps start (LoopState ι)) : Prop :=
  ∀ value state start, start.Reachable → ∀ after behind,
    ((body value state start).run (.origin start)).result = .ok (after, behind) →
      behind.cursor.Reachable

end Parser

namespace Grammar

variable {ρ : Type}

/-- The body of a loop, as the loop runs it. -/
def loopSteps (call : ρ → Parser Value) (body : Value → Body ρ) (value : Value)
    (state : LoopState Value) (start : Cursor) : Steps start (LoopState Value) := do
  let (_, state) ← stepsWith call (body value) start (.origin start) state
  return state

theorem parserWith_forEach (call : ρ → Parser Value) (condition : Grammar ρ)
    (body : Value → Body ρ) : (Grammar.forEach condition body).parserWith call =
      (Parser.forEach (condition.parserWith call) (loopSteps call body)).map loopValue := rfl

/-- The steps of a body end at a place that a program can hold if they begin at one. -/
theorem reachable_of_stepsWith {call : ρ → Parser Value} (body : Body ρ) {start : Cursor}
    (hstart : start.Reachable) (state : LoopState Value) {a : Value × LoopState Value}
    {behind : Ahead start}
    (h : ((stepsWith call body start (.origin start) state).run (.origin start)).result =
      .ok (a, behind)) : behind.cursor.Reachable := by
  have hcall : ∀ name, SameRuns.reachable.correspondence.Parsers (call name) (call name) :=
    fun _ => SameRuns.reachable.parsers_self fun _ _ _ => trivial
  have hinStep := SameRuns.reachable.inStep_everything (fun he => he) trivial hcall
  have hbody : Scheme.everything.PairsBody start Eq body body :=
    Scheme.everything_takesAll.pairsBody (fun _ => rfl) body
  have hkept : ∀ slot, SameRuns.reachable.cursors (Places.origin start slot).cursor
      (Places.origin start slot).cursor := fun _ => ⟨rfl, hstart⟩
  -- The two runs are one, so what corresponds behind it is its place with itself.
  have hplace : SameRuns.reachable.correspondence.cursors start start := ⟨rfl, hstart⟩
  have hsteps := hbody.steps hinStep hplace (Correspondence.onward_refl hplace)
    (fun _ _ he => he.symm) hkept state
  have hrelated := @hsteps (.origin start) (.origin start) ⟨rfl, hstart⟩
  unfold Outcome.Related at hrelated
  rw [StateT.run] at h
  rw [h] at hrelated
  cases hrelated with
  | ok hend => exact hend.2.2

theorem keepsPlaces_loopSteps (call : ρ → Parser Value) (body : Value → Body ρ) :
    Parser.KeepsPlaces (loopSteps call body) := by
  intro value state start hstart after behind h
  rw [loopSteps, StateT.run_bind] at h
  obtain ⟨⟨a, here⟩, hsteps, hend⟩ := Result.bind_eq_ok ((Outcome.result_bind _ _).symm.trans h)
  cases Result.ok.inj hend
  exact reachable_of_stepsWith (body value) hstart state hsteps

end Grammar

namespace Parser

variable {α ι : Type}

/-! ## One iteration -/

/-- What an iteration leads to. -/
inductive Turn (ι : Type) where
  /-- The loop is over, with this state and at this offset if it succeeds. -/
  | last (result : Result (LoopState ι × Nat))
  /-- The next iteration begins with this state, at this offset. -/
  | again (state : LoopState ι) (start : Nat)

section

variable (condition : Parser α)
  (body : α → LoopState ι → (start : Cursor) → Steps start (LoopState ι)) (text : Text)

/-- What a body comes to that begins at an offset: its state, and the offset it ends at. -/
def ranFrom (value : α) (state : LoopState ι) (idx : Nat) : Result (LoopState ι × Nat) := do
  let start := .atOffset text idx
  let (after, behind) ← ((body value state start).run (.origin start)).result
  return (after, behind.cursor.idx)

/-- What follows a body that was run in the iteration from `start` on. -/
def turnBehind (start : Nat) : Result (LoopState ι × Nat) → Turn ι
  | .ok (after, stop) =>
    if after.stopRequested || stop == text.length then .last (.ok (after, stop))
    else if start < stop then .again after stop
    else .again after (start + 1)
  | .fail error => .last (.fail error)
  | .fault cause => .last (.fault cause)
  | .exhausted => .last .exhausted

/-- The iteration from `start` on. -/
def turn (state : LoopState ι) (start : Nat) : Turn ι :=
  match (condition.parse (.atOffset text start)).result with
  | .ok matched =>
    if start ≤ matched.range.stop ∧ matched.range.stop ≤ text.length then
      turnBehind text start (ranFrom body text matched.value state matched.range.stop)
    else .last (.fault (.outOfRange ⟨matched.range.stop, start, text.length⟩))
  | .fail _ => .last (.ok (state, start))
  | .fault cause => .last (.fault cause)
  | .exhausted => .last .exhausted

/-- The iterations of a loop: the offsets that they begin at, and what the last one
comes to. -/
inductive Course : LoopState ι → Nat → List Nat → Result (LoopState ι × Nat) → Prop where
  | last {state : LoopState ι} {start : Nat} {result : Result (LoopState ι × Nat)}
    (h : turn condition body text state start = .last result) :
    Course state start [start] result
  | again {state after : LoopState ι} {start next : Nat} {starts : List Nat}
    {result : Result (LoopState ι × Nat)}
    (h : turn condition body text state start = .again after next)
    (more : Course after next starts result) : Course state start (start :: starts) result

end

variable {condition : Parser α}
  {body : α → LoopState ι → (start : Cursor) → Steps start (LoopState ι)} {text : Text}
  {state after : LoopState ι} {start next stop : Nat}

/-- A body does not go back behind where it began, nor off the text. -/
theorem ranFrom_eq_ok {value : α} (hstart : start ≤ text.length)
    (h : ranFrom body text value state start = .ok (after, stop)) :
    start ≤ stop ∧ stop ≤ text.length := by
  obtain ⟨⟨_, behind⟩, -, hend⟩ := Result.bind_eq_ok h
  cases Result.ok.inj hend
  exact behind.idx_bounds hstart

/-- A turn goes further on and stays in the text. -/
def Turn.Within (text : Text) (start : Nat) : Turn ι → Prop
  | .last result =>
    ∀ after stop, result = .ok (after, stop) → start ≤ stop ∧ stop ≤ text.length
  | .again _ next => start < next ∧ next ≤ text.length

theorem within_turnBehind {ran : Result (LoopState ι × Nat)}
    (hran : ∀ after stop, ran = .ok (after, stop) → start ≤ stop ∧ stop ≤ text.length) :
    (turnBehind text start ran).Within text start := by
  cases ran with
  | ok ended =>
    obtain ⟨after, stop⟩ := ended
    obtain ⟨hlo, hhi⟩ := hran after stop rfl
    unfold turnBehind
    dsimp only
    split
    · intro after' stop' h
      cases h
      exact ⟨hlo, hhi⟩
    · next hover =>
      have hnotEnd : stop ≠ text.length := fun hend => hover (by rw [hend]; simp)
      by_cases hforward : start < stop
      · rw [if_pos hforward]
        exact ⟨hforward, hhi⟩
      · rw [if_neg hforward]
        -- Nothing was read and the text is not over, so one more character is there.
        show start < start + 1 ∧ start + 1 ≤ text.length
        omega
  | fail error => exact fun _ _ h => nomatch h
  | fault cause => exact fun _ _ h => nomatch h
  | exhausted => exact fun _ _ h => nomatch h

theorem within_turn (hstart : start ≤ text.length) :
    (turn condition body text state start).Within text start := by
  unfold turn
  split
  · split
    · next hin =>
      obtain ⟨hlo, hhi⟩ := hin
      refine within_turnBehind fun after stop hran => ?_
      obtain ⟨hlo', hhi'⟩ := ranFrom_eq_ok hhi hran
      omega
    · exact fun _ _ h => nomatch h
  · intro after stop h
    cases h
    exact ⟨Nat.le_refl _, hstart⟩
  · exact fun _ _ h => nomatch h
  · exact fun _ _ h => nomatch h

theorem bounds_of_again (hstart : start ≤ text.length)
    (h : turn condition body text state start = .again after next) :
    start < next ∧ next ≤ text.length := by
  have hwithin : (turn condition body text state start).Within text start := within_turn hstart
  rw [h] at hwithin
  exact hwithin

theorem bounds_of_last (hstart : start ≤ text.length)
    (h : turn condition body text state start = .last (.ok (after, stop))) :
    start ≤ stop ∧ stop ≤ text.length := by
  have hwithin : (turn condition body text state start).Within text start := within_turn hstart
  rw [h] at hwithin
  exact hwithin after stop rfl

/-! ## The course -/

namespace Course

variable {starts starts' : List Nat} {result result' : Result (LoopState ι × Nat)}

/-- There is only one. -/
theorem unique (h : Course condition body text state start starts result)
    (h' : Course condition body text state start starts' result') :
    starts' = starts ∧ result' = result := by
  induction h generalizing starts' with
  | last hlast =>
    cases h' with
    | last hlast' =>
      cases hlast.symm.trans hlast'
      exact ⟨rfl, rfl⟩
    | again hagain _ => cases hlast.symm.trans hagain
  | again hagain _ ih =>
    cases h' with
    | last hlast => cases hagain.symm.trans hlast
    | again hagain' more =>
      cases hagain.symm.trans hagain'
      obtain ⟨hstarts, hresult⟩ := ih more
      exact ⟨congrArg _ hstarts, hresult⟩

/-- The iterations come to an end, since each begins later than the one before. -/
theorem exists_course (condition : Parser α)
    (body : α → LoopState ι → (start : Cursor) → Steps start (LoopState ι)) (text : Text) :
    ∀ (state : LoopState ι) (start : Nat), start ≤ text.length →
      ∃ starts result, Course condition body text state start starts result := by
  intro state start hstart
  cases hturn : turn condition body text state start with
  | last result => exact ⟨[start], result, .last hturn⟩
  | again after next =>
    obtain ⟨hlt, hle⟩ := bounds_of_again hstart hturn
    have hshort : text.length - next < text.length - start := by omega
    obtain ⟨starts, result, hmore⟩ := exists_course condition body text after next hle
    exact ⟨start :: starts, result, .again hturn hmore⟩
termination_by _ start => text.length - start

/-- Iterations begin at places of the text. -/
theorem mem_bounds (h : Course condition body text state start starts result)
    (hstart : start ≤ text.length) : ∀ s ∈ starts, start ≤ s ∧ s ≤ text.length := by
  induction h with
  | last _ =>
    intro s hs
    rw [List.mem_singleton.mp hs]
    exact ⟨Nat.le_refl _, hstart⟩
  | again hagain _ ih =>
    intro s hs
    obtain ⟨hlt, hle⟩ := bounds_of_again hstart hagain
    rcases List.mem_cons.mp hs with rfl | hs
    · exact ⟨Nat.le_refl _, hstart⟩
    · obtain ⟨hlo, hhi⟩ := ih hle s hs
      omega

/-- Each iteration begins further on than those before it. -/
theorem pairwise (h : Course condition body text state start starts result)
    (hstart : start ≤ text.length) : starts.Pairwise (· < ·) := by
  induction h with
  | last _ => exact List.pairwise_singleton _ _
  | again hagain more ih =>
    obtain ⟨hlt, hle⟩ := bounds_of_again hstart hagain
    refine List.pairwise_cons.mpr ⟨fun s hs => ?_, ih hle⟩
    obtain ⟨hlo, -⟩ := more.mem_bounds hle s hs
    omega

/-- There are no more of them than there are places left. -/
theorem length_le (h : Course condition body text state start starts result)
    (hstart : start ≤ text.length) : starts.length ≤ text.length - start + 1 := by
  induction h with
  | last _ => exact Nat.le_add_left _ _
  | again hagain _ ih =>
    obtain ⟨hlt, hle⟩ := bounds_of_again hstart hagain
    have hlength := ih hle
    rw [List.length_cons]
    omega

/-- A loop that succeeds ends no earlier than it began, and in the text. -/
theorem stop_bounds (h : Course condition body text state start starts (.ok (after, stop)))
    (hstart : start ≤ text.length) : start ≤ stop ∧ stop ≤ text.length := by
  generalize hresult : Result.ok (after, stop) = result at h
  induction h with
  | last hlast =>
    subst hresult
    exact bounds_of_last hstart hlast
  | again hagain _ ih =>
    obtain ⟨hlt, hle⟩ := bounds_of_again hstart hagain
    obtain ⟨hlo, hhi⟩ := ih hle hresult
    omega

end Course

/-! ## Loops -/

/-- What a step by force comes to: where a body ended that went nowhere, and neither at
the end, there is one more character. -/
theorem walk_of_stalled (hsize : text.byteSize ≤ maxTextSize) (hstart : start ≤ stop)
    (hstop : stop ≤ text.length) (hend : (Cursor.atOffset text stop).atEnd = false)
    (hforward : ¬ start < stop) :
    (Cursor.atOffset text stop).canWalk 1 = true ∧
      (Cursor.atOffset text stop).walk 1 = .ok (.atOffset text (start + 1)) := by
  have hsound : (Cursor.atOffset text stop).Sound := Cursor.sound_atOffset hstop hsize
  have hsame : stop = start := by omega
  have hmore : (Cursor.atOffset text stop).idx + 1 ≤ (Cursor.atOffset text stop).len := by
    show stop + 1 ≤ text.length
    have hne : stop ≠ text.length := beq_eq_false_iff_ne.mp hend
    omega
  refine ⟨hsound.canWalk_iff.mpr hmore, ?_⟩
  rw [hsound.walk_eq hmore, ← hsame]
  rfl

/-- Where a loop ended, as a place of the text. -/
def placed (text : Text) (ended : LoopState ι × Nat) : LoopState ι × Cursor :=
  (ended.1, .atOffset text ended.2)

/-- What a loop comes to whose first iteration leads to this turn. -/
def iterateBehind (condition : Parser α)
    (body : α → LoopState ι → (start : Cursor) → Steps start (LoopState ι)) (text : Text) :
    Turn ι → Result (LoopState ι × Cursor)
  | .last result => placed text <$> result
  | .again state next => (iterate condition body state (.atOffset text next)).result

/-- What follows a body that ended at a place of the text. -/
theorem result_behind (condition : Parser α)
    (body : α → LoopState ι → (start : Cursor) → Steps start (LoopState ι))
    (hsize : text.byteSize ≤ maxTextSize) (hstart : start ≤ stop) (hstop : stop ≤ text.length)
    (state : LoopState ι) :
    (if state.stopRequested || (Cursor.atOffset text stop).atEnd then
        return (state, .atOffset text stop)
      else if start < stop then iterate condition body state (.atOffset text stop)
      else if (Cursor.atOffset text stop).canWalk 1 then do
        .record (.forcedForward start)
        let next ← .ofChecked ((Cursor.atOffset text stop).walk 1)
        iterate condition body state next
      else return (state, .atOffset text stop) : Outcome (LoopState ι × Cursor)).result =
      iterateBehind condition body text (turnBehind text start (.ok (state, stop))) := by
  have hatEnd : (Cursor.atOffset text stop).atEnd = (stop == text.length) := rfl
  unfold turnBehind
  dsimp only
  rw [hatEnd]
  by_cases hover : (state.stopRequested || stop == text.length) = true
  · rw [if_pos hover, if_pos hover]
    rfl
  · rw [if_neg hover, if_neg hover]
    by_cases hforward : start < stop
    · rw [if_pos hforward, if_pos hforward]
      rfl
    · have hend : (Cursor.atOffset text stop).atEnd = false := by
        rw [hatEnd]
        exact (Bool.or_eq_false_iff.mp (Bool.eq_false_iff.mpr hover)).2
      obtain ⟨hcan, hwalk⟩ := walk_of_stalled hsize hstart hstop hend hforward
      rw [if_neg hforward, if_neg hforward, if_pos hcan, hwalk]
      rfl

/-- The place where a body ended is known by its offset. -/
theorem KeepsPlaces.eq_atOffset (hbody : KeepsPlaces body) {value : α} {idx : Nat}
    (hidx : (Cursor.atOffset text idx).Reachable) {behind : Ahead (.atOffset text idx)}
    (h : ((body value state (.atOffset text idx)).run (.origin _)).result = .ok (after, behind)) :
    behind.cursor = .atOffset text behind.cursor.idx := by
  have hsound := (hbody value state _ hidx after behind h).sound
  have htext : behind.cursor.text = text := behind.leadsTo.text_eq
  calc behind.cursor = .atOffset behind.cursor.text behind.cursor.idx := hsound.eq_atOffset
    _ = .atOffset text behind.cursor.idx := congrArg (Cursor.atOffset · _) htext

/-- Where an iteration went nowhere, a loop that goes on can take its step by force. -/
theorem KeepsPlaces.walk_of_stalled (hbody : KeepsPlaces body)
    (hsize : text.byteSize ≤ maxTextSize) (hstart : start ≤ text.length) {inside : Cursor}
    (hgo : (Cursor.atOffset text start).goto stop = .ok inside) {value : α} {behind : Ahead inside}
    (hran : ((body value state inside).run (.origin inside)).result = .ok (after, behind))
    (hend : behind.cursor.atEnd = false) (hstalled : behind.cursor.idx ≤ start) :
    behind.cursor.canWalk 1 = true ∧ behind.cursor.walk 1 = .ok (.atOffset text (start + 1)) := by
  have hbegin : (Cursor.atOffset text start).Reachable := Cursor.reachable_atOffset hstart hsize
  obtain ⟨-, -, -, hlo, hhi⟩ := Cursor.goto_eq_ok hgo
  have hinside : inside = .atOffset text stop :=
    Except.ok.inj (hgo.symm.trans (hbegin.sound.goto_eq hlo hhi))
  subst hinside
  have hbehind := hbody.eq_atOffset (.goto hbegin hgo) hran
  obtain ⟨hlo', hhi'⟩ := behind.idx_bounds hhi
  rw [hbehind] at hend ⊢
  exact Parser.walk_of_stalled hsize (Nat.le_trans hlo hlo') hhi' hend (Nat.not_lt_of_le hstalled)

/-- The iterations of a loop begin with a turn. -/
theorem result_iterate (hbody : KeepsPlaces body) (hsize : text.byteSize ≤ maxTextSize)
    (hstart : start ≤ text.length) (state : LoopState ι) :
    (iterate condition body state (.atOffset text start)).result =
      iterateBehind condition body text (turn condition body text state start) := by
  rw [iterate_eq, Outcome.result_bind, Outcome.result_attempt, turn]
  cases (condition.parse (.atOffset text start)).result with
  | ok matched =>
    rw [Result.attempt_ok, Result.ok_bind]
    dsimp only
    generalize matched.range.stop = inside
    by_cases hin : start ≤ inside ∧ inside ≤ text.length
    · obtain ⟨hlo, hhi⟩ := hin
      have hgo : (Cursor.atOffset text start).goto inside = .ok (.atOffset text inside) :=
        (Cursor.sound_atOffset hstart hsize).goto_eq hlo hhi
      have hinside : (Cursor.atOffset text inside).Reachable := Cursor.reachable_atOffset hhi hsize
      rw [if_pos ⟨hlo, hhi⟩, hgo, Outcome.ofChecked_ok, pure_bind, Outcome.result_bind, ranFrom]
      cases hran : ((body matched.value state (.atOffset text inside)).run
          (.origin (.atOffset text inside))).result with
      | ok ended =>
        obtain ⟨after, behind⟩ := ended
        have hplace := hbody.eq_atOffset hinside hran
        obtain ⟨hlo', hhi'⟩ := behind.idx_bounds hhi
        have hrest := result_behind condition body hsize (Nat.le_trans hlo hlo') hhi' after
        rw [← hplace] at hrest
        exact hrest
      | fail error => rfl
      | fault cause => rfl
      | exhausted => rfl
    · have hcan : (Cursor.atOffset text start).canGoto inside = false :=
        Bool.eq_false_iff.mpr fun hcan => hin (Cursor.canGoto_iff.mp hcan)
      rw [if_neg hin, Cursor.goto_of_not_canGoto hcan]
      rfl
  | fail error => rfl
  | fault cause => rfl
  | exhausted => rfl

/-- The iterations of a loop are its course. -/
theorem result_iterate_of_course {starts : List Nat} {result : Result (LoopState ι × Nat)}
    (h : Course condition body text state start starts result) (hbody : KeepsPlaces body)
    (hsize : text.byteSize ≤ maxTextSize) (hstart : start ≤ text.length) :
    (iterate condition body state (.atOffset text start)).result = placed text <$> result := by
  induction h with
  | last hlast =>
    rw [result_iterate hbody hsize hstart, hlast]
    rfl
  | again hagain _ ih =>
    obtain ⟨-, hnext⟩ := bounds_of_again hstart hagain
    rw [result_iterate hbody hsize hstart, hagain]
    exact ih hnext

/-- What a loop reports that began at `start`: the range up to where its last body ended,
the text that this body left, and the items. -/
def reported (start : Nat) (ended : LoopState ι × Nat) : Parsed (LoopOutput ι) :=
  ⟨⟨start, ended.2⟩, ⟨ended.1.accumulated, ended.1.items⟩⟩

theorem result_forEach_of_course {starts : List Nat} {result : Result (LoopState ι × Nat)}
    (h : Course condition body text .initial start starts result) (hbody : KeepsPlaces body)
    (hsize : text.byteSize ≤ maxTextSize) (hstart : start ≤ text.length) :
    ((forEach condition body).parse (.atOffset text start)).result =
      reported start <$> result := by
  have hrun := result_iterate_of_course h hbody hsize hstart
  rw [forEach, Outcome.result_bind, hrun]
  cases result with
  | ok ended =>
    obtain ⟨state, stop⟩ := ended
    obtain ⟨hle, -⟩ := h.stop_bounds hstart
    have hparsed : Parsed.new start stop state.finish =
        .ok ⟨⟨start, stop⟩, ⟨state.accumulated, state.items⟩⟩ := Parsed.new_of_le hle _
    show Result.ofChecked (Parsed.new start stop state.finish) = _
    rw [hparsed]
    rfl
  | fail error => rfl
  | fault cause => rfl
  | exhausted => rfl

/-- A loop has one course. Its iterations begin at most once at each place that is left,
further on each time, and the loop comes to what the last one does. A step by force
never fails, for there is a character to step over. -/
theorem forEach_follows_course :
    (∀ {ρ : Type} (call : ρ → Parser Value) (condition : Grammar ρ) (body : Value → Body ρ),
      (Grammar.forEach condition body).parserWith call =
        (forEach (condition.parserWith call) (Grammar.loopSteps call body)).map
          Grammar.loopValue ∧
      KeepsPlaces (Grammar.loopSteps call body)) ∧
    ∀ {α ι : Type} (condition : Parser α)
      (body : α → LoopState ι → (start : Cursor) → Steps start (LoopState ι)),
      KeepsPlaces body → ∀ c : Cursor, c.Reachable →
      (∃ starts result, Course condition body c.text .initial c.idx starts result ∧
        (∀ starts' result', Course condition body c.text .initial c.idx starts' result' →
          starts' = starts ∧ result' = result) ∧
        ((forEach condition body).parse c).result = reported c.idx <$> result ∧
        (∀ state stop, result = .ok (state, stop) → c.idx ≤ stop ∧ stop ≤ c.len) ∧
        (∀ start ∈ starts, c.idx ≤ start ∧ start ≤ c.len) ∧
        starts.Pairwise (· < ·) ∧ starts.length ≤ c.len - c.idx + 1) ∧
      ∀ start stop inside, start ≤ c.len → (Cursor.atOffset c.text start).goto stop = .ok inside →
        ∀ value state after behind,
          ((body value state inside).run (.origin inside)).result = .ok (after, behind) →
          behind.cursor.atEnd = false → behind.cursor.idx ≤ start →
          behind.cursor.canWalk 1 = true ∧
            behind.cursor.walk 1 = .ok (.atOffset c.text (start + 1)) := by
  constructor
  · exact fun call condition body =>
      ⟨Grammar.parserWith_forEach call condition body, Grammar.keepsPlaces_loopSteps call body⟩
  · intro α ι condition body hbody c hc
    have hidx := hc.sound.idx_le
    have hsize := hc.sound.size_le
    have hlen := hc.sound.len_eq
    have hplace : Cursor.atOffset c.text c.idx = c := hc.sound.eq_atOffset.symm
    constructor
    · obtain ⟨starts, result, hcourse⟩ := Course.exists_course condition body c.text .initial _ hidx
      have hparse := result_forEach_of_course hcourse hbody hsize hidx
      rw [hplace] at hparse
      rw [hlen]
      refine ⟨starts, result, hcourse, fun _ _ h => hcourse.unique h, hparse, ?_,
        hcourse.mem_bounds hidx, hcourse.pairwise hidx, hcourse.length_le hidx⟩
      rintro state stop rfl
      exact hcourse.stop_bounds hidx
    · intro start stop inside hstart hgo value state after behind hran hend hstalled
      exact hbody.walk_of_stalled hsize (hlen ▸ hstart) hgo hran hend hstalled

/-- Iterations that read nothing: a step by force onto the end of the text is followed by
one more of them. Each of them leaves its mark in the text and in the items. -/
theorem forEach_follows_course_stalled :
    let call : Unit → Parser Value := fun _ => Parser.fail ""
    let condition : Grammar Unit := .lookahead .anyChar
    let body : Value → Body Unit := fun value =>
      .act (.append value.text) (.act (.append ".") (.act (.yield value) (.done .unit)))
    let c : Cursor := .new ['é', 'b']
    ((forEach (condition.parserWith call) (Grammar.loopSteps call body)).parse c).result =
        .ok ⟨⟨0, 2⟩, ⟨"é.b..", [.some (.char 'é'), .some (.char 'b'), .none]⟩⟩ ∧
      Course (condition.parserWith call) (Grammar.loopSteps call body) c.text .initial 0 [0, 1, 2]
        (.ok (⟨false, "é.b..", [.some (.char 'é'), .some (.char 'b'), .none]⟩, 2)) ∧
      (Cursor.atOffset c.text 1).walk 1 = .ok (.atOffset c.text 2) := by
  intro call condition body c
  have hc : c.Reachable := .new (by decide)
  obtain ⟨hbodies, hloops⟩ := forEach_follows_course
  obtain ⟨-, hbody⟩ := hbodies call condition body
  obtain ⟨hruns, hforced⟩ := hloops (condition.parserWith call) _ hbody c hc
  obtain ⟨starts, result, -, honly, hresult, -⟩ := hruns
  have hcourse : Course (condition.parserWith call) (Grammar.loopSteps call body) c.text .initial
      0 [0, 1, 2] (.ok (⟨false, "é.b..", [.some (.char 'é'), .some (.char 'b'), .none]⟩, 2)) :=
    .again rfl (.again rfl (.last rfl))
  obtain ⟨rfl, rfl⟩ := honly _ _ hcourse
  obtain ⟨-, hwalk⟩ := hforced 1 1 (.atOffset c.text 1) (by decide) rfl (.char 'b') .initial _
    (.origin _) rfl rfl (by decide)
  exact ⟨hresult, hcourse, hwalk⟩

end Parser

end Parsing
