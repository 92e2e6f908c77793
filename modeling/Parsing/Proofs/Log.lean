import Mathlib.Data.List.Basic
import Mathlib.Data.List.Induction
import Parsing.Proofs.Gathering

/-!
# The log of a loop

The bodies of a loop act on a state that is handed on from one to the next, while the places
that they are at come and go. What they did is told by a log, which is the list of their
actions and knows of no state.

> `forEach_keeps_log`: a loop that succeeds comes to what its log tells, no more and no less,
> wherever its bodies went back, were forced on or asked to stop.

`Body.Performs` says what a body does, statement by statement, and a `Journal` says which
iterations a loop goes through. Neither depends on the steps that bodies stand for; that
these do the same is proved both ways. What is handed on is the first state with all actions
of the log done to it, in bodies (`Body.exists_performs`) and in loops (`exists_journal`).
-/

namespace Parsing

/-! ## Logs -/

namespace LoopAction

variable {ι : Type}

/-- The text that an action appends. -/
def appended : LoopAction ι → String
  | .append text => text
  | .stop | .yield _ | .snapshot _ => ""

/-- The item that an action adds where the text `before` has been accumulated. -/
def item? (before : String) : LoopAction ι → Option ι
  | .yield item => some item
  | .snapshot toItem => some (toItem before)
  | .stop | .append _ => none

end LoopAction

namespace Log

variable {ι : Type}

/-- All that the actions of a log append, in their order. -/
def appended (log : List (LoopAction ι)) : String := String.join (log.map LoopAction.appended)

/-- The items that the actions of a log add, in their order, each one beside what was
appended before it. -/
def items (log : List (LoopAction ι)) : List ι :=
  log.zipIdx.filterMap fun (action, i) => action.item? (appended (log.take i))

theorem appended_append (log more : List (LoopAction ι)) :
    appended (log ++ more) = appended log ++ appended more := by
  simp [appended]

/-- What was appended before some action is what all that was appended later begins with. -/
theorem exists_appended_take (log : List (LoopAction ι)) {i j : Nat} (h : i ≤ j) :
    ∃ more, appended (log.take j) = appended (log.take i) ++ more := by
  have htake : (log.take j).take i = log.take i := by rw [List.take_take, Nat.min_eq_left h]
  refine ⟨appended ((log.take j).drop i), ?_⟩
  rw [← appended_append, ← htake, List.take_append_drop]

theorem items_concat (log : List (LoopAction ι)) (action : LoopAction ι) :
    items (log ++ [action]) = items log ++ (action.item? (appended log)).toList := by
  unfold items
  rw [List.zipIdx_append, List.filterMap_append]
  congr 1
  · -- What comes before an action is not changed by one more behind it.
    refine List.filterMap_congr fun x hx => ?_
    obtain ⟨before, i⟩ := x
    have hi : i < log.length := by simpa using (List.mem_zipIdx hx).2.1
    dsimp only
    rw [List.take_append_of_le_length (Nat.le_of_lt hi)]
  · rw [Nat.zero_add, List.zipIdx_singleton, List.filterMap_cons, List.filterMap_nil]
    dsimp only
    rw [List.take_left]
    cases action.item? (appended log) <;> rfl

/-- Items that were added stay where they are. -/
theorem exists_items_append (log more : List (LoopAction ι)) :
    ∃ later, items (log ++ more) = items log ++ later := by
  induction more generalizing log with
  | nil => exact ⟨[], by rw [List.append_nil, List.append_nil]⟩
  | cons action more ih =>
    obtain ⟨later, hlater⟩ := ih (log ++ [action])
    rw [List.append_assoc] at hlater
    rw [← List.singleton_append, hlater, items_concat, List.append_assoc]
    exact ⟨_, rfl⟩

/-- An item that an action adds is behind those that were added before it. -/
theorem exists_items_eq {log : List (LoopAction ι)} {i : Nat} {action : LoopAction ι} {item : ι}
    (h : log[i]? = some action) (hitem : action.item? (appended (log.take i)) = some item) :
    ∃ later, items log = items (log.take i) ++ item :: later := by
  have hsplit : log = (log.take i ++ [action]) ++ log.drop (i + 1) := by
    rw [← Option.toList_some action, ← h, ← List.take_add_one, List.take_append_drop]
  obtain ⟨later, hlater⟩ := exists_items_append (log.take i ++ [action]) (log.drop (i + 1))
  rw [← hsplit, items_concat, hitem, List.append_assoc] at hlater
  exact ⟨later, hlater⟩

end Log

namespace LoopState

variable {ι : Type}

theorem actAll_concat (state : LoopState ι) (log : List (LoopAction ι)) (action : LoopAction ι) :
    state.actAll id (log ++ [action]) = (state.actAll id log).act action := by
  simp [actAll]

/-- What an action adds to what will be left of the state. -/
theorem finish_act (state : LoopState ι) (action : LoopAction ι) : (state.act action).finish =
    ⟨state.accumulated ++ action.appended,
      state.items ++ (action.item? state.accumulated).toList⟩ := by
  cases action <;> simp [act, finish, LoopAction.appended, LoopAction.item?]

/-- What is left of the state is what the log tells. -/
theorem finish_actAll (log : List (LoopAction ι)) :
    (initial.actAll id log).finish = ⟨Log.appended log, Log.items log⟩ := by
  induction log using List.reverseRecOn with
  | nil => rfl
  | append_singleton log action ih =>
    obtain ⟨haccumulated, hitems⟩ := LoopOutput.mk.inj ih
    have hlast : Log.appended [action] = action.appended := by simp [Log.appended]
    rw [actAll_concat, finish_act, haccumulated, hitems, Log.items_concat, Log.appended_append,
      hlast]

theorem stopRequested_actAll (state : LoopState ι) (log : List (LoopAction ι)) :
    (state.actAll id log).stopRequested = true ↔ state.stopRequested = true ∨ .stop ∈ log := by
  induction log using List.reverseRecOn with
  | nil => simp [actAll]
  | append_singleton log action ih =>
    rw [actAll_concat]
    cases action <;> simp [act, ih]

end LoopState

/-! ## What a body does -/

variable {ρ : Type}

/-- A body that comes to a value, statement by statement, with its actions in their order.
The state is there for what the body sees of it. -/
inductive Body.Performs (parserOf : Grammar ρ → Parser Value) {start : Cursor} :
    Body ρ → Places start → LoopState Value → Ahead start →
    List (LoopAction Value) → Value → Ahead start → Prop where
  | done {kept state here} (value) : Performs parserOf (.done value) kept state here [] value here
  | parse {g next kept state here value behind actions result last}
    (hg : ((Steps.parse (parserOf g)).run here).result = .ok (value, behind))
    (h : Performs parserOf (next value) kept state behind actions result last) :
    Performs parserOf (.parse g next) kept state here actions result last
  | parseRanged {g next kept state here parsed behind actions result last}
    (hg : ((Steps.parseRanged (parserOf g)).run here).result = .ok (parsed, behind))
    (h : Performs parserOf (next parsed) kept state behind actions result last) :
    Performs parserOf (.parseRanged g next) kept state here actions result last
  | tried {g next kept state here value behind actions result last}
    (hg : ((Steps.parse (parserOf g)).run here).result = .ok (value, behind))
    (h : Performs parserOf (next (.ok value)) kept state behind actions result last) :
    Performs parserOf (.tryParse g next) kept state here actions result last
  | caught {g next kept state here error actions result last}
    (hg : ((Steps.parse (parserOf g)).run here).result = .fail error)
    (h : Performs parserOf (next (.error error)) kept state here actions result last) :
    Performs parserOf (.tryParse g next) kept state here actions result last
  | save {next kept state here actions result last} (slot)
    (h : Performs parserOf next (kept.put slot here) state here actions result last) :
    Performs parserOf (.save slot next) kept state here actions result last
  | restore {next kept state here actions result last} (slot)
    (h : Performs parserOf next kept state (kept slot) actions result last) :
    Performs parserOf (.restore slot next) kept state here actions result last
  | act {next kept state here actions result last} (action)
    (h : Performs parserOf next kept (state.act action) here actions result last) :
    Performs parserOf (.act action next) kept state here (action :: actions) result last
  | look {next kept state here actions result last}
    (h : Performs parserOf (next ⟨here.cursor, state⟩) kept state here actions result last) :
    Performs parserOf (.look next) kept state here actions result last

section

variable {call : ρ → Parser Value} {start : Cursor} {last : Ahead start}

theorem Steps.attempt_eq_ok {α : Type} {steps : Steps start α} {here : Ahead start}
    {attempted : Except ParseError α}
    (h : ((attempt steps).run here).result = .ok (attempted, last)) :
    (∃ value, attempted = .ok value ∧ (steps.run here).result = .ok (value, last)) ∨
    ∃ error, attempted = .error error ∧ last = here ∧ (steps.run here).result = .fail error := by
  rw [result_attempt] at h
  cases hsteps : (steps.run here).result with
  | ok a =>
    rw [hsteps] at h
    cases Result.ok.inj h
    exact .inl ⟨_, rfl, rfl⟩
  | fail error =>
    rw [hsteps] at h
    cases Result.ok.inj h
    exact .inr ⟨error, rfl, rfl, rfl⟩
  | fault cause => rw [hsteps] at h; cases h
  | exhausted => rw [hsteps] at h; cases h

/-- A body whose steps come to something has performed actions, which made the state what
it is. -/
theorem Body.exists_performs : ∀ (body : Body ρ) {kept : Places start}
    {state after : LoopState Value} {here : Ahead start} {value : Value},
    ((Grammar.stepsWith call body start kept state).run here).result = .ok ((value, after), last) →
      ∃ actions, body.Performs (Grammar.parserWith call) kept state here actions value last ∧
        after = state.actAll id actions
  | .done value, kept, state, after, here, value', h => by
    cases Result.ok.inj h
    exact ⟨[], .done value, rfl⟩
  | .fail message, _, _, _, _, _, h => by cases h
  | .raise error, _, _, _, _, _, h => by cases h
  | .parse g next, kept, state, after, here, value', h => by
    rw [Grammar.stepsWith, StateT.run_bind] at h
    obtain ⟨⟨value, behind⟩, hg, hmore⟩ := Outcome.bind_eq_ok h
    obtain ⟨actions, hactions, hafter⟩ := exists_performs (next value) hmore
    exact ⟨actions, .parse hg hactions, hafter⟩
  | .parseRanged g next, kept, state, after, here, value', h => by
    rw [Grammar.stepsWith, StateT.run_bind] at h
    obtain ⟨⟨parsed, behind⟩, hg, hmore⟩ := Outcome.bind_eq_ok h
    obtain ⟨actions, hactions, hafter⟩ := exists_performs (next parsed) hmore
    exact ⟨actions, .parseRanged hg hactions, hafter⟩
  | .tryParse g next, kept, state, after, here, value', h => by
    rw [Grammar.stepsWith, StateT.run_bind] at h
    obtain ⟨⟨attempted, behind⟩, hattempt, hmore⟩ := Outcome.bind_eq_ok h
    obtain ⟨actions, hactions, hafter⟩ := exists_performs (next attempted) hmore
    rcases Steps.attempt_eq_ok hattempt with ⟨value, rfl, hg⟩ | ⟨error, rfl, rfl, hg⟩
    · exact ⟨actions, .tried hg hactions, hafter⟩
    · exact ⟨actions, .caught hg hactions, hafter⟩
  | .save slot next, kept, state, after, here, value', h => by
    have hmore : ((Grammar.stepsWith call next start (kept.put slot here) state).run here).result =
        .ok ((value', after), last) := h
    obtain ⟨actions, hactions, hafter⟩ := exists_performs next hmore
    exact ⟨actions, .save slot hactions, hafter⟩
  | .restore slot next, kept, state, after, here, value', h => by
    have hmore : ((Grammar.stepsWith call next start kept state).run (kept slot)).result =
        .ok ((value', after), last) := h
    obtain ⟨actions, hactions, hafter⟩ := exists_performs next hmore
    exact ⟨actions, .restore slot hactions, hafter⟩
  | .act action next, kept, state, after, here, value', h => by
    have hmore : ((Grammar.stepsWith call next start kept (state.act action)).run here).result =
        .ok ((value', after), last) := h
    obtain ⟨actions, hactions, hafter⟩ := exists_performs next hmore
    exact ⟨action :: actions, .act action hactions, hafter⟩
  | .look next, kept, state, after, here, value', h => by
    obtain ⟨actions, hactions, hafter⟩ := exists_performs (next ⟨here.cursor, state⟩) h
    exact ⟨actions, .look hactions, hafter⟩

/-- What a body performs, its steps come to. -/
theorem Body.Performs.result_eq {body : Body ρ} {kept : Places start} {state : LoopState Value}
    {here : Ahead start} {actions : List (LoopAction Value)} {value : Value}
    (h : body.Performs (Grammar.parserWith call) kept state here actions value last) :
    ((Grammar.stepsWith call body start kept state).run here).result =
      .ok ((value, state.actAll id actions), last) := by
  induction h with
  | done value => rfl
  | parse hg _ ih | parseRanged hg _ ih =>
    rw [Grammar.stepsWith, StateT.run_bind, Outcome.result_bind, hg, Result.ok_bind]
    exact ih
  | tried hg _ ih | caught hg _ ih =>
    rw [Grammar.stepsWith, StateT.run_bind, Outcome.result_bind, Steps.result_attempt, hg]
    exact ih
  | save slot _ ih => exact ih
  | restore slot _ ih => exact ih
  | act action _ ih => exact ih
  | look _ ih => exact ih

end

/-! ## What a loop does -/

/-- An iteration: where its condition was asked, what its body did, and where that ended. -/
structure Iteration where
  start : Cursor
  actions : List (LoopAction Value)
  stop : Cursor

namespace Iteration

/-- All that the bodies of iterations did. -/
def log (its : List Iteration) : List (LoopAction Value) := its.flatMap actions

/-- An iteration that is the last one: its body asked to stop or read the text to its end. -/
def Over (it : Iteration) : Prop := .stop ∈ it.actions ∨ it.stop.atEnd = true

/-- Where the next iteration begins, if there is a next one. -/
inductive Leads : Iteration → Option Cursor → Prop where
  | ended {it} (hover : Over it) : Leads it none
  | forward {it} (hgoes : ¬ Over it) (hlt : it.start.idx < it.stop.idx) : Leads it (some it.stop)
  /-- An iteration that did not go forward is forced to, by one character. -/
  | forced {it next} (hgoes : ¬ Over it) (hstalled : ¬ it.start.idx < it.stop.idx)
    (hcan : it.stop.canWalk 1 = true) (hwalk : it.stop.walk 1 = .ok next) : Leads it (some next)
  | stuck {it} (hgoes : ¬ Over it) (hstalled : ¬ it.start.idx < it.stop.idx)
    (hcan : ¬ it.stop.canWalk 1 = true) : Leads it none

theorem Leads.eq_none_of_over {it : Iteration} {next : Option Cursor} (h : Leads it next)
    (hover : Over it) : next = none := by
  cases h with
  | ended _ => rfl
  | forward hgoes _ => exact absurd hover hgoes
  | forced hgoes _ _ _ => exact absurd hover hgoes
  | stuck _ _ _ => rfl

theorem Leads.unique {it : Iteration} {next next' : Option Cursor} (h : Leads it next)
    (h' : Leads it next') : next' = next := by
  cases h with
  | ended hover => exact h'.eq_none_of_over hover
  | forward hgoes hlt =>
    cases h' with
    | ended hover => exact absurd hover hgoes
    | forward _ _ => rfl
    | forced _ hstalled _ _ => exact absurd hlt hstalled
    | stuck _ hstalled _ => exact absurd hlt hstalled
  | forced hgoes hstalled hcan hwalk =>
    cases h' with
    | ended hover => exact absurd hover hgoes
    | forward _ hlt => exact absurd hlt hstalled
    | forced _ _ _ hwalk' => rw [Except.ok.inj (hwalk'.symm.trans hwalk)]
    | stuck _ _ hcannot => exact absurd hcan hcannot
  | stuck hgoes hstalled hcannot =>
    cases h' with
    | ended _ => rfl
    | forward _ hlt => exact absurd hlt hstalled
    | forced _ _ hcan _ => exact absurd hcan hcannot
    | stuck _ _ _ => rfl

/-- The next iteration has fewer characters left. -/
theorem Leads.remaining_lt {it : Iteration} {next : Cursor} (h : Leads it (some next))
    (hahead : it.start.LeadsTo it.stop) : next.remaining < it.start.remaining := by
  cases h with
  | forward _ hlt => exact hahead.remaining_lt hlt
  | forced _ _ hcan hwalk =>
    exact Nat.lt_of_lt_of_le (Cursor.remaining_lt_of_walk_one hcan hwalk) hahead.remaining_le

theorem Leads.leadsTo {it : Iteration} {next : Cursor} (h : Leads it (some next)) :
    it.stop.LeadsTo next := by
  cases h with
  | forward _ _ => exact .refl _
  | forced _ _ _ hwalk => exact Cursor.leadsTo_of_walk hwalk

end Iteration

section

variable (parserOf : Grammar ρ → Parser Value) (condition : Grammar ρ) (body : Value → Body ρ)

/-- An iteration that came to its end: its condition matched and its body performed. -/
inductive Iteration.Runs : LoopState Value → Iteration → Prop where
  | intro {state current matched inside actions value behind}
    (hmatched : ((parserOf condition).parse current).result = .ok matched)
    (hgo : current.goto matched.range.stop = .ok inside)
    (hbody : (body matched.value).Performs parserOf (.origin inside) state (.origin inside) actions
      value behind) :
    Runs state ⟨current, actions, behind.cursor⟩

/-- The iterations of a loop that succeeds, up to where it ended. -/
inductive Journal : LoopState Value → Cursor → List Iteration → Cursor → Prop where
  /-- The condition failed. -/
  | failed {state current error} (h : ((parserOf condition).parse current).result = .fail error) :
    Journal state current [] current
  | last {state current actions stop}
    (h : Iteration.Runs parserOf condition body state ⟨current, actions, stop⟩)
    (hleads : Iteration.Leads ⟨current, actions, stop⟩ none) :
    Journal state current [⟨current, actions, stop⟩] stop
  | again {state current actions stop next its last}
    (h : Iteration.Runs parserOf condition body state ⟨current, actions, stop⟩)
    (hleads : Iteration.Leads ⟨current, actions, stop⟩ (some next))
    (hmore : Journal (state.actAll id actions) next its last) :
    Journal state current (⟨current, actions, stop⟩ :: its) last

end

section

variable {parserOf : Grammar ρ → Parser Value} {condition : Grammar ρ} {body : Value → Body ρ}

/-- A body performs one thing. -/
theorem Body.Performs.unique {start : Cursor} {body : Body ρ} {kept : Places start}
    {state : LoopState Value} {here last last' : Ahead start}
    {actions actions' : List (LoopAction Value)} {value value' : Value}
    (h : body.Performs parserOf kept state here actions value last)
    (h' : body.Performs parserOf kept state here actions' value' last') :
    actions' = actions ∧ last' = last := by
  induction h generalizing actions' value' last' with
  | done value =>
    cases h' with
    | done _ => exact ⟨rfl, rfl⟩
  | parse hg _ ih =>
    cases h' with
    | parse hg' h' =>
      cases Result.ok.inj (hg'.symm.trans hg)
      exact ih h'
  | parseRanged hg _ ih =>
    cases h' with
    | parseRanged hg' h' =>
      cases Result.ok.inj (hg'.symm.trans hg)
      exact ih h'
  | tried hg _ ih =>
    cases h' with
    | tried hg' h' =>
      cases Result.ok.inj (hg'.symm.trans hg)
      exact ih h'
    | caught hg' h' => cases hg'.symm.trans hg
  | caught hg _ ih =>
    cases h' with
    | tried hg' h' => cases hg'.symm.trans hg
    | caught hg' h' =>
      cases Result.fail.inj (hg'.symm.trans hg)
      exact ih h'
  | save slot _ ih =>
    cases h' with
    | save _ h' => exact ih h'
  | restore slot _ ih =>
    cases h' with
    | restore _ h' => exact ih h'
  | act action _ ih =>
    cases h' with
    | act _ h' =>
      obtain ⟨hactions, hlast⟩ := ih h'
      exact ⟨congrArg (action :: ·) hactions, hlast⟩
  | look _ ih =>
    cases h' with
    | look h' => exact ih h'

theorem Iteration.Runs.unique {state : LoopState Value} {current stop stop' : Cursor}
    {actions actions' : List (LoopAction Value)}
    (h : Runs parserOf condition body state ⟨current, actions, stop⟩)
    (h' : Runs parserOf condition body state ⟨current, actions', stop'⟩) :
    actions' = actions ∧ stop' = stop := by
  cases h with
  | intro hmatched hgo hbody =>
    cases h' with
    | intro hmatched' hgo' hbody' =>
      cases Result.ok.inj (hmatched'.symm.trans hmatched)
      cases Except.ok.inj (hgo'.symm.trans hgo)
      obtain ⟨hactions, hbehind⟩ := hbody.unique hbody'
      exact ⟨hactions, congrArg Ahead.cursor hbehind⟩

theorem Iteration.Runs.ne_fail {state : LoopState Value} {it : Iteration} {error : ParseError}
    (h : Runs parserOf condition body state it) :
    ((parserOf condition).parse it.start).result ≠ .fail error := by
  cases h with
  | intro hmatched _ _ =>
    rw [hmatched]
    exact nofun

theorem Iteration.Runs.leadsTo {state : LoopState Value} {it : Iteration}
    (h : Runs parserOf condition body state it) : it.start.LeadsTo it.stop := by
  cases h with
  | intro _ hgo _ => exact (Cursor.leadsTo_of_goto hgo).trans (Ahead.leadsTo _)

namespace Journal

variable {state : LoopState Value} {current last last' : Cursor} {its its' : List Iteration}

/-- A loop has one journal. -/
theorem unique (h : Journal parserOf condition body state current its last)
    (h' : Journal parserOf condition body state current its' last') :
    its' = its ∧ last' = last := by
  induction h generalizing its' last' with
  | failed hfail =>
    cases h' with
    | failed _ => exact ⟨rfl, rfl⟩
    | last hruns _ => exact absurd hfail hruns.ne_fail
    | again hruns _ _ => exact absurd hfail hruns.ne_fail
  | last hruns hleads =>
    cases h' with
    | failed hfail => exact absurd hfail hruns.ne_fail
    | last hruns' _ =>
      obtain ⟨rfl, rfl⟩ := hruns.unique hruns'
      exact ⟨rfl, rfl⟩
    | again hruns' hleads' _ =>
      obtain ⟨rfl, rfl⟩ := hruns.unique hruns'
      cases hleads.unique hleads'
  | again hruns hleads _ ih =>
    cases h' with
    | failed hfail => exact absurd hfail hruns.ne_fail
    | last hruns' hleads' =>
      obtain ⟨rfl, rfl⟩ := hruns.unique hruns'
      cases hleads.unique hleads'
    | again hruns' hleads' hmore' =>
      obtain ⟨rfl, rfl⟩ := hruns.unique hruns'
      cases hleads.unique hleads'
      obtain ⟨rfl, hlast⟩ := ih hmore'
      exact ⟨rfl, hlast⟩

theorem leadsTo (h : Journal parserOf condition body state current its last) :
    current.LeadsTo last := by
  induction h with
  | failed _ => exact .refl _
  | last hruns _ => exact hruns.leadsTo
  | again hruns hleads _ ih => exact (hruns.leadsTo.trans hleads.leadsTo).trans ih

/-- Nothing follows an iteration that is over. -/
theorem eq_nil_of_over (h : Journal parserOf condition body state current its last)
    {front back : List Iteration} {it : Iteration} (hits : its = front ++ it :: back)
    (hover : it.Over) : back = [] ∧ last = it.stop := by
  induction h generalizing front with
  | failed _ => cases front <;> cases hits
  | last _ _ =>
    cases front with
    | nil =>
      cases hits
      exact ⟨rfl, rfl⟩
    | cons _ front => cases front <;> cases hits
  | again _ hleads _ ih =>
    cases front with
    | nil =>
      cases hits
      cases hleads.eq_none_of_over hover
    | cons _ front => exact ih (List.cons.inj hits).2

end Journal

end

theorem LoopState.actAll_log_cons (state : LoopState Value) {current stop : Cursor}
    {actions : List (LoopAction Value)} (its : List Iteration) :
    state.actAll id (Iteration.log (⟨current, actions, stop⟩ :: its)) =
      (state.actAll id actions).actAll id (Iteration.log its) := by
  simp [actAll, Iteration.log]

/-- Whether a loop is over behind a body is told by what the body did. -/
theorem LoopState.over_iff {state : LoopState Value} (hstate : state.stopRequested = false)
    {current stop : Cursor} {actions : List (LoopAction Value)} :
    ((state.actAll id actions).stopRequested || stop.atEnd) = true ↔
      Iteration.Over ⟨current, actions, stop⟩ := by
  rw [Bool.or_eq_true, stopRequested_actAll, hstate]
  simp [Iteration.Over]

section

variable {call : ρ → Parser Value} {condition : Grammar ρ} {body : Value → Body ρ}

theorem Grammar.loopSteps_eq_ok_iff {value : Value} {state after : LoopState Value}
    {inside : Cursor} {behind : Ahead inside} :
    ((loopSteps call body value state inside).run (.origin inside)).result = .ok (after, behind) ↔
      ∃ actions result, (body value).Performs (parserWith call) (.origin inside) state
        (.origin inside) actions result behind ∧ after = state.actAll id actions := by
  rw [loopSteps, StateT.run_bind]
  constructor
  · intro h
    obtain ⟨⟨⟨result, state'⟩, here⟩, hsteps, hend⟩ := Outcome.bind_eq_ok h
    cases Result.ok.inj hend
    obtain ⟨actions, hactions, hafter⟩ := Body.exists_performs _ hsteps
    exact ⟨actions, result, hactions, hafter⟩
  · intro h
    obtain ⟨actions, result, hactions, rfl⟩ := h
    rw [Outcome.result_bind, hactions.result_eq]
    rfl

variable (call condition body) in
/-- The iterations of a loop of grammars. -/
def Grammar.loopFrom : LoopState Value → Cursor → Outcome (LoopState Value × Cursor) :=
  Parser.iterate (condition.parserWith call) (loopSteps call body)

variable {state after : LoopState Value} {current stop last : Cursor}
  {actions : List (LoopAction Value)}

/-- What a loop comes to that began with an iteration. -/
theorem Iteration.Runs.result_loopFrom
    (h : Runs (Grammar.parserWith call) condition body state ⟨current, actions, stop⟩) :
    (Grammar.loopFrom call condition body state current).result =
      (if (state.actAll id actions).stopRequested || stop.atEnd then
        return (state.actAll id actions, stop)
      else if current.idx < stop.idx then
        Grammar.loopFrom call condition body (state.actAll id actions) stop
      else if stop.canWalk 1 then do
        .record (.forcedForward current.idx)
        let next ← .ofChecked (stop.walk 1)
        Grammar.loopFrom call condition body (state.actAll id actions) next
      else return (state.actAll id actions, stop) : Outcome (LoopState Value × Cursor)).result := by
  cases h with
  | intro hmatched hgo hbody =>
    have hran := Grammar.loopSteps_eq_ok_iff.mpr ⟨actions, _, hbody, rfl⟩
    rw [Grammar.loopFrom, Parser.iterate_eq, Parser.result_attempt_bind, hmatched]
    dsimp only
    rw [hgo, Outcome.ofChecked_ok, pure_bind, Outcome.result_bind, hran]
    rfl

/-- The loop goes on from where the iteration leads to. -/
theorem Iteration.Runs.result_loopFrom_of_leads
    (h : Runs (Grammar.parserWith call) condition body state ⟨current, actions, stop⟩)
    (hstate : state.stopRequested = false) {next : Option Cursor}
    (hleads : Leads ⟨current, actions, stop⟩ next) :
    (Grammar.loopFrom call condition body state current).result =
      match next with
      | some next => (Grammar.loopFrom call condition body (state.actAll id actions) next).result
      | none => .ok (state.actAll id actions, stop) := by
  have hover_iff : ((state.actAll id actions).stopRequested || stop.atEnd) = true ↔
      Over ⟨current, actions, stop⟩ := LoopState.over_iff hstate
  rw [h.result_loopFrom]
  cases hleads with
  | ended hover => rw [if_pos (hover_iff.mpr hover)]; rfl
  | forward hgoes hlt => rw [if_neg (mt hover_iff.mp hgoes), if_pos hlt]
  | forced hgoes hstalled hcan hwalk =>
    rw [if_neg (mt hover_iff.mp hgoes), if_neg hstalled, if_pos hcan, hwalk]
    rfl
  | stuck hgoes hstalled hcannot =>
    rw [if_neg (mt hover_iff.mp hgoes), if_neg hstalled, if_neg hcannot]
    rfl

/-- An iteration of a loop that succeeds leads somewhere, or nowhere. -/
theorem Iteration.Runs.exists_leads
    (h : Runs (Grammar.parserWith call) condition body state ⟨current, actions, stop⟩)
    (hstate : state.stopRequested = false)
    (hloop : (Grammar.loopFrom call condition body state current).result = .ok (after, last)) :
    ∃ next, Leads ⟨current, actions, stop⟩ next := by
  rw [h.result_loopFrom] at hloop
  by_cases hover : Over ⟨current, actions, stop⟩
  · exact ⟨none, .ended hover⟩
  · rw [if_neg (mt (LoopState.over_iff hstate).mp hover)] at hloop
    by_cases hlt : current.idx < stop.idx
    · exact ⟨some stop, .forward hover hlt⟩
    · rw [if_neg hlt] at hloop
      by_cases hcan : stop.canWalk 1 = true
      · rw [if_pos hcan] at hloop
        obtain ⟨_, -, hforced⟩ := Outcome.bind_eq_ok hloop
        obtain ⟨next, hwalk, -⟩ := Outcome.ofChecked_bind_eq_ok hforced
        exact ⟨some next, .forced hover hlt hcan hwalk⟩
      · exact ⟨none, .stuck hover hlt hcan⟩

/-- A loop either asks its condition in vain or goes through an iteration. -/
theorem Grammar.loopFrom_eq_ok
    (h : (Grammar.loopFrom call condition body state current).result = .ok (after, last)) :
    (∃ error, ((condition.parserWith call).parse current).result = .fail error ∧
      after = state ∧ last = current) ∨
    ∃ actions stop,
      Iteration.Runs (Grammar.parserWith call) condition body state ⟨current, actions, stop⟩ := by
  rw [loopFrom, Parser.iterate_eq] at h
  rcases Outcome.attempt_bind_eq_ok h with ⟨matched, hmatched, hrest⟩ | ⟨error, hfail, hrest⟩
  · obtain ⟨inside, hgo, hbody⟩ := Outcome.ofChecked_bind_eq_ok hrest
    obtain ⟨⟨next, behind⟩, hran, -⟩ := Outcome.bind_eq_ok hbody
    obtain ⟨actions, result, hactions, -⟩ := Grammar.loopSteps_eq_ok_iff.mp hran
    exact .inr ⟨actions, behind.cursor, .intro hmatched hgo hactions⟩
  · cases Result.ok.inj hrest
    exact .inl ⟨error, hfail, rfl, rfl⟩

/-- An iteration that leads to another one did not ask to stop. -/
theorem LoopState.stopRequested_of_leads (hstate : state.stopRequested = false) {next : Cursor}
    (h : Iteration.Leads ⟨current, actions, stop⟩ (some next)) :
    (state.actAll id actions).stopRequested = false := by
  rw [Bool.eq_false_iff]
  intro hstop
  rcases (stopRequested_actAll state actions).mp hstop with hbefore | hactions
  · rw [hstate] at hbefore
    cases hbefore
  · cases h.eq_none_of_over (.inl hactions)

/-- A loop that succeeds has a journal, and its state is what the log made of it. -/
theorem exists_journal {state after : LoopState Value} {current last : Cursor}
    (hstate : state.stopRequested = false)
    (h : (Grammar.loopFrom call condition body state current).result = .ok (after, last)) :
    ∃ its, Journal (Grammar.parserWith call) condition body state current its last ∧
      after = state.actAll id (Iteration.log its) := by
  rcases Grammar.loopFrom_eq_ok h with ⟨error, hfail, rfl, rfl⟩ | ⟨actions, stop, hruns⟩
  · exact ⟨[], .failed hfail, rfl⟩
  · obtain ⟨next, hleads⟩ := hruns.exists_leads hstate h
    rw [hruns.result_loopFrom_of_leads hstate hleads] at h
    cases next with
    | none =>
      cases Result.ok.inj h
      exact ⟨_, .last hruns hleads, (LoopState.actAll_log_cons state []).symm⟩
    | some next =>
      have hless : next.remaining < current.remaining := hleads.remaining_lt hruns.leadsTo
      have hgoes := LoopState.stopRequested_of_leads hstate hleads
      obtain ⟨its, hmore, rfl⟩ := exists_journal hgoes h
      exact ⟨_, .again hruns hleads hmore, (LoopState.actAll_log_cons state its).symm⟩
termination_by current.remaining

/-- What a journal tells, the loop comes to. -/
theorem Journal.result_loopFrom {its : List Iteration}
    (h : Journal (Grammar.parserWith call) condition body state current its last)
    (hstate : state.stopRequested = false) :
    (Grammar.loopFrom call condition body state current).result =
      .ok (state.actAll id (Iteration.log its), last) := by
  induction h with
  | failed hfail =>
    rw [Grammar.loopFrom, Parser.iterate_eq, Parser.result_attempt_bind, hfail]
    rfl
  | last hruns hleads =>
    rw [hruns.result_loopFrom_of_leads hstate hleads, LoopState.actAll_log_cons]
    rfl
  | again hruns hleads _ ih =>
    rw [hruns.result_loopFrom_of_leads hstate hleads, LoopState.actAll_log_cons]
    exact ih (LoopState.stopRequested_of_leads hstate hleads)

end

section

variable {definitions : ρ → Grammar ρ} {depth : Nat} {condition : Grammar ρ}
  {body : Value → Body ρ} {c : Cursor}

/-- A loop succeeds as its journal tells. -/
theorem Grammar.resultAt_forEach_iff {parsed : Parsed Value} :
    (Grammar.forEach condition body).resultAt definitions depth c = .ok parsed ↔
      ∃ its last, Journal (fun g => g.parser definitions depth) condition body .initial c its last ∧
        parsed = ⟨⟨c.idx, last.idx⟩,
          .loop (Log.appended (Iteration.log its)) (Log.items (Iteration.log its))⟩ := by
  obtain ⟨call, hcall⟩ := exists_parserWith definitions depth
  rw [resultAt, hcall, funext hcall, parserWith_forEach, Parser.result_map, Parser.forEach,
    Outcome.result_bind]
  constructor
  · intro h
    obtain ⟨out, hout, hvalue⟩ := Result.bind_eq_ok h
    obtain ⟨⟨after, last⟩, hloop, hrange⟩ := Result.bind_eq_ok hout
    obtain ⟨its, hjournal, rfl⟩ := exists_journal rfl hloop
    obtain ⟨rfl, -⟩ := Parsed.new_eq_ok (Result.ofChecked_eq_ok hrange)
    refine ⟨its, last, hjournal, ?_⟩
    rw [← Result.ok.inj hvalue, LoopState.finish_actAll]
    rfl
  · intro h
    obtain ⟨its, last, hjournal, rfl⟩ := h
    have hloop := hjournal.result_loopFrom rfl
    rw [loopFrom] at hloop
    rw [hloop, Result.ok_bind]
    dsimp only
    rw [LoopState.finish_actAll, Parsed.new_of_le hjournal.leadsTo.idx_le]
    rfl

end

/-- What a loop comes to is the log of its bodies. Its text is all that they appended and its
items all that they yielded and all snapshots, in the order of what they did, iteration after
iteration. A snapshot is of what was appended before it, which all that is appended later
leaves in front. There is one way to tell what was done. A body that asks to stop is the last
one, and what it does after that is told as well. -/
theorem forEach_keeps_log {ρ : Type} (definitions : ρ → Grammar ρ) (depth : Nat)
    (condition : Grammar ρ) (body : Value → Body ρ) (c : Cursor) :
    let Tells := Journal (fun g => g.parser definitions depth) condition body .initial c
    (∀ parsed, (Grammar.forEach condition body).resultAt definitions depth c = .ok parsed ↔
      ∃ its last, Tells its last ∧ parsed = ⟨⟨c.idx, last.idx⟩,
        .loop (Log.appended (Iteration.log its)) (Log.items (Iteration.log its))⟩) ∧
    ∀ its last, Tells its last →
      (∀ its' last', Tells its' last' → its' = its ∧ last' = last) ∧
      (∀ front it back, its = front ++ it :: back → .stop ∈ it.actions →
        back = [] ∧ last = it.stop) ∧
      let log := Iteration.log its
      (∀ i toItem, log[i]? = some (.snapshot toItem) → ∃ later,
        Log.items log = Log.items (log.take i) ++ toItem (Log.appended (log.take i)) :: later) ∧
      ∀ i j, i ≤ j →
        (∃ more, Log.appended (log.take j) = Log.appended (log.take i) ++ more) ∧
        ∃ more, Log.appended log = Log.appended (log.take j) ++ more := by
  refine ⟨fun parsed => Grammar.resultAt_forEach_iff, fun its last h => ?_⟩
  refine ⟨fun its' last' h' => h.unique h', ?_, fun i toItem hi => Log.exists_items_eq hi rfl, ?_⟩
  · intro front it back hits hstop
    exact h.eq_nil_of_over hits (.inl hstop)
  · intro i j hij
    refine ⟨Log.exists_appended_take _ hij, ?_⟩
    exact ⟨_, by rw [← Log.appended_append, List.take_append_drop]⟩

/-- A body that reads a character and goes back, so that the loop is forced on. It is over
where the second one is seen, and a last text is appended behind that. -/
theorem forEach_keeps_log_letters :
    let c : Cursor := .new ['a', 'b', 'c']
    let next : Cursor := .atOffset ['a', 'b', 'c'] 1
    let definitions : Unit → Grammar Unit := fun _ => .fail ""
    let condition : Grammar Unit := .lookahead .anyChar
    let body : Value → Body Unit := fun value =>
      .act (.append "x") (.save 0 (.tryParse .anyChar fun _ => .restore 0 (.act (.snapshot .str)
        (match value with
        | .some (.char 'b') => .act .stop (.act (.append "!") (.done .unit))
        | _ => .done .unit))))
    let first : Iteration := ⟨c, [.append "x", .snapshot .str], c⟩
    let second : Iteration := ⟨next, [.append "x", .snapshot .str, .stop, .append "!"], next⟩
    let log := Iteration.log [first, second]
    Journal (fun g => g.parser definitions 0) condition body .initial c [first, second] next ∧
      (Grammar.forEach condition body).resultAt definitions 0 c =
        .ok ⟨⟨0, 1⟩, .loop "xx!" [.str "x", .str "xx"]⟩ ∧
      (∀ back, [first, second] = [first] ++ second :: back → back = []) ∧
      (∃ later, Log.items log = Log.items (log.take 3) ++ .str "xx" :: later) ∧
      ∃ more, Log.appended log = "xx" ++ more := by
  intro c next definitions condition body first second log
  have hfirst : Iteration.Runs (fun g => g.parser definitions 0) condition body .initial first :=
    @Iteration.Runs.intro _ _ _ _ _ _ ⟨⟨0, 0⟩, .some (.char 'a')⟩ c _ _ (.origin c) rfl rfl
      (.act _ (.save _ (.tried rfl (.restore _ (.act _ (.done _))))))
  have hsecond : Iteration.Runs (fun g => g.parser definitions 0) condition body
      (.actAll id .initial first.actions) second :=
    @Iteration.Runs.intro _ _ _ _ _ _ ⟨⟨1, 1⟩, .some (.char 'b')⟩ next _ _ (.origin next) rfl rfl
      (.act _ (.save _ (.tried rfl (.restore _ (.act _ (.act _ (.act _ (.done _))))))))
  have hgoes : ¬ first.Over := by
    intro hover
    rcases hover with hstop | hend
    · simp [first] at hstop
    · exact absurd hend (by decide)
  have hforced : first.Leads (some next) := .forced hgoes (by decide) (by decide) rfl
  have hover : second.Leads none := .ended (.inl (by simp [second]))
  have hjournal : Journal (fun g => g.parser definitions 0) condition body .initial c
      [first, second] next := .again hfirst hforced (.last hsecond hover)
  obtain ⟨hresult, htells⟩ := forEach_keeps_log definitions 0 condition body c
  obtain ⟨-, hstops, hsnapshots, hgrows⟩ := htells _ _ hjournal
  have happended : Log.appended (log.take 3) = "xx" := by decide
  have hsnapshot := hsnapshots 3 .str rfl
  obtain ⟨-, hprefix⟩ := hgrows 1 3 (by decide)
  refine ⟨hjournal, (hresult _).mpr ⟨_, _, hjournal, by decide⟩, fun back hback => ?_, ?_, ?_⟩
  · exact (hstops [first] second back hback (by simp [second])).1
  · exact happended ▸ hsnapshot
  · exact happended ▸ hprefix

end Parsing
