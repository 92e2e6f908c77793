import Parsing.Proofs.Binding
import Parsing.Proofs.Iteration
import Parsing.Proofs.Sequencing

/-!
# Speculation

A body can try a parser in two ways. It can run the parser and discard a failure, with a
copy of its place if it means to come back; or it can run a parser that speculates for it.

> `speculating_agrees`: a run whose failure is discarded is a run of the parser's option,
> and one that is also called back from where it went is a lookahead. Bodies in which the
> one takes the place of the other come to the same, and so do grammars with such bodies.

`Body.Speculates` is the relation of such bodies. It keeps account of the slots that the
exchange has written to: what they hold differs between the two bodies, until a place is
kept in them again, and no body may go back there before.

Both facts rest on a step that does not move. A lookahead and a missing option report that
they have read nothing, and a move to where one is already changes nothing at all.
-/

namespace Parsing

/-- A move to the place where one is. -/
theorem Ahead.goto_self {start : Cursor} {here : Ahead start} (hhere : here.cursor.Sound) :
    here.goto here.cursor.idx = .ok here := by
  have hmove := here.map_cursor_goto here.cursor.idx
  rw [hhere.goto_idx] at hmove
  cases hgo : here.goto here.cursor.idx with
  | error cause => rw [hgo] at hmove; cases hmove
  | ok behind =>
    rw [hgo] at hmove
    exact congrArg Except.ok (Ahead.ext (Except.ok.inj hmove))

theorem Ahead.exists_goto {α : Type} {start : Cursor} {here : Ahead start} {p : Parser α}
    (hp : p.StopsAhead) (hhere : here.cursor.Reachable) {a : Parsed α}
    (h : (p.parse here.cursor).result = .ok a) : ∃ behind, here.goto a.range.stop = .ok behind := by
  have hmove := here.map_cursor_goto a.range.stop
  rw [hp.goto_eq hhere h] at hmove
  cases hgo : here.goto a.range.stop with
  | error cause => rw [hgo] at hmove; cases hmove
  | ok behind => exact ⟨behind, rfl⟩

namespace Steps

variable {start : Cursor} {α : Type}

/-! ## Steps that speculate -/

/-- Run a parser and go on if it fails, which counts as no value and nothing read. -/
def discarded (p : Parser α) : Steps start (Option α) := do
  let attempted ← (parse p).attempt
  return attempted.toOption

/-- The same between a copy of the place and the way back to it; the copy is still there
afterwards. -/
def recalled (p : Parser α) : Steps start (Option α × Ahead start) := do
  let copy ← get
  let option ← discarded p
  set copy
  return (option, copy)

variable {p : Parser α} {here : Ahead start}

theorem result_parse (p : Parser α) (here : Ahead start) : ((parse p).run here).result = (do
    let a ← (p.parse here.cursor).result
    let behind ← .ofChecked (here.goto a.range.stop)
    return (a.value, behind)) := by
  simp only [run_parse, Outcome.result_bind, Outcome.result_ofChecked, Outcome.result_pure,
    Result.pure_eq_ok]

theorem result_discarded (p : Parser α) (here : Ahead start) :
    ((discarded p).run here).result =
    match (p.parse here.cursor).result with
    | .ok a => (do
      let behind ← .ofChecked (here.goto a.range.stop)
      return (some a.value, behind))
    | .fail _ => .ok (none, here)
    | .fault cause => .fault cause
    | .exhausted => .exhausted := by
  rw [discarded, StateT.run_bind, Outcome.result_bind, result_attempt, result_parse]
  cases (p.parse here.cursor).result with
  | ok a =>
    dsimp only
    rw [Result.ok_bind]
    cases hgo : here.goto a.range.stop with
    | ok behind => rfl
    | error cause => rfl
  | fail error => rfl
  | fault cause => rfl
  | exhausted => rfl

/-- A run that may fail is a run of the option. -/
theorem result_discarded_eq_optional (p : Parser α) (hhere : here.cursor.Sound) :
    ((discarded p).run here).result = ((parse p.optional).run here).result := by
  rw [result_discarded, result_parse, Parser.result_optional]
  cases (p.parse here.cursor).result with
  | ok a => rfl
  | fail error =>
    show _ = (Result.ofChecked (here.goto here.cursor.idx) >>= fun behind => pure (none, behind))
    rw [Ahead.goto_self hhere]
    rfl
  | fault cause => rfl
  | exhausted => rfl

theorem result_lookahead (p : Parser α) (hhere : here.cursor.Sound) :
    ((parse p.lookahead).run here).result =
    match (p.parse here.cursor).result with
    | .ok a => .ok (some a.value, here)
    | .fail _ => .ok (none, here)
    | .fault cause => .fault cause
    | .exhausted => .exhausted := by
  have hstay (option : Option α) :
      (Result.ofChecked (here.goto here.cursor.idx) >>= fun behind => pure (option, behind)) =
        .ok (option, here) := by
    rw [Ahead.goto_self hhere]
    rfl
  rw [result_parse, Parser.lookahead, Parser.result_attempt_bind]
  cases (p.parse here.cursor).result with
  | ok a => exact hstay (some a.value)
  | fail error => exact hstay none
  | fault cause => rfl
  | exhausted => rfl

theorem run_recalled (p : Parser α) (here : Ahead start) : (recalled p).run here = (do
    let (option, _) ← (discarded p).run here
    return ((option, here), here)) := by
  simp [recalled]

/-- A run that is called back is a lookahead, with the copy left over. -/
theorem result_recalled_eq_lookahead (hp : p.StopsAhead) (hhere : here.cursor.Reachable) :
    ((recalled p).run here).result = (do
      let (option, behind) ← ((parse p.lookahead).run here).result
      return ((option, here), behind)) := by
  rw [run_recalled, Outcome.result_bind, result_discarded, result_lookahead p hhere.sound]
  cases h : (p.parse here.cursor).result with
  | ok a =>
    obtain ⟨behind, hgo⟩ := Ahead.exists_goto hp hhere h
    dsimp only
    rw [hgo]
    rfl
  | fail error => rfl
  | fault cause => rfl
  | exhausted => rfl

/-- A parser that fails leaves no trace of where it was tried. -/
theorem result_of_fail {error : ParseError} (h : (p.parse here.cursor).result = .fail error) :
    ((discarded p).run here).result = .ok (none, here) ∧
      ((recalled p).run here).result = .ok ((none, here), here) := by
  have hdiscarded : ((discarded p).run here).result = .ok (none, here) := by
    rw [result_discarded, h]
  refine ⟨hdiscarded, ?_⟩
  rw [run_recalled, Outcome.result_bind, hdiscarded]
  rfl

/-- A step that keeps a function of a value. -/
theorem parse_map {β : Type} (f : α → β) (p : Parser α) :
    (parse (p.map f) : Steps start β) = (do
      let value ← parse p
      return f value) := by
  funext here
  show (parse (p.map f)).run here = _
  rw [run_parse, Parser.map]
  show _ = ((parse p).run here >>= fun a => pure (f a.1, a.2))
  rw [run_parse]
  simp only [bind_assoc, pure_bind]
  rfl

end Steps

/-! ## Bodies -/

/-- Bodies that differ in how they speculate: where the first one runs a parser that
speculates, the second one may do so by hand. The slots that are stale hold different
places in the two bodies. -/
inductive Body.Speculates {ρ : Type} (ahead : Grammar ρ → Prop) :
    (stale : Nat → Prop) → Body ρ → Body ρ → Prop where
  | done {stale} (value) : Speculates ahead stale (.done value) (.done value)
  | fail {stale} (message) : Speculates ahead stale (.fail message) (.fail message)
  | raise {stale} (error) : Speculates ahead stale (.raise error) (.raise error)
  | parse {stale g next next'} (h : ∀ value, Speculates ahead stale (next value) (next' value)) :
    Speculates ahead stale (.parse g next) (.parse g next')
  | parseRanged {stale g next next'}
    (h : ∀ parsed, Speculates ahead stale (next parsed) (next' parsed)) :
    Speculates ahead stale (.parseRanged g next) (.parseRanged g next')
  | tryParse {stale g next next'}
    (h : ∀ attempted, Speculates ahead stale (next attempted) (next' attempted)) :
    Speculates ahead stale (.tryParse g next) (.tryParse g next')
  /-- A slot that is written to is stale no more. -/
  | save {stale next next'} (slot) (h : Speculates ahead (fun n => stale n ∧ n ≠ slot) next next') :
    Speculates ahead stale (.save slot next) (.save slot next')
  | restore {stale next next'} (slot) (hslot : ¬ stale slot)
    (h : Speculates ahead stale next next') :
    Speculates ahead stale (.restore slot next) (.restore slot next')
  | act {stale next next'} (action) (h : Speculates ahead stale next next') :
    Speculates ahead stale (.act action next) (.act action next')
  | look {stale next next'} (h : ∀ view, Speculates ahead stale (next view) (next' view)) :
    Speculates ahead stale (.look next) (.look next')
  /-- An option, or a run whose failure is discarded. -/
  | discarded {stale g} {next next' : Value → Body ρ}
    (h : ∀ option, Speculates ahead stale (next (.ofOption option)) (next' (.ofOption option))) :
    Speculates ahead stale (.parse (.optional g) next)
      (.tryParse g fun attempted => next' (.ofOption attempted.toOption))
  /-- A lookahead, or a run whose failure is discarded and that is called back. -/
  | recalled {stale g} {next next' : Value → Body ρ} (slot) (hg : ahead g)
    (h : ∀ option, Speculates ahead (fun n => stale n ∨ n = slot) (next (.ofOption option))
      (next' (.ofOption option))) :
    Speculates ahead stale (.parse (.lookahead g) next)
      (.save slot (.tryParse g fun attempted =>
        .restore slot (next' (.ofOption attempted.toOption))))

namespace Grammar

variable {ρ : Type} (call : ρ → Parser Value) (g : Grammar ρ) (next : Value → Body ρ)
  {start : Cursor} (kept : Places start) (state : LoopState Value)

theorem stepsWith_optional : stepsWith call (.parse (.optional g) next) start kept state = (do
    let option ← Steps.parse (g.parserWith call).optional
    stepsWith call (next (.ofOption option)) start kept state) := by
  simp only [stepsWith, parserWith, Steps.parse_map, bind_assoc, pure_bind]

theorem stepsWith_lookahead : stepsWith call (.parse (.lookahead g) next) start kept state = (do
    let option ← Steps.parse (g.parserWith call).lookahead
    stepsWith call (next (.ofOption option)) start kept state) := by
  simp only [stepsWith, parserWith, Steps.parse_map, bind_assoc, pure_bind]

theorem stepsWith_discarded :
    stepsWith call (.tryParse g fun attempted => next (.ofOption attempted.toOption)) start kept
      state = (do
    let option ← Steps.discarded (g.parserWith call)
    stepsWith call (next (.ofOption option)) start kept state) := by
  simp only [stepsWith, Steps.discarded, bind_assoc, pure_bind]

theorem stepsWith_recalled (slot : Nat) :
    stepsWith call (.save slot (.tryParse g fun attempted =>
      .restore slot (next (.ofOption attempted.toOption)))) start kept state = (do
    let (option, copy) ← Steps.recalled (g.parserWith call)
    stepsWith call (next (.ofOption option)) start (kept.put slot copy) state) := by
  simp only [stepsWith, Steps.recalled, Steps.discarded, Places.put_self, bind_assoc, pure_bind]

end Grammar

section

variable {ρ : Type} {call call' : ρ → Parser Value}

/-- Every grammar goes in step with itself when its references do. -/
theorem Grammar.parsers_reachable
    (hcall : ∀ name, SameRuns.reachable.correspondence.Parsers (call name) (call' name))
    (g : Grammar ρ) :
    SameRuns.reachable.correspondence.Parsers (g.parserWith call) (g.parserWith call') :=
  (Scheme.everything_takesAll.pairs g).parsers
    (SameRuns.reachable.inStep_everything (fun he => he) trivial hcall)

namespace Correspondence.Steps

variable {S : Correspondence} {α β : Type} {c c' start start' : Cursor} {values : α → β → Prop}

/-- Other steps may be taken that come to the same. -/
theorem of_result_eq {steps other : Parsing.Steps start α} {steps' : Parsing.Steps start' β}
    (h : S.Steps c c' values steps steps')
    (hother : ∀ (here : Ahead start) (here' : Ahead start'), S.cursors here.cursor here'.cursor →
      (other.run here).result = (steps.run here).result) : S.Steps c c' values other steps' := by
  intro here here' hhere
  have hrelated := h hhere
  have hresult : (other here).result = (steps here).result := hother here here' hhere
  unfold Outcome.Related at hrelated ⊢
  rw [hresult]
  exact hrelated

variable {p p' : Parser α}

theorem discarded (hstart : S.cursors start start') (h : S.Parsers p p') :
    S.Steps c c' (fun option option' => option' = option)
      (Parsing.Steps.discarded p : Parsing.Steps start _)
      (Parsing.Steps.discarded p' : Parsing.Steps start' _) := by
  refine (parse hstart (onward_refl hstart) h).attempt.bind fun attempted attempted' ha => ?_
  cases ha with
  | ok hvalue => exact .pure (congrArg some hvalue.1)
  | error _ => exact .pure rfl

theorem recalled (hstart : S.cursors start start') (h : S.Parsers p p') :
    S.Steps c c' (fun a a' => a'.1 = a.1)
      (Parsing.Steps.recalled p : Parsing.Steps start _)
      (Parsing.Steps.recalled p' : Parsing.Steps start' _) := by
  refine get.bind fun here here' hhere => ?_
  refine (discarded hstart h).bind fun option option' hoption => ?_
  exact (set hhere).bind fun _ _ _ => .pure hoption

end Correspondence.Steps

namespace SameRuns

variable {c c' start : Cursor} {α : Type} {p p' : Parser α} (hstart : start.Reachable)
  (h : reachable.correspondence.Parsers p p')

include hstart h

theorem discarded_reachable :
    reachable.correspondence.Steps c c' (fun option option' => option' = option)
      (Steps.parse p.optional : Steps start _) (Steps.discarded p' : Steps start _) := by
  have hplace : reachable.correspondence.cursors start start := ⟨rfl, hstart⟩
  refine (Correspondence.Steps.discarded hplace h).of_result_eq fun here here' hhere => ?_
  obtain ⟨-, hreachable⟩ := hhere
  exact (Steps.result_discarded_eq_optional p (Cursor.Reachable.sound hreachable)).symm

theorem recalled_reachable (hp : p.StopsAhead) :
    reachable.correspondence.Steps c c' (fun option a => a.1 = option)
      (Steps.parse p.lookahead : Steps start _) (Steps.recalled p' : Steps start _) := by
  have hplace : reachable.correspondence.cursors start start := ⟨rfl, hstart⟩
  have hoption (a a' : Option α × Ahead start) (ha : a'.1 = a.1) :
      reachable.correspondence.Steps c c' (fun option a' => a'.1 = option)
        (pure a.1 : Steps start _) (pure a' : Steps start _) := .pure ha
  have hsteps := (Correspondence.Steps.recalled hplace h).bind hoption
  rw [bind_pure] at hsteps
  refine hsteps.of_result_eq fun here here' hhere => ?_
  obtain ⟨-, hreachable⟩ := hhere
  rw [StateT.run_bind, Outcome.result_bind, Steps.result_recalled_eq_lookahead hp hreachable,
    bind_assoc]
  exact (bind_pure _).symm

end SameRuns

namespace Body.Speculates

variable {ahead : Grammar ρ → Prop}
  (hcall : ∀ name, SameRuns.reachable.correspondence.Parsers (call name) (call' name))
  (hahead : ∀ g, ahead g → (g.parserWith call).StopsAhead)

include hcall hahead

/-- The steps of such bodies go in step while their places correspond in all slots but
the stale ones. -/
theorem steps {stale : Nat → Prop} {body body' : Body ρ}
    (h : Body.Speculates ahead stale body body') {c start : Cursor} (hc : c.Reachable)
    (honward : Onward SameRuns.reachable.correspondence.cursors c c start start)
    {kept kept' : Places start}
    (hkept : ∀ slot, ¬ stale slot →
      SameRuns.reachable.correspondence.cursors (kept slot).cursor (kept' slot).cursor)
    (state : LoopState Value) :
    SameRuns.reachable.correspondence.Steps c c (fun a a' => a' = a)
      (Grammar.stepsWith call body start kept state)
      (Grammar.stepsWith call' body' start kept' state) := by
  have hplace : SameRuns.reachable.correspondence.cursors c c := ⟨rfl, hc⟩
  have hstart : start.Reachable := honward.cursors.2
  have hparsers := Grammar.parsers_reachable hcall
  induction h generalizing kept kept' state with
  | done value => exact .pure rfl
  | fail message => exact .fail hplace honward message
  | raise error => exact .raise rfl
  | @parse stale g next next' h ih =>
    refine (Correspondence.Steps.parse hplace honward (hparsers g)).bind fun value value' hran => ?_
    obtain ⟨rfl, -⟩ := hran
    exact ih _ hkept state
  | @parseRanged stale g next next' h ih =>
    refine (Correspondence.Steps.parseRanged hplace honward (hparsers g)).bind fun a a' hran => ?_
    rw [SameRuns.reachable.eq_of_reports hran.reports]
    exact ih a hkept state
  | @tryParse stale g next next' h ih =>
    refine (Correspondence.Steps.parse hplace honward (hparsers g)).attempt.bind fun a a' ha => ?_
    cases ha with
    | ok hran =>
      obtain ⟨rfl, -⟩ := hran
      exact ih _ hkept state
    | @error e e' he =>
      obtain rfl : e' = e := he
      exact ih _ hkept state
  | save slot h ih =>
    refine Correspondence.Steps.get.bind fun here here' hhere => ?_
    refine ih (fun n hn => ?_) state
    by_cases hslot : n = slot
    · subst hslot
      rw [Places.put_self, Places.put_self]
      exact hhere
    · rw [Places.put_of_ne _ _ hslot, Places.put_of_ne _ _ hslot]
      exact hkept n fun hstale => hn ⟨hstale, hslot⟩
  | restore slot hslot h ih =>
    exact (Correspondence.Steps.set (hkept slot hslot)).bind fun _ _ _ => ih hkept state
  | act action h ih => exact ih hkept _
  | look h ih =>
    refine Correspondence.Steps.get.bind fun here here' hhere => ?_
    rw [hhere.1]
    exact ih _ hkept state
  | @discarded stale g next next' h ih =>
    rw [Grammar.stepsWith_optional, Grammar.stepsWith_discarded]
    refine (SameRuns.discarded_reachable hstart (hparsers g)).bind fun option option' ho => ?_
    rw [ho]
    exact ih option hkept state
  | @recalled stale g next next' slot hg h ih =>
    rw [Grammar.stepsWith_lookahead, Grammar.stepsWith_recalled]
    have hstops := hahead g hg
    refine (SameRuns.recalled_reachable hstart (hparsers g) hstops).bind fun option a ha => ?_
    obtain ⟨option', copy⟩ := a
    obtain rfl : option' = option := ha
    -- The copy is kept on one side only, so its slot is stale from here on.
    refine ih option' (fun n hn => ?_) state
    obtain ⟨hstale, hslot⟩ := not_or.mp hn
    rw [Places.put_of_ne _ _ hslot]
    exact hkept n hstale

/-- The same with nothing kept yet. -/
theorem steps_origin {body body' : Body ρ} (h : Body.Speculates ahead (fun _ => False) body body')
    {c start : Cursor} (hc : c.Reachable)
    (honward : Onward SameRuns.reachable.correspondence.cursors c c start start)
    (state : LoopState Value) :
    SameRuns.reachable.correspondence.Steps c c (fun a a' => a' = a)
      (Grammar.stepsWith call body start (.origin start) state)
      (Grammar.stepsWith call' body' start (.origin start) state) := by
  have hkept : ∀ slot, ¬ False → SameRuns.reachable.correspondence.cursors
      (Places.origin start slot).cursor (Places.origin start slot).cursor :=
    fun _ _ => honward.cursors
  exact h.steps hcall hahead hc honward hkept state

theorem result_eq {body body' : Body ρ} (h : Body.Speculates ahead (fun _ => False) body body')
    {start : Cursor} (hstart : start.Reachable) (state : LoopState Value) :
    ((Grammar.stepsWith call' body' start (.origin start) state).run (.origin start)).result =
      ((Grammar.stepsWith call body start (.origin start) state).run (.origin start)).result := by
  have hplace : SameRuns.reachable.correspondence.cursors start start := ⟨rfl, hstart⟩
  have hsteps := h.steps_origin hcall hahead hstart (Correspondence.onward_refl hplace) state
  have hrelated := @hsteps (.origin start) (.origin start) ⟨rfl, hstart⟩
  refine Result.Related.eq hrelated (fun _ _ hf => hf) id (fun _ _ he => he) ?_
  intro a a' ha
  obtain ⟨hvalue, hbehind, -⟩ := ha
  exact Prod.ext hvalue (Ahead.ext hbehind)

end Body.Speculates

/-! ## Grammars -/

/-- A sequence or a loop in the place of another one, with such bodies. -/
inductive Grammar.Speculates (ahead : Grammar ρ → Prop) : Grammar ρ → Grammar ρ → Prop where
  | sequence {body body'} (h : Body.Speculates ahead (fun _ => False) body body') :
    Speculates ahead (.sequence body) (.sequence body')
  | forEach {body body' : Value → Body ρ} (condition)
    (h : ∀ value, Body.Speculates ahead (fun _ => False) (body value) (body' value)) :
    Speculates ahead (.forEach condition body) (.forEach condition body')

section

variable {ahead : Grammar ρ → Prop}
  (hcall : ∀ name, SameRuns.reachable.correspondence.Parsers (call name) (call' name))
  (hahead : ∀ g, ahead g → (g.parserWith call).StopsAhead)

include hcall hahead

theorem Grammar.Speculates.parsers {g g' : Grammar ρ} (h : Grammar.Speculates ahead g g') :
    SameRuns.reachable.correspondence.Parsers (g.parserWith call) (g'.parserWith call') := by
  cases h with
  | sequence h =>
    refine .sequence fun {start start'} hstart => ?_
    obtain ⟨rfl, hreachable⟩ := hstart
    have hplace : SameRuns.reachable.correspondence.cursors start' start' := ⟨rfl, hreachable⟩
    have honward := Correspondence.onward_refl hplace
    have hsteps := h.steps_origin hcall hahead hreachable honward .initial
    refine hsteps.bind fun a b hab => ?_
    rw [hab]
    exact .pure rfl
  | forEach condition h =>
    have hcondition := parsers_reachable hcall condition
    refine (hcondition.forEach fun {c c' a a' inside inside'} hc hentered state => ?_).map _
    obtain ⟨rfl, hreachable⟩ := hc
    have honward := hentered.onward
    obtain ⟨rfl, -⟩ := honward.cursors
    have hsteps := (h a.value).steps_origin hcall hahead hreachable honward state
    refine hsteps.bind fun b d hbd => ?_
    rw [hbd]
    exact .pure rfl

end

/-- Grammars that differ in such bodies only. -/
def Scheme.speculating (ahead : Grammar ρ → Prop) : Scheme ρ :=
  { everything with given := Grammar.Speculates ahead }

/-- Such grammars go in step when the parsers that the first bodies look ahead with stop
ahead. -/
theorem Scheme.inStep_speculating {ahead : Grammar ρ → Prop} {call call' : ρ → Parser Value}
    (hstops : ∀ g, ahead g → (g.parserWith call).StopsAhead)
    (hcall : ∀ name, SameRuns.reachable.correspondence.Parsers (call name) (call' name)) :
    (speculating ahead).InStep SameRuns.reachable.correspondence call call' := by
  refine SameRuns.reachable.inStep_self (fun he => he) ?_ (fun _ => hcall)
    (fun h => h.parsers hcall hstops) (fun h => h) (fun _ => trivial) (fun _ _ => trivial)
    (fun he => he) fun _ _ => rfl
  intro p p' hp
  rw [hp]
  exact SameRuns.reachable.parsers_self fun _ _ _ => trivial

theorem Grammar.resultAt_of_speculating {definitions definitions' : ρ → Grammar ρ}
    {ahead : Grammar ρ → Prop}
    (hahead : ∀ g, ahead g → ∀ depth, (g.parser definitions depth).StopsAhead)
    (hdefinitions : ∀ name,
      (Scheme.speculating ahead).Pairs (definitions name) (definitions' name))
    {g g' : Grammar ρ} (hg : (Scheme.speculating ahead).Pairs g g') (depth : Nat) {c : Cursor}
    (hc : c.Reachable) : g'.resultAt definitions' depth c = g.resultAt definitions depth c := by
  -- What stops ahead is known to each depth, so the depth goes with the references.
  have hparsers := Scheme.parsers_of_pairs_at trivial (fun depth _ _ hparser hcall =>
    Scheme.inStep_speculating (fun g hg => hparser g ▸ hahead g hg depth) hcall) hdefinitions
  have hrelated := hparsers depth hg ⟨rfl, hc⟩
  exact Result.Related.eq hrelated (fun _ _ hf => hf) id (fun _ _ he => he)
    fun _ _ hreport => SameRuns.reachable.eq_of_reports hreport

end

/-- To discard a failure by hand is to run the option, and to go back by hand to where one
was is to look ahead, with a parser that stops ahead, as honest ones do. A parser that fails
leaves no trace of where it was tried. So in all bodies, and in grammars and their
definitions with such bodies, one may stand for the other, if no body goes back to a place
that only one of the two has kept. -/
theorem speculating_agrees :
    (∀ {α : Type} (p : Parser α) {start : Cursor} (here : Ahead start), here.cursor.Reachable →
      ((Steps.discarded p).run here).result = ((Steps.parse p.optional).run here).result ∧
      (p.StopsAhead → ((Steps.recalled p).run here).result = (do
        let (option, behind) ← ((Steps.parse p.lookahead).run here).result
        return ((option, here), behind))) ∧
      ∀ error, (p.parse here.cursor).result = .fail error →
        ((Steps.discarded p).run here).result = .ok (none, here) ∧
        ((Steps.recalled p).run here).result = .ok ((none, here), here)) ∧
    (∀ {ρ : Type} (call : ρ → Parser Value) {body body' : Body ρ},
      Body.Speculates (fun g => (g.parserWith call).StopsAhead) (fun _ => False) body body' →
      ∀ start : Cursor, start.Reachable → ∀ state,
        ((Grammar.stepsWith call body' start (.origin start) state).run (.origin start)).result =
          ((Grammar.stepsWith call body start (.origin start) state).run
            (.origin start)).result) ∧
    ∀ {ρ : Type} {definitions definitions' : ρ → Grammar ρ} {g g' : Grammar ρ},
      let alike := (Scheme.speculating fun g =>
        ∀ depth, (g.parser definitions depth).StopsAhead).Pairs
      (∀ name, alike (definitions name) (definitions' name)) → alike g g' →
      ∀ depth c, c.Reachable →
        g'.resultAt definitions' depth c = g.resultAt definitions depth c := by
  refine ⟨fun p start here hhere => ?_, fun call body body' h start hstart state => ?_, ?_⟩
  · exact ⟨Steps.result_discarded_eq_optional p hhere.sound,
      fun hp => Steps.result_recalled_eq_lookahead hp hhere, fun _ h => Steps.result_of_fail h⟩
  · have hcall : ∀ name, SameRuns.reachable.correspondence.Parsers (call name) (call name) :=
      fun _ => SameRuns.reachable.parsers_self fun _ _ _ => trivial
    exact h.result_eq hcall (fun _ hg => hg) hstart state
  · intro ρ definitions definitions' g g' alike hdefinitions hg depth c hc
    exact Grammar.resultAt_of_speculating (fun _ hg => hg) hdefinitions hg depth hc

/-- An option and a lookahead in a row, once by parsers and once by hand. The option is
missing, which the parsers behind it do not notice. -/
theorem speculating_agrees_letters :
    let c : Cursor := .atOffset ['é', 'b', 'a'] 1
    let word : Parser String := Parser.literal "ab"
    let call : Unit → Parser Value := fun _ => ⟨fun _ => .exhausted⟩
    let third (first second : Value) : Body Unit :=
      .parse .anyChar fun value => .done (.list [first, second, value])
    let second (first : Value) : Body Unit :=
      .save 1 (.tryParse .anyChar fun attempted =>
        .restore 1 (third first (.ofOption attempted.toOption)))
    let body : Body Unit :=
      .parse (.optional (.literal "ab")) fun first => .parse (.lookahead .anyChar) (third first)
    let body' : Body Unit :=
      .tryParse (.literal "ab") fun attempted => second (.ofOption attempted.toOption)
    ((Steps.parse word.optional).run (.origin c)).result = .ok (none, .origin c) ∧
      ((Steps.recalled word).run (.origin c)).result = (do
        let (option, behind) ← ((Steps.parse word.lookahead).run (.origin c)).result
        return ((option, .origin c), behind)) ∧
      ((Grammar.stepsWith call body' c (.origin c) .initial).run (.origin c)).result =
        ((Grammar.stepsWith call body c (.origin c) .initial).run (.origin c)).result ∧
      (Grammar.ref ()).resultAt (fun _ => .sequence body') 1 c =
        .ok ⟨⟨1, 2⟩, .list [.none, .some (.char 'b'), .char 'b']⟩ := by
  intro c word call third second body body'
  have hc : c.Reachable := Cursor.reachable_atOffset (by decide) (by decide)
  have hword : word.StopsAhead := (Parser.literal_honest "ab").stopsAhead
  have hfail : (word.parse c).result = .fail ⟨1, "Expected: 'ab'"⟩ := by decide +kernel
  have hadmits : ∀ _ : Unit, Scheme.honest.Admits (.sequence body) := fun _ =>
    .sequence fun _ _ => .parse (.optional (.literal _)) fun _ _ =>
      .parse (.lookahead .anyChar) fun _ _ => .parse .anyChar fun _ _ => .done _
  have hany (depth : Nat) : (Grammar.anyChar.parser (fun _ => .sequence body) depth).StopsAhead :=
    (Grammar.honest_of_admits .anyChar hadmits depth).stopsAhead
  have hbodies {ahead : Grammar Unit → Prop} (hahead : ahead .anyChar) :
      Body.Speculates ahead (fun _ => False) body body' :=
    @Body.Speculates.discarded _ _ _ _ _ second fun _ =>
      @Body.Speculates.recalled _ _ _ _ _ (third _) 1 hahead fun _ => .parse fun _ => .done _
  have hresult : (Grammar.ref ()).resultAt (fun _ => .sequence body) 1 c =
      .ok ⟨⟨1, 2⟩, .list [.none, .some (.char 'b'), .char 'b']⟩ := by decide +kernel
  obtain ⟨hsteps, hruns, hgrammars⟩ := speculating_agrees
  obtain ⟨hdiscarded, hrecalled, htrace⟩ := hsteps word (.origin c) hc
  obtain ⟨hnone, -⟩ := htrace _ hfail
  refine ⟨hdiscarded ▸ hnone, hrecalled hword, hruns call (hbodies (hany 0)) c hc .initial, ?_⟩
  rw [← hresult]
  exact hgrammars (fun _ => .given (.sequence (hbodies hany))) (.ref trivial ()) 1 c hc

end Parsing
