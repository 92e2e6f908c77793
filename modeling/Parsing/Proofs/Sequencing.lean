import Parsing.Proofs.Bounds
import Parsing.Proofs.Moves
import Parsing.Proofs.Success

/-!
# Ways to sequence

Parsers are run one behind the other in three ways: by the steps of a sequence, by
pairs, which can be nested in each other like brackets, and by a chain of binds at
whose end the values are collected.

> `ways_to_sequence_agree`: honest parsers that are run one behind the other come
> to the same in all three ways, but for the nesting of the values and for where
> the range begins.

What they come to is said by `Row.run`, which knows nothing but the parsers and
where each of them stopped. A sequence and a chain of binds are equal to it in all
that they do (`Row.parse_sequence`, `Row.parse_chain`), even with parsers that are
not honest. A pair moves on from where its own first part began, wherever that is
among the brackets, so it needs the moves to be independent of the way, which they
are from where a program can be and to where an honest parser stops.
-/

namespace Parsing

variable {ρ : Type}

/-! ## Steps -/

/-- A move of the steps, for what follows from the cursor only. -/
theorem Ahead.ofChecked_goto_bind {α : Type} {start : Cursor} (here : Ahead start) (idx : Nat)
    (next : Cursor → Outcome α) :
    (Outcome.ofChecked (here.goto idx) >>= fun behind => next behind.cursor) =
      Outcome.ofChecked (here.cursor.goto idx) >>= next := by
  rw [← here.map_cursor_goto idx]
  cases here.goto idx with
  | ok behind => simp [Except.map]
  | error cause => rfl

/-- One step, opened. -/
theorem Steps.run_parse {α : Type} {start : Cursor} (p : Parser α) (here : Ahead start) :
    (Steps.parse p).run here = (do
      let parsed ← p.parse here.cursor
      let behind ← Outcome.ofChecked (here.goto parsed.range.stop)
      return (parsed.value, behind)) := by
  have hranged : (Steps.parseRanged p).run here = (do
      let parsed ← p.parse here.cursor
      let behind ← Outcome.ofChecked (here.goto parsed.range.stop)
      return (parsed, behind)) := rfl
  rw [Steps.parse, StateT.run_bind, hranged]
  simp only [bind_assoc, pure_bind, StateT.run_pure]

/-! ## Rows -/

/-- Grammars in a row. Each one may be made from the values of those before it. -/
inductive Row (ρ : Type) where
  | done
  | step (g : Grammar ρ) (next : Value → Row ρ)

namespace Row

/-- A row that is the same for all values. -/
def ofList : List (Grammar ρ) → Row ρ
  | [] => .done
  | g :: gs => .step g fun _ => ofList gs

/-- A row with something true of every grammar in it. -/
def All (holds : Grammar ρ → Prop) : Row ρ → Prop
  | .done => True
  | .step g next => holds g ∧ ∀ value, (next value).All holds

/-- The body that runs a row and comes to its values, behind the ones before them. -/
def body : Row ρ → (before : List Value) → Body ρ
  | .done, before => .done (.list before)
  | .step g next, before => .parse g fun value => (next value).body (before ++ [value])

/-- The binds that run a row and come to its values, behind the ones before them. -/
def binds : Row ρ → (before : List Value) → Grammar ρ
  | .done, before => .pure (.list before)
  | .step g next, before => .bind g fun value => (next value).binds (before ++ [value])

/-- A row, run by a sequence. -/
def sequence (row : Row ρ) : Grammar ρ := .sequence (row.body [])

/-- A row, run by a chain of binds. -/
def chain (row : Row ρ) : Grammar ρ := row.binds []

/-- Run the parsers of a row, each from where the one before it stopped: their
values, and where the last one stopped. -/
def run (parserOf : Grammar ρ → Parser Value) : Row ρ → Cursor → Outcome (List Value × Cursor)
  | .done, c => return ([], c)
  | .step g next, c => do
    let parsed ← (parserOf g).parse c
    let behind ← .ofChecked (c.goto parsed.range.stop)
    let (values, last) ← (next parsed.value).run parserOf behind
    return (parsed.value :: values, last)

section

variable {holds holds' : Grammar ρ → Prop} {parserOf : Grammar ρ → Parser Value}

theorem All.imp (himp : ∀ g, holds g → holds' g) {row : Row ρ} (h : row.All holds) :
    row.All holds' := by
  induction row with
  | done => trivial
  | step g next ih =>
    obtain ⟨hg, hnext⟩ := h
    exact ⟨himp g hg, fun value => ih value (hnext value)⟩

theorem all_ofList {gs : List (Grammar ρ)} (h : ∀ g ∈ gs, holds g) : (ofList gs).All holds := by
  induction gs with
  | nil => trivial
  | cons g gs ih =>
    exact ⟨h g List.mem_cons_self, fun _ => ih fun g hg => h g (List.mem_cons_of_mem _ hg)⟩

/-- A run goes forward, whatever the parsers report. -/
theorem leadsTo_of_run {row : Row ρ} {c last : Cursor} {values : List Value}
    (h : (row.run parserOf c).result = .ok (values, last)) : c.LeadsTo last := by
  induction row generalizing c values with
  | done =>
    cases Result.ok.inj h
    exact .refl _
  | step g next ih =>
    obtain ⟨parsed, -, hmove⟩ := Outcome.bind_eq_ok h
    obtain ⟨behind, hgo, hmore⟩ := Outcome.ofChecked_bind_eq_ok hmove
    obtain ⟨⟨more, _⟩, hrun, hend⟩ := Outcome.bind_eq_ok hmore
    cases Result.ok.inj hend
    exact (Cursor.leadsTo_of_goto hgo).trans (ih _ hrun)

/-- A row in two parts is run part by part. -/
theorem run_append (gs hs : List (Grammar ρ)) (c : Cursor) :
    (ofList (gs ++ hs)).run parserOf c = (do
      let (values, between) ← (ofList gs).run parserOf c
      let (more, last) ← (ofList hs).run parserOf between
      return (values ++ more, last)) := by
  induction gs generalizing c with
  | nil => simp [ofList, run]
  | cons g gs ih => simp [ofList, run, ih]

end

/-! ## A sequence and a chain of binds -/

section

variable (call : ρ → Parser Value)

/-- The steps of a body are those of the run. -/
theorem stepsWith_body (row : Row ρ) (before : List Value) {start : Cursor} (kept : Places start)
    (state : LoopState Value) (here : Ahead start) :
    (do
      let ((value, _), behind) ← (Grammar.stepsWith call (row.body before) start kept state).run here
      return (value, behind.cursor)) = (do
      let (values, last) ← row.run (Grammar.parserWith call) here.cursor
      return (Value.list (before ++ values), last)) := by
  induction row generalizing before here with
  | done => simp [body, run, Grammar.stepsWith]
  | step g next ih =>
    -- Both parse and move first, and what follows is the same for one value and cursor.
    simp only [body, run, Grammar.stepsWith, StateT.run_bind, Steps.run_parse, bind_assoc,
      pure_bind]
    congr 1
    funext parsed
    rw [← Ahead.ofChecked_goto_bind]
    congr 1
    funext behind
    rw [ih]
    simp

/-- The binds of a chain run the row. -/
theorem parse_binds (row : Row ρ) (before : List Value) (c : Cursor) :
    ((row.binds before).parserWith call).parse c = (do
      let (values, last) ← row.run (Grammar.parserWith call) c
      return .empty last.idx (.list (before ++ values))) := by
  induction row generalizing before c with
  | done => simp [binds, run, Grammar.parserWith, Parser.pure]
  | step g next ih => simp [binds, run, Grammar.parserWith, Parser.bind, ih]

theorem parse_sequence (row : Row ρ) (c : Cursor) :
    (row.sequence.parserWith call).parse c = (do
      let (values, last) ← row.run (Grammar.parserWith call) c
      .ofChecked (Parsed.new c.idx last.idx (.list values))) := by
  have hsteps := stepsWith_body call row [] (.origin c) .initial (.origin c)
  have hend := congrArg (· >>= fun (value, last) =>
    Outcome.ofChecked (Parsed.new c.idx last.idx value)) hsteps
  simpa [sequence, Grammar.parserWith, Parser.sequence] using hend

theorem parse_chain (row : Row ρ) (c : Cursor) :
    (row.chain.parserWith call).parse c = (do
      let (values, last) ← row.run (Grammar.parserWith call) c
      return .empty last.idx (.list values)) :=
  parse_binds call row [] c

end

/-! ## To a depth -/

section

variable (definitions : ρ → Grammar ρ) (depth : Nat) (row : Row ρ) (c : Cursor)

/-- What a run comes to, with references followed to a depth. -/
def runAt : Result (List Value × Cursor) :=
  (row.run (fun g => g.parser definitions depth) c).result

theorem exists_runAt : ∃ call : ρ → Parser Value,
    (∀ g : Grammar ρ, g.parser definitions depth = g.parserWith call) ∧
    ∀ (row : Row ρ) (c : Cursor),
      row.runAt definitions depth c = (row.run (Grammar.parserWith call) c).result := by
  obtain ⟨call, hcall⟩ := Grammar.exists_parserWith definitions depth
  refine ⟨call, hcall, fun row c => ?_⟩
  rw [runAt, funext hcall]

/-- A sequence reports from where it began to where the run ended. -/
theorem resultAt_sequence : row.sequence.resultAt definitions depth c = (do
    let (values, last) ← row.runAt definitions depth c
    return ⟨⟨c.idx, last.idx⟩, .list values⟩) := by
  obtain ⟨call, hcall, hrunAt⟩ := exists_runAt definitions depth
  rw [Grammar.resultAt, hcall, parse_sequence, Outcome.result_bind, hrunAt]
  cases hrun : (row.run (Grammar.parserWith call) c).result with
  | ok out =>
    have hle : c.idx ≤ out.2.idx := (leadsTo_of_run hrun).idx_le
    simp [Parsed.new_of_le hle]
  | fail error => rfl
  | fault cause => rfl
  | exhausted => rfl

/-- A chain of binds reports the place where the run ended. -/
theorem resultAt_chain : row.chain.resultAt definitions depth c = (do
    let (values, last) ← row.runAt definitions depth c
    return ⟨⟨last.idx, last.idx⟩, .list values⟩) := by
  obtain ⟨call, hcall, hrunAt⟩ := exists_runAt definitions depth
  rw [Grammar.resultAt, hcall, parse_chain, Outcome.result_bind, hrunAt]
  rfl

end

end Row

/-! ## Honest parsers in a row -/

/-- A fault comes from the first part or from what follows it. -/
theorem Outcome.bind_eq_fault {α β : Type} {x : Outcome α} {next : α → Outcome β} {cause : Fault}
    (h : (x >>= next).result = .fault cause) :
    x.result = .fault cause ∨ ∃ a, x.result = .ok a ∧ (next a).result = .fault cause := by
  rw [result_bind] at h
  cases hx : x.result with
  | ok a =>
    rw [hx] at h
    exact .inr ⟨a, rfl, h⟩
  | fail error => rw [hx] at h; cases h
  | fault cause' =>
    rw [hx] at h
    cases h
    exact .inl rfl
  | exhausted => rw [hx] at h; cases h

/-- A cursor can move to where an honest parser stopped. -/
theorem Parser.Honest.exists_goto {α : Type} {p : Parser α} (hp : p.Honest) {c : Cursor}
    (hc : c.Reachable) {parsed : Parsed α} (h : (p.parse c).result = .ok parsed) :
    ∃ behind, c.goto parsed.range.stop = .ok behind ∧ behind.Reachable := by
  obtain ⟨hlo, hle, hhi⟩ := hp.in_bounds c hc parsed h
  have hgo := hc.sound.goto_eq (Nat.le_trans hlo hle) hhi
  exact ⟨_, hgo, .goto hc hgo⟩

theorem Row.run_ne_fault {parserOf : Grammar ρ → Parser Value} {row : Row ρ}
    (hrow : row.All fun g => (parserOf g).Honest) {c : Cursor} (hc : c.Reachable) (cause : Fault) :
    (row.run parserOf c).result ≠ .fault cause := by
  induction row generalizing c with
  | done => exact nofun
  | step g next ih =>
    obtain ⟨hg, hnext⟩ := hrow
    intro h
    rcases Outcome.bind_eq_fault h with hparse | ⟨parsed, hparse, hmove⟩
    · exact hg.ne_fault c hc cause hparse
    · obtain ⟨behind, hgo, hbehind⟩ := hg.exists_goto hc hparse
      rw [hgo, Outcome.ofChecked_ok, pure_bind] at hmove
      rcases Outcome.bind_eq_fault hmove with hmore | ⟨out, -, hend⟩
      · exact ih parsed.value (hnext parsed.value) hbehind hmore
      · cases hend

/-! ## Brackets -/

/-- A nesting of pairs with grammars in it. -/
inductive Bracketing (ρ : Type) where
  | one (g : Grammar ρ)
  | pair (left right : Bracketing ρ)

namespace Bracketing

/-- The grammars in their order. -/
def grammars : Bracketing ρ → List (Grammar ρ)
  | .one g => [g]
  | .pair left right => left.grammars ++ right.grammars

/-- The grammar of the pairs. -/
def grammar : Bracketing ρ → Grammar ρ
  | .one g => g
  | .pair left right => .both left.grammar right.grammar

/-- The first of the grammars. -/
def first : Bracketing ρ → Grammar ρ
  | .one g => g
  | .pair left _ => left.first

/-- The values of the grammars, nested like these. -/
def nest : Bracketing ρ → List Value → Value
  | .one _, values => values.headD .unit
  | .pair left right, values =>
    .pair (left.nest (values.take left.grammars.length))
      (right.nest (values.drop left.grammars.length))

theorem head?_grammars (t : Bracketing ρ) : t.grammars.head? = some t.first := by
  induction t with
  | one g => rfl
  | pair left right ihl _ =>
    rw [grammars, List.head?_append, ihl]
    rfl

theorem first_eq {t : Bracketing ρ} {g : Grammar ρ} {gs : List (Grammar ρ)}
    (h : t.grammars = g :: gs) : t.first = g := by
  have hhead := t.head?_grammars
  rw [h] at hhead
  exact (Option.some.inj hhead).symm

/-- The report of a bracketing beside what its row comes to. -/
structure Reports (call : ρ → Parser Value) (t : Bracketing ρ) (c : Cursor) (parsed : Parsed Value)
    (values : List Value) (last : Cursor) : Prop where
  length_eq : values.length = t.grammars.length
  value_eq : parsed.value = t.nest values
  goto_stop : c.goto parsed.range.stop = .ok last
  start_eq : ∃ a, ((t.first.parserWith call).parse c).result = .ok a ∧
    parsed.range.start = a.range.start
  idx_le : c.idx ≤ parsed.range.start
  start_le : parsed.range.start ≤ parsed.range.stop

variable {call : ρ → Parser Value} {left right : Bracketing ρ} {c between last : Cursor}
  {a b : Parsed Value} {values more : List Value}

theorem Reports.start_le_stop (hleft : left.Reports call c a values between)
    (hright : right.Reports call between b more last) : a.range.start ≤ b.range.stop := by
  obtain ⟨-, -, hidx, -, -⟩ := Cursor.goto_eq_ok hleft.goto_stop
  have hle := hleft.start_le
  have hidx_le := hright.idx_le
  have hle' := hright.start_le
  omega

theorem Reports.pair (hc : c.Reachable) (hleft : left.Reports call c a values between)
    (hright : right.Reports call between b more last) :
    (left.pair right).Reports call c ⟨⟨a.range.start, b.range.stop⟩, .pair a.value b.value⟩
      (values ++ more) last where
  length_eq := by
    rw [grammars, List.length_append, List.length_append, hleft.length_eq, hright.length_eq]
  value_eq := by
    rw [nest, ← hleft.length_eq, List.take_left, List.drop_left, ← hleft.value_eq,
      ← hright.value_eq]
  goto_stop := by
    -- The pair moves there at once, the row by way of where the left part stopped.
    obtain ⟨-, -, hidx, hlo, -⟩ := Cursor.goto_eq_ok hleft.goto_stop
    obtain ⟨-, -, -, hbetween, hhi⟩ := Cursor.goto_eq_ok hright.goto_stop
    have hlen := (Cursor.leadsTo_of_goto hleft.goto_stop).len_eq
    rw [← hc.sound.goto_goto hlo (hidx ▸ hbetween) (hlen ▸ hhi), hleft.goto_stop]
    exact hright.goto_stop
  start_eq := hleft.start_eq
  idx_le := hleft.idx_le
  start_le := by
    have hle := hleft.start_le_stop hright
    exact hle

/-- Pairs of honest parsers come to what the row comes to, whatever the brackets. -/
theorem related_run (t : Bracketing ρ) (ht : ∀ g ∈ t.grammars, (g.parserWith call).Honest)
    {c : Cursor} (hc : c.Reachable) :
    ((t.grammar.parserWith call).parse c).Related .faultless (fun e d => d = e)
      (fun parsed out => t.Reports call c parsed out.1 out.2)
      ((Row.ofList t.grammars).run (Grammar.parserWith call) c) := by
  induction t generalizing c with
  | one g =>
    have hg : (g.parserWith call).Honest := ht g List.mem_cons_self
    unfold Outcome.Related
    -- Only the row moves to where the parser stopped; with an honest report it can.
    simp only [grammars, grammar, Row.ofList, Row.run, Outcome.result_bind]
    cases hparse : ((g.parserWith call).parse c).result with
    | ok parsed =>
      obtain ⟨behind, hgo, -⟩ := hg.exists_goto hc hparse
      obtain ⟨hlo, hle, -⟩ := hg.in_bounds c hc parsed hparse
      rw [Result.ok_bind, hgo]
      exact .ok ⟨rfl, rfl, hgo, ⟨parsed, hparse, rfl⟩, hlo, hle⟩
    | fail error => exact .fail rfl
    | fault cause => exact absurd hparse (hg.ne_fault c hc cause)
    | exhausted => exact .exhausted trivial
  | pair left right ihl ihr =>
    have hleft := ihl (fun g hg => ht g (List.mem_append_left _ hg)) hc
    rw [grammars, Row.run_append]
    simp only [grammar, Grammar.parserWith, Parser.map, Parser.both, bind_assoc]
    refine hleft.bind fun a out hreports => ?_
    obtain ⟨values, between⟩ := out
    have hbetween : between.Reachable := .goto hc hreports.goto_stop
    rw [hreports.goto_stop, Outcome.ofChecked_ok, pure_bind]
    refine (ihr (fun g hg => ht g (List.mem_append_right _ hg)) hbetween).bind
      fun b out hreports' => ?_
    obtain ⟨more, last⟩ := out
    rw [Range.merge, Range.new_of_le (hreports.start_le_stop hreports'), Outcome.ofChecked_ok,
      pure_bind, pure_bind]
    exact Outcome.related_pure (hreports.pair hc hreports')

theorem exists_grammars (g : Grammar ρ) (gs : List (Grammar ρ)) :
    ∃ t : Bracketing ρ, t.grammars = g :: gs := by
  induction gs generalizing g with
  | nil => exact ⟨.one g, rfl⟩
  | cons g' gs ih =>
    obtain ⟨t, ht⟩ := ih g'
    exact ⟨.pair (.one g) t, congrArg (g :: ·) ht⟩

section

variable {definitions : ρ → Grammar ρ} {t : Bracketing ρ}
  (ht : ∀ g ∈ t.grammars, g.Honest definitions) (hc : c.Reachable) {depth : Nat}

include ht hc

theorem related_runAt (depth : Nat) : ∃ call : ρ → Parser Value,
    (∀ g : Grammar ρ, g.parser definitions depth = g.parserWith call) ∧
    (t.grammar.resultAt definitions depth c).Related .faultless (fun e d => d = e)
      (fun parsed out => t.Reports call c parsed out.1 out.2)
      ((Row.ofList t.grammars).runAt definitions depth c) := by
  obtain ⟨call, hcall, hrunAt⟩ := Row.exists_runAt definitions depth
  refine ⟨call, hcall, ?_⟩
  rw [Grammar.resultAt, hcall, hrunAt]
  exact t.related_run (fun g hg => hcall g ▸ ht g hg depth) hc

theorem resultAt_ok
    (hrun : (Row.ofList t.grammars).runAt definitions depth c = .ok (values, last)) :
    values.length = t.grammars.length ∧ ∃ a, t.first.resultAt definitions depth c = .ok a ∧
      t.grammar.resultAt definitions depth c =
        .ok ⟨⟨a.range.start, last.idx⟩, t.nest values⟩ := by
  obtain ⟨call, hcall, hrelated⟩ := related_runAt ht hc depth
  rw [hrun] at hrelated
  obtain ⟨⟨range, value⟩, hresult, hreports⟩ := hrelated.ok_right
  obtain ⟨a, ha, hstart⟩ := hreports.start_eq
  obtain ⟨-, -, hstop, -, -⟩ := Cursor.goto_eq_ok hreports.goto_stop
  have hvalue : value = t.nest values := hreports.value_eq
  refine ⟨hreports.length_eq, a, ?_, ?_⟩
  · rw [Grammar.resultAt, hcall, ha]
  · rw [hresult, hstop, ← hstart, hvalue]

theorem resultAt_fail {error : ParseError}
    (hrun : (Row.ofList t.grammars).runAt definitions depth c = .fail error) :
    t.grammar.resultAt definitions depth c = .fail error := by
  obtain ⟨call, -, hrelated⟩ := related_runAt ht hc depth
  rw [hrun] at hrelated
  obtain ⟨e, hresult, herror⟩ := hrelated.fail_right
  rw [hresult, herror]

theorem resultAt_exhausted
    (hrun : (Row.ofList t.grammars).runAt definitions depth c = .exhausted) :
    t.grammar.resultAt definitions depth c = .exhausted := by
  obtain ⟨call, -, hrelated⟩ := related_runAt ht hc depth
  rw [hrun] at hrelated
  exact hrelated.exhausted_right

end

end Bracketing

/-! ## The ways agree -/

namespace Row

variable {definitions : ρ → Grammar ρ} {row : Row ρ} {c : Cursor}

/-- A run of honest parsers comes to something at some depth, or to nothing at any. -/
theorem settled (hrow : row.All (Grammar.Honest definitions)) (hc : c.Reachable) :
    (∃ depth values last, row.runAt definitions depth c = .ok (values, last)) ∨
    (∃ depth error, row.runAt definitions depth c = .fail error) ∨
    ∀ depth, row.runAt definitions depth c = .exhausted := by
  by_cases h : ∃ depth, row.runAt definitions depth c ≠ .exhausted
  · obtain ⟨depth, hsettled⟩ := h
    cases hrun : row.runAt definitions depth c with
    | ok out => exact .inl ⟨depth, out.1, out.2, hrun⟩
    | fail error => exact .inr (.inl ⟨depth, error, hrun⟩)
    | fault cause => exact absurd hrun (run_ne_fault (hrow.imp fun g hg => hg depth) hc cause)
    | exhausted => exact absurd hrun hsettled
  · exact .inr (.inr fun depth => Classical.byContradiction fun hsettled => h ⟨depth, hsettled⟩)

variable {depth : Nat}

theorem answers_ok {values : List Value} {last : Cursor}
    (hrun : row.runAt definitions depth c = .ok (values, last)) :
    row.sequence.Answers definitions c (.ok ⟨⟨c.idx, last.idx⟩, .list values⟩) ∧
    row.chain.Answers definitions c (.ok ⟨⟨last.idx, last.idx⟩, .list values⟩) := by
  refine ⟨⟨nofun, depth, ?_⟩, nofun, depth, ?_⟩
  · rw [resultAt_sequence, hrun]
    rfl
  · rw [resultAt_chain, hrun]
    rfl

theorem answers_fail {error : ParseError} (hrun : row.runAt definitions depth c = .fail error) :
    row.sequence.Answers definitions c (.fail error) ∧
    row.chain.Answers definitions c (.fail error) := by
  refine ⟨⟨nofun, depth, ?_⟩, nofun, depth, ?_⟩
  · rw [resultAt_sequence, hrun]
    rfl
  · rw [resultAt_chain, hrun]
    rfl

theorem not_terminates (hrun : ∀ depth, row.runAt definitions depth c = .exhausted) :
    ¬ row.sequence.Terminates definitions c ∧ ¬ row.chain.Terminates definitions c := by
  refine ⟨Grammar.not_terminates fun depth => ?_, Grammar.not_terminates fun depth => ?_⟩
  · rw [resultAt_sequence, hrun]
    rfl
  · rw [resultAt_chain, hrun]
    rfl

end Row

namespace Grammar

/-- Honest parsers, run one behind the other by a sequence, by pairs in any brackets
or by a chain of binds, come to the same values and the same place, or to the same
error, or to nothing. A sequence reports from the cursor, pairs from where the first
parser reports, and a chain the place alone. Sequences and chains agree as well
if the parsers are made from the values before them. -/
theorem ways_to_sequence_agree (definitions : ρ → Grammar ρ) :
    (∀ (g : Grammar ρ) (gs : List (Grammar ρ)), (∀ p ∈ g :: gs, p.Honest definitions) →
      ∀ c : Cursor, c.Reachable →
        (∃ a values stop, g.Answers definitions c (.ok a) ∧
          values.length = (g :: gs).length ∧
          (Row.ofList (g :: gs)).sequence.Answers definitions c
            (.ok ⟨⟨c.idx, stop⟩, .list values⟩) ∧
          (Row.ofList (g :: gs)).chain.Answers definitions c
            (.ok ⟨⟨stop, stop⟩, .list values⟩) ∧
          ∀ t : Bracketing ρ, t.grammars = g :: gs →
            t.grammar.Answers definitions c (.ok ⟨⟨a.range.start, stop⟩, t.nest values⟩)) ∨
        (∃ error, (Row.ofList (g :: gs)).sequence.Answers definitions c (.fail error) ∧
          (Row.ofList (g :: gs)).chain.Answers definitions c (.fail error) ∧
          ∀ t : Bracketing ρ, t.grammars = g :: gs →
            t.grammar.Answers definitions c (.fail error)) ∨
        (¬ (Row.ofList (g :: gs)).sequence.Terminates definitions c ∧
          ¬ (Row.ofList (g :: gs)).chain.Terminates definitions c ∧
          ∀ t : Bracketing ρ, t.grammars = g :: gs → ¬ t.grammar.Terminates definitions c)) ∧
    (∀ row : Row ρ, row.All (Honest definitions) → ∀ c : Cursor, c.Reachable →
      (∃ values stop, row.sequence.Answers definitions c (.ok ⟨⟨c.idx, stop⟩, .list values⟩) ∧
        row.chain.Answers definitions c (.ok ⟨⟨stop, stop⟩, .list values⟩)) ∨
      (∃ error, row.sequence.Answers definitions c (.fail error) ∧
        row.chain.Answers definitions c (.fail error)) ∨
      (¬ row.sequence.Terminates definitions c ∧ ¬ row.chain.Terminates definitions c)) := by
  constructor
  · intro g gs hgs c hc
    have hbrackets : ∀ t : Bracketing ρ, t.grammars = g :: gs →
        ∀ p ∈ t.grammars, p.Honest definitions := fun t ht p hp => hgs p (ht ▸ hp)
    rcases Row.settled (Row.all_ofList hgs) hc with
      ⟨depth, values, last, hrun⟩ | ⟨depth, error, hrun⟩ | hrun
    · obtain ⟨hsequence, hchain⟩ := Row.answers_ok hrun
      obtain ⟨t, ht⟩ := Bracketing.exists_grammars g gs
      obtain ⟨hlength, a, ha, -⟩ := t.resultAt_ok (hbrackets t ht) hc (ht.symm ▸ hrun)
      rw [Bracketing.first_eq ht] at ha
      refine .inl ⟨a, values, last.idx, ⟨nofun, depth, ha⟩, ht ▸ hlength, hsequence, hchain, ?_⟩
      intro t ht
      obtain ⟨-, a', ha', hresult⟩ := t.resultAt_ok (hbrackets t ht) hc (ht.symm ▸ hrun)
      rw [Bracketing.first_eq ht, ha] at ha'
      cases Result.ok.inj ha'
      exact ⟨nofun, depth, hresult⟩
    · refine .inr (.inl ⟨error, ?_⟩)
      obtain ⟨hsequence, hchain⟩ := Row.answers_fail hrun
      refine ⟨hsequence, hchain, fun t ht => ⟨nofun, depth, ?_⟩⟩
      exact t.resultAt_fail (hbrackets t ht) hc (ht.symm ▸ hrun)
    · obtain ⟨hsequence, hchain⟩ := Row.not_terminates hrun
      refine .inr (.inr ⟨hsequence, hchain, fun t ht => not_terminates fun depth => ?_⟩)
      exact t.resultAt_exhausted (hbrackets t ht) hc (ht.symm ▸ hrun depth)
  · intro row hrow c hc
    rcases Row.settled hrow hc with ⟨depth, values, last, hrun⟩ | ⟨depth, error, hrun⟩ | hrun
    · exact .inl ⟨values, last.idx, Row.answers_ok hrun⟩
    · exact .inr (.inl ⟨error, Row.answers_fail hrun⟩)
    · exact .inr (.inr (Row.not_terminates hrun))

/-- A parser that reports from further on, one that refers to itself and a character,
in both kinds of brackets; and a literal made from the character before it. -/
theorem ways_to_sequence_agree_pluses :
    let pluses : Unit → Grammar Unit := fun _ =>
      .orElse (.keepRight (.literal "+") (.ref ())) (.pure .unit)
    let twice : Grammar Unit := .bind .anyChar fun value => .literal value.text
    let row : List (Grammar Unit) := [twice, .ref (), .anyChar]
    let doubled : Row Unit := .step .anyChar fun value => .step (.literal value.text) fun _ => .done
    let c : Cursor := .atOffset ['é', 'a', 'a', '+', '+', '日'] 1
    (Row.ofList row).sequence.Answers pluses c
        (.ok ⟨⟨1, 6⟩, .list [.str "a", .unit, .char '日']⟩) ∧
      (Row.ofList row).chain.Answers pluses c
        (.ok ⟨⟨6, 6⟩, .list [.str "a", .unit, .char '日']⟩) ∧
      (Grammar.both (.both twice (.ref ())) .anyChar).Answers pluses c
        (.ok ⟨⟨2, 6⟩, .pair (.pair (.str "a") .unit) (.char '日')⟩) ∧
      (Grammar.both twice (.both (.ref ()) .anyChar)).Answers pluses c
        (.ok ⟨⟨2, 6⟩, .pair (.str "a") (.pair .unit (.char '日'))⟩) ∧
      doubled.chain.Answers pluses c (.ok ⟨⟨3, 3⟩, .list [.char 'a', .str "a"]⟩) := by
  intro pluses twice row doubled c
  have hpluses : ∀ name, Scheme.honest.Admits (pluses name) := fun _ =>
    .orElse (.keepRight (.literal _) (.ref trivial _)) (.pure _)
  have hrow : ∀ p ∈ row, p.Honest pluses := by
    intro p hp
    refine honest_of_admits ?_ hpluses
    simp only [row, List.mem_cons, List.not_mem_nil, or_false] at hp
    rcases hp with rfl | rfl | rfl
    · exact .bind .anyChar fun _ => .literal _
    · exact .ref trivial _
    · exact .anyChar
  have hdoubled : doubled.All (Honest pluses) :=
    ⟨honest_of_admits .anyChar hpluses,
      fun _ => ⟨honest_of_admits (.literal _) hpluses, fun _ => trivial⟩⟩
  have hc : c.Reachable := Cursor.reachable_atOffset (by decide) (by decide)
  have htwice : twice.Answers pluses c (.ok ⟨⟨2, 3⟩, .str "a"⟩) := ⟨nofun, 0, by decide⟩
  have hsequence : (Row.ofList row).sequence.Answers pluses c
      (.ok ⟨⟨1, 6⟩, .list [.str "a", .unit, .char '日']⟩) :=
    ⟨nofun, 3, by decide +kernel⟩
  have hdoubledSequence : doubled.sequence.Answers pluses c
      (.ok ⟨⟨1, 3⟩, .list [.char 'a', .str "a"]⟩) := ⟨nofun, 0, by decide +kernel⟩
  obtain ⟨hways, hdependent⟩ := ways_to_sequence_agree pluses
  have hchain : doubled.chain.Answers pluses c (.ok ⟨⟨3, 3⟩, .list [.char 'a', .str "a"]⟩) := by
    rcases hdependent doubled hdoubled c hc with
      ⟨values, stop, hsame, hchain⟩ | ⟨error, hfail, -⟩ | ⟨hnothing, -⟩
    · cases hdoubledSequence.unique hsame
      exact hchain
    · exact nomatch hdoubledSequence.unique hfail
    · exact absurd ⟨_, hdoubledSequence⟩ hnothing
  rcases hways twice [.ref (), .anyChar] hrow c hc with
    ⟨a, values, stop, ha, -, hsame, hchain', hbrackets⟩ | ⟨error, hfail, -⟩ | ⟨hnothing, -⟩
  · cases htwice.unique ha
    cases hsequence.unique hsame
    exact ⟨hsequence, hchain', hbrackets (.pair (.pair (.one twice) (.one _)) (.one _)) rfl,
      hbrackets (.pair (.one twice) (.pair (.one _) (.one _))) rfl, hchain⟩
  · exact nomatch hsequence.unique hfail
  · exact absurd ⟨_, hsequence⟩ hnothing

end Grammar

end Parsing
