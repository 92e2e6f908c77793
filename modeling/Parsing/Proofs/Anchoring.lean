import Parsing.Proofs.Bounds
import Parsing.Proofs.Success

/-!
# Where ranges begin

A parser is expected to report a range that begins where it began itself. A `bind`
does not: it reports what its second parser reports, from further on. Some of the
combinators pass such a report on, and some put it right:

> `start_eq_idx_off_bind`: a grammar with no bind and no parser from outside on its
> spine reports ranges that begin at the cursor.

The *spine* of a grammar is what decides on the start of its report: itself, the
part whose range it hands on or whose start it takes over, the spine of that part,
and so on, through definitions as well. Repetitions, bodies, loops and the
lookaheads that read nothing report for themselves, so nothing inside them is on
the spine; of a pair only the first part is.
-/

namespace Parsing

variable {ρ : Type}

namespace Parser

/-- A parser whose ranges begin at the cursor. -/
def Anchored {α : Type} (p : Parser α) : Prop :=
  ∀ (c : Cursor) parsed, (p.parse c).result = .ok parsed → parsed.range.start = c.idx

section

variable {α : Type}

theorem anchored_pure (value : α) : (pure value).Anchored := by
  intro c parsed h
  rw [← Result.ok.inj h]
  rfl

theorem anchored_fail (message : String) : (fail message : Parser α).Anchored :=
  fun _ _ h => nomatch h

theorem anchored_anyChar : anyChar.Anchored :=
  fun _ _ h => congrArg Range.start (range_of_anyChar h)

theorem anchored_satisfy (accepts : Char → Bool) (describe : Char → String) :
    (satisfy accepts describe).Anchored :=
  fun _ _ h => congrArg Range.start (range_of_satisfy h)

theorem anchored_endOfInput : endOfInput.Anchored := by
  intro c parsed h
  rw [endOfInput_eq_ok h]
  rfl

theorem anchored_moveTo (idx : Nat) : (moveTo idx).Anchored :=
  fun _ _ h => congrArg Range.start (range_of_moveTo h)

theorem anchored_literal (expected : String) : (literal expected).Anchored :=
  fun _ _ h => congrArg Range.start (range_of_literal h)

end

/-! ## Parsers that report for themselves -/

section

variable {α : Type} (p : Parser α)

theorem anchored_lookahead : p.lookahead.Anchored :=
  fun _ _ h => congrArg Range.start (range_of_lookahead h)

theorem anchored_fails : p.fails.Anchored :=
  fun _ _ h => congrArg Range.start (range_of_fails h)

theorem anchored_notFollowedBy : p.notFollowedBy.Anchored := by
  intro c parsed h
  rw [notFollowedBy_eq_ok h]
  rfl

theorem anchored_atLeast (min : Nat) : (p.atLeast min).Anchored := by
  intro c parsed h
  obtain ⟨last, -, -, hrange⟩ := atLeast_eq_ok h
  rw [hrange]

theorem anchored_many1 : p.many1.Anchored :=
  fun c parsed h => p.anchored_atLeast 0 c parsed (many1_eq_ok h)

theorem anchored_sequence (body : (start : Cursor) → Steps start α) : (sequence body).Anchored :=
  fun _ _ h => start_of_sequence h

theorem anchored_forEach {ι : Type}
    (body : α → LoopState ι → (start : Cursor) → Steps start (LoopState ι)) :
    (forEach p body).Anchored :=
  fun _ _ h => start_of_forEach h

end

/-! ## Parsers that hand a report on -/

namespace Anchored

variable {α β : Type} {p : Parser α} {q : Parser β}

theorem map (h : p.Anchored) (f : α → β) : (p.map f).Anchored := by
  intro c parsed hparsed
  obtain ⟨a, ha, heq⟩ := map_eq_ok hparsed
  rw [heq]
  exact h c a ha

theorem mapChecked (h : p.Anchored) (f : α → Except Fault β) : (p.mapChecked f).Anchored := by
  intro c parsed hparsed
  obtain ⟨a, ha, -, hrange⟩ := mapChecked_eq_ok hparsed
  rw [hrange]
  exact h c a ha

theorem mapError (h : p.Anchored) (change : ParseError → Except Fault ParseError) :
    (p.mapError change).Anchored :=
  fun c parsed hparsed => h c parsed (mapError_eq_ok hparsed)

theorem withRange (h : p.Anchored) : p.withRange.Anchored := by
  intro c parsed hparsed
  obtain ⟨a, ha, heq⟩ := withRange_eq_ok hparsed
  rw [heq]
  exact h c a ha

/-- A pair takes over the start of its first part, whatever the second one is. -/
theorem both (h : p.Anchored) (q : Parser β) : (p.both q).Anchored := by
  intro c parsed hparsed
  obtain ⟨left, -, right, hleft, -, -, heq⟩ := both_eq_ok hparsed
  rw [heq]
  exact h c left hleft

theorem orElse {q : Parser α} (h : p.Anchored) (hq : q.Anchored) : (p.orElse q).Anchored := by
  intro c parsed hparsed
  rcases orElse_eq_ok hparsed with hfirst | hsecond
  · exact h c parsed hfirst
  · exact hq c parsed hsecond

theorem firstOf {ps : List (Parser α)} (h : ∀ p ∈ ps, p.Anchored) : (firstOf ps).Anchored := by
  intro c parsed hparsed
  obtain ⟨p, hp, hsuccess⟩ := firstOf_eq_ok hparsed
  exact h p hp c parsed hsuccess

theorem choice {ps : List (Parser α)} (h : ∀ p ∈ ps, p.Anchored) : (choice ps).Anchored := by
  intro c parsed hparsed
  obtain ⟨p, hp, hsuccess⟩ := choice_eq_ok hparsed
  exact h p hp c parsed hsuccess

theorem optional (h : p.Anchored) : p.optional.Anchored := by
  intro c parsed hparsed
  rcases optional_eq_ok hparsed with ⟨a, ha, heq⟩ | heq
  · rw [heq]
    exact h c a ha
  · rw [heq]
    rfl

theorem succeeds (h : p.Anchored) : p.succeeds.Anchored := by
  intro c parsed hparsed
  rcases succeeds_eq_ok hparsed with ⟨a, ha, heq⟩ | heq
  · rw [heq]
    exact h c a ha
  · rw [heq]
    rfl

end Anchored

end Parser

namespace Grammar

/-- What decides on the start of a grammar's report: itself, and what is on the spine
of the part that it takes the start of its report from. -/
inductive OnSpine (definitions : ρ → Grammar ρ) : Grammar ρ → Grammar ρ → Prop where
  | self (g : Grammar ρ) : OnSpine definitions g g
  | map {f : Value → Except Fault Value} {g part : Grammar ρ} (h : OnSpine definitions g part) :
    OnSpine definitions (.map f g) part
  | mapError {change : ParseError → Except Fault ParseError} {g part : Grammar ρ}
    (h : OnSpine definitions g part) : OnSpine definitions (.mapError change g) part
  | label {message : String} {g part : Grammar ρ} (h : OnSpine definitions g part) :
    OnSpine definitions (.label message g) part
  | joined {g part : Grammar ρ} (h : OnSpine definitions g part) :
    OnSpine definitions (.joined g) part
  | withRange {g part : Grammar ρ} (h : OnSpine definitions g part) :
    OnSpine definitions (.withRange g) part
  | optional {g part : Grammar ρ} (h : OnSpine definitions g part) :
    OnSpine definitions (.optional g) part
  | succeeds {g part : Grammar ρ} (h : OnSpine definitions g part) :
    OnSpine definitions (.succeeds g) part
  | both {first second part : Grammar ρ} (h : OnSpine definitions first part) :
    OnSpine definitions (.both first second) part
  | keepLeft {first second part : Grammar ρ} (h : OnSpine definitions first part) :
    OnSpine definitions (.keepLeft first second) part
  | keepRight {first second part : Grammar ρ} (h : OnSpine definitions first part) :
    OnSpine definitions (.keepRight first second) part
  | orElse {first second part : Grammar ρ} (h : OnSpine definitions first part) :
    OnSpine definitions (.orElse first second) part
  | orElseSecond {first second part : Grammar ρ} (h : OnSpine definitions second part) :
    OnSpine definitions (.orElse first second) part
  | firstOf {gs : List (Grammar ρ)} {g part : Grammar ρ} (hmem : g ∈ gs)
    (h : OnSpine definitions g part) : OnSpine definitions (.firstOf gs) part
  | choice {gs : List (Grammar ρ)} {g part : Grammar ρ} (hmem : g ∈ gs)
    (h : OnSpine definitions g part) : OnSpine definitions (.choice gs) part
  | ref {name : ρ} {part : Grammar ρ} (h : OnSpine definitions (definitions name) part) :
    OnSpine definitions (.ref name) part

/-- The grammars that report from elsewhere, or from where they like. -/
def Adrift : Grammar ρ → Prop
  | .bind _ _ | .foreign _ => True
  | _ => False

/-- A grammar with nothing adrift on its spine. -/
def SpineHolds (definitions : ρ → Grammar ρ) (g : Grammar ρ) : Prop :=
  ∀ part, OnSpine definitions g part → ¬ part.Adrift

variable {definitions : ρ → Grammar ρ} {call : ρ → Parser Value}

theorem SpineHolds.of {g h : Grammar ρ} (hg : g.SpineHolds definitions)
    (hspine : ∀ part, OnSpine definitions h part → OnSpine definitions g part) :
    h.SpineHolds definitions :=
  fun part hpart => hg part (hspine part hpart)

mutual

/-- The ranges of a grammar begin at the cursor if those of the references on its
spine do. -/
theorem SpineHolds.anchored
    (hcall : ∀ name, (definitions name).SpineHolds definitions → (call name).Anchored) :
    ∀ {g : Grammar ρ}, g.SpineHolds definitions → (g.parserWith call).Anchored
  | .literal expected, _ => (Parser.anchored_literal expected).map _
  | .anyChar, _ => Parser.anchored_anyChar.map _
  | .satisfy accepts describe, _ => (Parser.anchored_satisfy accepts describe).map _
  | .endOfInput, _ => Parser.anchored_endOfInput.map _
  | .moveTo idx, _ => (Parser.anchored_moveTo idx).map _
  | .pure value, _ => Parser.anchored_pure value
  | .fail message, _ => Parser.anchored_fail message
  | .foreign p, h => absurd trivial (h _ (.self (.foreign p)))
  | .bind first next, h => absurd trivial (h _ (.self (.bind first next)))
  | .map f _, h => ((h.of fun _ => .map).anchored hcall).mapChecked f
  | .mapError change _, h => ((h.of fun _ => .mapError).anchored hcall).mapError change
  | .label _ _, h => ((h.of fun _ => .label).anchored hcall).mapError _
  | .both _ _, h => (((h.of fun _ => .both).anchored hcall).both _).map _
  | .keepLeft _ _, h => (((h.of fun _ => .keepLeft).anchored hcall).both _).map _
  | .keepRight _ _, h => (((h.of fun _ => .keepRight).anchored hcall).both _).map _
  | .orElse _ _, h =>
    ((h.of fun _ => .orElse).anchored hcall).orElse ((h.of fun _ => .orElseSecond).anchored hcall)
  | .firstOf _, h => .firstOf (anchored_all hcall fun _ hmem => h.of fun _ => .firstOf hmem)
  | .choice _, h => .choice (anchored_all hcall fun _ hmem => h.of fun _ => .choice hmem)
  | .atLeast min _, _ => (Parser.anchored_atLeast _ min).map _
  | .many1 _, _ => (Parser.anchored_many1 _).map _
  | .joined _, h => ((((h.of fun _ => .joined).anchored hcall).map _).map _).map _
  | .lookahead _, _ => (Parser.anchored_lookahead _).map _
  | .optional _, h => ((h.of fun _ => .optional).anchored hcall).optional.map _
  | .succeeds _, h => ((h.of fun _ => .succeeds).anchored hcall).succeeds.map _
  | .fails _, _ => (Parser.anchored_fails _).map _
  | .notFollowedBy _, _ => (Parser.anchored_notFollowedBy _).map _
  | .withRange _, h => ((h.of fun _ => .withRange).anchored hcall).withRange.map _
  | .sequence _, _ => Parser.anchored_sequence _
  | .forEach _ _, _ => (Parser.anchored_forEach _ _).map _
  | .ref name, h => hcall name (h.of fun _ => .ref)

theorem anchored_all
    (hcall : ∀ name, (definitions name).SpineHolds definitions → (call name).Anchored) :
    ∀ {gs : List (Grammar ρ)}, (∀ g ∈ gs, g.SpineHolds definitions) →
      ∀ p ∈ parsersWith call gs, p.Anchored
  | [], _, _, hp => nomatch hp
  | _ :: _, h, _, .head _ => (h _ List.mem_cons_self).anchored hcall
  | _ :: _, h, p, .tail _ hp =>
    anchored_all hcall (fun g hg => h g (List.mem_cons_of_mem _ hg)) p hp

end

/-- What follows a parser, if it is honest, reports from where that one stopped on. -/
theorem stop_le_start_of_bind {first : Parser Value} {next : Value → Parser Value}
    (hnext : ∀ value, (next value).Honest) {c : Cursor} (hc : c.Reachable) {parsed : Parsed Value}
    (h : ((first.bind next).parse c).result = .ok parsed) :
    ∃ a, (first.parse c).result = .ok a ∧ a.range.stop ≤ parsed.range.start := by
  obtain ⟨a, behind, ha, hgo, hparsed⟩ := Parser.bind_eq_ok h
  obtain ⟨-, -, hidx, -, -⟩ := Cursor.goto_eq_ok hgo
  obtain ⟨hle, -, -⟩ := (hnext a.value).in_bounds behind (.goto hc hgo) parsed hparsed
  exact ⟨a, ha, hidx ▸ hle⟩

/-- Ranges begin at the cursor where no bind and no parser from outside is on the
spine. A bind that goes on with honest parsers reports from where its first part
stopped, or from further on. -/
theorem start_eq_idx_off_bind (definitions : ρ → Grammar ρ) :
    (∀ g : Grammar ρ, (∀ part, OnSpine definitions g part → ¬ part.Adrift) →
      ∀ (c : Cursor) parsed, g.Answers definitions c (.ok parsed) →
        parsed.range.start = c.idx) ∧
    (∀ (first : Grammar ρ) (next : Value → Grammar ρ),
      (∀ value, (next value).Honest definitions) → ∀ c : Cursor, c.Reachable → ∀ parsed,
        (Grammar.bind first next).Answers definitions c (.ok parsed) →
          ∃ a, first.Answers definitions c (.ok a) ∧ a.range.stop ≤ parsed.range.start) := by
  constructor
  · intro g hg c parsed h
    obtain ⟨-, depth, hdepth⟩ := h
    have hanchored : (g.parser definitions depth).Anchored :=
      parser_induction (fun _ _ h => nomatch h) (fun _ hcall _ hg => SpineHolds.anchored hcall hg)
        depth g hg
    exact hanchored c parsed hdepth
  · intro first next hnext c hc parsed h
    obtain ⟨-, depth, hdepth⟩ := h
    have hnext' : ∀ value, ((next value).parser definitions depth).Honest :=
      fun value => hnext value depth
    obtain ⟨call, hcall⟩ := exists_parserWith definitions depth
    simp only [resultAt, hcall] at hdepth hnext'
    obtain ⟨a, ha, hle⟩ := stop_le_start_of_bind hnext' hc hdepth
    refine ⟨a, ⟨nofun, depth, ?_⟩, hle⟩
    rw [resultAt, hcall]
    exact ha

/-- Binds in a repetition and in the second part of a pair, behind a reference that
is on the spine; and a bind alone. -/
theorem start_eq_idx_off_bind_signs :
    let signs : Unit → Grammar Unit := fun _ =>
      .orElse (.literal "-") (.atLeast 0 (.bind (.literal "+") fun value => .literal value.text))
    let twice : Grammar Unit := .bind .anyChar fun value => .literal value.text
    let g : Grammar Unit := .withRange (.keepLeft (.ref ()) twice)
    let c : Cursor := .atOffset ['é', '+', '+', '=', '='] 1
    g.Answers signs c (.ok ⟨⟨1, 5⟩, .pair (.list [.str "+"]) (.range ⟨1, 5⟩)⟩) ∧ 1 = c.idx ∧
      twice.Answers signs c (.ok ⟨⟨2, 3⟩, .str "+"⟩) ∧
      ∃ a, Grammar.anyChar.Answers signs c (.ok a) ∧ a.range.stop ≤ 2 := by
  intro signs twice g c
  have hspine : ∀ part, OnSpine signs g part → ¬ part.Adrift := by
    intro part h
    change OnSpine signs (.withRange (.keepLeft (.ref ()) twice)) part at h
    cases h with
    | self => exact id
    | withRange h =>
      cases h with
      | self => exact id
      | keepLeft h =>
        cases h with
        | self => exact id
        | ref h =>
          change OnSpine signs (.orElse (.literal "-") (.atLeast 0 _)) part at h
          cases h with
          | self => exact id
          | orElse h => cases h with | self => exact id
          | orElseSecond h => cases h with | self => exact id
  have hsigns : ∀ name, Scheme.honest.Admits (signs name) := fun _ =>
    .orElse (.literal _) (.atLeast 0 (.bind (.literal _) fun _ => .literal _))
  have hnext : ∀ value : Value, Honest signs (.literal value.text) := fun value =>
    honest_of_admits (.literal value.text) hsigns
  have hc : c.Reachable := Cursor.reachable_atOffset (by decide) (by decide)
  have hanswer : g.Answers signs c (.ok ⟨⟨1, 5⟩, .pair (.list [.str "+"]) (.range ⟨1, 5⟩)⟩) :=
    ⟨nofun, 1, by decide +kernel⟩
  have htwice : twice.Answers signs c (.ok ⟨⟨2, 3⟩, .str "+"⟩) := ⟨nofun, 0, by decide⟩
  obtain ⟨hstart, hbind⟩ := start_eq_idx_off_bind signs
  exact ⟨hanswer, hstart g hspine c _ hanswer, htwice, hbind .anyChar _ hnext c hc _ htwice⟩

end Grammar

end Parsing
