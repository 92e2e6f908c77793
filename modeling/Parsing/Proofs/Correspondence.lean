import Mathlib.Data.List.Defs
import Parsing.Parser.Choice
import Parsing.Parser.Lookahead
import Parsing.Parser.Primitive
import Parsing.Proofs.Related

/-!
# Corresponding runs of parsers

Two runs of parsers go in step when they stand at corresponding cursors, report
corresponding ranges and fail with corresponding errors. A `Correspondence` says
what this means; its laws are what the combinators ask of it. `S.Parsers p q`
then says that `p` and `q` go in step from corresponding cursors on, and every
combinator keeps that:

> `Parsers.bind`, `Parsers.both`, `Parsers.firstOf`, …: a combinator of parsers
> that go in step goes in step.

The laws speak of the text only through what is left of it, so the two runs may
be on different texts, and of offsets only through their order, so they may be
at different offsets.
-/

namespace Parsing

/-- From cursors `c` and `c'` two runs have gone on to corresponding `d` and `d'`. -/
structure Onward (cursors : Cursor → Cursor → Prop) (c c' d d' : Cursor) : Prop where
  cursors : cursors d d'
  left : c.LeadsTo d
  right : c'.LeadsTo d'

/-- When two runs go in step. Ranges and errors correspond as reports from the
cursors that their parsers began at. -/
structure Correspondence extends Leeway where
  cursors : Cursor → Cursor → Prop
  ranges : Cursor → Cursor → Range → Range → Prop
  errors : Cursor → Cursor → ParseError → ParseError → Prop
  rest_eq : ∀ {c c'}, cursors c c' → c'.rest = c.rest
  atEnd_eq : ∀ {c c'}, cursors c c' → c'.atEnd = c.atEnd
  canWalk_eq : ∀ {c c'}, cursors c c' → c'.canWalk 1 = c.canWalk 1
  idx_lt_iff : ∀ {c c' d d'}, cursors c c' → Onward cursors c c' d d' →
    (c.idx < d.idx ↔ c'.idx < d'.idx)
  stop_le_iff : ∀ {c c' r r'}, cursors c c' → ranges c c' r r' →
    (r.stop ≤ c.idx ↔ r'.stop ≤ c'.idx)
  goto : ∀ {c c' r r'}, cursors c c' → ranges c c' r r' →
    RelatedExcept faults cursors (c.goto r.stop) (c'.goto r'.stop)
  walk : ∀ {c c'}, cursors c c' → c.canWalk 1 = true →
    RelatedExcept faults cursors (c.walk 1) (c'.walk 1)
  /-- What lies between cursors that were passed can be reported. -/
  span : ∀ {c c' d d'}, cursors c c' → Onward cursors c c' d d' →
    ranges c c' ⟨c.idx, d.idx⟩ ⟨c'.idx, d'.idx⟩
  one : ∀ {c c' char}, cursors c c' → c.peek = some char →
    RelatedExcept faults (fun stop stop' => ranges c c' ⟨c.idx, stop⟩ ⟨c'.idx, stop'⟩)
      (addOffsets c.idx 1) (addOffsets c'.idx 1)
  stepOver : ∀ {c c' piece}, cursors c c' → c.rest.startsWith piece = true →
    RelatedExcept faults (fun d d' => ranges c c' ⟨c.idx, d.idx⟩ ⟨c'.idx, d'.idx⟩)
      (c.stepOver piece) (c'.stepOver piece)
  /-- A report from further on is a report from here. -/
  ranges_onward : ∀ {c c' d d' r r'}, cursors c c' → Onward cursors c c' d d' →
    ranges d d' r r' → ranges c c' r r'
  errors_onward : ∀ {c c' d d' e e'}, cursors c c' → Onward cursors c c' d d' →
    errors d d' e e' → errors c c' e e'
  merge : ∀ {c c' d d' r r' s s'}, cursors c c' → ranges c c' r r' →
    Onward cursors c c' d d' → d.idx = r.stop → d'.idx = r'.stop → ranges d d' s s' →
    RelatedExcept faults (ranges c c') (r.merge s) (r'.merge s')
  error_here : ∀ {c c'} message, cursors c c' → errors c c' ⟨c.idx, message⟩ ⟨c'.idx, message⟩
  withMessage : ∀ {c c' e e'} message, errors c c' e e' →
    errors c c' (e.withMessage message) (e'.withMessage message)

namespace Correspondence

variable (S : Correspondence) {α β : Type} {c c' d d' : Cursor}

/-- Corresponding reports: their ranges correspond and their values are the same. -/
def Reports (c c' : Cursor) (a a' : Parsed α) : Prop :=
  S.ranges c c' a.range a'.range ∧ a'.value = a.value

/-- Parsers that go in step from corresponding cursors on. -/
def Parsers (p p' : Parser α) : Prop :=
  ∀ ⦃c c'⦄, S.cursors c c' →
    (p.parse c).Related S.toLeeway (S.errors c c') (S.Reports c c') (p'.parse c')

variable {S}

theorem onward_refl (hc : S.cursors c c') : Onward S.cursors c c' c c' :=
  ⟨hc, .refl c, .refl c'⟩

theorem onward_trans {e e' : Cursor} (hd : Onward S.cursors c c' d d')
    (he : Onward S.cursors d d' e e') : Onward S.cursors c c' e e' :=
  ⟨he.cursors, hd.left.trans he.left, hd.right.trans he.right⟩

/-- Failures from further on are failures from here. -/
theorem related_onward (hc : S.cursors c c') (hd : Onward S.cursors c c' d d')
    {values : α → β → Prop} {x : Outcome α} {y : Outcome β}
    (h : x.Related S.toLeeway (S.errors d d') values y) :
    x.Related S.toLeeway (S.errors c c') values y :=
  h.imp (fun _ _ he => S.errors_onward hc hd he) fun _ _ hv => hv

/-- A report of nothing read. -/
theorem reports_empty (hc : S.cursors c c') (value : α) :
    S.Reports c c' (.empty c.idx value) (.empty c'.idx value) :=
  ⟨S.span hc (onward_refl hc), rfl⟩

theorem Reports.map {a a' : Parsed α} (h : S.Reports c c' a a') (f : α → β) :
    S.Reports c c' (a.map f) (a'.map f) := ⟨h.1, congrArg f h.2⟩

/-- Moves to where corresponding reports stop. -/
theorem goto_onward {r r' : Range} (hc : S.cursors c c') (hr : S.ranges c c' r r') :
    RelatedExcept S.faults
      (fun d d' => Onward S.cursors c c' d d' ∧ d.idx = r.stop ∧ d'.idx = r'.stop)
      (c.goto r.stop) (c'.goto r'.stop) := by
  refine (S.goto hc hr).with_eq.imp ?_
  intro d d' hmove
  obtain ⟨hd, hgo, hgo'⟩ := hmove
  exact ⟨⟨hd, Cursor.leadsTo_of_goto hgo, Cursor.leadsTo_of_goto hgo'⟩,
    (Cursor.goto_eq_ok hgo).2.2.1, (Cursor.goto_eq_ok hgo').2.2.1⟩

theorem walk_onward (hc : S.cursors c c') (hcan : c.canWalk 1 = true) :
    RelatedExcept S.faults (Onward S.cursors c c') (c.walk 1) (c'.walk 1) := by
  refine (S.walk hc hcan).with_eq.imp ?_
  intro d d' hmove
  obtain ⟨hd, hgo, hgo'⟩ := hmove
  exact ⟨hd, Cursor.leadsTo_of_walk hgo, Cursor.leadsTo_of_walk hgo'⟩

/-- Reports between given offsets, where these are in order. -/
theorem reports_new {start stop start' stop' : Nat}
    (hr : S.ranges c c' ⟨start, stop⟩ ⟨start', stop'⟩) (hle : start ≤ stop) (hle' : start' ≤ stop')
    (value : α) : RelatedExcept S.faults (S.Reports c c') (Parsed.new start stop value)
      (Parsed.new start' stop' value) := by
  rw [Parsed.new_of_le hle, Parsed.new_of_le hle']
  exact .ok ⟨hr, rfl⟩

namespace Parsers

variable {p p' : Parser α} {q q' : Parser β}

/-! ## Parsers that look at the text -/

theorem pure (value : α) : S.Parsers (Parser.pure value) (Parser.pure value) :=
  fun _ _ hc => Outcome.related_pure (reports_empty hc value)

theorem fail (message : String) :
    S.Parsers (Parser.fail message : Parser α) (Parser.fail message) :=
  fun _ _ hc => Outcome.related_fail (S.error_here message hc)

/-- One character from corresponding cursors. -/
theorem reports_one (hc : S.cursors c c') {char : Char} (hpeek : c.peek = some char) :
    RelatedExcept S.faults (S.Reports c c')
      (do let stop ← addOffsets c.idx 1; Parsed.new c.idx stop char)
      (do let stop ← addOffsets c'.idx 1; Parsed.new c'.idx stop char) := by
  refine (S.one hc hpeek).with_eq.bind ?_
  intro stop stop' hone
  obtain ⟨hr, hsum, hsum'⟩ := hone
  refine reports_new hr ?_ ?_ char
  · rw [addOffsets_eq_ok hsum]; exact Nat.le_add_right _ _
  · rw [addOffsets_eq_ok hsum']; exact Nat.le_add_right _ _

theorem peek_eq (hc : S.cursors c c') : c'.peek = c.peek := congrArg List.head? (S.rest_eq hc)

theorem anyChar : S.Parsers Parser.anyChar Parser.anyChar := by
  intro c c' hc
  simp only [Parser.anyChar, peek_eq hc]
  cases hpeek : c.peek with
  | none => exact Outcome.related_fail (S.error_here _ hc)
  | some char => exact Outcome.related_ofChecked (reports_one hc hpeek)

theorem satisfy (accepts : Char → Bool) (describe : Char → String) :
    S.Parsers (Parser.satisfy accepts describe) (Parser.satisfy accepts describe) := by
  intro c c' hc
  simp only [Parser.satisfy, peek_eq hc]
  cases hpeek : c.peek with
  | none => exact Outcome.related_fail (S.error_here _ hc)
  | some char =>
    dsimp only
    split
    · exact Outcome.related_ofChecked (reports_one hc hpeek)
    · exact Outcome.related_fail (S.error_here _ hc)

theorem endOfInput : S.Parsers Parser.endOfInput Parser.endOfInput := by
  intro c c' hc
  simp only [Parser.endOfInput, S.atEnd_eq hc]
  split
  · exact Outcome.related_pure (reports_empty hc ())
  · exact Outcome.related_fail (S.error_here _ hc)

theorem literal (expected : String) :
    S.Parsers (Parser.literal expected) (Parser.literal expected) := by
  intro c c' hc
  simp only [Parser.literal, S.rest_eq hc]
  split
  · next hstarts =>
    refine Outcome.related_ofChecked ((S.stepOver hc hstarts).with_eq.bind ?_)
    intro d d' hmove
    obtain ⟨hr, hstep, hstep'⟩ := hmove
    refine reports_new hr ?_ ?_ _
    · rw [Cursor.idx_of_stepOver hstep]; exact Nat.le_add_right _ _
    · rw [Cursor.idx_of_stepOver hstep']; exact Nat.le_add_right _ _
  · exact Outcome.related_fail (S.error_here _ hc)

/-! ## One parser changed -/

theorem map (h : S.Parsers p p') (f : α → β) : S.Parsers (p.map f) (p'.map f) := by
  intro c c' hc
  refine (h hc).bind fun a a' ha => ?_
  exact Outcome.related_pure (ha.map f)

theorem mapChecked (h : S.Parsers p p') {f : α → Except Fault β}
    (hf : ∀ value, RelatedExcept S.faults (fun b b' => b' = b) (f value) (f value)) :
    S.Parsers (p.mapChecked f) (p'.mapChecked f) := by
  intro c c' hc
  refine (h hc).bind ?_
  intro a a' hreport
  obtain ⟨hr, hvalue⟩ := hreport
  rw [hvalue]
  refine (Outcome.related_ofChecked (hf a.value)).bind fun b b' hb => ?_
  exact Outcome.related_pure ⟨hr, hb⟩

/-- A change of errors on both sides. -/
theorem mapError (h : S.Parsers p p') {change : ParseError → Except Fault ParseError}
    (hchange : ∀ {c c' e e'}, S.errors c c' e e' →
      RelatedExcept S.faults (S.errors c c') (change e) (change e')) :
    S.Parsers (p.mapError change) (p'.mapError change) := by
  intro c c' hc
  refine (h hc).attempt.bind fun a a' ha => ?_
  cases ha with
  | ok ha => exact Outcome.related_pure ha
  | error he =>
    refine (Outcome.related_ofChecked (hchange he)).bind fun e e' he => ?_
    exact Outcome.related_fail he

/-- A change of errors on one side only, which never breaks a promise. -/
theorem mapError_right (h : S.Parsers p p') {change : ParseError → Except Fault ParseError}
    (hchange : ∀ {c c' e e'}, S.errors c c' e e' → ∃ d, change e' = .ok d ∧ S.errors c c' e d) :
    S.Parsers p (p'.mapError change) := by
  intro c c' hc
  -- The second run has a step that the first one has not, so `bind` does not apply.
  have hp := h hc
  unfold Outcome.Related at hp ⊢
  simp only [Parser.mapError, Outcome.result_bind, Outcome.result_attempt]
  generalize (p.parse c).result = r at hp
  generalize (p'.parse c').result = r' at hp
  cases hp with
  | ok ha => exact .ok ha
  | fail he =>
    obtain ⟨e, hok, he⟩ := hchange he
    simp only [Result.attempt_fail, Result.ok_bind, Outcome.result_bind,
      Outcome.result_ofChecked, hok]
    exact .fail he
  | fault hf => exact .fault hf
  | exhausted hx => exact .exhausted hx
  | behind hx => exact .behind hx _

theorem label (h : S.Parsers p p') (message : String) :
    S.Parsers (p.label message) (p'.label message) :=
  h.mapError fun he => .ok (S.withMessage message he)

/-- The range becomes part of the value, so it has to be the same. -/
theorem withRange (h : S.Parsers p p') (hranges : ∀ {c c' r r'}, S.ranges c c' r r' → r' = r) :
    S.Parsers p.withRange p'.withRange := by
  intro c c' hc
  refine (h hc).bind ?_
  intro a a' hreport
  obtain ⟨hr, hvalue⟩ := hreport
  refine Outcome.related_pure ⟨hr, ?_⟩
  rw [hvalue, hranges hr]

theorem joined {p p' : Parser (List String)} (h : S.Parsers p p') :
    S.Parsers p.joined p'.joined := h.map _

/-! ## One parser behind another -/

theorem bind (h : S.Parsers p p') {next next' : α → Parser β}
    (hnext : ∀ value, S.Parsers (next value) (next' value)) :
    S.Parsers (p.bind next) (p'.bind next') := by
  intro c c' hc
  refine (h hc).bind ?_
  intro a a' hreport
  obtain ⟨hr, hvalue⟩ := hreport
  refine (Outcome.related_ofChecked (goto_onward hc hr)).bind ?_
  intro d d' hmove
  obtain ⟨hd, -, -⟩ := hmove
  rw [hvalue]
  -- The answer is that of the second parser, reported from where the first one began.
  refine (hnext a.value hd.cursors).imp (fun _ _ he => S.errors_onward hc hd he) ?_
  intro b b' hreport
  obtain ⟨hs, hb⟩ := hreport
  exact ⟨S.ranges_onward hc hd hs, hb⟩

theorem both (h : S.Parsers p p') (hq : S.Parsers q q') : S.Parsers (p.both q) (p'.both q') := by
  intro c c' hc
  refine (h hc).bind ?_
  intro a a' hreport
  obtain ⟨hr, hvalue⟩ := hreport
  refine (Outcome.related_ofChecked (goto_onward hc hr)).bind ?_
  intro d d' hmove
  obtain ⟨hd, hidx, hidx'⟩ := hmove
  -- The second parsers begin where the first ones stopped, which `merge` relies on.
  refine (related_onward hc hd (hq hd.cursors)).bind ?_
  intro b b' hreport
  obtain ⟨hs, hb⟩ := hreport
  refine (Outcome.related_ofChecked (S.merge hc hr hd hidx hidx' hs)).bind fun t t' ht => ?_
  exact Outcome.related_pure ⟨ht, by rw [hvalue, hb]⟩

theorem keepLeft (h : S.Parsers p p') (hq : S.Parsers q q') :
    S.Parsers (p.keepLeft q) (p'.keepLeft q') := (h.both hq).map _

theorem keepRight (h : S.Parsers p p') (hq : S.Parsers q q') :
    S.Parsers (p.keepRight q) (p'.keepRight q') := (h.both hq).map _

/-! ## Alternatives -/

theorem orElse (h : S.Parsers p p') {q q' : Parser α} (hq : S.Parsers q q') :
    S.Parsers (p.orElse q) (p'.orElse q') := by
  intro c c' hc
  refine (h hc).attempt.bind fun a a' ha => ?_
  cases ha with
  | ok ha => exact Outcome.related_pure ha
  | error _ => exact hq hc

/-- Parsers tried in order: the first success, or the last error, if there was one. -/
theorem tryEach {ps ps' : List (Parser α)} (h : List.Forall₂ S.Parsers ps ps')
    (hc : S.cursors c c') {last last' : Option ParseError}
    (hlast : Option.Rel (S.errors c c') last last') (errors : ParseError → ParseError → Prop) :
    (Parser.tryEach c last ps).Related S.toLeeway errors
      (RelatedExcept (Option.Rel (S.errors c c')) (S.Reports c c'))
      (Parser.tryEach c' last' ps') := by
  -- On the alternatives. Nothing is kept of those that failed but the last errors.
  induction h generalizing last last' with
  | nil => exact Outcome.related_pure (.error hlast)
  | cons hp _ ih =>
    refine (hp hc).attempt.bind fun a a' ha => ?_
    cases ha with
    | ok ha => exact Outcome.related_pure (.ok ha)
    | error he => exact ih (.some he)

theorem firstOf {ps ps' : List (Parser α)} (h : List.Forall₂ S.Parsers ps ps') :
    S.Parsers (Parser.firstOf ps) (Parser.firstOf ps') := by
  intro c c' hc
  refine (tryEach h hc .none _).bind fun a a' ha => ?_
  cases ha with
  | ok ha => exact Outcome.related_pure ha
  | error hlast =>
    refine Outcome.Related.record_bind _ _ (Outcome.related_fail ?_)
    cases hlast with
    | none => exact S.error_here _ hc
    | some he => exact he

theorem choice {ps ps' : List (Parser α)} (h : List.Forall₂ S.Parsers ps ps') :
    S.Parsers (Parser.choice ps) (Parser.choice ps') := by
  intro c c' hc
  refine (tryEach h hc .none _).bind fun a a' ha => ?_
  cases ha with
  | ok ha => exact Outcome.related_pure ha
  | error _ => exact Outcome.Related.record_bind _ _ (Outcome.related_fail (S.error_here _ hc))

/-! ## Looking ahead -/

theorem lookahead (h : S.Parsers p p') : S.Parsers p.lookahead p'.lookahead := by
  intro c c' hc
  refine (h hc).attempt.bind fun a a' ha => ?_
  cases ha with
  | ok ha =>
    obtain ⟨-, hvalue⟩ := ha
    refine Outcome.related_pure ?_
    rw [hvalue]
    exact reports_empty hc _
  | error _ => exact Outcome.related_pure (reports_empty hc _)

theorem optional (h : S.Parsers p p') : S.Parsers p.optional p'.optional := by
  intro c c' hc
  refine (h hc).attempt.bind fun a a' ha => ?_
  cases ha with
  | ok ha => exact Outcome.related_pure (ha.map _)
  | error _ => exact Outcome.related_pure (reports_empty hc _)

theorem succeeds (h : S.Parsers p p') : S.Parsers p.succeeds p'.succeeds := by
  intro c c' hc
  refine (h hc).attempt.bind fun a a' ha => ?_
  cases ha with
  | ok ha => exact Outcome.related_pure (ha.map _)
  | error _ => exact Outcome.related_pure (reports_empty hc _)

theorem fails (h : S.Parsers p p') : S.Parsers p.fails p'.fails := by
  intro c c' hc
  refine (h hc).attempt.bind fun a a' ha => ?_
  cases ha with
  | ok _ => exact Outcome.related_pure (reports_empty hc _)
  | error _ => exact Outcome.related_pure (reports_empty hc _)

theorem notFollowedBy (h : S.Parsers p p') : S.Parsers p.notFollowedBy p'.notFollowedBy := by
  intro c c' hc
  refine (h hc).attempt.bind fun a a' ha => ?_
  cases ha with
  | ok _ => exact Outcome.related_fail (S.error_here _ hc)
  | error _ => exact Outcome.related_pure (reports_empty hc _)

end Parsers

end Correspondence

end Parsing
