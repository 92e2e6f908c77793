import Parsing.Parser.Loop
import Parsing.Parser.Repeat
import Parsing.Proofs.Correspondence

/-!
# Corresponding runs of loops and bodies

Repetitions and loops of parsers that go in step go in step: the two runs stop
after the same number of rounds, because whether a round went forward is read off
offsets whose order corresponds, and whether the text is over off what is left of
it. The induction is on what is left for the first run.

`S.Steps` is the same for the steps of a body, whose places correspond before and
after each of them. The errors of a body are those of the sequence, or of the
iteration of a loop, that it belongs to, and that may have begun before it.
-/

namespace Parsing.Correspondence

variable {S : Correspondence} {α β ι : Type} {c c' d d' start start' : Cursor}

/-- What reads from here to where two runs have gone on. -/
theorem related_span (hc : S.cursors c c') (hd : Onward S.cursors c c' d d') (value : α) :
    (Outcome.ofChecked (Parsed.new c.idx d.idx value)).Related S.toLeeway (S.errors c c')
      (S.Reports c c') (Outcome.ofChecked (Parsed.new c'.idx d'.idx value)) :=
  Outcome.related_ofChecked
    (reports_new (S.span hc hd) hd.left.idx_le hd.right.idx_le value)

/-- Where two runs of a loop end, with the same in hand. -/
def Ended (S : Correspondence) (c c' : Cursor) (a a' : α × Cursor) : Prop :=
  a'.1 = a.1 ∧ Onward S.cursors c c' a.2 a'.2

/-- A loop that goes on from places that were passed ends as one from here. -/
theorem related_ended (hc : S.cursors c c') (hd : Onward S.cursors c c' d d')
    {x y : Outcome (α × Cursor)}
    (h : x.Related S.toLeeway (S.errors d d') (S.Ended d d') y) :
    x.Related S.toLeeway (S.errors c c') (S.Ended c c') y := by
  refine h.imp (fun _ _ he => S.errors_onward hc hd he) fun b b' hended => ?_
  obtain ⟨hstate, hlast⟩ := hended
  exact ⟨hstate, onward_trans hd hlast⟩

/-! ## Repetition -/

namespace Parsers

variable {p p' : Parser α}

theorem collect (h : S.Parsers p p') (errors : ParseError → ParseError → Prop) :
    ∀ {c c' : Cursor}, S.cursors c c' →
      (p.collect c).Related S.toLeeway errors (S.Ended c c') (p'.collect c') := by
  intro c c' hc
  -- One round on each side; the rounds after it are those of a shorter text.
  rw [Parser.collect_eq, Parser.collect_eq]
  refine (h hc).attempt.bind fun a a' ha => ?_
  cases ha with
  | error _ => exact Outcome.related_pure ⟨rfl, onward_refl hc⟩
  | @ok a a' ha =>
    obtain ⟨hr, hvalue⟩ := ha
    dsimp only
    rw [hvalue]
    -- Whether the round went forward is the same on both sides.
    by_cases hstop : a.range.stop ≤ c.idx
    · rw [if_pos hstop, if_pos ((S.stop_le_iff hc hr).mp hstop)]
      exact Outcome.Related.record_bind _ _ (Outcome.related_pure ⟨rfl, onward_refl hc⟩)
    · rw [if_neg hstop, if_neg (fun hle => hstop ((S.stop_le_iff hc hr).mpr hle))]
      refine (Outcome.related_ofChecked (goto_onward hc hr)).bind ?_
      intro d d' hmove
      obtain ⟨hd, hidx, -⟩ := hmove
      have hlt : d.remaining < c.remaining := hd.left.remaining_lt (by omega)
      refine (collect h errors hd.cursors).bind ?_
      intro x y hended
      obtain ⟨values, last⟩ := x
      obtain ⟨values', last'⟩ := y
      obtain ⟨hvalues, hlast⟩ := hended
      exact Outcome.related_pure ⟨congrArg (a.value :: ·) hvalues, onward_trans hd hlast⟩
termination_by c => c.remaining

theorem atLeast (h : S.Parsers p p') (min : Nat) : S.Parsers (p.atLeast min) (p'.atLeast min) := by
  intro c c' hc
  refine (h.collect _ hc).bind ?_
  intro x y hended
  obtain ⟨values, last⟩ := x
  obtain ⟨values', last'⟩ := y
  obtain ⟨hvalues, hlast⟩ := hended
  obtain rfl : values' = values := hvalues
  dsimp only
  split
  · exact Outcome.related_fail (S.errors_onward hc hlast (S.error_here _ hlast.cursors))
  · exact related_span hc hlast values'

theorem many1 (h : S.Parsers p p') : S.Parsers p.many1 p'.many1 := by
  intro c c' hc
  refine (h.atLeast 0 hc).bind ?_
  intro a a' hreport
  obtain ⟨hr, hvalue⟩ := hreport
  rw [hvalue]
  split
  · exact Outcome.related_fail (S.error_here _ hc)
  · exact Outcome.related_pure ⟨hr, hvalue⟩

end Parsers

/-! ## Bodies -/

/-- Steps that go in step from corresponding places on, to related values, and that fail
like parsers which began at `c` and `c'`. -/
def Steps (S : Correspondence) (c c' : Cursor) {start start' : Cursor} (values : α → β → Prop)
    (steps : Parsing.Steps start α) (steps' : Parsing.Steps start' β) : Prop :=
  ∀ ⦃here here'⦄, S.cursors here.cursor here'.cursor →
    (steps here).Related S.toLeeway (S.errors c c')
      (fun a a' => values a.1 a'.1 ∧ S.cursors a.2.cursor a'.2.cursor) (steps' here')

/-- Corresponding reports of a parser that was run ahead of where the steps began. -/
structure Ran (S : Correspondence) (p : Parser α) (start start' : Cursor) (a a' : Parsed α) :
    Prop where
  reports : S.Reports start start' a a'
  parsed : ∃ here, start.LeadsTo here ∧ (p.parse here).result = .ok a

/-- Iterations that began at `c` and `c'`, and whose conditions led inside. -/
structure Entered (S : Correspondence) (p : Parser α) (c c' : Cursor) (a a' : Parsed α)
    (inside inside' : Cursor) : Prop where
  reports : S.Reports c c' a a'
  parsed : (p.parse c).result = .ok a
  goto : c.goto a.range.stop = .ok inside
  onward : Onward S.cursors c c' inside inside'

/-- Places of a body are ahead of where it began. -/
theorem onward_of_ahead {here : Ahead start} {here' : Ahead start'}
    (hc : S.cursors here.cursor here'.cursor) :
    Onward S.cursors start start' here.cursor here'.cursor :=
  ⟨hc, here.leadsTo, here'.leadsTo⟩

namespace Steps

variable {α' β' : Type} {values : α → β → Prop} {values' : α' → β' → Prop}

theorem pure {a : α} {b : β} (h : values a b) :
    S.Steps c c' values (Pure.pure a : Parsing.Steps start α)
      (Pure.pure b : Parsing.Steps start' β) :=
  fun _ _ hc => Outcome.related_pure ⟨h, hc⟩

theorem bind {steps : Parsing.Steps start α} {steps' : Parsing.Steps start' β}
    (h : S.Steps c c' values steps steps') {next : α → Parsing.Steps start α'}
    {next' : β → Parsing.Steps start' β'}
    (hnext : ∀ a b, values a b → S.Steps c c' values' (next a) (next' b)) :
    S.Steps c c' values' (steps >>= next) (steps' >>= next') := by
  intro here here' hc
  refine (h hc).bind ?_
  intro x y hstep
  obtain ⟨a, behind⟩ := x
  obtain ⟨b, behind'⟩ := y
  obtain ⟨hab, hbehind⟩ := hstep
  exact hnext a b hab hbehind

/-- The present place. -/
theorem get :
    S.Steps c c' (fun here here' => S.cursors here.cursor here'.cursor)
      (MonadState.get : Parsing.Steps start (Ahead start))
      (MonadState.get : Parsing.Steps start' (Ahead start')) :=
  fun _ _ hc => Outcome.related_pure ⟨hc, hc⟩

theorem set {kept : Ahead start} {kept' : Ahead start'}
    (hkept : S.cursors kept.cursor kept'.cursor) :
    S.Steps c c' (fun _ _ => True) (MonadState.set kept : Parsing.Steps start PUnit)
      (MonadState.set kept' : Parsing.Steps start' PUnit) :=
  fun _ _ _ => Outcome.related_pure ⟨trivial, hkept⟩

theorem fail (hc : S.cursors c c') (hstart : Onward S.cursors c c' start start')
    (message : String) : S.Steps c c' values (Steps.fail message : Parsing.Steps start α)
      (Steps.fail message : Parsing.Steps start' β) :=
  fun _ _ hhere => Outcome.related_fail
    (S.errors_onward hc (onward_trans hstart (onward_of_ahead hhere)) (S.error_here _ hhere))

variable {p p' : Parser α}

/-- A step over what a parser read. Its report is one from where the parser began. -/
theorem parseRanged (hc : S.cursors c c') (hstart : Onward S.cursors c c' start start')
    (h : S.Parsers p p') :
    S.Steps c c' (S.Ran p start start') (Steps.parseRanged p : Parsing.Steps start _)
      (Steps.parseRanged p' : Parsing.Steps start' _) := by
  intro here here' hhere
  have hahead := onward_of_ahead hhere
  refine (related_onward hc (onward_trans hstart hahead) (h hhere)).with_eq.bind ?_
  intro a a' hparsed
  obtain ⟨⟨hr, hvalue⟩, hran⟩ := hparsed
  -- The move is one of places ahead of the start, whose cursors move as cursors do.
  have hgo := S.goto hhere hr
  rw [← Ahead.map_cursor_goto, ← Ahead.map_cursor_goto] at hgo
  refine (Outcome.related_ofChecked hgo.of_map).bind fun behind behind' hbehind => ?_
  exact Outcome.related_pure ⟨{
    reports := ⟨S.ranges_onward hstart.cursors hahead hr, hvalue⟩
    parsed := ⟨here.cursor, here.leadsTo, hran⟩ }, hbehind⟩

theorem parse (hc : S.cursors c c') (hstart : Onward S.cursors c c' start start')
    (h : S.Parsers p p') :
    S.Steps c c' (fun value value' => value' = value ∧ ∃ a a', S.Ran p start start' a a' ∧
        a.value = value)
      (Steps.parse p : Parsing.Steps start _) (Steps.parse p' : Parsing.Steps start' _) :=
  (parseRanged hc hstart h).bind fun a a' ha => .pure ⟨ha.reports.2, a, a', ha, rfl⟩

theorem raise {error error' : ParseError} (he : S.errors c c' error error') :
    S.Steps c c' values (Steps.raise error : Parsing.Steps start α)
      (Steps.raise error' : Parsing.Steps start' β) :=
  fun _ _ _ => Outcome.related_fail he

/-- What is caught goes back to the places before the attempt, which correspond. -/
theorem attempt {steps : Parsing.Steps start α} {steps' : Parsing.Steps start' β}
    (h : S.Steps d d' values steps steps') :
    S.Steps c c' (RelatedExcept (S.errors d d') values) (Steps.attempt steps)
      (Steps.attempt steps') := by
  intro here here' hhere
  refine (h hhere).attempt.bind fun a a' ha => ?_
  cases ha with
  | error he => exact Outcome.related_pure ⟨.error he, hhere⟩
  | ok ha => exact Outcome.related_pure ⟨.ok ha.1, ha.2⟩

end Steps

namespace Parsers

theorem sequence {body body' : (start : Cursor) → Parsing.Steps start α}
    (h : ∀ {start start'}, S.cursors start start' →
      S.Steps start start' (fun a a' => a' = a) (body start) (body' start')) :
    S.Parsers (Parser.sequence body) (Parser.sequence body') := by
  intro c c' hc
  have hsteps := h hc
  refine (@hsteps (.origin c) (.origin c') hc).bind ?_
  intro x y hended
  obtain ⟨value, behind⟩ := x
  obtain ⟨value', behind'⟩ := y
  obtain ⟨hvalue, hbehind⟩ := hended
  obtain rfl : value' = value := hvalue
  exact related_span hc (onward_of_ahead hbehind) value'

/-! ## Loops -/

variable {p p' : Parser α}
  {body body' : α → LoopState ι → (start : Cursor) → Parsing.Steps start (LoopState ι)}

theorem iterate (h : S.Parsers p p')
    (hbody : ∀ {c c' a a' inside inside'}, S.cursors c c' → S.Entered p c c' a a' inside inside' →
      ∀ state, S.Steps c c' (fun b b' => b' = b) (body a.value state inside)
        (body' a.value state inside')) :
    ∀ (state : LoopState ι) {c c' : Cursor}, S.cursors c c' →
      (Parser.iterate p body state c).Related S.toLeeway (S.errors c c') (S.Ended c c')
        (Parser.iterate p' body' state c') := by
  intro state c c' hc
  -- The invariant is `Ended`: the states are the same, and the places correspond.
  rw [Parser.iterate_eq, Parser.iterate_eq]
  refine (h hc).with_eq.attempt.bind fun a a' ha => ?_
  cases ha with
  | error _ =>
    exact Outcome.Related.record_bind _ _ (Outcome.related_pure ⟨rfl, onward_refl hc⟩)
  | @ok a a' ha =>
    obtain ⟨⟨hr, hvalue⟩, hparsed⟩ := ha
    dsimp only
    rw [hvalue]
    refine (Outcome.related_ofChecked (goto_onward hc hr).with_eq).bind ?_
    intro inside inside' hmove
    obtain ⟨⟨hinside, -, -⟩, hgo, -⟩ := hmove
    have hsteps := hbody hc ⟨⟨hr, hvalue⟩, hparsed, hgo, hinside⟩ state
    refine (@hsteps (.origin inside) (.origin inside') hinside.cursors).bind ?_
    intro x y hstep
    obtain ⟨after, behind⟩ := x
    obtain ⟨after', behind'⟩ := y
    obtain ⟨hafter, hbehind⟩ := hstep
    obtain rfl : after' = after := hafter
    have hahead : Onward S.cursors c c' behind.cursor behind'.cursor :=
      onward_trans hinside (onward_of_ahead hbehind)
    dsimp only
    rw [S.atEnd_eq hbehind, S.canWalk_eq hbehind]
    split
    · exact Outcome.related_pure ⟨rfl, hahead⟩
    · by_cases hforward : c.idx < behind.cursor.idx
      · rw [if_pos hforward, if_pos ((S.idx_lt_iff hc hahead).mp hforward)]
        have hlt : behind.cursor.remaining < c.remaining := hahead.left.remaining_lt hforward
        exact related_ended hc hahead (iterate h hbody after' hbehind)
      · rw [if_neg hforward, if_neg (fun hlt => hforward ((S.idx_lt_iff hc hahead).mpr hlt))]
        split
        · next hcan =>
          refine Outcome.Related.record_bind _ _ ?_
          refine (Outcome.related_ofChecked (walk_onward hbehind hcan).with_eq).bind ?_
          intro next next' hmove
          obtain ⟨hnext, hwalk, -⟩ := hmove
          -- The forced step is one character, which makes up for the round that read none.
          have hlt : next.remaining < c.remaining :=
            Nat.lt_of_lt_of_le (Cursor.remaining_lt_of_walk_one hcan hwalk) hahead.left.remaining_le
          exact related_ended hc (onward_trans hahead hnext)
            (iterate h hbody after' hnext.cursors)
        · exact Outcome.related_pure ⟨rfl, hahead⟩
termination_by _ c => c.remaining

theorem forEach (h : S.Parsers p p')
    (hbody : ∀ {c c' a a' inside inside'}, S.cursors c c' → S.Entered p c c' a a' inside inside' →
      ∀ state, S.Steps c c' (fun b b' => b' = b) (body a.value state inside)
        (body' a.value state inside')) :
    S.Parsers (Parser.forEach p body) (Parser.forEach p' body') := by
  intro c c' hc
  refine (h.iterate hbody .initial hc).bind ?_
  intro x y hended
  obtain ⟨state, last⟩ := x
  obtain ⟨state', last'⟩ := y
  obtain ⟨hstate, hlast⟩ := hended
  obtain rfl : state' = state := hstate
  exact related_span hc hlast state'.finish

end Parsers

end Parsing.Correspondence
