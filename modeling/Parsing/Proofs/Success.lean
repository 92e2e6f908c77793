import Parsing.Parser.Choice
import Parsing.Parser.Lookahead
import Parsing.Parser.Loop
import Parsing.Parser.Primitive
import Parsing.Parser.Repeat

/-!
# What a success says

A combinator that succeeded says which of its parts succeeded, at which cursors,
and how its report comes of theirs. There is one lemma for each combinator, which
says all there is to know, so that what is proved about successes later does not
look into the combinators again:

> `both_eq_ok`, `firstOf_eq_ok`, `optional_eq_ok`, …

The rounds of a repetition are told by `Rounds`, whose cases are those of a round:
the parser failed, or it read nothing, or the repetition went on behind it.
-/

namespace Parsing

namespace Outcome

variable {α β : Type} {x : Outcome α} {a : α} {b : β}

theorem bind_eq_ok {next : α → Outcome β} (h : (x >>= next).result = .ok b) :
    ∃ a, x.result = .ok a ∧ (next a).result = .ok b := by
  rw [result_bind] at h
  exact Result.bind_eq_ok h

theorem ofChecked_bind_eq_ok {x : Except Fault α} {next : α → Outcome β}
    (h : (ofChecked x >>= next).result = .ok b) : ∃ a, x = .ok a ∧ (next a).result = .ok b := by
  obtain ⟨a, ha, hb⟩ := bind_eq_ok h
  exact ⟨a, Result.ofChecked_eq_ok ha, hb⟩

/-- What is recorded on the way does not make a failure a success. -/
theorem record_fail_ne_ok (event : Event) (error : ParseError) :
    (do record event; fail error : Outcome α).result ≠ .ok a := by
  intro h
  obtain ⟨_, -, hfail⟩ := bind_eq_ok h
  cases hfail

/-- What follows an attempt follows a value or a failure. -/
theorem attempt_bind_eq_ok {next : Except ParseError α → Outcome β}
    (h : (x.attempt >>= next).result = .ok b) :
    (∃ a, x.result = .ok a ∧ (next (.ok a)).result = .ok b) ∨
    ∃ e, x.result = .fail e ∧ (next (.error e)).result = .ok b := by
  obtain ⟨attempted, hattempt, hnext⟩ := bind_eq_ok h
  rw [result_attempt] at hattempt
  cases hx : x.result with
  | ok a =>
    rw [hx] at hattempt
    cases Result.ok.inj hattempt
    exact .inl ⟨a, rfl, hnext⟩
  | fail e =>
    rw [hx] at hattempt
    cases Result.ok.inj hattempt
    exact .inr ⟨e, rfl, hnext⟩
  | fault cause => rw [hx] at hattempt; cases hattempt
  | exhausted => rw [hx] at hattempt; cases hattempt

end Outcome

namespace Parser

variable {α β : Type} {p : Parser α} {q : Parser β} {c : Cursor}

/-! ## Parsers that look at the text -/

/-- One character that is there, reported with the place it takes. -/
theorem value_of_one {char : Char} {parsed : Parsed Char}
    (h : (Outcome.ofChecked do
      let stop ← addOffsets c.idx 1
      Parsed.new c.idx stop char).result = .ok parsed) : parsed.value = char := by
  have hone := Result.ofChecked_eq_ok h
  cases hstop : addOffsets c.idx 1 with
  | error cause => rw [hstop] at hone; cases hone
  | ok stop =>
    rw [hstop] at hone
    obtain ⟨hparsed, -⟩ := Parsed.new_eq_ok hone
    rw [hparsed]

theorem anyChar_eq_ok {parsed : Parsed Char} (h : (anyChar.parse c).result = .ok parsed) :
    c.peek = some parsed.value ∧ parsed.range = ⟨c.idx, c.idx + 1⟩ := by
  refine ⟨?_, range_of_anyChar h⟩
  unfold anyChar at h
  dsimp only at h
  split at h
  · next hpeek => rw [hpeek, value_of_one h]
  · cases h

theorem satisfy_eq_ok {accepts : Char → Bool} {describe : Char → String} {parsed : Parsed Char}
    (h : ((satisfy accepts describe).parse c).result = .ok parsed) :
    c.peek = some parsed.value ∧ parsed.range = ⟨c.idx, c.idx + 1⟩ := by
  refine ⟨?_, range_of_satisfy h⟩
  unfold satisfy at h
  dsimp only at h
  split at h
  · next hpeek =>
    split at h
    · rw [hpeek, value_of_one h]
    · cases h
  · cases h

theorem endOfInput_eq_ok {parsed : Parsed Unit} (h : (endOfInput.parse c).result = .ok parsed) :
    parsed = .empty c.idx () := by
  unfold endOfInput at h
  dsimp only at h
  split at h
  · exact (Result.ok.inj h).symm
  · cases h

theorem range_of_moveTo {idx : Nat} {parsed : Parsed Unit}
    (h : ((moveTo idx).parse c).result = .ok parsed) : parsed.range = ⟨c.idx, idx⟩ := by
  unfold moveTo at h
  dsimp only at h
  split at h
  · obtain ⟨hparsed, -⟩ := Parsed.new_eq_ok (Result.ofChecked_eq_ok h)
    rw [hparsed]
  · cases h

theorem literal_eq_ok {expected : String} {parsed : Parsed String}
    (h : ((literal expected).parse c).result = .ok parsed) :
    expected.toList <+: c.rest ∧ parsed.value = expected ∧
      parsed.range = ⟨c.idx, c.idx + expected.toList.length⟩ := by
  have hrange := range_of_literal h
  unfold literal at h
  dsimp only at h
  split at h
  · next hstarts =>
    have hread := Result.ofChecked_eq_ok h
    cases hstep : c.stepOver expected.toList with
    | error cause => rw [hstep] at hread; cases hread
    | ok behind =>
      rw [hstep] at hread
      obtain ⟨hparsed, -⟩ := Parsed.new_eq_ok hread
      exact ⟨(Text.startsWith_iff_isPrefix _ _).mp hstarts, by rw [hparsed], hrange⟩
  · cases h

/-! ## One parser changed -/

theorem mapChecked_eq_ok {f : α → Except Fault β} {parsed : Parsed β}
    (h : ((p.mapChecked f).parse c).result = .ok parsed) :
    ∃ a, (p.parse c).result = .ok a ∧ f a.value = .ok parsed.value ∧ parsed.range = a.range := by
  obtain ⟨a, ha, hnext⟩ := Outcome.bind_eq_ok h
  obtain ⟨value, hvalue, hparsed⟩ := Outcome.ofChecked_bind_eq_ok hnext
  cases Result.ok.inj hparsed
  exact ⟨a, ha, hvalue, rfl⟩

theorem mapError_eq_ok {change : ParseError → Except Fault ParseError} {parsed : Parsed α}
    (h : ((p.mapError change).parse c).result = .ok parsed) :
    (p.parse c).result = .ok parsed := by
  rcases Outcome.attempt_bind_eq_ok h with ⟨a, ha, hparsed⟩ | ⟨e, -, hnext⟩
  · rw [ha]
    exact hparsed
  · obtain ⟨changed, -, hfail⟩ := Outcome.ofChecked_bind_eq_ok hnext
    cases hfail

theorem withRange_eq_ok {parsed : Parsed (α × Range)}
    (h : (p.withRange.parse c).result = .ok parsed) :
    ∃ a, (p.parse c).result = .ok a ∧ parsed = ⟨a.range, (a.value, a.range)⟩ := by
  obtain ⟨a, ha, hparsed⟩ := Outcome.bind_eq_ok h
  exact ⟨a, ha, (Result.ok.inj hparsed).symm⟩

/-! ## One parser behind another -/

theorem bind_eq_ok {next : α → Parser β} {parsed : Parsed β}
    (h : ((p.bind next).parse c).result = .ok parsed) :
    ∃ a behind, (p.parse c).result = .ok a ∧ c.goto a.range.stop = .ok behind ∧
      ((next a.value).parse behind).result = .ok parsed := by
  obtain ⟨a, ha, hmove⟩ := Outcome.bind_eq_ok h
  obtain ⟨behind, hbehind, hnext⟩ := Outcome.ofChecked_bind_eq_ok hmove
  exact ⟨a, behind, ha, hbehind, hnext⟩

theorem both_eq_ok {parsed : Parsed (α × β)} (h : ((p.both q).parse c).result = .ok parsed) :
    ∃ left behind right, (p.parse c).result = .ok left ∧ c.goto left.range.stop = .ok behind ∧
      (q.parse behind).result = .ok right ∧
      parsed = ⟨⟨left.range.start, right.range.stop⟩, (left.value, right.value)⟩ := by
  obtain ⟨left, hleft, hmove⟩ := Outcome.bind_eq_ok h
  obtain ⟨behind, hbehind, hsecond⟩ := Outcome.ofChecked_bind_eq_ok hmove
  obtain ⟨right, hright, hmerge⟩ := Outcome.bind_eq_ok hsecond
  obtain ⟨range, hrange, hparsed⟩ := Outcome.ofChecked_bind_eq_ok hmerge
  obtain ⟨hends, -⟩ := Range.new_eq_ok hrange
  refine ⟨left, behind, right, hleft, hbehind, hright, ?_⟩
  rw [← hends]
  exact (Result.ok.inj hparsed).symm

/-! ## Alternatives -/

theorem orElse_eq_ok {q : Parser α} {parsed : Parsed α}
    (h : ((p.orElse q).parse c).result = .ok parsed) :
    (p.parse c).result = .ok parsed ∨ (q.parse c).result = .ok parsed := by
  rcases Outcome.attempt_bind_eq_ok h with ⟨a, ha, hparsed⟩ | ⟨e, -, hnext⟩
  · rw [ha]
    exact .inl hparsed
  · exact .inr hnext

theorem tryEach_eq_ok {ps : List (Parser α)} {last : Option ParseError} {parsed : Parsed α}
    (h : (tryEach c last ps).result = .ok (.ok parsed)) :
    ∃ p ∈ ps, (p.parse c).result = .ok parsed := by
  induction ps generalizing last with
  | nil => cases h
  | cons p ps ih =>
    rcases Outcome.attempt_bind_eq_ok h with ⟨a, ha, hparsed⟩ | ⟨e, -, hnext⟩
    · cases hparsed
      exact ⟨p, List.mem_cons_self, ha⟩
    · obtain ⟨q, hq, hparsed⟩ := ih hnext
      exact ⟨q, List.mem_cons_of_mem _ hq, hparsed⟩

/-- What follows alternatives that were tried in order succeeds only with a success
of theirs. -/
theorem tried_eq_ok {ps : List (Parser α)} {otherwise : Option ParseError → Outcome (Parsed α)}
    {parsed : Parsed α} (hotherwise : ∀ last, (otherwise last).result ≠ .ok parsed)
    (h : (do
      match ← tryEach c none ps with
      | .ok a => return a
      | .error last => otherwise last).result = .ok parsed) :
    ∃ p ∈ ps, (p.parse c).result = .ok parsed := by
  obtain ⟨tried, htried, hnext⟩ := Outcome.bind_eq_ok h
  cases tried with
  | ok a =>
    cases Result.ok.inj hnext
    exact tryEach_eq_ok htried
  | error last => exact absurd hnext (hotherwise last)

theorem firstOf_eq_ok {ps : List (Parser α)} {parsed : Parsed α}
    (h : ((firstOf ps).parse c).result = .ok parsed) :
    ∃ p ∈ ps, (p.parse c).result = .ok parsed :=
  tried_eq_ok (fun _ => Outcome.record_fail_ne_ok _ _) h

theorem choice_eq_ok {ps : List (Parser α)} {parsed : Parsed α}
    (h : ((choice ps).parse c).result = .ok parsed) :
    ∃ p ∈ ps, (p.parse c).result = .ok parsed :=
  tried_eq_ok (fun _ => Outcome.record_fail_ne_ok _ _) h

/-! ## Looking ahead -/

theorem range_of_lookahead {parsed : Parsed (Option α)}
    (h : (p.lookahead.parse c).result = .ok parsed) : parsed.range = .empty c.idx := by
  rcases Outcome.attempt_bind_eq_ok h with ⟨a, -, hparsed⟩ | ⟨e, -, hparsed⟩
  · exact congrArg Parsed.range (Result.ok.inj hparsed).symm
  · exact congrArg Parsed.range (Result.ok.inj hparsed).symm

theorem optional_eq_ok {parsed : Parsed (Option α)}
    (h : (p.optional.parse c).result = .ok parsed) :
    (∃ a, (p.parse c).result = .ok a ∧ parsed = a.map some) ∨ parsed = .empty c.idx none := by
  rcases Outcome.attempt_bind_eq_ok h with ⟨a, ha, hparsed⟩ | ⟨e, -, hparsed⟩
  · exact .inl ⟨a, ha, (Result.ok.inj hparsed).symm⟩
  · exact .inr (Result.ok.inj hparsed).symm

theorem succeeds_eq_ok {parsed : Parsed Bool} (h : (p.succeeds.parse c).result = .ok parsed) :
    (∃ a, (p.parse c).result = .ok a ∧ parsed = a.map fun _ => true) ∨
      parsed = .empty c.idx false := by
  rcases Outcome.attempt_bind_eq_ok h with ⟨a, ha, hparsed⟩ | ⟨e, -, hparsed⟩
  · exact .inl ⟨a, ha, (Result.ok.inj hparsed).symm⟩
  · exact .inr (Result.ok.inj hparsed).symm

theorem range_of_fails {parsed : Parsed Bool} (h : (p.fails.parse c).result = .ok parsed) :
    parsed.range = .empty c.idx := by
  rcases Outcome.attempt_bind_eq_ok h with ⟨a, -, hparsed⟩ | ⟨e, -, hparsed⟩
  · exact congrArg Parsed.range (Result.ok.inj hparsed).symm
  · exact congrArg Parsed.range (Result.ok.inj hparsed).symm

theorem notFollowedBy_eq_ok {parsed : Parsed Unit}
    (h : (p.notFollowedBy.parse c).result = .ok parsed) : parsed = .empty c.idx () := by
  rcases Outcome.attempt_bind_eq_ok h with ⟨a, -, hfail⟩ | ⟨e, -, hparsed⟩
  · cases hfail
  · exact (Result.ok.inj hparsed).symm

/-! ## Repetition, bodies and loops -/

/-- The rounds of a repetition from a cursor on: the values they came to and the
cursor they ended at. -/
inductive Rounds (p : Parser α) : Cursor → List α → Cursor → Prop where
  /-- The parser failed. -/
  | failed {c : Cursor} {error : ParseError} (h : (p.parse c).result = .fail error) :
    Rounds p c [] c
  /-- The parser read nothing; its value counts once. -/
  | stalled {c : Cursor} {a : Parsed α} (h : (p.parse c).result = .ok a)
    (hstop : a.range.stop ≤ c.idx) : Rounds p c [a.value] c
  /-- The parser read something, and more rounds followed. -/
  | forward {c next last : Cursor} {a : Parsed α} {values : List α}
    (h : (p.parse c).result = .ok a) (hlt : c.idx < a.range.stop)
    (hgo : c.goto a.range.stop = .ok next) (hmore : Rounds p next values last) :
    Rounds p c (a.value :: values) last

theorem rounds_of_collect : ∀ {c last : Cursor} {values : List α},
    (p.collect c).result = .ok (values, last) → Rounds p c values last := by
  intro c last values h
  rw [collect_eq] at h
  rcases Outcome.attempt_bind_eq_ok h with ⟨a, ha, hround⟩ | ⟨e, he, hround⟩
  · dsimp only at hround
    split at hround
    · next hstop =>
      obtain ⟨_, -, hend⟩ := Outcome.bind_eq_ok hround
      cases Result.ok.inj hend
      exact .stalled ha hstop
    · next hstop =>
      obtain ⟨next, hgo, hmore⟩ := Outcome.ofChecked_bind_eq_ok hround
      obtain ⟨⟨more, _⟩, hcollect, hend⟩ := Outcome.bind_eq_ok hmore
      cases Result.ok.inj hend
      have hlt : c.idx < a.range.stop := Nat.lt_of_not_le hstop
      have hshort : next.remaining < c.remaining := Cursor.remaining_lt_of_goto hgo hlt
      exact .forward ha hlt hgo (rounds_of_collect hcollect)
  · cases Result.ok.inj hround
    exact .failed he
termination_by c => c.remaining

theorem atLeast_eq_ok {min : Nat} {parsed : Parsed (List α)}
    (h : ((p.atLeast min).parse c).result = .ok parsed) :
    ∃ last, Rounds p c parsed.value last ∧ min ≤ parsed.value.length ∧
      parsed.range = ⟨c.idx, last.idx⟩ := by
  obtain ⟨⟨values, last⟩, hcollect, hend⟩ := Outcome.bind_eq_ok h
  dsimp only at hend
  split at hend
  · cases hend
  · next hmin =>
    obtain ⟨hparsed, -⟩ := Parsed.new_eq_ok (Result.ofChecked_eq_ok hend)
    rw [hparsed]
    exact ⟨last, rounds_of_collect hcollect, Nat.le_of_not_lt hmin, rfl⟩

theorem many1_eq_ok {parsed : Parsed (List α)} (h : (p.many1.parse c).result = .ok parsed) :
    (p.many.parse c).result = .ok parsed := by
  obtain ⟨a, ha, hend⟩ := Outcome.bind_eq_ok h
  split at hend
  · cases hend
  · cases Result.ok.inj hend
    exact ha

theorem start_of_sequence {body : (start : Cursor) → Steps start α} {parsed : Parsed α}
    (h : ((sequence body).parse c).result = .ok parsed) : parsed.range.start = c.idx := by
  obtain ⟨⟨value, behind⟩, -, hend⟩ := Outcome.bind_eq_ok h
  obtain ⟨hparsed, -⟩ := Parsed.new_eq_ok (Result.ofChecked_eq_ok hend)
  rw [hparsed]

theorem start_of_forEach {ι : Type} {condition : Parser α}
    {body : α → LoopState ι → (start : Cursor) → Steps start (LoopState ι)}
    {parsed : Parsed (LoopOutput ι)}
    (h : ((forEach condition body).parse c).result = .ok parsed) : parsed.range.start = c.idx := by
  obtain ⟨⟨state, last⟩, -, hend⟩ := Outcome.bind_eq_ok h
  obtain ⟨hparsed, -⟩ := Parsed.new_eq_ok (Result.ofChecked_eq_ok hend)
  rw [hparsed]

end Parser

end Parsing
