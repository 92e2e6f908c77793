import Parsing.Proofs.Results

/-!
# Alternatives in a list and in pairs

A list of alternatives is tried by a loop, a pair of them by a comparison. The loops can be
written with pairs:

> `alternatives_refine_orElse`: `firstOf` of a list that is not empty is `orElse` between
> its members, bracketed to the left or to the right; `choice` differs from it in the error
> only; and either of them, of two lists put together, is `orElse` of the two parts.

What decides is told by `result_firstOf_decided`: the first alternative that does not fail,
or else the last one. All of this is about results. The loops record that they were
exhausted and the pairs do not.

`Result.orElse` is what carries it, for it is associative.
-/

namespace Parsing

namespace Result

variable {α : Type}

/-- The first result, or the second where the first one is a failure. -/
def orElse (x y : Result α) : Result α :=
  match x with
  | .fail _ => y
  | other => other

/-- Whether a result is a failure. -/
def Failed (x : Result α) : Prop := ∃ error, x = .fail error

variable {x y z : Result α}

theorem not_failed_ok (a : α) : ¬ (ok a).Failed := fun ⟨_, h⟩ => nomatch h

theorem not_failed_fault (cause : Fault) : ¬ (fault cause : Result α).Failed :=
  fun ⟨_, h⟩ => nomatch h

theorem not_failed_exhausted : ¬ (exhausted : Result α).Failed := fun ⟨_, h⟩ => nomatch h

theorem orElse_assoc (x y z : Result α) : (x.orElse y).orElse z = x.orElse (y.orElse z) := by
  cases x <;> rfl

theorem Failed.orElse_eq (h : x.Failed) : x.orElse y = y := by
  obtain ⟨error, rfl⟩ := h
  rfl

theorem orElse_of_not_failed (h : ¬ x.Failed) : x.orElse y = x := by
  cases x with
  | fail error => exact absurd ⟨error, rfl⟩ h
  | ok a => rfl
  | fault cause => rfl
  | exhausted => rfl

theorem failed_orElse_iff : (x.orElse y).Failed ↔ x.Failed ∧ y.Failed := by
  by_cases hx : x.Failed
  · rw [hx.orElse_eq]
    exact ⟨fun hy => ⟨hx, hy⟩, And.right⟩
  · rw [orElse_of_not_failed hx]
    exact ⟨fun h => absurd h hx, And.left⟩

theorem orElse_eq_iff_of_not_failed (hz : ¬ z.Failed) (hy : y.Failed) :
    x.orElse y = z ↔ x = z := by
  by_cases hx : x.Failed
  · rw [hx.orElse_eq]
    exact ⟨fun h => absurd (h ▸ hy) hz, fun h => absurd (h ▸ hx) hz⟩
  · rw [orElse_of_not_failed hx]

end Result

namespace Parser

variable {α : Type}

/-- Alternatives in pairs, bracketed to the left. -/
def orElseLeft (p : Parser α) (ps : List (Parser α)) : Parser α := ps.foldl orElse p

/-- Alternatives in pairs, bracketed to the right. -/
def orElseRight (p : Parser α) : List (Parser α) → Parser α
  | [] => p
  | q :: qs => p.orElse (orElseRight q qs)

/-- Whether a parser fails at a cursor. -/
def FailsAt (p : Parser α) (c : Cursor) : Prop := (p.parse c).result.Failed

variable {c : Cursor} {p q : Parser α} {ps xs ys : List (Parser α)}

theorem result_orElse_eq (p q : Parser α) (c : Cursor) :
    ((p.orElse q).parse c).result = (p.parse c).result.orElse (q.parse c).result := by
  rw [result_orElse]
  cases (p.parse c).result <;> rfl

/-! ## One alternative more -/

/-- The error that was kept is dropped as soon as there is an alternative left. -/
theorem result_tryEach_cons (c : Cursor) (last : Option ParseError) (p : Parser α)
    (ps : List (Parser α)) : (tryEach c last (p :: ps)).result =
    match (p.parse c).result with
    | .ok parsed => .ok (.ok parsed)
    | .fail error => (tryEach c (some error) ps).result
    | .fault cause => .fault cause
    | .exhausted => .exhausted := by
  rw [tryEach, result_attempt_bind]
  cases (p.parse c).result <;> rfl

/-- What a list comes to by its own rule of what is left when all alternatives failed. -/
def settled (fallback : Option ParseError → ParseError) :
    Result (Except (Option ParseError) (Parsed α)) → Result (Parsed α)
  | .ok (.ok parsed) => .ok parsed
  | .ok (.error last) => .fail (fallback last)
  | .fail error => .fail error
  | .fault cause => .fault cause
  | .exhausted => .exhausted

theorem result_firstOf (ps : List (Parser α)) (c : Cursor) : ((firstOf ps).parse c).result =
    settled (fun last => last.getD ⟨c.idx, noMoreParsers⟩) (tryEach c none ps).result := by
  unfold firstOf
  rw [Outcome.result_bind]
  cases (tryEach c none ps).result with
  | ok ended => cases ended <;> rfl
  | fail error => rfl
  | fault cause => rfl
  | exhausted => rfl

theorem result_choice (ps : List (Parser α)) (c : Cursor) : ((choice ps).parse c).result =
    settled (fun _ => ⟨c.idx, noMoreParsers⟩) (tryEach c none ps).result := by
  unfold choice
  rw [Outcome.result_bind]
  cases (tryEach c none ps).result with
  | ok ended => cases ended <;> rfl
  | fail error => rfl
  | fault cause => rfl
  | exhausted => rfl

theorem result_firstOf_nil (c : Cursor) :
    ((firstOf ([] : List (Parser α))).parse c).result = .fail ⟨c.idx, noMoreParsers⟩ := rfl

/-- The error of the last alternative is kept. -/
theorem result_firstOf_one (p : Parser α) (c : Cursor) :
    ((firstOf [p]).parse c).result = (p.parse c).result := by
  rw [result_firstOf, result_tryEach_cons]
  cases (p.parse c).result <;> rfl

theorem result_firstOf_cons (p q : Parser α) (qs : List (Parser α)) (c : Cursor) :
    ((firstOf (p :: q :: qs)).parse c).result =
      (p.parse c).result.orElse ((firstOf (q :: qs)).parse c).result := by
  rw [result_firstOf, result_tryEach_cons]
  cases (p.parse c).result with
  | fail error =>
    -- The error is not asked for again, since there is an alternative left.
    exact (result_firstOf (q :: qs) c).symm
  | ok parsed => rfl
  | fault cause => rfl
  | exhausted => rfl

theorem result_choice_nil (c : Cursor) :
    ((choice ([] : List (Parser α))).parse c).result = .fail ⟨c.idx, noMoreParsers⟩ := rfl

theorem result_choice_cons (p : Parser α) (ps : List (Parser α)) (c : Cursor) :
    ((choice (p :: ps)).parse c).result =
      (p.parse c).result.orElse ((choice ps).parse c).result := by
  rw [result_choice, result_choice, result_tryEach_cons]
  cases (p.parse c).result with
  | fail error => cases ps <;> rfl
  | ok parsed => rfl
  | fault cause => rfl
  | exhausted => rfl

/-! ## Lists and pairs -/

theorem result_orElseRight (p : Parser α) (ps : List (Parser α)) (c : Cursor) :
    ((orElseRight p ps).parse c).result = ((firstOf (p :: ps)).parse c).result := by
  induction ps generalizing p with
  | nil => exact (result_firstOf_one p c).symm
  | cons q qs ih => rw [orElseRight, result_orElse_eq, ih, result_firstOf_cons]

/-- A pair at the front can be moved behind the bracket. -/
theorem result_orElseLeft (p : Parser α) (ps : List (Parser α)) (c : Cursor) :
    ((orElseLeft p ps).parse c).result = ((firstOf (p :: ps)).parse c).result := by
  induction ps generalizing p with
  | nil => exact (result_firstOf_one p c).symm
  | cons q qs ih =>
    show ((orElseLeft (p.orElse q) qs).parse c).result = _
    rw [ih, result_firstOf_cons]
    cases qs with
    | nil => rw [result_firstOf_one, result_firstOf_one, result_orElse_eq]
    | cons r rs =>
      rw [result_firstOf_cons, result_firstOf_cons, result_orElse_eq, Result.orElse_assoc]

theorem result_firstOf_append (xs : List (Parser α)) (y : Parser α) (ys : List (Parser α))
    (c : Cursor) : ((firstOf (xs ++ y :: ys)).parse c).result =
      ((firstOf xs).parse c).result.orElse ((firstOf (y :: ys)).parse c).result := by
  induction xs with
  | nil => rfl
  | cons p xs ih =>
    cases xs with
    | nil => rw [result_firstOf_one]; exact result_firstOf_cons p y ys c
    | cons q xs =>
      rw [result_firstOf_cons, Result.orElse_assoc, ← ih]
      exact result_firstOf_cons p q (xs ++ y :: ys) c

theorem result_choice_append (xs ys : List (Parser α)) (c : Cursor) :
    ((choice (xs ++ ys)).parse c).result =
      ((choice xs).parse c).result.orElse ((choice ys).parse c).result := by
  induction xs with
  | nil => rfl
  | cons p xs ih =>
    rw [result_choice_cons, Result.orElse_assoc, ← ih]
    exact result_choice_cons p (xs ++ ys) c

/-- The two differ in the error only. -/
theorem result_choice_eq (ps : List (Parser α)) (c : Cursor) : ((choice ps).parse c).result =
    ((firstOf ps).parse c).result.orElse (.fail ⟨c.idx, noMoreParsers⟩) := by
  induction ps with
  | nil => rfl
  | cons p ps ih =>
    cases ps with
    | nil => rw [result_choice_cons, result_firstOf_one, result_choice_nil]
    | cons q qs => rw [result_choice_cons, ih, result_firstOf_cons, Result.orElse_assoc]

/-! ## What decides -/

theorem failsAt_firstOf_iff : (firstOf ps).FailsAt c ↔ ∀ p ∈ ps, p.FailsAt c := by
  induction ps with
  | nil => exact ⟨fun _ => nofun, fun _ => ⟨_, result_firstOf_nil c⟩⟩
  | cons p ps ih =>
    rw [List.forall_mem_cons]
    cases ps with
    | nil => simp [FailsAt, result_firstOf_one]
    | cons q qs =>
      rw [← ih]
      unfold FailsAt
      rw [result_firstOf_cons, Result.failed_orElse_iff]

theorem failsAt_choice_iff : (choice ps).FailsAt c ↔ ∀ p ∈ ps, p.FailsAt c := by
  rw [← failsAt_firstOf_iff]
  unfold FailsAt
  rw [result_choice_eq, Result.failed_orElse_iff]
  exact ⟨And.left, fun h => ⟨h, _, rfl⟩⟩

theorem choice_eq_fail {error : ParseError} (h : ((choice ps).parse c).result = .fail error) :
    error = ⟨c.idx, noMoreParsers⟩ := by
  have hfails : (firstOf ps).FailsAt c :=
    failsAt_firstOf_iff.mpr (failsAt_choice_iff.mp ⟨error, h⟩)
  rw [result_choice_eq, Result.Failed.orElse_eq hfails] at h
  exact (Result.fail.inj h).symm

/-- Up to the error a choice comes to the same as the first of its alternatives. -/
theorem choice_eq_iff {result : Result (Parsed α)} (h : ¬ result.Failed) :
    ((choice ps).parse c).result = result ↔ ((firstOf ps).parse c).result = result := by
  rw [result_choice_eq]
  exact Result.orElse_eq_iff_of_not_failed h ⟨_, rfl⟩

/-- Behind alternatives that fail, the next one decides if it does not fail, and also if it
is the last one. -/
theorem result_firstOf_decided (hxs : ∀ x ∈ xs, x.FailsAt c) (h : ys = [] ∨ ¬ p.FailsAt c) :
    ((firstOf (xs ++ p :: ys)).parse c).result = (p.parse c).result := by
  rw [result_firstOf_append, Result.Failed.orElse_eq (failsAt_firstOf_iff.mpr hxs)]
  rcases h with rfl | hp
  · exact result_firstOf_one p c
  · cases ys with
    | nil => exact result_firstOf_one p c
    | cons q qs => rw [result_firstOf_cons, Result.orElse_of_not_failed hp]

/-- Lists of alternatives are pairs of alternatives, whatever these come to. The first one
that does not fail decides, by a value or by a fault. If all of them fail, `firstOf` reports
what the last one reports, and `choice` that there are no more parsers. -/
theorem alternatives_refine_orElse (c : Cursor) :
    (∀ (p : Parser α) (ps : List (Parser α)),
      ((firstOf (p :: ps)).parse c).result = ((orElseLeft p ps).parse c).result ∧
      ((firstOf (p :: ps)).parse c).result = ((orElseRight p ps).parse c).result) ∧
    (∀ (xs : List (Parser α)) (p : Parser α) (ys : List (Parser α)), (∀ x ∈ xs, x.FailsAt c) →
      ys = [] ∨ ¬ p.FailsAt c →
      ((firstOf (xs ++ p :: ys)).parse c).result = (p.parse c).result) ∧
    (∀ xs ys : List (Parser α), ys ≠ [] → ((firstOf (xs ++ ys)).parse c).result =
      (((firstOf xs).orElse (firstOf ys)).parse c).result) ∧
    (∀ ps : List (Parser α),
      (∀ parsed, ((choice ps).parse c).result = .ok parsed ↔
        ((firstOf ps).parse c).result = .ok parsed) ∧
      (∀ cause, ((choice ps).parse c).result = .fault cause ↔
        ((firstOf ps).parse c).result = .fault cause) ∧
      (((choice ps).parse c).result = .exhausted ↔ ((firstOf ps).parse c).result = .exhausted) ∧
      ((choice ps).FailsAt c ↔ ∀ p ∈ ps, p.FailsAt c) ∧
      ∀ error, ((choice ps).parse c).result = .fail error →
        error = ⟨c.idx, "no more parsers"⟩) ∧
    ∀ xs ys : List (Parser α), ((choice (xs ++ ys)).parse c).result =
      (((choice xs).orElse (choice ys)).parse c).result := by
  refine ⟨fun p ps => ⟨(result_orElseLeft p ps c).symm, (result_orElseRight p ps c).symm⟩,
    fun xs p ys => result_firstOf_decided, fun xs ys hys => ?_, fun ps => ?_, fun xs ys => ?_⟩
  · obtain ⟨y, ys, rfl⟩ := List.exists_cons_of_ne_nil hys
    rw [result_firstOf_append, result_orElse_eq]
  · exact ⟨fun parsed => choice_eq_iff (Result.not_failed_ok parsed),
      fun cause => choice_eq_iff (Result.not_failed_fault cause),
      choice_eq_iff Result.not_failed_exhausted, failsAt_choice_iff, fun error => choice_eq_fail⟩
  · rw [result_choice_append, result_orElse_eq]

/-- Alternatives that fail further on, break a promise and lie about where they stop. -/
theorem alternatives_refine_orElse_mixed :
    let c : Cursor := .atOffset ['é', 'a', 'b'] 1
    let deep : Parser String := (literal "a").keepLeft (literal "c")
    let broken : Parser String := faulty .badStep
    let liar : Parser String := report 9 99 "x"
    ((firstOf [deep, broken, liar]).parse c).result = .fault .badStep ∧
      ((firstOf [deep, liar, broken]).parse c).result = .ok ⟨⟨9, 99⟩, "x"⟩ ∧
      ((choice [deep, liar, broken]).parse c).result = .ok ⟨⟨9, 99⟩, "x"⟩ ∧
      ((firstOf ([literal "c"] ++ [deep])).parse c).result =
        (((firstOf [literal "c"]).orElse (firstOf [deep])).parse c).result ∧
      ((firstOf ([literal "c"] ++ [deep])).parse c).result = .fail ⟨2, "Expected: 'c'"⟩ ∧
      ((choice [literal "c", deep]).parse c).result = .fail ⟨1, "no more parsers"⟩ := by
  intro c deep broken liar
  have hdeep : (deep.parse c).result = .fail ⟨2, "Expected: 'c'"⟩ := by decide +kernel
  have hfails : ∀ x ∈ [deep], x.FailsAt c := by
    intro x hx
    rw [List.mem_singleton.mp hx]
    exact ⟨_, hdeep⟩
  have hother : ∀ x ∈ [(literal "c" : Parser String)], x.FailsAt c := by
    intro x hx
    rw [List.mem_singleton.mp hx]
    exact ⟨⟨1, "Expected: 'c'"⟩, by decide +kernel⟩
  obtain ⟨-, hdecided, happend, hchoice, -⟩ := alternatives_refine_orElse (α := String) c
  obtain ⟨hsame, -, -, hall, hmessage⟩ := hchoice [literal "c", deep]
  have hfirst := hdecided [deep] liar [broken] hfails (.inr (Result.not_failed_ok _))
  have hfault := hdecided [deep] broken [liar] hfails (.inr (Result.not_failed_fault _))
  refine ⟨hfault, hfirst, ((hchoice [deep, liar, broken]).1 _).mpr hfirst,
    happend _ _ (List.cons_ne_nil _ _), ?_, ?_⟩
  · rw [hdecided [literal "c"] deep [] hother (.inl rfl), hdeep]
  · have hboth : ∀ x ∈ [literal "c", deep], x.FailsAt c :=
      List.forall_mem_cons.mpr ⟨hother _ (List.mem_singleton.mpr rfl), hfails⟩
    obtain ⟨error, herror⟩ := hall.mpr hboth
    rw [herror, hmessage error herror]
    rfl

end Parser

end Parsing
