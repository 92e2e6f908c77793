import Parsing.Proofs.Scheme

/-!
# Runs from the same place

The correspondence of two runs that are at the same place and report the same
ranges, while their errors may differ. It is taken on cursors with a property
that moves keep, so that it can also speak of runs beyond some point only.

`inStep_self` is for runs with the same errors: then every part goes in step with
itself that answers where the runs come through.
-/

namespace Parsing

/-- What runs from the same place may differ in. -/
structure SameRuns where
  /-- The places that the runs come through. -/
  places : Cursor → Prop
  places_goto : ∀ {c d idx}, places c → c.goto idx = .ok d → places d
  /-- The errors that may stand opposite each other. -/
  errors : ParseError → ParseError → Prop
  errors_refl : ∀ e, errors e e
  errors_withMessage : ∀ {e d} message, errors e d →
    errors (e.withMessage message) (d.withMessage message)
  /-- Whether both runs may be exhausted. -/
  exhausted : Prop
  /-- Whether the first one may be exhausted where the second one is not. -/
  behind : Prop

namespace SameRuns

theorem withMessage_eq {e d : ParseError} (message : String) (h : d = e) :
    d.withMessage message = e.withMessage message := by rw [h]

/-- Runs with the same errors. -/
def withSameErrors (places : Cursor → Prop)
    (places_goto : ∀ {c d idx}, places c → c.goto idx = .ok d → places d)
    (exhausted behind : Prop) : SameRuns where
  places := places
  places_goto := places_goto
  errors e d := d = e
  errors_refl _ := rfl
  errors_withMessage := withMessage_eq
  exhausted := exhausted
  behind := behind

variable (R : SameRuns) {c c' : Cursor}

/-- The same place. -/
def cursors (c c' : Cursor) : Prop := c' = c ∧ R.places c

theorem related_goto {n : Nat} (hc : R.cursors c c') :
    RelatedExcept (fun f g => g = f) R.cursors (c.goto n) (c'.goto n) := by
  obtain ⟨rfl, hplace⟩ := hc
  cases hgo : c'.goto n with
  | error cause => exact .error rfl
  | ok d => exact .ok ⟨rfl, R.places_goto hplace hgo⟩

theorem related_self {α : Type} (x : Except Fault α) :
    RelatedExcept (fun f g => g = f) (fun a b => b = a) x x :=
  @RelatedExcept.refl _ _ (fun f g => g = f) (fun _ => rfl) x

/-- Runs from the same place, as a correspondence. -/
def correspondence : Correspondence where
  faults f g := g = f
  exhausted := R.exhausted
  behind := R.behind
  cursors := R.cursors
  ranges _ _ r r' := r' = r
  errors _ _ := R.errors
  rest_eq hc := congrArg _ hc.1
  atEnd_eq hc := congrArg _ hc.1
  canWalk_eq hc := congrArg (Cursor.canWalk · 1) hc.1
  idx_lt_iff hc hd := by rw [hc.1, hd.cursors.1]
  stop_le_iff hc hr := by rw [hc.1, hr]
  goto hc hr := by rw [hr]; exact R.related_goto hc
  walk hc _ := by
    unfold Cursor.walk
    rw [hc.1]
    exact R.related_goto ⟨rfl, hc.2⟩
  span hc hd := by rw [hc.1, hd.cursors.1]
  one hc _ := by
    rw [hc.1]
    refine (related_self _).imp fun stop stop' h => ?_
    rw [h]
  stepOver hc _ := by
    rw [hc.1]
    refine (related_self _).imp fun d d' h => ?_
    rw [h]
  ranges_onward _ _ hr := hr
  errors_onward _ _ he := he
  merge _ hr _ _ _ hs := by
    rw [hr, hs]
    exact related_self _
  error_here message hc := by
    rw [hc.1]
    exact R.errors_refl _
  withMessage message he := R.errors_withMessage message he

theorem eq_of_reports {α : Type} {a b : Parsed α} (h : R.correspondence.Reports c c' a b) :
    b = a := by
  obtain ⟨range, value⟩ := a
  obtain ⟨range', value'⟩ := b
  obtain ⟨hrange, hvalue⟩ := h
  cases hrange
  cases hvalue
  rfl

/-- A parser goes in step with itself where it is exhausted only if it may be. -/
theorem parsers_self {α : Type} {p : Parser α}
    (hexhausted : ∀ c, R.places c → (p.parse c).result = .exhausted → R.exhausted) :
    R.correspondence.Parsers p p := by
  intro c c' hc
  obtain ⟨hsame, hplace⟩ := hc
  subst hsame
  unfold Outcome.Related
  cases hresult : (p.parse c').result with
  | ok a => exact .ok ⟨rfl, rfl⟩
  | fail e => exact .fail (R.errors_refl e)
  | fault f => exact .fault rfl
  | exhausted => exact .exhausted (hexhausted c' hplace hresult)

theorem parsers_moveTo (idx : Nat) :
    R.correspondence.Parsers (Parser.moveTo idx) (Parser.moveTo idx) := by
  refine R.parsers_self fun c _ h => ?_
  unfold Parser.moveTo at h
  dsimp only at h
  split at h
  · unfold Outcome.ofChecked at h
    cases hparsed : Parsed.new c.idx idx () with
    | ok parsed => rw [hparsed] at h; cases h
    | error cause => rw [hparsed] at h; cases h
  · cases h

/-- The parts of a scheme go in step with themselves when errors are the same. -/
theorem inStep_self {ρ : Type} {T : Scheme ρ} {call call' : ρ → Parser Value}
    (herrors : ∀ {e d}, R.errors e d → d = e)
    (hforeign : ∀ {p p'}, T.foreign p p' → R.correspondence.Parsers p p')
    (hrefs : T.refs → ∀ name, R.correspondence.Parsers (call name) (call' name))
    (hgiven : ∀ {g g'}, T.given g g' →
      R.correspondence.Parsers (g.parserWith call) (g'.parserWith call'))
    (hinserts : ∀ {change}, ¬ T.inserts change) (hbegins : ∀ c, T.begins c)
    (hspans : ∀ c r, T.spans c r) (hraises : ∀ {c e e'}, T.raises c e e' → e' = e)
    (hcaught : ∀ c e, T.caught c e e) : T.InStep R.correspondence call call' where
  foreign := hforeign
  moves _ := R.parsers_moveTo
  refs := hrefs
  given := hgiven
  maps _ _ := related_self _
  changes := by
    intro change c c' e e' _ he
    rw [herrors he]
    refine (related_self (change e)).imp fun d d' hd => ?_
    rw [hd]
    exact R.errors_refl d
  inserts h := absurd h hinserts
  ranges_eq _ hr := hr
  begins _ := hbegins _
  spans _ := hspans _ _
  raises := by
    intro e e' c c' h _
    rw [hraises h]
    exact R.errors_refl e
  caught := by
    intro c c' e e' he
    rw [herrors he]
    exact hcaught c e
  looks _ hc _ := by rw [hc.1]

end SameRuns

end Parsing
