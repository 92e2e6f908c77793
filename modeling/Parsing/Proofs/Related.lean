import Parsing.Outcome

/-!
# Related outcomes

Statements about two runs say how what one computation comes to is related to
what the other comes to: values to values, failures to failures. `Related` is
this relation of outcomes, with the events left out. What a run may come to
besides, a fault or nothing at all, is described by a `Leeway`.

> `Related.bind`: computations are related if their first steps are, and if what
> follows is on related values.

A statement about a single run is the case of a computation that is related to
itself: a leeway without faults then says that there is none.
-/

namespace Parsing

/-- What two computations may come to instead of values and failures. -/
structure Leeway where
  /-- The faults that may stand opposite each other. -/
  faults : Fault → Fault → Prop
  /-- Whether both computations may be exhausted. -/
  exhausted : Prop
  /-- Whether the first one may be exhausted where the second one is not. -/
  behind : Prop

/-- No faults, and an end of the depth at the same time only. -/
def Leeway.faultless : Leeway := ⟨fun _ _ => False, True, False⟩

/-- Two values that are there and related, or two related reasons why there is none. -/
inductive RelatedExcept {ε δ α β : Type} (errors : ε → δ → Prop) (values : α → β → Prop) :
    Except ε α → Except δ β → Prop where
  | ok {a : α} {b : β} (h : values a b) : RelatedExcept errors values (.ok a) (.ok b)
  | error {e : ε} {d : δ} (h : errors e d) : RelatedExcept errors values (.error e) (.error d)

/-- Two results of the same kind with related content, as far as the leeway goes. -/
inductive Result.Related {α β : Type} (leeway : Leeway) (errors : ParseError → ParseError → Prop)
    (values : α → β → Prop) : Result α → Result β → Prop where
  | ok {a : α} {b : β} (h : values a b) : Related leeway errors values (.ok a) (.ok b)
  | fail {e d : ParseError} (h : errors e d) : Related leeway errors values (.fail e) (.fail d)
  | fault {f g : Fault} (h : leeway.faults f g) :
    Related leeway errors values (.fault f) (.fault g)
  | exhausted (h : leeway.exhausted) : Related leeway errors values .exhausted .exhausted
  | behind (h : leeway.behind) (r : Result β) : Related leeway errors values .exhausted r

/-- Two outcomes with related results. -/
def Outcome.Related {α β : Type} (leeway : Leeway) (errors : ParseError → ParseError → Prop)
    (values : α → β → Prop) (x : Outcome α) (y : Outcome β) : Prop :=
  x.result.Related leeway errors values y.result

section Except

variable {ε δ α β α' β' : Type} {errors : ε → δ → Prop} {values : α → β → Prop}
  {values' : α' → β' → Prop} {x : Except ε α} {y : Except δ β}

theorem RelatedExcept.bind (h : RelatedExcept errors values x y) {next : α → Except ε α'}
    {next' : β → Except δ β'}
    (hnext : ∀ a b, values a b → RelatedExcept errors values' (next a) (next' b)) :
    RelatedExcept errors values' (x >>= next) (y >>= next') := by
  cases h with
  | ok hab => exact hnext _ _ hab
  | error he => exact .error he

/-- Values that are related are the ones that are there. -/
theorem RelatedExcept.with_eq (h : RelatedExcept errors values x y) :
    RelatedExcept errors (fun a b => values a b ∧ x = .ok a ∧ y = .ok b) x y := by
  cases h with
  | ok hab => exact .ok ⟨hab, rfl, rfl⟩
  | error he => exact .error he

theorem RelatedExcept.imp {values' : α → β → Prop} (h : RelatedExcept errors values x y)
    (himp : ∀ a b, values a b → values' a b) : RelatedExcept errors values' x y := by
  cases h with
  | ok hab => exact .ok (himp _ _ hab)
  | error he => exact .error he

theorem RelatedExcept.of_map {f : α → α'} {g : β → β'}
    (h : RelatedExcept errors values' (x.map f) (y.map g)) :
    RelatedExcept errors (fun a b => values' (f a) (g b)) x y := by
  cases x with
  | error e =>
    cases y with
    | error d => cases h with | error he => exact .error he
    | ok b => cases h
  | ok a =>
    cases y with
    | error d => cases h
    | ok b => cases h with | ok hab => exact .ok hab

/-- A computation is related to itself if its reasons to fail are. -/
theorem RelatedExcept.refl {errors : ε → ε → Prop} (herrors : ∀ e, errors e e) (x : Except ε α) :
    RelatedExcept errors (fun a b => b = a) x x := by
  cases x with
  | ok a => exact .ok rfl
  | error e => exact .error (herrors e)

end Except

namespace Result

variable {α β α' β' : Type} {leeway : Leeway} {errors errors' : ParseError → ParseError → Prop}
  {values : α → β → Prop} {values' : α' → β' → Prop} {x : Result α} {y : Result β}

theorem Related.bind (h : x.Related leeway errors values y) {next : α → Result α'}
    {next' : β → Result β'}
    (hnext : ∀ a b, values a b → (next a).Related leeway errors values' (next' b)) :
    (x >>= next).Related leeway errors values' (y >>= next') := by
  cases h with
  | ok hab => exact hnext _ _ hab
  | fail he => exact .fail he
  | fault hf => exact .fault hf
  | exhausted hx => exact .exhausted hx
  | behind hx => exact .behind hx _

theorem Related.attempt (h : x.Related leeway errors values y) :
    x.attempt.Related leeway errors' (RelatedExcept errors values) y.attempt := by
  cases h with
  | ok hab => exact .ok (.ok hab)
  | fail he => exact .ok (.error he)
  | fault hf => exact .fault hf
  | exhausted hx => exact .exhausted hx
  | behind hx => exact .behind hx _

theorem Related.imp {values' : α → β → Prop} (h : x.Related leeway errors values y)
    (herrors : ∀ e d, errors e d → errors' e d) (hvalues : ∀ a b, values a b → values' a b) :
    x.Related leeway errors' values' y := by
  cases h with
  | ok hab => exact .ok (hvalues _ _ hab)
  | fail he => exact .fail (herrors _ _ he)
  | fault hf => exact .fault hf
  | exhausted hx => exact .exhausted hx
  | behind hx => exact .behind hx _

/-- The first of two related values is the one that is there. -/
theorem Related.with_eq (h : x.Related leeway errors values y) :
    x.Related leeway errors (fun a b => values a b ∧ x = .ok a) y := by
  cases h with
  | ok hab => exact .ok ⟨hab, rfl⟩
  | fail he => exact .fail he
  | fault hf => exact .fault hf
  | exhausted hx => exact .exhausted hx
  | behind hx => exact .behind hx _

/-- Results are equal that are related by equality, with no leeway in depth. -/
theorem Related.eq {y : Result α} {values : α → α → Prop} (h : x.Related leeway errors values y)
    (hfaults : ∀ f g, leeway.faults f g → g = f) (hbehind : ¬ leeway.behind)
    (herrors : ∀ e d, errors e d → d = e) (hvalues : ∀ a b, values a b → b = a) : y = x := by
  cases h with
  | ok hab => exact congrArg Result.ok (hvalues _ _ hab)
  | fail he => exact congrArg Result.fail (herrors _ _ he)
  | fault hf => exact congrArg Result.fault (hfaults _ _ hf)
  | exhausted _ => rfl
  | behind h => exact absurd h hbehind

/-! What stands opposite a result that is known, without faults. -/

theorem Related.ok_right {b : β} (h : x.Related .faultless errors values (.ok b)) :
    ∃ a, x = .ok a ∧ values a b := by
  cases h with
  | ok hab => exact ⟨_, rfl, hab⟩
  | behind hbehind => exact hbehind.elim

theorem Related.fail_right {d : ParseError} (h : x.Related .faultless errors values (.fail d)) :
    ∃ e, x = .fail e ∧ errors e d := by
  cases h with
  | fail he => exact ⟨_, rfl, he⟩
  | behind hbehind => exact hbehind.elim

theorem Related.exhausted_right
    (h : x.Related .faultless errors values (.exhausted : Result β)) : x = .exhausted := by
  cases h with
  | exhausted _ => rfl
  | behind hbehind => exact hbehind.elim

end Result

namespace Outcome

variable {α β α' β' : Type} {leeway : Leeway} {errors errors' : ParseError → ParseError → Prop}
  {values : α → β → Prop} {values' : α' → β' → Prop} {x : Outcome α} {y : Outcome β}

theorem related_pure {a : α} {b : β} (h : values a b) :
    Related leeway errors values (pure a) (pure b) := Result.Related.ok h

theorem related_fail {e d : ParseError} (h : errors e d) :
    Related leeway errors values (fail e) (fail d) := Result.Related.fail h

theorem related_ofChecked {x : Except Fault α} {y : Except Fault β}
    (h : RelatedExcept leeway.faults values x y) :
    Related leeway errors values (ofChecked x) (ofChecked y) := by
  cases h with
  | ok hab => exact .ok hab
  | error hf => exact .fault hf

/-- The first steps are related, and what follows is on related values. -/
theorem Related.bind (h : x.Related leeway errors values y) {next : α → Outcome α'}
    {next' : β → Outcome β'}
    (hnext : ∀ a b, values a b → (next a).Related leeway errors values' (next' b)) :
    (x >>= next).Related leeway errors values' (y >>= next') := by
  unfold Related
  rw [result_bind, result_bind]
  exact Result.Related.bind h hnext

/-- What is recorded in between does not matter. -/
theorem Related.record_bind (event event' : Event) (h : x.Related leeway errors values y) :
    (record event >>= fun _ => x).Related leeway errors values (record event' >>= fun _ => y) := by
  unfold Related
  rw [result_bind, result_bind]
  exact h

theorem Related.attempt (h : x.Related leeway errors values y) :
    x.attempt.Related leeway errors' (RelatedExcept errors values) y.attempt :=
  Result.Related.attempt h

theorem Related.imp {values' : α → β → Prop} (h : x.Related leeway errors values y)
    (herrors : ∀ e d, errors e d → errors' e d) (hvalues : ∀ a b, values a b → values' a b) :
    x.Related leeway errors' values' y :=
  Result.Related.imp h herrors hvalues

theorem Related.with_eq (h : x.Related leeway errors values y) :
    x.Related leeway errors (fun a b => values a b ∧ x.result = .ok a) y :=
  Result.Related.with_eq h

end Outcome

end Parsing
