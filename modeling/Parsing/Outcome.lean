import Parsing.Event

/-!
# Outcomes

A parser's `Result` is a value, a failure, a fault, or nothing at all because
the depth that it was given did not suffice. An `Outcome` is a result with the
events recorded on the way. Both are monads in which a failure or a fault ends
the computation, and taking the result commutes with them (`result_bind`), so
what a parser answers can be studied without its events.

`attempt` turns a failure into a value, and a failure only: a fault cannot be
recovered from. The events of an attempt that failed are kept.
-/

namespace Parsing

/-- What a computation comes to. -/
inductive Result (α : Type) where
  | ok (value : α)
  | fail (error : ParseError)
  | fault (cause : Fault)
  /-- The given depth did not suffice. -/
  | exhausted
  deriving DecidableEq, Repr

namespace Result

variable {α β : Type}

/-- Go on with the value, if there is one. -/
def bind (x : Result α) (next : α → Result β) : Result β :=
  match x with
  | .ok value => next value
  | .fail error => .fail error
  | .fault cause => .fault cause
  | .exhausted => .exhausted

/-- A failure as a value. -/
def attempt : Result α → Result (Except ParseError α)
  | .ok value => .ok (.ok value)
  | .fail error => .ok (.error error)
  | .fault cause => .fault cause
  | .exhausted => .exhausted

/-- The value of a computation that can only succeed or break a promise. -/
def ofChecked : Except Fault α → Result α
  | .ok value => .ok value
  | .error cause => .fault cause

instance : Monad Result where
  pure := .ok
  bind := bind

@[simp] theorem pure_eq_ok (value : α) : (pure value : Result α) = .ok value := rfl

@[simp] theorem ok_bind (value : α) (next : α → Result β) :
    (Result.ok value >>= next) = next value := rfl

@[simp] theorem fail_bind (error : ParseError) (next : α → Result β) :
    (Result.fail error >>= next) = .fail error := rfl

@[simp] theorem fault_bind (cause : Fault) (next : α → Result β) :
    (Result.fault cause >>= next) = .fault cause := rfl

@[simp] theorem exhausted_bind (next : α → Result β) :
    ((Result.exhausted : Result α) >>= next) = .exhausted := rfl

@[simp] theorem attempt_ok (value : α) : (Result.ok value).attempt = .ok (.ok value) := rfl

@[simp] theorem attempt_fail (error : ParseError) :
    (Result.fail error : Result α).attempt = .ok (.error error) := rfl

@[simp] theorem attempt_fault (cause : Fault) :
    (Result.fault cause : Result α).attempt = .fault cause := rfl

@[simp] theorem attempt_exhausted :
    (Result.exhausted : Result α).attempt = .exhausted := rfl

@[simp] theorem ofChecked_ok (value : α) : ofChecked (.ok value) = .ok value := rfl

@[simp] theorem ofChecked_error (cause : Fault) :
    (ofChecked (.error cause) : Result α) = .fault cause := rfl

theorem bind_eq_ok {x : Result α} {next : α → Result β} {b : β} (h : x >>= next = .ok b) :
    ∃ a, x = .ok a ∧ next a = .ok b := by
  cases x with
  | ok a => exact ⟨a, rfl, h⟩
  | fail e => cases h
  | fault f => cases h
  | exhausted => cases h

theorem ofChecked_eq_ok {x : Except Fault α} {a : α} (h : ofChecked x = .ok a) : x = .ok a := by
  cases x with
  | ok b => exact congrArg Except.ok (Result.ok.inj h)
  | error f => cases h

instance : LawfulMonad Result := LawfulMonad.mk' Result
  (by intro α x; cases x <;> rfl)
  (by intro α β x next; rfl)
  (by intro α β γ x f g; cases x <;> rfl)

end Result

/-- A result, and the events recorded on the way to it. -/
structure Outcome (α : Type) where
  result : Result α
  events : List Event
  deriving DecidableEq, Repr

namespace Outcome

variable {α β : Type}

/-- An outcome without events. -/
def ofResult (result : Result α) : Outcome α := ⟨result, []⟩

/-- Go on with the value, if there is one; later events follow earlier ones. -/
def bind (x : Outcome α) (next : α → Outcome β) : Outcome β :=
  match x.result with
  | .ok value => ⟨(next value).result, x.events ++ (next value).events⟩
  | .fail error => ⟨.fail error, x.events⟩
  | .fault cause => ⟨.fault cause, x.events⟩
  | .exhausted => ⟨.exhausted, x.events⟩

instance : Monad Outcome where
  pure value := ofResult (.ok value)
  bind := bind

/-- A failure. -/
def fail (error : ParseError) : Outcome α := ofResult (.fail error)

/-- A broken promise. -/
def fault (cause : Fault) : Outcome α := ofResult (.fault cause)

/-- No answer within the given depth. -/
def exhausted : Outcome α := ofResult .exhausted

/-- The value of a computation that can only succeed or break a promise. -/
def ofChecked (x : Except Fault α) : Outcome α := ofResult (.ofChecked x)

/-- Record an event. -/
def record (event : Event) : Outcome Unit := ⟨.ok (), [event]⟩

/-- A failure as a value; the events are kept. -/
def attempt (x : Outcome α) : Outcome (Except ParseError α) := ⟨x.result.attempt, x.events⟩

@[simp] theorem result_ofResult (r : Result α) : (ofResult r).result = r := rfl

@[simp] theorem result_pure (value : α) : (pure value : Outcome α).result = .ok value := rfl

@[simp] theorem result_bind (x : Outcome α) (next : α → Outcome β) :
    (x >>= next).result = x.result >>= fun value => (next value).result := by
  show (bind x next).result = _
  unfold bind
  cases x.result <;> rfl

@[simp] theorem result_map (f : α → β) (x : Outcome α) :
    (f <$> x).result = f <$> x.result := result_bind x _

@[simp] theorem result_fail (error : ParseError) :
    (fail error : Outcome α).result = .fail error := rfl

@[simp] theorem result_fault (f : Fault) : (fault f : Outcome α).result = .fault f := rfl

@[simp] theorem result_exhausted : (exhausted : Outcome α).result = .exhausted := rfl

@[simp] theorem result_ofChecked (x : Except Fault α) :
    (ofChecked x).result = .ofChecked x := rfl

@[simp] theorem result_record (event : Event) : (record event).result = .ok () := rfl

@[simp] theorem result_attempt (x : Outcome α) : x.attempt.result = x.result.attempt := rfl

@[simp] theorem ofChecked_ok (value : α) : ofChecked (.ok value) = pure value := rfl

@[simp] theorem ofChecked_error (f : Fault) : (ofChecked (.error f) : Outcome α) = fault f := rfl

instance : LawfulMonad Outcome := LawfulMonad.mk' Outcome
  (by
    rintro α ⟨r, es⟩
    show bind _ _ = _
    cases r <;> simp [bind, ofResult])
  (by
    intro α β value next
    show bind _ _ = _
    simp [bind, pure, ofResult])
  (by
    rintro α β γ ⟨r, es⟩ f g
    show bind (bind _ _) _ = bind _ (fun a => bind _ _)
    cases r with
    | ok value => cases h : (f value).result <;> simp [bind, h]
    | fail error => rfl
    | fault cause => rfl
    | exhausted => rfl)

end Outcome

end Parsing
