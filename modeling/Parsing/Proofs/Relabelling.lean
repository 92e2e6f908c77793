import Parsing.Proofs.Answers
import Parsing.Script.Term

/-!
# Relabelling errors

A grammar is relabelled by wrapping parts of it, also within its definitions and
bodies, in changes of errors that return: new messages, or new errors altogether.
Bodies of relabelled grammars do not ask which error they caught.

> `relabelling_keeps_answers`: a relabelled grammar accepts what the grammar
> accepted, with the same values and ranges, and faults where it faulted.

The condition is on the changes of errors that the grammar itself has. They see
the errors that the wrappers made, so one that faults on some errors only may
fault in the one grammar and not in the other (`own_changes_can_tell`).
-/

namespace Parsing

variable {ρ : Type}

/-- A change of errors. -/
abbrev ErrorChange : Type := ParseError → Except Fault ParseError

namespace ErrorChange

/-- A change that returns, whatever the error is. -/
def Returns (change : ErrorChange) : Prop := ∀ error, ∃ changed, change error = .ok changed

/-- A new message. -/
def IsLabel (change : ErrorChange) : Prop :=
  ∃ message, change = fun error => .ok (error.withMessage message)

/-- A change of related errors to related errors, or to the same fault. -/
def Respects (errors : ParseError → ParseError → Prop) (change : ErrorChange) : Prop :=
  ∀ e e', errors e e' →
    RelatedExcept (fun cause cause' => cause' = cause) errors (change e) (change e')

end ErrorChange

/-- Any two errors. -/
def ParseError.Any (_ _ : ParseError) : Prop := True

/-- Two errors at the same offset. -/
def ParseError.SameIdx (e e' : ParseError) : Prop := e'.idx = e.idx

/-- Grammars whose own changes of errors are `own`, and the same with `wrappers` put
around any parts of them. -/
def Scheme.relabelled (own wrappers : ErrorChange → Prop) : Scheme ρ where
  foreign p p' := p' = p
  moves := True
  refs := True
  maps _ := True
  changes := own
  inserts := wrappers
  ranged := True
  raises _ e e' := e' = e
  caught _ _ _ := True
  looks _ := True

/-- Grammars with changes of errors that return put around any parts. Their own
changes do not fault on some errors only. -/
def Scheme.wrapped : Scheme ρ :=
  .relabelled (ErrorChange.Respects ParseError.Any) ErrorChange.Returns

/-- Grammars with labels put around any parts. Their own changes treat errors at the
same offset alike. -/
def Scheme.labelled : Scheme ρ :=
  .relabelled (ErrorChange.Respects ParseError.SameIdx) ErrorChange.IsLabel

/-- Two answers that differ in errors at most. -/
def Result.Agrees {α : Type} (errors : ParseError → ParseError → Prop) : Result α → Result α → Prop
  | .ok a, .ok b => b = a
  | .fail e, .fail e' => errors e e'
  | .fault cause, .fault cause' => cause' = cause
  | .exhausted, .exhausted => True
  | _, _ => False

theorem Result.Agrees.exhausted_iff {α : Type} {errors : ParseError → ParseError → Prop}
    {r r' : Result α} (h : r.Agrees errors r') : r' = .exhausted ↔ r = .exhausted := by
  cases r <;> cases r' <;> simp [Result.Agrees] at h ⊢

/-- Relations of errors that wrappers may put opposite each other. -/
structure Relabelling (errors : ParseError → ParseError → Prop) (wrappers : ErrorChange → Prop) :
    Prop where
  refl : ∀ e, errors e e
  withMessage : ∀ {e e'} message, errors e e' →
    errors (e.withMessage message) (e'.withMessage message)
  wrap : ∀ {change e e'}, wrappers change → errors e e' → ∃ d, change e' = .ok d ∧ errors e d

theorem relabelling_returns : Relabelling ParseError.Any ErrorChange.Returns where
  refl _ := trivial
  withMessage _ _ := trivial
  wrap := by
    intro change e e' hchange _
    obtain ⟨d, hd⟩ := hchange e'
    exact ⟨d, hd, trivial⟩

theorem relabelling_label : Relabelling ParseError.SameIdx ErrorChange.IsLabel where
  refl _ := rfl
  withMessage _ he := he
  wrap := by
    intro change e e' hchange he
    obtain ⟨message, hmessage⟩ := hchange
    rw [hmessage]
    exact ⟨_, rfl, he⟩

namespace Relabelling

variable {errors : ParseError → ParseError → Prop} {wrappers : ErrorChange → Prop}

/-- Runs from the same place with errors that wrappers may have changed. -/
def runs (h : Relabelling errors wrappers) : SameRuns where
  places _ := True
  places_goto _ _ := trivial
  errors := errors
  errors_refl := h.refl
  errors_withMessage := h.withMessage
  exhausted := True
  behind := False

theorem inStep (h : Relabelling errors wrappers) {call call' : ρ → Parser Value}
    (hcall : ∀ name, h.runs.correspondence.Parsers (call name) (call' name)) :
    (Scheme.relabelled (ErrorChange.Respects errors) wrappers).InStep h.runs.correspondence
      call call' where
  foreign hp := hp ▸ h.runs.parsers_self fun _ _ _ => trivial
  moves _ := h.runs.parsers_moveTo
  refs _ := hcall
  given h := h.elim
  maps _ _ := SameRuns.related_self _
  changes hchange he := hchange _ _ he
  inserts hwrap he := h.wrap hwrap he
  ranges_eq _ hr := hr
  raises := by
    intro e e' c c' he _
    rw [he]
    exact h.refl e
  begins _ := trivial
  spans _ := trivial
  caught _ := trivial
  looks _ hc _ := by rw [hc.1]

section

variable {definitions definitions' : ρ → Grammar ρ} {g g' : Grammar ρ}
  (h : Relabelling errors wrappers)
  (hg : (Scheme.relabelled (ErrorChange.Respects errors) wrappers).Pairs g g')
  (hdefinitions : ∀ name, (Scheme.relabelled (ErrorChange.Respects errors) wrappers).Pairs
    (definitions name) (definitions' name))

include h hg hdefinitions

/-- The two grammars come to the same to every depth, up to errors. -/
theorem resultAt_agrees (depth : Nat) (c : Cursor) :
    (g.resultAt definitions depth c).Agrees errors (g'.resultAt definitions' depth c) := by
  have hrelated := Scheme.related_resultAt trivial h.inStep hdefinitions hg depth
    (⟨rfl, trivial⟩ : h.runs.correspondence.cursors c c)
  generalize g.resultAt definitions depth c = r at hrelated ⊢
  generalize g'.resultAt definitions' depth c = r' at hrelated ⊢
  cases hrelated with
  | ok hreport => exact h.runs.eq_of_reports hreport
  | fail he => exact he
  | fault hf => exact hf
  | exhausted _ => trivial
  | behind hbehind _ => exact hbehind.elim

theorem terminates_iff (c : Cursor) :
    g'.Terminates definitions' c ↔ g.Terminates definitions c := by
  rw [Grammar.terminates_iff, Grammar.terminates_iff]
  refine exists_congr fun depth => not_congr ?_
  exact (h.resultAt_agrees hg hdefinitions depth c).exhausted_iff

theorem answers_agree {c : Cursor} {answer answer' : Result (Parsed Value)}
    (ha : g.Answers definitions c answer) (ha' : g'.Answers definitions' c answer') :
    answer.Agrees errors answer' := by
  obtain ⟨hsettled, depth, hdepth⟩ := ha
  -- The depth that suffices for the one grammar suffices for the other.
  have hagrees := h.resultAt_agrees hg hdefinitions depth c
  rw [hdepth] at hagrees
  have hsettled' : g'.resultAt definitions' depth c ≠ .exhausted :=
    fun hexhausted => hsettled (hagrees.exhausted_iff.mp hexhausted)
  have hsame : answer' = g'.resultAt definitions' depth c :=
    Grammar.Answers.unique ⟨hsettled', depth, rfl⟩ ha'
  rw [hsame]
  exact hagrees

end

end Relabelling

namespace Grammar

/-- Changes of errors that return, put around any parts of a grammar and of its
definitions, change nothing but the errors of failures, and labels not even their
offsets. -/
theorem relabelling_keeps_answers {definitions definitions' : ρ → Grammar ρ} {g g' : Grammar ρ} :
    (Scheme.wrapped.Pairs g g' →
      (∀ name, Scheme.wrapped.Pairs (definitions name) (definitions' name)) →
      ∀ c, (g'.Terminates definitions' c ↔ g.Terminates definitions c) ∧
        ∀ answer answer', g.Answers definitions c answer → g'.Answers definitions' c answer' →
          answer.Agrees ParseError.Any answer') ∧
    (Scheme.labelled.Pairs g g' →
      (∀ name, Scheme.labelled.Pairs (definitions name) (definitions' name)) →
      ∀ c, (g'.Terminates definitions' c ↔ g.Terminates definitions c) ∧
        ∀ answer answer', g.Answers definitions c answer → g'.Answers definitions' c answer' →
          answer.Agrees ParseError.SameIdx answer') := by
  constructor
  · intro hg hdefinitions c
    refine ⟨relabelling_returns.terminates_iff hg hdefinitions c, fun answer answer' ha ha' => ?_⟩
    exact relabelling_returns.answers_agree hg hdefinitions ha ha'
  · intro hg hdefinitions c
    refine ⟨relabelling_label.terminates_iff hg hdefinitions c, fun answer answer' ha ha' => ?_⟩
    exact relabelling_label.answers_agree hg hdefinitions ha ha'

theorem relabelling_keeps_answers_openings :
    let closed : Grammar Unit := .keepLeft (.ref ()) (.literal ")")
    let closed' : Grammar Unit := .keepLeft (.label "no opening" (.ref ()))
      (.label "not closed" (.literal ")"))
    (closed'.Terminates openings (.new ['(']) ↔ closed.Terminates openings (.new ['('])) ∧
      closed.Answers openings (.new ['(']) (.fail ⟨1, "Expected: ')'"⟩) ∧
      closed'.Answers openings (.new ['(']) (.fail ⟨1, "not closed"⟩) ∧
      @Result.Agrees (Parsed Value) ParseError.SameIdx (.fail ⟨1, "Expected: ')'"⟩)
        (.fail ⟨1, "not closed"⟩) := by
  intro closed closed'
  have hopenings : ∀ (own wrappers : ErrorChange → Prop) (name : Unit),
      (Scheme.relabelled own wrappers).Pairs (openings name) (openings name) := fun _ _ _ =>
    .orElse (.keepRight (.literal _) (.ref trivial _)) (.pure _)
  have hwrapped : Scheme.wrapped.Pairs closed closed' :=
    .keepLeft (.insertLabel (fun _ => ⟨_, rfl⟩) (.ref trivial ()))
      (.insertLabel (fun _ => ⟨_, rfl⟩) (.literal _))
  have hlabelled : Scheme.labelled.Pairs closed closed' :=
    .keepLeft (.insertLabel ⟨_, rfl⟩ (.ref trivial ())) (.insertLabel ⟨_, rfl⟩ (.literal _))
  have hanswer : closed.Answers openings (.new ['(']) (.fail ⟨1, "Expected: ')'"⟩) :=
    ⟨nofun, 2, by decide⟩
  have hanswer' : closed'.Answers openings (.new ['(']) (.fail ⟨1, "not closed"⟩) :=
    ⟨nofun, 2, by decide⟩
  obtain ⟨hreturns, hlabels⟩ := @relabelling_keeps_answers _ openings openings closed closed'
  exact ⟨(hreturns hwrapped (hopenings _ _) _).1, hanswer, hanswer',
    (hlabels hlabelled (hopenings _ _) _).2 _ _ hanswer hanswer'⟩

/-- A grammar's own changes of errors can tell what wrappers did. The first one here
reports errors one further on, which is a fault for an error at the largest
offset, and there is none until a wrapper makes one. The second one reports the
length of the message, and so the label, as the offset. -/
theorem own_changes_can_tell :
    (let g : Grammar Empty := .orElse
      (.mapError (Script.Rewording.shift 1).apply (.fail "m")) (.pure (.int 1))
    let g' : Grammar Empty := .orElse
      (.mapError (Script.Rewording.shift 1).apply
        (.mapError (Script.Rewording.replace maxOffset "x").apply (.fail "m"))) (.pure (.int 1))
    (Scheme.relabelled (fun _ => True) ErrorChange.Returns).Pairs g g' ∧
      g.Answers nofun (.new []) (.ok ⟨⟨0, 0⟩, .int 1⟩) ∧
      g'.Answers nofun (.new []) (.fault .additionOverflow)) ∧
    (let measured : ErrorChange := fun e => .ok ⟨e.message.length, e.message⟩
    let g : Grammar Empty := .mapError measured (.fail "m")
    let g' : Grammar Empty := .mapError measured (.label "label" (.fail "m"))
    (Scheme.relabelled (fun _ => True) ErrorChange.IsLabel).Pairs g g' ∧
      g.Answers nofun (.new []) (.fail ⟨1, "m"⟩) ∧
      g'.Answers nofun (.new []) (.fail ⟨5, "label"⟩)) := by
  constructor
  · refine ⟨?_, ⟨nofun, 0, rfl⟩, ⟨nofun, 0, rfl⟩⟩
    refine .orElse (.mapError trivial (.insert ?_ (.fail "m"))) (.pure _)
    exact fun error => ⟨_, rfl⟩
  · refine ⟨?_, ⟨nofun, 0, by decide⟩, ⟨nofun, 0, by decide⟩⟩
    exact .mapError trivial (.insertLabel ⟨"label", rfl⟩ (.fail "m"))

end Grammar

end Parsing
