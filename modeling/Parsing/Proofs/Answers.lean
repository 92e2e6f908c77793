import Parsing.Proofs.Correspondence.Same
import Parsing.Proofs.Scheme

/-!
# Answers

A parse that needs references to be followed further than it is told comes to
nothing. An *answer* of a grammar is what it comes to within some depth that
suffices, so that a parse terminates exactly if there is an answer, and

> `Answers.unique`: there is at most one.

For more depth never changes what was found with less (`resultAt_mono`). The
other use of depth is induction: `parsers_of_pairs` carries the statement about
grammars that are built alike over to grammars with their definitions, and
`parser_induction` does so for statements about one parser at a time.
-/

namespace Parsing

variable {ρ : Type}

/-- What a grammar comes to at a cursor, with its references followed to a depth. -/
def Grammar.resultAt (definitions : ρ → Grammar ρ) (depth : Nat) (g : Grammar ρ) (c : Cursor) :
    Result (Parsed Value) := ((g.parser definitions depth).parse c).result

namespace Scheme

section

variable {T : Scheme ρ} {S : Correspondence} {definitions definitions' : ρ → Grammar ρ}

/-- Grammars with definitions that are built alike go in step to every depth, if that keeps
to each depth what the scheme asks. -/
theorem parsers_of_pairs_at (hexhausted : S.exhausted)
    (hT : ∀ (depth : Nat) {call call' : ρ → Parser Value},
      (∀ g : Grammar ρ, g.parser definitions depth = g.parserWith call) →
      (∀ name, S.Parsers (call name) (call' name)) → T.InStep S call call')
    (hdefinitions : ∀ name, T.Pairs (definitions name) (definitions' name)) :
    ∀ (depth : Nat) {g g' : Grammar ρ}, T.Pairs g g' →
      S.Parsers (g.parser definitions depth) (g'.parser definitions' depth) := by
  -- On the depth: a reference goes one level down, into definitions that are paired.
  intro depth
  induction depth with
  | zero =>
    intro g g' h
    refine h.parsers (hT 0 (fun _ => rfl) fun name c c' _ => ?_)
    exact Result.Related.exhausted hexhausted
  | succ depth ih =>
    intro g g' h
    exact h.parsers (hT (depth + 1) (fun _ => rfl) fun name => ih (hdefinitions name))

variable (hexhausted : S.exhausted)
  (hT : ∀ {call call' : ρ → Parser Value}, (∀ name, S.Parsers (call name) (call' name)) →
    T.InStep S call call')
  (hdefinitions : ∀ name, T.Pairs (definitions name) (definitions' name))

include hexhausted hT hdefinitions

/-- What a scheme asks may also be known for all parsers of references at once. -/
theorem parsers_of_pairs (depth : Nat) {g g' : Grammar ρ} (h : T.Pairs g g') :
    S.Parsers (g.parser definitions depth) (g'.parser definitions' depth) :=
  parsers_of_pairs_at hexhausted (fun _ _ _ _ => hT) hdefinitions depth h

theorem related_resultAt {g g' : Grammar ρ} (hg : T.Pairs g g') (depth : Nat) {c c' : Cursor}
    (hc : S.cursors c c') :
    (g.resultAt definitions depth c).Related S.toLeeway (S.errors c c') (S.Reports c c')
      (g'.resultAt definitions' depth c') :=
  parsers_of_pairs hexhausted hT hdefinitions depth hg hc

end

/-- The scheme that takes every part, as it is. -/
def everything : Scheme ρ where
  foreign p p' := p' = p
  moves := True
  refs := True
  maps _ := True
  changes _ := True
  ranged := True
  raises _ e e' := e' = e
  caught _ e e' := e' = e
  looks _ := True

theorem everything_takesAll : (everything : Scheme ρ).TakesAll where
  foreign _ := rfl
  moves := trivial
  refs := trivial
  maps _ := trivial
  changes _ := trivial
  ranged := trivial
  raises _ _ := rfl
  caught he := he
  looks _ := trivial

end Scheme

/-- Every grammar goes in step with itself on runs with the same errors, which may be
exhausted together, when its references do. -/
theorem SameRuns.inStep_everything (R : SameRuns) (herrors : ∀ {e d}, R.errors e d → d = e)
    (hexhausted : R.exhausted) {call call' : ρ → Parser Value}
    (hcall : ∀ name, R.correspondence.Parsers (call name) (call' name)) :
    Scheme.everything.InStep R.correspondence call call' := by
  refine R.inStep_self herrors ?_ (fun _ => hcall) (fun h => h.elim) (fun h => h)
    (fun _ => trivial) (fun _ _ => trivial) (fun he => he) fun _ _ => rfl
  intro p p' hp
  rw [hp]
  exact R.parsers_self fun _ _ _ => hexhausted

namespace Grammar

variable {definitions : ρ → Grammar ρ} {g : Grammar ρ} {c : Cursor}

/-- What a grammar comes to at a cursor, with its references followed as far as
that takes. -/
def Answers (definitions : ρ → Grammar ρ) (g : Grammar ρ) (c : Cursor)
    (answer : Result (Parsed Value)) : Prop :=
  answer ≠ .exhausted ∧ ∃ depth, g.resultAt definitions depth c = answer

/-- Whether a grammar has an answer at a cursor. -/
def Terminates (definitions : ρ → Grammar ρ) (g : Grammar ρ) (c : Cursor) : Prop :=
  ∃ answer, g.Answers definitions c answer

/-! ## By depth -/

/-- To one depth, the parsers of all grammars resolve their references alike. -/
theorem exists_parserWith (definitions : ρ → Grammar ρ) (depth : Nat) :
    ∃ call : ρ → Parser Value, ∀ g : Grammar ρ,
      g.parser definitions depth = g.parserWith call := by
  cases depth with
  | zero => exact ⟨_, fun _ => rfl⟩
  | succ depth => exact ⟨_, fun _ => rfl⟩

/-- What the parsers of some grammars have when the references to such grammars have
it, they have with their definitions, to every depth. -/
theorem parser_induction {takes : Grammar ρ → Prop} {holds : Parser Value → Prop}
    (hnothing : holds ⟨fun _ => .exhausted⟩)
    (hcall : ∀ call : ρ → Parser Value,
      (∀ name, takes (definitions name) → holds (call name)) →
      ∀ g, takes g → holds (g.parserWith call)) :
    ∀ (depth : Nat) (g : Grammar ρ), takes g → holds (g.parser definitions depth) := by
  intro depth
  induction depth with
  | zero => exact fun g hg => hcall _ (fun _ _ => hnothing) g hg
  | succ depth ih => exact fun g hg => hcall _ (fun name h => ih (definitions name) h) g hg

/-! ## More depth -/

/-- The same run, once to less depth and once to more. -/
def deepening : SameRuns := .withSameErrors (fun _ => True) (fun _ _ => trivial) True True

/-- Every grammar goes in step with itself when its references do. -/
theorem inStep_deepening {call call' : ρ → Parser Value}
    (hcall : ∀ name, deepening.correspondence.Parsers (call name) (call' name)) :
    Scheme.everything.InStep deepening.correspondence call call' :=
  deepening.inStep_everything (fun he => he) trivial hcall

theorem parsers_deepen (depth : Nat) : ∀ g : Grammar ρ,
    deepening.correspondence.Parsers (g.parser definitions depth)
      (g.parser definitions (depth + 1)) := by
  have hall := Scheme.TakesAll.pairs (Scheme.everything_takesAll (ρ := ρ))
  induction depth with
  | zero =>
    intro g
    refine (hall g).parsers (inStep_deepening fun name c c' _ => ?_)
    exact Result.Related.behind trivial _
  | succ depth ih =>
    intro g
    exact (hall g).parsers (inStep_deepening fun name => ih (definitions name))

/-- What was found does not change with more depth. -/
theorem resultAt_succ {depth : Nat} (h : g.resultAt definitions depth c ≠ .exhausted) :
    g.resultAt definitions (depth + 1) c = g.resultAt definitions depth c := by
  have hrelated : (g.resultAt definitions depth c).Related _ _ _
      (g.resultAt definitions (depth + 1) c) := parsers_deepen depth g ⟨rfl, trivial⟩
  generalize g.resultAt definitions depth c = less at h hrelated ⊢
  generalize g.resultAt definitions (depth + 1) c = more at hrelated ⊢
  cases hrelated with
  | ok hreport => exact congrArg Result.ok (deepening.eq_of_reports hreport)
  | fail he => exact congrArg Result.fail he
  | fault hf => exact congrArg Result.fault hf
  | exhausted _ => rfl
  | behind _ _ => exact absurd rfl h

theorem resultAt_mono {depth more : Nat} (hle : depth ≤ more)
    (h : g.resultAt definitions depth c ≠ .exhausted) :
    g.resultAt definitions more c = g.resultAt definitions depth c := by
  induction hle with
  | refl => rfl
  | step _ ih => rw [resultAt_succ (ih ▸ h), ih]

/-- A grammar has at most one answer. -/
theorem Answers.unique {answer answer' : Result (Parsed Value)}
    (h : g.Answers definitions c answer) (h' : g.Answers definitions c answer') :
    answer' = answer := by
  obtain ⟨hsettled, depth, hdepth⟩ := h
  obtain ⟨hsettled', depth', hdepth'⟩ := h'
  subst hdepth
  subst hdepth'
  rcases Nat.le_total depth depth' with hle | hle
  · exact resultAt_mono hle hsettled
  · exact (resultAt_mono hle hsettled').symm

theorem terminates_iff :
    g.Terminates definitions c ↔ ∃ depth, g.resultAt definitions depth c ≠ .exhausted := by
  constructor
  · intro h
    obtain ⟨answer, hsettled, depth, hdepth⟩ := h
    exact ⟨depth, hdepth ▸ hsettled⟩
  · intro h
    obtain ⟨depth, hsettled⟩ := h
    exact ⟨_, hsettled, depth, rfl⟩

theorem not_terminates (h : ∀ depth, g.resultAt definitions depth c = .exhausted) :
    ¬ g.Terminates definitions c := by
  rw [terminates_iff]
  intro hterminates
  obtain ⟨depth, hsettled⟩ := hterminates
  exact hsettled (h depth)

/-! ## An example -/

/-- Opening parentheses, as many as there are: a definition that refers to itself. -/
def openings : Unit → Grammar Unit := fun _ =>
  .orElse (.keepRight (.literal "(") (.ref ())) (.pure .unit)

example : (Grammar.ref ()).resultAt openings 1 (.new ['(']) = .exhausted := by decide

example : (Grammar.ref ()).resultAt openings 2 (.new ['(']) = .ok ⟨⟨0, 1⟩, .unit⟩ := by decide

end Grammar

end Parsing
