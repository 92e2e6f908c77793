import Parsing.Proofs.Answers

/-!
# Termination

A grammar is *guarded* if every reference in it stands behind a parser that reads
something wherever it succeeds: in the second part of a pair, or in what follows
a bind. Nothing is asked of the rest, of loops, repetitions, bodies, or of
parsers from outside but that they answer themselves.

> `terminates_of_guarded`: a guarded grammar with guarded definitions terminates
> at every cursor, whatever the text is.

A reference is followed with less text ahead than the parse that came to it had
(`answersWithin_of_guarded`), so no more references are followed one inside the
other than there are characters left.
-/

namespace Parsing

variable {ρ : Type}

/-- Answers wherever at most `n` characters are left. -/
def Parser.AnswersWithin {α : Type} (n : Nat) (p : Parser α) : Prop :=
  ∀ c : Cursor, c.remaining ≤ n → (p.parse c).result ≠ .exhausted

/-- Answers wherever fewer than `n` characters are left. -/
def Parser.AnswersBelow {α : Type} (n : Nat) (p : Parser α) : Prop :=
  ∀ c : Cursor, c.remaining < n → (p.parse c).result ≠ .exhausted

theorem Result.bind_ne_exhausted {α β : Type} {x : Result α} {next : α → Result β}
    (hx : x ≠ .exhausted) (hnext : ∀ a, x = .ok a → next a ≠ .exhausted) :
    x >>= next ≠ .exhausted := by
  cases x with
  | ok a => exact hnext a rfl
  | fail e => exact fun h => nomatch h
  | fault f => exact fun h => nomatch h
  | exhausted => exact absurd rfl hx

theorem Result.ofChecked_ne_exhausted {α : Type} (x : Except Fault α) :
    Result.ofChecked x ≠ .exhausted := by
  cases x with
  | ok a => exact fun h => nomatch h
  | error f => exact fun h => nomatch h

theorem Parser.AnswersWithin.map {α β : Type} {n : Nat} {p : Parser α} (h : p.AnswersWithin n)
    (f : α → β) : (p.map f).AnswersWithin n := by
  intro c hc
  unfold Parser.map
  rw [Outcome.result_bind]
  exact Result.bind_ne_exhausted (h c hc) fun _ _ h => nomatch h

/-! ## Guards -/

/-- The parsers that read something wherever they succeed. -/
inductive Grammar.Consuming : Grammar ρ → Prop where
  | anyChar : Consuming .anyChar
  | satisfy (accepts describe) : Consuming (.satisfy accepts describe)
  | literal {expected : String} (hne : expected ≠ "") : Consuming (.literal expected)

/-- Parts that answer: no more is asked of a parser from outside. -/
def Scheme.answeringWith (refs : Prop) (given : Grammar ρ → Grammar ρ → Prop) : Scheme ρ where
  foreign p p' := p' = p ∧ ∀ c, (p.parse c).result ≠ .exhausted
  moves := True
  refs := refs
  given := given
  maps _ := True
  changes _ := True
  ranged := True
  raises _ e e' := e' = e
  caught _ e e' := e' = e
  looks _ := True

/-- The parts of grammars whose references may stand anywhere. -/
def Scheme.answering : Scheme ρ := .answeringWith True fun _ _ => False

/-- The parts of grammars without references. -/
def Scheme.referenceFree : Scheme ρ := .answeringWith False fun _ _ => False

/-- Grammars that begin with a parser that reads something, with references
anywhere behind it. -/
inductive Grammar.Guard : Grammar ρ → Grammar ρ → Prop where
  | both {first second} (hfirst : Consuming first) (hs : Scheme.answering.Admits second) :
    Guard (.both first second) (.both first second)
  | keepLeft {first second} (hfirst : Consuming first) (hs : Scheme.answering.Admits second) :
    Guard (.keepLeft first second) (.keepLeft first second)
  | keepRight {first second} (hfirst : Consuming first) (hs : Scheme.answering.Admits second) :
    Guard (.keepRight first second) (.keepRight first second)
  | bind {first next} (hfirst : Consuming first)
    (hnext : ∀ value, Scheme.answering.Admits (next value)) :
    Guard (.bind first next) (.bind first next)

/-- The parts of grammars whose references stand behind guards. -/
def Scheme.guarded : Scheme ρ := .answeringWith False Grammar.Guard

namespace Grammar

variable {call : ρ → Parser Value} {definitions : ρ → Grammar ρ} {g : Grammar ρ} {n : Nat}

/-- Runs of one parser with at most `n` characters left, which may not be exhausted. -/
def within (n : Nat) : SameRuns :=
  .withSameErrors (fun c => c.remaining ≤ n)
    (fun hc hgo => Nat.le_trans ((Cursor.leadsTo_of_goto hgo).remaining_le) hc) False False

/-- Going in step with itself is answering. -/
theorem parsers_within_iff {p : Parser Value} :
    (within n).correspondence.Parsers p p ↔ p.AnswersWithin n := by
  constructor
  · intro h c hc hexhausted
    have hrelated := @h c c ⟨rfl, hc⟩
    unfold Outcome.Related at hrelated
    rw [hexhausted] at hrelated
    cases hrelated with
    | exhausted h => exact h
    | behind h _ => exact h
  · intro h
    exact (within n).parsers_self fun c hc hexhausted => h c hc hexhausted

/-- Parts of grammars answer if their references and their guards do. -/
theorem answersWithin_of_admits {refs : Prop} {given : Grammar ρ → Grammar ρ → Prop}
    (hrefs : refs → ∀ name, (call name).AnswersWithin n)
    (hgiven : ∀ {g g'}, given g g' → g' = g ∧ (g.parserWith call).AnswersWithin n)
    (hg : (Scheme.answeringWith refs given).Admits g) : (g.parserWith call).AnswersWithin n := by
  refine parsers_within_iff.mp (hg.parsers ((within n).inStep_self (fun he => he) ?_ ?_ ?_
    (fun h => h) (fun _ => trivial) (fun _ _ => trivial) (fun he => he) fun _ _ => rfl))
  · intro p p' hp
    obtain ⟨hsame, hanswers⟩ := hp
    rw [hsame]
    exact parsers_within_iff.mpr fun c _ => hanswers c
  · exact fun h name => parsers_within_iff.mpr (hrefs h name)
  · intro g g' h
    obtain ⟨hsame, hanswers⟩ := hgiven h
    rw [hsame]
    exact parsers_within_iff.mpr hanswers

/-! ## Behind a guard -/

theorem Consuming.answersWithin (hg : Consuming g) (n : Nat) :
    (g.parserWith call).AnswersWithin n := by
  refine answersWithin_of_admits False.elim False.elim ?_
  cases hg with
  | anyChar => exact .anyChar
  | satisfy accepts describe => exact .satisfy accepts describe
  | literal hne => exact .literal _

theorem Consuming.idx_lt (hg : Consuming g) {c : Cursor} {parsed : Parsed Value}
    (h : ((g.parserWith call).parse c).result = .ok parsed) : c.idx < parsed.range.stop := by
  cases hg with
  | anyChar =>
    obtain ⟨one, hone, hparsed⟩ := Parser.map_eq_ok h
    rw [hparsed, Parsed.range_map, Parser.range_of_anyChar hone]
    exact Nat.lt_succ_self _
  | satisfy accepts describe =>
    obtain ⟨one, hone, hparsed⟩ := Parser.map_eq_ok h
    rw [hparsed, Parsed.range_map, Parser.range_of_satisfy hone]
    exact Nat.lt_succ_self _
  | @literal expected hne =>
    obtain ⟨piece, hpiece, hparsed⟩ := Parser.map_eq_ok h
    have hpos : 0 < expected.toList.length :=
      List.length_pos_iff.mpr fun hnil => hne (String.toList_eq_nil_iff.mp hnil)
    rw [hparsed, Parsed.range_map, Parser.range_of_literal hpiece]
    exact Nat.lt_add_of_pos_right hpos

/-- What comes behind a guard has fewer characters left, and may rely on that. -/
theorem answers_behind {α : Type} {first : Grammar ρ} (hfirst : Consuming first)
    {next : Parsed Value → Cursor → Outcome α} {c : Cursor} (hc : c.remaining ≤ n)
    (hnext : ∀ parsed d, d.remaining < n → (next parsed d).result ≠ .exhausted) :
    (do
      let parsed ← (first.parserWith call).parse c
      let behind ← Outcome.ofChecked (c.goto parsed.range.stop)
      next parsed behind).result ≠ .exhausted := by
  rw [Outcome.result_bind]
  -- The move behind the guard succeeds only past the cursor, or it is a fault.
  refine Result.bind_ne_exhausted (hfirst.answersWithin n c hc) fun parsed hparsed => ?_
  rw [Outcome.result_bind, Outcome.result_ofChecked]
  refine Result.bind_ne_exhausted (Result.ofChecked_ne_exhausted _) fun behind hbehind => ?_
  have hgo := Result.ofChecked_eq_ok hbehind
  have hlt := Cursor.remaining_lt_of_goto hgo (hfirst.idx_lt hparsed)
  exact hnext parsed behind (Nat.lt_of_lt_of_le hlt hc)

theorem both_answersWithin {first second : Grammar ρ} (hfirst : Consuming first)
    (hs : (second.parserWith call).AnswersBelow n) :
    ((first.parserWith call).both (second.parserWith call)).AnswersWithin n := by
  intro c hc
  refine answers_behind hfirst hc fun left d hd => ?_
  rw [Outcome.result_bind]
  refine Result.bind_ne_exhausted (hs d hd) fun right _ => ?_
  rw [Outcome.result_bind, Outcome.result_ofChecked]
  exact Result.bind_ne_exhausted (Result.ofChecked_ne_exhausted _) fun _ _ h => nomatch h

/-- A guarded pair or bind answers with as many characters left, if references do
with fewer. -/
theorem Guard.answersWithin {g g' : Grammar ρ} (h : Guard g g')
    (hcall : ∀ name, (call name).AnswersBelow n) :
    g' = g ∧ (g.parserWith call).AnswersWithin n := by
  -- Behind the guard references may stand anywhere, for there they answer.
  have hbehind : ∀ {next : Grammar ρ}, Scheme.answering.Admits next →
      (next.parserWith call).AnswersBelow n := by
    intro next hnext c hc
    refine answersWithin_of_admits (fun _ name d hd => ?_) False.elim hnext c (Nat.le_refl _)
    exact hcall name d (Nat.lt_of_le_of_lt hd hc)
  cases h with
  | both hfirst hs => exact ⟨rfl, (both_answersWithin hfirst (hbehind hs)).map _⟩
  | keepLeft hfirst hs => exact ⟨rfl, (both_answersWithin hfirst (hbehind hs)).map _⟩
  | keepRight hfirst hs => exact ⟨rfl, (both_answersWithin hfirst (hbehind hs)).map _⟩
  | bind hfirst hnext =>
    exact ⟨rfl, fun c hc => answers_behind hfirst hc fun parsed d hd => hbehind (hnext _) d hd⟩

/-- A guarded grammar answers with as many characters left, if references do with
fewer. -/
theorem answersWithin_of_guarded (hg : Scheme.guarded.Admits g)
    (hcall : ∀ name, (call name).AnswersBelow n) : (g.parserWith call).AnswersWithin n :=
  answersWithin_of_admits False.elim (fun h => h.answersWithin hcall) hg

/-- As deep as there are characters left is deep enough. -/
theorem resultAt_ne_exhausted (hdefinitions : ∀ name, Scheme.guarded.Admits (definitions name)) :
    ∀ {depth : Nat} {g : Grammar ρ} {c : Cursor}, Scheme.guarded.Admits g →
      c.remaining ≤ depth → g.resultAt definitions depth c ≠ .exhausted := by
  -- A definition that is reached has one level less, and one character less at least.
  intro depth
  induction depth with
  | zero =>
    intro g c hg hc
    exact answersWithin_of_guarded hg (fun _ _ h => absurd h (Nat.not_lt_zero _)) c hc
  | succ depth ih =>
    intro g c hg hc
    exact answersWithin_of_guarded hg
      (fun name d hd => ih (hdefinitions name) (Nat.le_of_lt_succ hd)) c hc

/-- Guarded grammars with guarded definitions terminate everywhere. So do grammars
without references, whatever the definitions are. -/
theorem terminates_of_guarded :
    (∀ (definitions : ρ → Grammar ρ) (g : Grammar ρ),
      (∀ name, Scheme.guarded.Admits (definitions name)) → Scheme.guarded.Admits g →
      ∀ c, g.Terminates definitions c) ∧
    (∀ g : Grammar ρ, Scheme.referenceFree.Admits g →
      ∀ definitions c, g.Terminates definitions c) := by
  constructor
  · intro definitions g hdefinitions hg c
    rw [terminates_iff]
    exact ⟨c.remaining, resultAt_ne_exhausted hdefinitions hg (Nat.le_refl _)⟩
  · intro g hg definitions c
    rw [terminates_iff]
    refine ⟨0, ?_⟩
    exact answersWithin_of_admits False.elim False.elim hg c (Nat.le_refl _)

theorem terminates_of_guarded_openings :
    (openings ()).Terminates openings (.new ['(', '(']) ∧
      (Grammar.many .endOfInput).Terminates (fun _ => Grammar.ref ()) (.new ['(']) := by
  have hopenings : ∀ name, Scheme.guarded.Admits (openings name) := fun _ =>
    .orElse (.given (.keepRight (.literal (by decide)) (.ref trivial _))) (.pure _)
  constructor
  · exact terminates_of_guarded.1 openings _ hopenings (hopenings ()) _
  · exact terminates_of_guarded.2 _ (.atLeast 0 .endOfInput) _ _

end Grammar

end Parsing
