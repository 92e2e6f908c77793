import Parsing.Proofs.Answers
import Parsing.Proofs.Correspondence.Translated

/-!
# Text that was passed does not matter

A grammar is *position-free* if nothing in it can tell one offset from another:
it has no moves to given offsets and no parsers from outside, its ranges do not
become values, its changes of errors go by the message, and its bodies look at
what is ahead of them and no further, and raise errors only that they caught, be it
under another message. Such a grammar answers behind any text the same as on its
own.

> `translation_invariant`: at the same place behind a lead, what was read and
> where a failure is reported are shifted by the length of the lead, and nothing
> else is different.

The lead and the text may hold characters of any size, so the bytes of the two
runs are unrelated. The correspondence is `translated`, with each fault opposite
itself.
-/

namespace Parsing

variable {ρ : Type}

/-- The parts that cannot tell where they are. -/
def Scheme.positionFree : Scheme ρ where
  foreign _ _ := False
  moves := False
  refs := True
  maps _ := True
  changes change := ∃ reword : String → Except Fault String,
    ∀ error, change error = (reword error.message).map error.withMessage
  ranged := False
  raises _ _ _ := False
  caught _ e e' := e'.message = e.message
  looks next := ∃ ahead : Text → Option Char → Bool → LoopState Value → Body ρ,
    ∀ view, next view = ahead view.cursor.rest view.cursor.peek view.cursor.atEnd view.loop

/-- A result behind `n` characters. -/
def Result.shift (n : Nat) : Result (Parsed Value) → Result (Parsed Value)
  | .ok parsed => .ok ⟨parsed.range.shift n, parsed.value⟩
  | .fail error => .fail (error.shift n)
  | .fault cause => .fault cause
  | .exhausted => .exhausted

theorem Result.shift_eq_exhausted {n : Nat} {r : Result (Parsed Value)} :
    r.shift n = .exhausted ↔ r = .exhausted := by
  cases r <;> simp [Result.shift]

namespace Correspondence

variable {lead : Text}

/-- Runs behind a lead in which the same faults stand opposite each other. -/
def afterLead (lead : Text) : Correspondence := translated lead fun cause cause' => cause' = cause

/-- A new message that is found without looking at the offset. -/
theorem related_reword {c c' : Cursor} {e e' : ParseError} (he : (afterLead lead).errors c c' e e')
    (reword : String → Except Fault String) :
    RelatedExcept (afterLead lead).faults ((afterLead lead).errors c c')
      ((reword e.message).map e.withMessage) ((reword e'.message).map e'.withMessage) := by
  have hmessage : e'.message = e.message := by rw [he.2.2]; rfl
  rw [hmessage]
  cases reword e.message with
  | error cause => exact .error rfl
  | ok message => exact .ok ((afterLead lead).withMessage message he)

theorem inStep_afterLead {call call' : ρ → Parser Value}
    (hcall : ∀ name, (afterLead lead).Parsers (call name) (call' name)) :
    Scheme.positionFree.InStep (afterLead lead) call call' where
  foreign h := h.elim
  moves h := h.elim
  refs _ := hcall
  given h := h.elim
  maps _ value := @RelatedExcept.refl _ _ (fun cause cause' => cause' = cause) (fun _ => rfl) _
  changes := by
    intro change c c' e e' hchange he
    obtain ⟨reword, hreword⟩ := hchange
    rw [hreword, hreword]
    exact related_reword he reword
  inserts h := h.elim
  ranges_eq h := h.elim
  begins _ := trivial
  spans _ := trivial
  raises h := h.elim
  caught he := by rw [he.2.2]; rfl
  looks := by
    intro next c c' hlooks hc loop
    obtain ⟨ahead, hahead⟩ := hlooks
    -- What is ahead is the same, and `peek` is the first of it.
    rw [hahead, hahead, Cursor.peek, Cursor.peek, hc.rest_eq, hc.atEnd_eq]

end Correspondence

namespace Grammar

variable {definitions : ρ → Grammar ρ} {g : Grammar ρ}

theorem resultAt_behind (hg : Scheme.positionFree.Admits g)
    (hdefinitions : ∀ name, Scheme.positionFree.Admits (definitions name)) {lead : Text}
    {c c' : Cursor} (hc : Cursor.Beside lead c c') (depth : Nat) :
    g.resultAt definitions depth c' = (g.resultAt definitions depth c).shift lead.length := by
  have hrelated := Scheme.related_resultAt trivial Correspondence.inStep_afterLead hdefinitions hg
    depth hc
  generalize g.resultAt definitions depth c = r at hrelated ⊢
  generalize g.resultAt definitions depth c' = r' at hrelated ⊢
  cases hrelated with
  | @ok a a' hreport =>
    obtain ⟨range, value⟩ := a
    obtain ⟨range', value'⟩ := a'
    obtain ⟨⟨_, _, _, hrange⟩, hvalue⟩ := hreport
    dsimp only at hrange hvalue
    rw [hrange, hvalue]
    rfl
  | fail he => rw [he.2.2]; rfl
  | fault hf => rw [hf]; rfl
  | exhausted _ => rfl
  | behind h _ => exact h.elim

/-- Position-free grammars with position-free definitions answer at a place behind a
lead what they answer at that place without it, with offsets counted from the
start of the lead. One parse terminates exactly if the other does. -/
theorem translation_invariant (hg : Scheme.positionFree.Admits g)
    (hdefinitions : ∀ name, Scheme.positionFree.Admits (definitions name)) {lead : Text}
    {c c' : Cursor} (hc : c.Reachable) (hc' : c'.Reachable) (htext : c'.text = lead ++ c.text)
    (hidx : c'.idx = lead.length + c.idx) :
    (∀ depth, g.resultAt definitions depth c' =
      (g.resultAt definitions depth c).shift lead.length) ∧
    (∀ answer, g.Answers definitions c answer →
      g.Answers definitions c' (answer.shift lead.length)) ∧
    (g.Terminates definitions c' ↔ g.Terminates definitions c) := by
  have hresult := resultAt_behind hg hdefinitions (⟨hc.sound, hc'.sound, htext, hidx⟩ :
    Cursor.Beside lead c c')
  refine ⟨hresult, ?_, ?_⟩
  · intro answer h
    obtain ⟨hsettled, depth, hdepth⟩ := h
    refine ⟨fun hexhausted => hsettled (Result.shift_eq_exhausted.mp hexhausted), depth, ?_⟩
    rw [hresult, hdepth]
  · rw [terminates_iff, terminates_iff]
    refine exists_congr fun depth => not_congr ?_
    rw [hresult, Result.shift_eq_exhausted]

/-- Opening parentheses behind a character of two bytes, and, behind one of three, a body
that renames the error it caught. -/
theorem translation_invariant_openings :
    ((openings ()).Answers openings (.atOffset ['(', '('] 1) (.ok ⟨⟨1, 2⟩, .unit⟩) ∧
      (openings ()).Answers openings (.atOffset ['é', '(', '('] 2) (.ok ⟨⟨2, 3⟩, .unit⟩)) ∧
    let closed : Grammar Unit :=
      .keepRight (.ref ()) (.sequence (.labelled "not closed" (.literal ")")))
    closed.Answers openings (.atOffset ['(', 'é'] 0) (.fail ⟨1, "not closed"⟩) ∧
      closed.Answers openings (.atOffset ['日', '(', 'é'] 1) (.fail ⟨2, "not closed"⟩) := by
  have hopenings : ∀ name, Scheme.positionFree.Admits (openings name) := fun _ =>
    .orElse (.keepRight (.literal _) (.ref trivial _)) (.pure _)
  constructor
  · have hanswer : (openings ()).Answers openings (.atOffset ['(', '('] 1)
        (.ok ⟨⟨1, 2⟩, .unit⟩) := ⟨nofun, 1, by decide⟩
    obtain ⟨_, hbehind, _⟩ := @translation_invariant _ openings _ (hopenings ()) hopenings ['é']
      (.atOffset ['(', '('] 1) (.atOffset ['é', '(', '('] 2)
      (Cursor.reachable_atOffset (by decide) (by decide))
      (Cursor.reachable_atOffset (by decide) (by decide)) rfl rfl
    exact ⟨hanswer, hbehind _ hanswer⟩
  · intro closed
    have hclosed : Scheme.positionFree.Admits closed :=
      .keepRight (.ref trivial _) (.sequence fun _ _ => .labelled _ (.literal _))
    have hanswer : closed.Answers openings (.atOffset ['(', 'é'] 0) (.fail ⟨1, "not closed"⟩) :=
      ⟨nofun, 2, by decide⟩
    obtain ⟨_, hbehind, _⟩ := @translation_invariant _ openings _ hclosed hopenings ['日']
      (.atOffset ['(', 'é'] 0) (.atOffset ['日', '(', 'é'] 1)
      (Cursor.reachable_atOffset (by decide) (by decide))
      (Cursor.reachable_atOffset (by decide) (by decide)) rfl rfl
    exact ⟨hanswer, hbehind _ hanswer⟩

end Grammar

end Parsing
