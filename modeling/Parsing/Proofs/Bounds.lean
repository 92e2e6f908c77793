import Parsing.Proofs.Answers
import Parsing.Proofs.Correspondence.Translated
import Parsing.Run

/-!
# What honest grammars report

A grammar is *honest* if it is made of the parts of this library only, of
functions that return, and of changes of errors that leave the offset alone. An
error that a body makes itself lies between the place where its sequence, or its
iteration of a loop, began and the end of the text, as those do that it catches.

> `answers_in_bounds`: an honest grammar never faults, what it reports having
> read lies ahead of the cursor and within the text, and so does the offset of
> its failures.

The condition on bodies is needed: a sequence passes on whatever error its body
ends with, and no text has a position for one that lies outside
(`own_errors_can_lie_outside`).

The proof compares a run with itself: `translated` with an empty lead and no
faults allowed. What later files ask of a parser that may come from anywhere is
`Parser.Honest`, which is the same promise for the cursors of a program.
-/

namespace Parsing

variable {ρ : Type}

/-- One error, at an offset between a place and the end of the text. -/
def ParseError.SameAhead (c : Cursor) (e e' : ParseError) : Prop :=
  e' = e ∧ c.idx ≤ e.idx ∧ e.idx ≤ c.len

/-- The parts that keep their promises, with bodies that may make some errors. The ranges and
the errors that a body is given lie ahead of where it began. -/
def Scheme.honestWith (raises : Cursor → ParseError → ParseError → Prop) : Scheme ρ where
  foreign _ _ := False
  moves := True
  refs := True
  maps f := ∀ value, ∃ result, f value = .ok result
  changes change := ∀ error, ∃ message, change error = .ok (error.withMessage message)
  ranged := True
  begins := Cursor.Reachable
  spans start range :=
    start.idx ≤ range.start ∧ range.start ≤ range.stop ∧ range.stop ≤ start.len
  raises := raises
  caught := ParseError.SameAhead
  looks _ := True

/-- The parts that keep their promises. -/
def Scheme.honest : Scheme ρ := .honestWith ParseError.SameAhead

namespace Cursor

theorem beside_self {c : Cursor} (hc : c.Sound) : Beside [] c c :=
  ⟨hc, hc, rfl, (Nat.zero_add _).symm⟩

/-- Behind nothing a place is where it is. -/
theorem Beside.eq_of_nil {c c' : Cursor} (h : Beside [] c c') : c' = c := by
  have htext : c'.text = c.text := h.text_eq
  have hidx : c'.idx = c.idx := h.idx_eq.trans (Nat.zero_add _)
  rw [h.left.eq_atOffset, h.right.eq_atOffset, htext, hidx]

end Cursor

namespace Correspondence

/-- The correspondence of a run without faults with itself. -/
def itself : Correspondence := translated [] fun _ _ => False

theorem errors_itself_iff {c c' : Cursor} {e e' : ParseError} :
    itself.errors c c' e e' ↔ ParseError.SameAhead c e e' := by
  have hshift : e.shift ([] : Text).length = e := by
    rw [ParseError.shift, List.length_nil, Nat.zero_add]
  constructor
  · rintro ⟨hlo, hhi, heq⟩
    exact ⟨heq.trans hshift, hlo, hhi⟩
  · rintro ⟨heq, hlo, hhi⟩
    exact ⟨hlo, hhi, heq.trans hshift.symm⟩

theorem ranges_eq_of_itself {c c' : Cursor} {r r' : Range} (hr : itself.ranges c c' r r') :
    r' = r := by
  rw [hr.2.2.2, Range.shift, List.length_nil, Nat.zero_add, Nat.zero_add]

theorem moveTo_itself (idx : Nat) : itself.Parsers (Parser.moveTo idx) (Parser.moveTo idx) := by
  intro c c' hc
  have heq := Cursor.Beside.eq_of_nil hc
  subst heq
  simp only [Parser.moveTo]
  -- Either the target lies ahead, or the failure is reported here.
  by_cases hcan : c'.canGoto idx = true
  · obtain ⟨hlo, hhi⟩ := Cursor.canGoto_iff.mp hcan
    rw [if_pos hcan, Parsed.new_of_le hlo]
    refine Outcome.related_pure ⟨⟨Nat.le_refl _, hlo, hhi, ?_⟩, rfl⟩
    rw [Range.shift, List.length_nil, Nat.zero_add, Nat.zero_add]
  · rw [if_neg hcan]
    exact Outcome.related_fail (itself.error_here _ hc)

theorem inStep_itself {call call' : ρ → Parser Value}
    (hcall : ∀ name, itself.Parsers (call name) (call' name)) :
    Scheme.honest.InStep itself call call' where
  foreign h := h.elim
  moves _ := moveTo_itself
  refs _ := hcall
  given h := h.elim
  maps hf value := by
    obtain ⟨result, hresult⟩ := hf value
    rw [hresult]
    exact .ok rfl
  changes := by
    intro change c c' e e' hchange he
    obtain ⟨rfl, -, -⟩ := errors_itself_iff.mp he
    obtain ⟨message, hmessage⟩ := hchange e'
    rw [hmessage]
    exact .ok (itself.withMessage message he)
  inserts h := h.elim
  ranges_eq _ hr := ranges_eq_of_itself hr
  begins hc := Cursor.reachable_iff_sound.mpr hc.left
  spans hr := ⟨hr.1, hr.2.1, hr.2.2.1⟩
  raises he _ := errors_itself_iff.mpr he
  caught he := errors_itself_iff.mp he
  looks _ hc _ := by rw [Cursor.Beside.eq_of_nil hc]

end Correspondence

namespace Grammar

section

variable {definitions : ρ → Grammar ρ} {g : Grammar ρ} (hg : Scheme.honest.Admits g)
  (hdefinitions : ∀ name, Scheme.honest.Admits (definitions name))

include hg hdefinitions

/-- What an honest grammar comes to, to any depth. -/
theorem related_resultAt {c : Cursor} (hc : c.Sound) (depth : Nat) :
    (g.resultAt definitions depth c).Related Correspondence.itself.toLeeway
      (Correspondence.itself.errors c c) (Correspondence.itself.Reports c c)
      (g.resultAt definitions depth c) :=
  Scheme.related_resultAt trivial Correspondence.inStep_itself hdefinitions hg depth
    (Cursor.beside_self hc)

theorem resultAt_ne_fault {c : Cursor} (hc : c.Sound) (depth : Nat) (cause : Fault) :
    g.resultAt definitions depth c ≠ .fault cause := by
  intro h
  have hrelated := related_resultAt hg hdefinitions hc depth
  rw [h] at hrelated
  cases hrelated with
  | fault hfault => exact hfault

theorem range_in_bounds {c : Cursor} (hc : c.Sound) {depth : Nat} {parsed : Parsed Value}
    (h : g.resultAt definitions depth c = .ok parsed) :
    c.idx ≤ parsed.range.start ∧ parsed.range.start ≤ parsed.range.stop ∧
      parsed.range.stop ≤ c.len := by
  have hrelated := related_resultAt hg hdefinitions hc depth
  rw [h] at hrelated
  cases hrelated with
  | ok hreport =>
    obtain ⟨hlo, hle, hhi, -⟩ := hreport.1
    exact ⟨hlo, hle, hhi⟩

theorem error_in_bounds {c : Cursor} (hc : c.Sound) {depth : Nat} {error : ParseError}
    (h : g.resultAt definitions depth c = .fail error) :
    c.idx ≤ error.idx ∧ error.idx ≤ c.len := by
  have hrelated := related_resultAt hg hdefinitions hc depth
  rw [h] at hrelated
  cases hrelated with
  | fail herror => exact ⟨herror.1, herror.2.1⟩

/-- The offset of a failure is one of the text, so it has a line and a column. -/
theorem run_ne_fault {text : Text} (hsize : text.byteSize ≤ maxTextSize) (depth : Nat)
    (cause : Fault) : ((g.parser definitions depth).run text).result ≠ .fault cause := by
  have hc : (Cursor.new text).Sound := Cursor.sound_new hsize
  intro h
  rw [Parser.result_run] at h
  cases hresult : ((g.parser definitions depth).parse (Cursor.new text)).result with
  | ok parsed => rw [hresult] at h; cases h
  | fail error =>
    -- Only here could a run fault on its own account, for want of a position.
    obtain ⟨-, hidx⟩ := error_in_bounds hg hdefinitions hc hresult
    obtain ⟨position, hposition⟩ := Position.create_of_le hidx
    rw [hresult] at h
    dsimp only at h
    rw [SyntaxError.resolve, hposition] at h
    cases h
  | fault cause' => exact resultAt_ne_fault hg hdefinitions hc depth cause' hresult
  | exhausted => rw [hresult] at h; cases h

end

/-- Honest grammars do not fault, on no text and however deep their references go,
and what they report lies between the cursor and the end of the text. Running
one on a text does not fault either. -/
theorem answers_in_bounds {definitions : ρ → Grammar ρ} {g : Grammar ρ}
    (hg : Scheme.honest.Admits g)
    (hdefinitions : ∀ name, Scheme.honest.Admits (definitions name)) :
    (∀ c : Cursor, c.Reachable →
      (∀ cause, ¬ g.Answers definitions c (.fault cause)) ∧
      (∀ parsed, g.Answers definitions c (.ok parsed) →
        c.idx ≤ parsed.range.start ∧ parsed.range.start ≤ parsed.range.stop ∧
          parsed.range.stop ≤ c.len) ∧
      (∀ error, g.Answers definitions c (.fail error) → c.idx ≤ error.idx ∧ error.idx ≤ c.len)) ∧
    ∀ text : Text, text.byteSize ≤ maxTextSize → ∀ depth cause,
      ((g.parser definitions depth).run text).result ≠ .fault cause := by
  refine ⟨fun c hc => ⟨?_, ?_, ?_⟩, fun text hsize => run_ne_fault hg hdefinitions hsize⟩
  · intro cause h
    obtain ⟨-, depth, hdepth⟩ := h
    exact resultAt_ne_fault hg hdefinitions hc.sound depth cause hdepth
  · intro parsed h
    obtain ⟨-, depth, hdepth⟩ := h
    exact range_in_bounds hg hdefinitions hc.sound hdepth
  · intro error h
    obtain ⟨-, depth, hdepth⟩ := h
    exact error_in_bounds hg hdefinitions hc.sound hdepth

/-- An iteration over any character goes inside behind it. -/
theorem idx_of_enters_anyChar {T : Scheme ρ} {start inside : Cursor} {parsed : Parsed Value}
    (h : T.Enters .anyChar start parsed inside) : inside.idx = start.idx + 1 := by
  obtain ⟨call, hparsed⟩ := h.canReport
  obtain ⟨one, hone, rfl⟩ := Parser.map_eq_ok hparsed
  obtain ⟨-, -, hidx, -⟩ := Cursor.goto_eq_ok h.goto
  rw [hidx, Parsed.range_map, Parser.range_of_anyChar hone]

/-- A body may reject the character it was given, at the offset of that character: this is
where the iteration began, or further on. -/
theorem admits_rejecting (message : String) :
    Scheme.honest.Admits (.forEach .anyChar fun _ =>
      .look fun view => .raise ⟨view.cursor.idx - 1, message⟩ : Grammar ρ) := by
  refine .forEach .anyChar fun start parsed inside hentered =>
    .look trivial fun view hview => .raise ?_
  have hbehind := idx_of_enters_anyChar hentered
  have hahead := (Cursor.leadsTo_of_goto hentered.goto).trans hview
  have hlo := hview.idx_le
  have hhi := hahead.idx_le_len (Cursor.Reachable.sound hentered.begins).idx_le_len
  have hlen := hahead.len_eq
  refine ⟨rfl, ?_, ?_⟩
  · show start.idx ≤ view.cursor.idx - 1
    omega
  · show view.cursor.idx - 1 ≤ start.len
    omega

/-- Opening parentheses, and behind them a body that renames the error it caught, and one
in a loop that rejects the character it was given, at the offset of that character. -/
theorem answers_in_bounds_openings :
    let closed : Grammar Unit :=
      .keepRight (.ref ()) (.sequence (.labelled "not closed" (.literal ")")))
    let rejected : Grammar Unit := .keepRight (.ref ()) (.forEach .anyChar fun _ =>
      .look fun view => .raise ⟨view.cursor.idx - 1, "rejected"⟩)
    ((openings ()).Answers openings (.new ['(', '(']) (.ok ⟨⟨0, 2⟩, .unit⟩) ∧
      (0 ≤ 0 ∧ 0 ≤ 2 ∧ 2 ≤ (Cursor.new ['(', '(']).len) ∧
      (((openings ()).parser openings 3).run ['(', '(']).result ≠ .fault .additionOverflow) ∧
    (closed.Answers openings (.new ['(', 'é']) (.fail ⟨1, "not closed"⟩) ∧
      0 ≤ 1 ∧ 1 ≤ (Cursor.new ['(', 'é']).len) ∧
    (rejected.Answers openings (.new ['(', 'é']) (.fail ⟨1, "rejected"⟩) ∧
      (0 ≤ 1 ∧ 1 ≤ (Cursor.new ['(', 'é']).len) ∧
      ((rejected.parser openings 3).run ['(', 'é']).result ≠ .fault (.outOfRange ⟨1, 0, 0⟩)) := by
  intro closed rejected
  have hopenings : ∀ name, Scheme.honest.Admits (openings name) := fun _ =>
    .orElse (.keepRight (.literal _) (.ref trivial _)) (.pure _)
  have hclosed : Scheme.honest.Admits closed :=
    .keepRight (.ref trivial _) (.sequence fun _ _ => .labelled _ (.literal _))
  have hrejected : Scheme.honest.Admits rejected :=
    .keepRight (.ref trivial _) (admits_rejecting "rejected")
  have hread : (openings ()).Answers openings (.new ['(', '(']) (.ok ⟨⟨0, 2⟩, .unit⟩) :=
    ⟨nofun, 2, by decide⟩
  have hrenamed : closed.Answers openings (.new ['(', 'é']) (.fail ⟨1, "not closed"⟩) :=
    ⟨nofun, 2, by decide⟩
  have hown : rejected.Answers openings (.new ['(', 'é']) (.fail ⟨1, "rejected"⟩) :=
    ⟨nofun, 2, by decide +kernel⟩
  refine ⟨?_, ?_, ?_⟩
  · obtain ⟨hbounds, hrun⟩ := answers_in_bounds (hopenings ()) hopenings
    obtain ⟨-, hrange, -⟩ := hbounds (.new ['(', '(']) (.new (by decide))
    exact ⟨hread, hrange _ hread, hrun _ (by decide) 3 _⟩
  · obtain ⟨hbounds, -⟩ := answers_in_bounds hclosed hopenings
    obtain ⟨-, -, herror⟩ := hbounds (.new ['(', 'é']) (.new (by decide))
    exact ⟨hrenamed, herror _ hrenamed⟩
  · obtain ⟨hbounds, hrun⟩ := answers_in_bounds hrejected hopenings
    obtain ⟨-, -, herror⟩ := hbounds (.new ['(', 'é']) (.new (by decide))
    exact ⟨hown, herror _ hown, hrun _ (by decide) 3 _⟩

/-- A body that ends with an error of its own, at an offset that is not one of the text. The
sequence reports it as it is, and running the sequence is a fault. The body does what one
does that runs a parser which fails with that error. -/
theorem own_errors_can_lie_outside :
    let g : Grammar Empty := .sequence (.raise ⟨99, "x"⟩)
    let delegated : Grammar Empty :=
      .sequence (.parse (.foreign ⟨fun _ => .fail ⟨99, "x"⟩⟩) .done)
    (Scheme.honestWith fun _ e e' => e' = e).Admits g ∧ (Cursor.new []).Reachable ∧
      g.Answers nofun (.new []) (.fail ⟨99, "x"⟩) ∧ (Cursor.new []).len < 99 ∧
      ((g.parser nofun 0).run []).result = .fault (.outOfRange ⟨99, 0, 0⟩) ∧
      delegated.parser nofun 0 = g.parser nofun 0 := by
  intro g delegated
  have hg : (Scheme.honestWith fun _ e e' => e' = e).Admits g := .sequence fun _ _ => .raise rfl
  exact ⟨hg, .new (by decide), ⟨nofun, 0, rfl⟩, by decide, rfl, rfl⟩

end Grammar

/-! ## Honest parsers -/

/-- A parser that keeps its promises on every cursor that a program can hold: it does
not fault there, and reports what lies between the cursor and the end of the text. -/
structure Parser.Honest {α : Type} (p : Parser α) : Prop where
  ne_fault : ∀ c : Cursor, c.Reachable → ∀ cause, (p.parse c).result ≠ .fault cause
  in_bounds : ∀ c : Cursor, c.Reachable → ∀ parsed, (p.parse c).result = .ok parsed →
    c.idx ≤ parsed.range.start ∧ parsed.range.start ≤ parsed.range.stop ∧
      parsed.range.stop ≤ c.len

namespace Grammar

/-- A grammar whose parser keeps its promises, however deep its references go. -/
def Honest (definitions : ρ → Grammar ρ) (g : Grammar ρ) : Prop :=
  ∀ depth, (g.parser definitions depth).Honest

/-- Grammars of honest parts are honest. -/
theorem honest_of_admits {definitions : ρ → Grammar ρ} {g : Grammar ρ}
    (hg : Scheme.honest.Admits g)
    (hdefinitions : ∀ name, Scheme.honest.Admits (definitions name)) : g.Honest definitions :=
  fun depth => {
    ne_fault := fun _ hc => resultAt_ne_fault hg hdefinitions hc.sound depth
    in_bounds := fun _ hc _ h => range_in_bounds hg hdefinitions hc.sound h }

end Grammar

end Parsing
