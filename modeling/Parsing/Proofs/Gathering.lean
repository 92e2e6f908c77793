import Parsing.Proofs.Iteration
import Parsing.Proofs.Nullable

/-!
# Loops that gather

A loop whose bodies read nothing and only keep what the condition found does by other
rules what a repetition does. It asks for the next value before it looks whether the text
is over, and goes on by force where nothing was read; a repetition asks once more at the
end of the text, and stops where nothing was read. For a parser that reads something
wherever it succeeds there is no difference left:

> `forEach_gathers_many`: a loop that yields the values of such a parser yields those of
> its repetition, from the same range, and one that appends their texts accumulates what
> the repetition comes to, joined.

`Chain.course` carries it: along the links of a chain, each iteration of the loop does
its action to the state and ends where the link does.
-/

namespace Parsing

namespace LoopState

variable {α ι : Type}

/-- The state after an action for each value. -/
def actAll (action : α → LoopAction ι) (state : LoopState ι) (values : List α) : LoopState ι :=
  values.foldl (fun state value => state.act (action value)) state

theorem actAll_yield (state : LoopState α) (values : List α) :
    state.actAll .yield values = { state with items := state.items ++ values } := by
  induction values generalizing state with
  | nil => simp [actAll]
  | cons value values ih =>
    show (state.act (.yield value)).actAll .yield values = _
    rw [ih]
    simp [act]

theorem actAll_append (toText : α → String) (state : LoopState ι) (values : List α) :
    state.actAll (fun value => .append (toText value)) values =
      { state with accumulated := state.accumulated ++ String.join (values.map toText) } := by
  induction values generalizing state with
  | nil => simp [actAll]
  | cons value values ih =>
    show (state.act (.append (toText value))).actAll _ values = _
    rw [ih]
    simp [act, String.join_cons, String.append_assoc]

end LoopState

namespace Parser

variable {α ι : Type} {p : Parser α} {text : Text} {start last : Nat} {values : List α}

/-! ## Bodies that read nothing -/

/-- A body that does an action for each value and reads nothing. -/
def doing (action : α → LoopAction ι) (value : α) (state : LoopState ι) (start : Cursor) :
    Steps start (LoopState ι) := return state.act (action value)

/-- Actions that let the loop go on. -/
def Continues (action : α → LoopAction ι) : Prop :=
  ∀ value state, (LoopState.act state (action value)).stopRequested = state.stopRequested

theorem continues_yield : Continues (.yield : α → LoopAction α) := fun _ _ => rfl

theorem continues_append (toText : α → String) :
    Continues fun value => (.append (toText value) : LoopAction ι) := fun _ _ => rfl

theorem keepsPlaces_doing (action : α → LoopAction ι) : KeepsPlaces (doing action) := by
  intro value state start hstart after behind h
  cases Result.ok.inj h
  exact hstart

/-- An iteration that reads something is followed by the next one, unless it read the text
to its end. -/
theorem turn_doing {action : α → LoopAction ι} (hgoes : Continues action) {state : LoopState ι}
    (hstate : state.stopRequested = false) {a : Parsed α}
    (ha : (p.parse (.atOffset text start)).result = .ok a) (hlt : start < a.range.stop)
    (hle : a.range.stop ≤ text.length) : turn p (doing action) text state start =
      if a.range.stop = text.length then .last (.ok (state.act (action a.value), a.range.stop))
      else .again (state.act (action a.value)) a.range.stop := by
  have hran : ranFrom (doing action) text a.value state a.range.stop =
      .ok (state.act (action a.value), a.range.stop) := rfl
  have hgoesOn : (state.act (action a.value)).stopRequested = false := by rw [hgoes, hstate]
  unfold turn
  rw [ha]
  dsimp only
  rw [if_pos ⟨Nat.le_of_lt hlt, hle⟩, hran]
  unfold turnBehind
  dsimp only
  rw [hgoesOn, Bool.false_or]
  by_cases hend : a.range.stop = text.length
  · rw [if_pos (beq_iff_eq.mpr hend), if_pos hend]
  · rw [if_neg (fun h => hend (beq_iff_eq.mp h)), if_neg hend, if_pos hlt]

theorem turn_of_fail {body : α → LoopState ι → (start : Cursor) → Steps start (LoopState ι)}
    {error : ParseError} (h : (p.parse (.atOffset text start)).result = .fail error)
    (state : LoopState ι) : turn p body text state start = .last (.ok (state, start)) := by
  unfold turn
  rw [h]

/-- At the end of the text a chain is over. -/
theorem Chain.of_length (h : Chain p text text.length values last) :
    values = [] ∧ last = text.length := by
  cases h with
  | nil => exact ⟨rfl, rfl⟩
  | cons _ hlt hle _ => exact absurd hlt (Nat.not_lt_of_le hle)

/-- A loop goes along the chain of its condition, if that ends where the condition fails. -/
theorem Chain.course {action : α → LoopAction ι} (hgoes : Continues action)
    (h : Chain p text start values last) {error : ParseError}
    (hfail : (p.parse (.atOffset text last)).result = .fail error) {state : LoopState ι}
    (hstate : state.stopRequested = false) :
    ∃ starts, Course p (doing action) text state start starts
      (.ok (state.actAll action values, last)) := by
  induction h generalizing state with
  | nil i => exact ⟨[i], .last (turn_of_fail hfail state)⟩
  | @cons i last a values ha hlt hle hmore ih =>
    have hturn := turn_doing hgoes hstate ha hlt hle
    by_cases hend : a.range.stop = text.length
    · rw [if_pos hend] at hturn
      rw [hend] at hmore
      obtain ⟨rfl, rfl⟩ := hmore.of_length
      exact ⟨[i], .last (hend ▸ hturn)⟩
    · rw [if_neg hend] at hturn
      obtain ⟨starts, hcourse⟩ := ih hfail (hgoes a.value state ▸ hstate)
      exact ⟨i :: starts, .again hturn hcourse⟩

/-- What such a loop comes to. -/
theorem result_forEach_doing {action : α → LoopAction ι} (hgoes : Continues action)
    (h : Chain p text start values last) {error : ParseError}
    (hfail : (p.parse (.atOffset text last)).result = .fail error)
    (hsize : text.byteSize ≤ maxTextSize) (hstart : start ≤ text.length) :
    ((forEach p (doing action)).parse (.atOffset text start)).result =
      .ok ⟨⟨start, last⟩, ⟨(LoopState.initial.actAll action values).accumulated,
        (LoopState.initial.actAll action values).items⟩⟩ := by
  have hinitial : (LoopState.initial : LoopState ι).stopRequested = false := rfl
  obtain ⟨starts, hcourse⟩ := h.course hgoes hfail hinitial
  exact result_forEach_of_course hcourse (keepsPlaces_doing action) hsize hstart

/-! ## Gathering -/

/-- The body that only yields what the condition found. -/
def yielding : α → LoopState α → (start : Cursor) → Steps start (LoopState α) := doing .yield

/-- The body that only appends the text of what the condition found. -/
def appending (ι : Type) (toText : α → String) :
    α → LoopState ι → (start : Cursor) → Steps start (LoopState ι) :=
  doing fun value => .append (toText value)

section

variable (hchain : Chain p text start values last) {error : ParseError}
  (hfail : (p.parse (.atOffset text last)).result = .fail error)
  (hsize : text.byteSize ≤ maxTextSize) (hstart : start ≤ text.length)

include hchain hfail hsize hstart

theorem result_forEach_yielding : ((forEach p yielding).parse (.atOffset text start)).result =
    .ok ⟨⟨start, last⟩, ⟨"", values⟩⟩ := by
  have hloop := result_forEach_doing continues_yield hchain hfail hsize hstart
  rw [LoopState.actAll_yield] at hloop
  exact hloop

theorem result_forEach_appending (ι : Type) (toText : α → String) :
    ((forEach p (appending ι toText)).parse (.atOffset text start)).result =
      .ok ⟨⟨start, last⟩, ⟨String.join (values.map toText), []⟩⟩ := by
  have hgoes : Continues fun value => (.append (toText value) : LoopAction ι) :=
    continues_append toText
  have hloop := result_forEach_doing hgoes hchain hfail hsize hstart
  rw [LoopState.actAll_append] at hloop
  simp only [LoopState.initial, String.empty_append] at hloop
  exact hloop

end

/-- A parser that reads something wherever it succeeds. -/
def ReadsSome (p : Parser α) : Prop := ∀ c : Cursor, c.Reachable → ∀ parsed,
  (p.parse c).result = .ok parsed → c.idx < parsed.range.stop

/-- A repetition of such a parser ends where the parser fails. -/
theorem Honest.chain_of_many (hp : p.Honest) (hsome : p.ReadsSome) {c : Cursor}
    (hc : c.Reachable) {parsed : Parsed (List α)} (h : (p.many.parse c).result = .ok parsed) :
    ∃ last error, parsed.range = ⟨c.idx, last⟩ ∧ Chain p c.text c.idx parsed.value last ∧
      (p.parse (.atOffset c.text last)).result = .fail error := by
  obtain ⟨values, more, last, hchain, hend, rfl⟩ := hp.many_eq_ok hc h
  cases hend with
  | @failed error hfail =>
    rw [List.append_nil]
    exact ⟨last, error, rfl, hchain, hfail⟩
  | @stalled a ha hstop =>
    have hplace : (Cursor.atOffset c.text last).Reachable :=
      Cursor.reachable_atOffset (hchain.le_length hc.sound.idx_le) hc.sound.size_le
    exact absurd (hsome _ hplace a ha) (Nat.not_lt_of_le hstop)

theorem parserWith_forEach_doing {ρ : Type} (call : ρ → Parser Value) (g : Grammar ρ)
    (action : Value → LoopAction Value) :
    (Grammar.forEach g fun value => .act (action value) (.done .unit)).parserWith call =
      (forEach (g.parserWith call) (doing action)).map Grammar.loopValue := rfl

theorem parserWith_joined_many {ρ : Type} (call : ρ → Parser Value) (g : Grammar ρ) :
    (Grammar.joined (.many g)).parserWith call =
      (((g.parserWith call).many.map (List.map Value.text)).joined).map .str := by
  have hitems : ((g.parserWith call).many.map Value.list).map
      (fun value => value.items.map Value.text) =
        (g.parserWith call).many.map (List.map Value.text) := map_map _ _ _
  exact congrArg (fun p => (joined p).map Value.str) hitems

/-- A loop over a parser that reads something wherever it succeeds is a repetition of it
that keeps the values as its body does: as items if it yields them, and joined if it
appends their texts. -/
theorem forEach_gathers_many :
    (∀ {ρ : Type} (call : ρ → Parser Value) (g : Grammar ρ),
      (Grammar.forEach g fun value => .act (.yield value) (.done .unit)).parserWith call =
        (forEach (g.parserWith call) yielding).map Grammar.loopValue ∧
      (Grammar.forEach g fun value => .act (.append value.text) (.done .unit)).parserWith call =
        (forEach (g.parserWith call) (appending Value Value.text)).map Grammar.loopValue ∧
      (Grammar.joined (.many g)).parserWith call =
        (((g.parserWith call).many.map (List.map Value.text)).joined).map .str) ∧
    ∀ {α : Type} (p : Parser α), p.Honest → p.ReadsSome → ∀ c : Cursor, c.Reachable →
      (p.Total → ∃ parsed, (p.many.parse c).result = .ok parsed) ∧
      ∀ parsed, (p.many.parse c).result = .ok parsed →
        ((forEach p yielding).parse c).result = .ok ⟨parsed.range, ⟨"", parsed.value⟩⟩ ∧
        ∀ (ι : Type) (toText : α → String), ∃ text,
          ((p.many.map (List.map toText)).joined.parse c).result = .ok ⟨parsed.range, text⟩ ∧
          ((forEach p (appending ι toText)).parse c).result =
            .ok ⟨parsed.range, ⟨text, []⟩⟩ := by
  refine ⟨fun call g => ⟨parserWith_forEach_doing call g .yield,
    parserWith_forEach_doing call g fun value => .append value.text,
    parserWith_joined_many call g⟩, ?_⟩
  intro α p hp hsome c hc
  refine ⟨hp.many_succeeds hc, fun parsed h => ?_⟩
  obtain ⟨last, error, hrange, hchain, hfail⟩ := hp.chain_of_many hsome hc h
  obtain ⟨text, idx, hidx, hsize, rfl⟩ := hc.exists_eq_atOffset
  have hyields := result_forEach_yielding hchain hfail hsize hidx
  rw [hrange]
  refine ⟨hyields, fun ι toText => ⟨String.join (parsed.value.map toText), ?_, ?_⟩⟩
  · rw [joined, result_map, result_map, h, ← hrange]
    rfl
  · exact result_forEach_appending hchain hfail hsize hidx ι toText

/-- A loop over a letter, once up to another one and once up to the end of the text, where
it does not ask for one more. -/
theorem forEach_gathers_many_letters :
    let c : Cursor := .atOffset ['é', 'a', 'a', 'b', 'a'] 1
    let last : Cursor := .atOffset ['é', 'a', 'a', 'b', 'a'] 4
    let letter : Parser String := literal "a"
    ((forEach letter yielding).parse c).result = .ok ⟨⟨1, 3⟩, ⟨"", ["a", "a"]⟩⟩ ∧
      ((forEach letter (appending Unit id)).parse c).result = .ok ⟨⟨1, 3⟩, ⟨"aa", []⟩⟩ ∧
      ((forEach letter yielding).parse last).result = .ok ⟨⟨4, 5⟩, ⟨"", ["a"]⟩⟩ := by
  intro c last letter
  have hc : c.Reachable := Cursor.reachable_atOffset (by decide) (by decide)
  have hlast : last.Reachable := Cursor.reachable_atOffset (by decide) (by decide)
  have hsome : letter.ReadsSome := by
    intro d _ parsed h
    rw [range_of_literal h]
    exact Nat.lt_succ_self _
  have hmany : (letter.many.parse c).result = .ok ⟨⟨1, 3⟩, ["a", "a"]⟩ := by decide +kernel
  have hmany' : (letter.many.parse last).result = .ok ⟨⟨4, 5⟩, ["a"]⟩ := by decide +kernel
  obtain ⟨-, hgathers⟩ := forEach_gathers_many
  obtain ⟨-, hloops⟩ := hgathers letter (literal_honest "a") hsome c hc
  obtain ⟨-, hloops'⟩ := hgathers letter (literal_honest "a") hsome last hlast
  obtain ⟨hyields, happends⟩ := hloops _ hmany
  obtain ⟨text, hjoined, happends⟩ := happends Unit id
  have htext : ((letter.many.map (List.map id)).joined.parse c).result = .ok ⟨⟨1, 3⟩, "aa"⟩ := by
    decide +kernel
  cases hjoined.symm.trans htext
  exact ⟨hyields, happends, (hloops' _ hmany').1⟩

end Parser

end Parsing
