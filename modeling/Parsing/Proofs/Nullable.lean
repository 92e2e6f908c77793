import Parsing.Proofs.Delimiters

/-!
# Repeating what may read nothing

A repetition can be repeated, and so can a parser that is optional. Neither ever fails
where its parser does, so such a repetition ends by a round that reads nothing, whose
value counts:

> `many_of_nullable`: a repetition of options has one value more than the repetition
> itself, which is none, unless that ended by reading nothing; and a repetition of
> repetitions has the values of one of them, and behind these, if anything was read, what
> one more of them comes to.

What is added to the values along a chain is told by `Ending`, which has one case for
each way in which a repetition succeeds. An honest parser that comes to something ends
all its repetitions in one of them.
-/

namespace Parsing.Parser

variable {α : Type} {p : Parser α} {text : Text} {i last : Nat} {values more : List α}

/-! ## Where repetitions end -/

/-- How a repetition succeeds whose chain ends at `last`: the parser fails there, or it
reads nothing, and its value counts. -/
inductive Ending (p : Parser α) (text : Text) (last : Nat) : List α → Prop where
  | failed {error : ParseError} (h : (p.parse (.atOffset text last)).result = .fail error) :
    Ending p text last []
  | stalled {a : Parsed α} (h : (p.parse (.atOffset text last)).result = .ok a)
    (hstop : a.range.stop ≤ last) : Ending p text last [a.value]

theorem result_many_of_chain (hchain : Chain p text i values last) (hend : Ending p text last more)
    (hsize : text.byteSize ≤ maxTextSize) (hi : i ≤ text.length) :
    (p.many.parse (.atOffset text i)).result = .ok ⟨⟨i, last⟩, values ++ more⟩ := by
  have hconcludes := concludes_of_chain hchain hsize hi 0
  cases hend with
  | failed h =>
    rw [List.append_nil]
    exact hconcludes.failed _ h
  | stalled h hstop => exact hconcludes.stalled _ h hstop

namespace Honest

variable (hp : p.Honest)

include hp

/-- An honest parser that does not go forward reports the place where it is. -/
theorem range_of_stalled {c : Cursor} (hc : c.Reachable) {a : Parsed α}
    (ha : (p.parse c).result = .ok a) (hstop : a.range.stop ≤ c.idx) :
    a.range = .empty c.idx := by
  obtain ⟨hlo, hle, -⟩ := hp.in_bounds c hc a ha
  have hstart : a.range.start = c.idx := by omega
  have hend : a.range.stop = c.idx := by omega
  exact congrArg₂ Range.mk hstart hend

/-- Where an honest parser does not advance it fails or reads nothing, if it comes to
anything. -/
theorem exists_ending (hsize : text.byteSize ≤ maxTextSize) (hlast : last ≤ text.length)
    (h : ¬ p.Advances text last) :
    (∃ more, Ending p text last more) ∨ (p.parse (.atOffset text last)).result = .exhausted := by
  have hc : (Cursor.atOffset text last).Reachable := Cursor.reachable_atOffset hlast hsize
  cases hresult : (p.parse (.atOffset text last)).result with
  | ok a =>
    obtain ⟨-, -, hhi⟩ := hp.in_bounds _ hc a hresult
    have hstop : a.range.stop ≤ last := Nat.le_of_not_lt fun hlt => h ⟨a, hresult, hlt, hhi⟩
    exact .inl ⟨_, .stalled hresult hstop⟩
  | fail error => exact .inl ⟨_, .failed hresult⟩
  | fault cause => exact absurd hresult (hp.ne_fault _ hc cause)
  | exhausted => exact .inr rfl

variable {c : Cursor} (hc : c.Reachable)

include hc

/-- A repetition of an honest parser comes through a chain to an ending of it, or to
where the parser comes to nothing. -/
theorem many_cases :
    (∃ values more last, Chain p c.text c.idx values last ∧ Ending p c.text last more ∧
      (p.many.parse c).result = .ok ⟨⟨c.idx, last⟩, values ++ more⟩) ∨
    ∃ last, last ≤ c.text.length ∧ (p.parse (.atOffset c.text last)).result = .exhausted ∧
      (p.many.parse c).result = .exhausted := by
  obtain ⟨text, idx, hidx, hsize, rfl⟩ := hc.exists_eq_atOffset
  obtain ⟨values, last, hchain, hmaximal⟩ := Chain.exists_maximal p text idx
  have hlast := hchain.le_length hidx
  rcases hp.exists_ending hsize hlast hmaximal with ⟨more, hend⟩ | hexhausted
  · have hmany := result_many_of_chain hchain hend hsize hidx
    exact .inl ⟨values, more, last, hchain, hend, hmany⟩
  · have hconcludes := concludes_of_chain hchain hsize hidx 0
    exact .inr ⟨last, hlast, hexhausted, hconcludes.exhausted hexhausted⟩

theorem many_eq_ok {parsed : Parsed (List α)} (h : (p.many.parse c).result = .ok parsed) :
    ∃ values more last, Chain p c.text c.idx values last ∧ Ending p c.text last more ∧
      parsed = ⟨⟨c.idx, last⟩, values ++ more⟩ := by
  rcases hp.many_cases hc with ⟨values, more, last, hchain, hend, hmany⟩ | ⟨last, -, -, hmany⟩
  · exact ⟨values, more, last, hchain, hend, Result.ok.inj (h.symm.trans hmany)⟩
  · cases h.symm.trans hmany

/-- No repetition of an honest parser fails that comes to something. -/
theorem many_succeeds (htotal : p.Total) : ∃ parsed, (p.many.parse c).result = .ok parsed := by
  rcases hp.many_cases hc with ⟨values, more, last, -, -, hmany⟩ | ⟨last, hlast, hnothing, -⟩
  · exact ⟨_, hmany⟩
  · exact absurd hnothing (htotal _ (Cursor.reachable_atOffset hlast hc.sound.size_le))

end Honest

/-! ## Options -/

theorem Chain.optional (h : Chain p text i values last) :
    Chain p.optional text i (values.map some) last := by
  induction h with
  | nil i => exact .nil i
  | @cons i last a values ha hlt hle _ ih =>
    have hsome : (p.optional.parse (.atOffset text i)).result = .ok (a.map some) := by
      rw [result_optional, ha]
    exact .cons hsome hlt hle ih

/-- Where a parser fails, its option reads nothing. -/
theorem ending_optional_of_fail {error : ParseError}
    (h : (p.parse (.atOffset text last)).result = .fail error) :
    Ending p.optional text last [none] := by
  have hnone : (p.optional.parse (.atOffset text last)).result = .ok (.empty last none) := by
    rw [result_optional, h]
    rfl
  exact .stalled hnone (Nat.le_refl _)

theorem ending_optional_of_stalled {a : Parsed α}
    (h : (p.parse (.atOffset text last)).result = .ok a) (hstop : a.range.stop ≤ last) :
    Ending p.optional text last [some a.value] := by
  have hsome : (p.optional.parse (.atOffset text last)).result = .ok (a.map some) := by
    rw [result_optional, h]
  exact .stalled hsome hstop

/-! ## Repetitions -/

/-- Repetitions come next to each other: the first one goes on to where there is nothing
left for it, and the second one reads nothing there. -/
theorem result_many_many (hchain : Chain p text i values last) (hend : Ending p text last more)
    (hsize : text.byteSize ≤ maxTextSize) (hi : i ≤ text.length) :
    (p.many.many.parse (.atOffset text i)).result = .ok ⟨⟨i, last⟩,
      if last = i then [values ++ more] else [values ++ more, more]⟩ := by
  have hfirst := result_many_of_chain hchain hend hsize hi
  have hlast := hchain.le_length hi
  by_cases hsame : last = i
  · rw [if_pos hsame]
    subst hsame
    exact result_many_of_chain (.nil last) (.stalled hfirst (Nat.le_refl _)) hsize hi
  · rw [if_neg hsame]
    have hle := hchain.length_le
    have hlt : i < last := by omega
    have hagain := result_many_of_chain (.nil last) hend hsize hlast
    exact result_many_of_chain (.cons hfirst hlt hlast (.nil last))
      (.stalled hagain (Nat.le_refl _)) hsize hi

/-- A repetition of an honest parser stops where the parser fails or reads nothing. A
repetition of its options stops there as well, with one more value where it fails; and so
does a repetition of its repetitions, of which the second one does not move. -/
theorem many_of_nullable (hp : p.Honest) {c : Cursor} (hc : c.Reachable) :
    (p.Total → ∃ parsed, (p.many.parse c).result = .ok parsed) ∧
    ∀ start stop values, (p.many.parse c).result = .ok ⟨⟨start, stop⟩, values⟩ →
      start = c.idx ∧ ∃ behind more, c.goto stop = .ok behind ∧
        ((∃ error, (p.parse behind).result = .fail error) ∧ more = [] ∧
            (p.optional.many.parse c).result = .ok ⟨⟨c.idx, stop⟩, values.map some ++ [none]⟩ ∨
          ∃ a, (p.parse behind).result = .ok a ∧ a.range = .empty stop ∧ more = [a.value] ∧
            (p.optional.many.parse c).result = .ok ⟨⟨c.idx, stop⟩, values.map some⟩) ∧
        (p.many.many.parse c).result =
          .ok ⟨⟨c.idx, stop⟩, if stop = c.idx then [values] else [values, more]⟩ ∧
        (p.many.parse behind).result = .ok ⟨.empty stop, more⟩ := by
  refine ⟨hp.many_succeeds hc, fun start stop values h => ?_⟩
  obtain ⟨front, more, last, hchain, hend, hparsed⟩ := hp.many_eq_ok hc h
  cases hparsed
  obtain ⟨text, idx, hidx, hsize, rfl⟩ := hc.exists_eq_atOffset
  have hlast : stop ≤ text.length := hchain.le_length hidx
  have hle : idx ≤ stop := Nat.le_trans (Nat.le_add_right _ _) hchain.length_le
  have hgo : (Cursor.atOffset text idx).goto stop = .ok (.atOffset text stop) :=
    hc.sound.goto_eq hle hlast
  have hmany := result_many_many hchain hend hsize hidx
  have hagain := result_many_of_chain (.nil stop) hend hsize hlast
  refine ⟨rfl, .atOffset text stop, more, hgo, ?_, hmany, hagain⟩
  cases hend with
  | @failed error hfail =>
    have hnone := result_many_of_chain hchain.optional (ending_optional_of_fail hfail) hsize hidx
    rw [List.append_nil]
    exact .inl ⟨⟨error, hfail⟩, rfl, hnone⟩
  | @stalled a ha hstop =>
    have hsome := result_many_of_chain hchain.optional (ending_optional_of_stalled ha hstop)
      hsize hidx
    rw [List.map_append]
    exact .inr ⟨a, ha, hp.range_of_stalled (.goto hc hgo) ha hstop, rfl, hsome⟩

/-- A parser that fails behind what it goes along, and one that reads nothing there. -/
theorem many_of_nullable_letters :
    let c : Cursor := .atOffset ['é', 'a', 'a', 'b'] 1
    let letter : Parser String := literal "a"
    let spare : Parser Value :=
      (Grammar.orElse (.literal "a") (.pure .unit)).parser Grammar.openings 0
    (letter.many.parse c).result = .ok ⟨⟨1, 3⟩, ["a", "a"]⟩ ∧
      (letter.optional.many.parse c).result = .ok ⟨⟨1, 3⟩, [some "a", some "a", none]⟩ ∧
      (letter.many.many.parse c).result = .ok ⟨⟨1, 3⟩, [["a", "a"], []]⟩ ∧
      (spare.many.parse c).result = .ok ⟨⟨1, 3⟩, [.str "a", .str "a", .unit]⟩ ∧
      (spare.optional.many.parse c).result =
        .ok ⟨⟨1, 3⟩, [some (.str "a"), some (.str "a"), some .unit]⟩ ∧
      (spare.many.many.parse c).result =
        .ok ⟨⟨1, 3⟩, [[.str "a", .str "a", .unit], [.unit]]⟩ := by
  intro c letter spare
  have hc : c.Reachable := Cursor.reachable_atOffset (by decide) (by decide)
  have hspare : spare.Honest :=
    Grammar.honest_of_admits (.orElse (.literal _) (.pure _))
      (fun _ => .orElse (.keepRight (.literal _) (.ref trivial _)) (.pure _)) 0
  have hletters : (letter.many.parse c).result = .ok ⟨⟨1, 3⟩, ["a", "a"]⟩ := by decide +kernel
  have hspares : (spare.many.parse c).result = .ok ⟨⟨1, 3⟩, [.str "a", .str "a", .unit]⟩ := by
    decide +kernel
  have hplace : c.goto 3 = .ok (.atOffset c.text 3) := rfl
  have hmissing : (letter.parse (.atOffset c.text 3)).result = .fail ⟨3, "Expected: 'a'"⟩ := by
    decide +kernel
  have hempty : (spare.parse (.atOffset c.text 3)).result = .ok ⟨⟨3, 3⟩, .unit⟩ := by
    decide +kernel
  obtain ⟨-, hletter⟩ := many_of_nullable (literal_honest "a") hc
  obtain ⟨-, behind, more, hgo, hoptions, hmany, -⟩ := hletter 1 3 _ hletters
  cases hgo.symm.trans hplace
  obtain ⟨-, hspare'⟩ := many_of_nullable hspare hc
  obtain ⟨-, behind', more', hgo', hoptions', hmany', -⟩ := hspare' 1 3 _ hspares
  cases hgo'.symm.trans hplace
  rcases hoptions with ⟨-, rfl, hnone⟩ | ⟨a, ha, -⟩
  · rcases hoptions' with ⟨⟨error, herror⟩, -⟩ | ⟨a, ha, -, rfl, hsome⟩
    · cases hempty.symm.trans herror
    · cases hempty.symm.trans ha
      exact ⟨hletters, hnone, hmany, hspares, hsome, hmany'⟩
  · cases hmissing.symm.trans ha

end Parsing.Parser
