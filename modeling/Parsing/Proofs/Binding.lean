import Parsing.Proofs.Delimiters

/-!
# The laws of binding

A chain of binds can be bracketed in any way, and a parser that reads nothing can be left
out at either end of it. These are the laws of a monad, and `bind` keeps them with all that
parsers do, up to the ranges that it reports:

> `bind_monad_laws`: a value bound to a parser is that parser; a parser bound to its value
> comes to the same from the place where it stopped; and binds are associative if those in
> the middle stop ahead of where they began.

Associativity is a fact about moves. Bracketed to the right, the last parser begins at a
move from where the second one began; bracketed to the left, at a move from where the first
one did. `goto_of_goto` says that the two are one place, as long as it is not behind the
second beginning and not past the text, and this is what the condition is for.
-/

namespace Parsing

theorem Cursor.Sound.goto_idx {c : Cursor} (hc : c.Sound) : c.goto c.idx = .ok c := by
  have hgo := hc.goto_eq (Nat.le_refl _) hc.idx_le_len
  rw [← hc.eq_atOffset] at hgo
  exact hgo

/-- A place on the way that was come to makes no difference to where a move ends. -/
theorem Cursor.Sound.goto_of_goto {c d : Cursor} {i j : Nat} (hc : c.Sound)
    (hgo : c.goto i = .ok d) (hlo : d.idx ≤ j) (hhi : j ≤ d.len) : d.goto j = c.goto j := by
  obtain ⟨-, hlen, hidx, hle, -⟩ := goto_eq_ok hgo
  have hmove := hc.goto_goto hle (by omega) (by omega : j ≤ c.len)
  rw [hgo] at hmove
  exact hmove

/-- What follows a computation has to be the same for the values that it comes to only. -/
theorem Outcome.bind_congr {α β : Type} {x : Outcome α} {next next' : α → Outcome β}
    (h : ∀ a, x.result = .ok a → next a = next' a) : x >>= next = x >>= next' := by
  show x.bind next = x.bind next'
  unfold Outcome.bind
  cases hx : x.result with
  | ok a => simp only [h a hx]
  | fail error => rfl
  | fault cause => rfl
  | exhausted => rfl

namespace Parser

variable {α β γ : Type}

/-- A parser whose successes stop on the text, no earlier than at the cursor. Nothing is
asked of its failures, its faults and of where its reports start. -/
def StopsAhead (p : Parser α) : Prop := ∀ c : Cursor, c.Reachable → ∀ parsed,
  (p.parse c).result = .ok parsed → c.idx ≤ parsed.range.stop ∧ parsed.range.stop ≤ c.len

theorem Honest.stopsAhead {p : Parser α} (hp : p.Honest) : p.StopsAhead := by
  intro c hc parsed h
  obtain ⟨hlo, hle, hhi⟩ := hp.in_bounds c hc parsed h
  omega

theorem StopsAhead.goto_eq {p : Parser α} (hp : p.StopsAhead) {c : Cursor} (hc : c.Reachable)
    {parsed : Parsed α} (h : (p.parse c).result = .ok parsed) :
    c.goto parsed.range.stop = .ok (.atOffset c.text parsed.range.stop) := by
  obtain ⟨hlo, hhi⟩ := hp c hc parsed h
  exact hc.sound.goto_eq hlo hhi

section

variable {c : Cursor} (hc : c.Reachable)

include hc

theorem parse_pure_bind (value : α) (f : α → Parser β) :
    ((Parser.pure value).bind f).parse c = (f value).parse c := by
  show (do
    let parsed ← Pure.pure (Parsed.empty c.idx value)
    let behind ← Outcome.ofChecked (c.goto parsed.range.stop)
    (f parsed.value).parse behind) = _
  rw [pure_bind]
  show (Outcome.ofChecked (c.goto c.idx) >>= fun behind => (f value).parse behind) = _
  rw [hc.sound.goto_idx, Outcome.ofChecked_ok, pure_bind]

theorem parse_bind_pure {p : Parser α} (hp : p.StopsAhead) : (p.bind Parser.pure).parse c = (do
    let parsed ← p.parse c
    return ⟨⟨parsed.range.stop, parsed.range.stop⟩, parsed.value⟩) := by
  unfold Parser.bind
  refine Outcome.bind_congr fun parsed h => ?_
  rw [hp.goto_eq hc h, Outcome.ofChecked_ok, pure_bind]
  rfl

theorem parse_bind_assoc (p : Parser α) {f : α → Parser β} (hf : ∀ value, (f value).StopsAhead)
    (g : β → Parser γ) :
    ((p.bind f).bind g).parse c = (p.bind fun value => (f value).bind g).parse c := by
  simp only [Parser.bind, bind_assoc]
  -- Both run the first parser and move behind it, and then the second parser.
  refine Outcome.bind_congr fun a _ => Outcome.bind_congr fun between hbetween => ?_
  refine Outcome.bind_congr fun b hb => ?_
  have hgo := Result.ofChecked_eq_ok hbetween
  obtain ⟨hlo, hhi⟩ := hf a.value between (.goto hc hgo) b hb
  rw [hc.sound.goto_of_goto hgo hlo hhi]

/-- Binds keep the laws of a monad, in all that parsers come to and record, up to the range
that a value reports which was bound to. Where a first parser stops is of no account for
bracketing, only where the second ones do. -/
theorem bind_monad_laws :
    (∀ {α β : Type} (value : α) (f : α → Parser β),
      ((Parser.pure value).bind f).parse c = (f value).parse c) ∧
    (∀ {α : Type} (p : Parser α), p.Honest → (p.bind Parser.pure).parse c = (do
      let parsed ← p.parse c
      return ⟨⟨parsed.range.stop, parsed.range.stop⟩, parsed.value⟩)) ∧
    ∀ {α β γ : Type} (p : Parser α) (f : α → Parser β) (g : β → Parser γ),
      (∀ value, (f value).StopsAhead) →
      ((p.bind f).bind g).parse c = (p.bind fun value => (f value).bind g).parse c :=
  ⟨parse_pure_bind hc, fun _ hp => parse_bind_pure hc hp.stopsAhead,
    fun p _ g hf => parse_bind_assoc hc p hf g⟩

end

/-- Three parsers, of which the second is made from the value of the first. -/
theorem bind_monad_laws_letters :
    let c : Cursor := .atOffset ['é', 'a', 'a', 'a', '日'] 1
    let letter : Parser String := literal "a"
    let twice : String → Parser String := fun text => literal (text ++ text)
    let more : String → Parser (String × Char) := fun text => anyChar.map fun char => (text, char)
    ((Parser.pure "a").bind twice).parse c = (literal "aa").parse c ∧
      ((letter.bind Parser.pure).parse c).result = .ok ⟨⟨2, 2⟩, "a"⟩ ∧
      ((letter.bind twice).bind more).parse c =
        (letter.bind fun text => (twice text).bind more).parse c ∧
      (((letter.bind twice).bind more).parse c).result = .ok ⟨⟨4, 5⟩, ("aa", '日')⟩ := by
  intro c letter twice more
  have hc : c.Reachable := Cursor.reachable_atOffset (by decide) (by decide)
  obtain ⟨hleft, hright, hassoc⟩ := bind_monad_laws hc
  refine ⟨hleft "a" twice, ?_, ?_, by decide +kernel⟩
  · have hletter : (letter.parse c).result = .ok ⟨⟨1, 2⟩, "a"⟩ := by decide +kernel
    rw [hright letter (literal_honest "a"), Outcome.result_bind, hletter]
    rfl
  · exact hassoc letter twice more fun _ => (literal_honest _).stopsAhead

/-- A parser in the middle that stops behind where it began: a cursor that is there already
does not go back, but one that is to go there from further behind does. -/
example : let back : Unit → Parser Unit := fun _ => report 0 0 ()
    ((((anyChar.map fun _ => ()).bind back).bind Parser.pure).parse (.new ['a'])).result =
        .ok ⟨⟨0, 0⟩, ()⟩ ∧
      (((anyChar.map fun _ => ()).bind fun value => (back value).bind Parser.pure).parse
        (.new ['a'])).result = .fault (.outOfRange ⟨0, 1, 1⟩) := by
  decide

end Parser

end Parsing
