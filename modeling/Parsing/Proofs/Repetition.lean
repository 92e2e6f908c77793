import Parsing.Proofs.Moves
import Parsing.Proofs.Success

/-!
# Greedy repetition

A repetition is told without its loop by the offsets it comes through. As long as its
parser succeeds further on in the text, it goes there; these are the links of a
`Chain`, of which every offset has exactly one that cannot be made longer.

> `atLeast_greedy`: a repetition comes to the values along that chain, and what it
> comes to beyond them is decided by what the parser does where the chain ends.

Nothing is asked of the parser. It may report an end behind the cursor, which counts
as nothing read, or past the text, which is a fault; both end the chain.
-/

namespace Parsing.Parser

variable {α : Type} {p : Parser α} {text : Text}

/-- At offset `i` the parser succeeds with an end further on in the text. -/
def Advances (p : Parser α) (text : Text) (i : Nat) : Prop :=
  ∃ a, (p.parse (.atOffset text i)).result = .ok a ∧ i < a.range.stop ∧
    a.range.stop ≤ text.length

/-- A parser advances from offset to offset of a text, to these values in this order. -/
inductive Chain (p : Parser α) (text : Text) : Nat → List α → Nat → Prop where
  | nil (i : Nat) : Chain p text i [] i
  | cons {i last : Nat} {a : Parsed α} {values : List α}
    (h : (p.parse (.atOffset text i)).result = .ok a) (hlt : i < a.range.stop)
    (hle : a.range.stop ≤ text.length) (more : Chain p text a.range.stop values last) :
    Chain p text i (a.value :: values) last

namespace Chain

variable {i last last' : Nat} {values values' : List α}

/-- Every link takes at least one character. -/
theorem length_le (h : Chain p text i values last) : i + values.length ≤ last := by
  induction h with
  | nil i => exact Nat.le_refl _
  | cons _ hlt _ _ ih =>
    rw [List.length_cons]
    omega

theorem le_length (h : Chain p text i values last) (hi : i ≤ text.length) :
    last ≤ text.length := by
  induction h with
  | nil i => exact hi
  | cons _ _ hle _ ih => exact ih hle

/-- From every offset there is a chain to where the parser does not advance. -/
theorem exists_maximal (p : Parser α) (text : Text) : ∀ i : Nat,
    ∃ values last, Chain p text i values last ∧ ¬ p.Advances text last := by
  intro i
  by_cases hadvances : p.Advances text i
  · obtain ⟨a, ha, hlt, hle⟩ := hadvances
    have hshort : text.length - a.range.stop < text.length - i := by omega
    obtain ⟨values, last, hchain, hlast⟩ := exists_maximal p text a.range.stop
    exact ⟨a.value :: values, last, .cons ha hlt hle hchain, hlast⟩
  · exact ⟨[], i, .nil i, hadvances⟩
termination_by i => text.length - i

/-- There is only one. -/
theorem unique (h : Chain p text i values last) (hlast : ¬ p.Advances text last)
    (h' : Chain p text i values' last') (hlast' : ¬ p.Advances text last') :
    values' = values ∧ last' = last := by
  induction h generalizing values' with
  | nil i =>
    cases h' with
    | nil => exact ⟨rfl, rfl⟩
    | cons ha hlt hle _ => exact absurd ⟨_, ha, hlt, hle⟩ hlast
  | cons ha hlt hle _ ih =>
    cases h' with
    | nil => exact absurd ⟨_, ha, hlt, hle⟩ hlast'
    | cons ha' _ _ hmore' =>
      cases Result.ok.inj (ha.symm.trans ha')
      obtain ⟨hvalues, hsame⟩ := ih hlast hmore'
      exact ⟨congrArg _ hvalues, hsame⟩

end Chain

/-! ## The rounds -/

/-- One round of a repetition, and the rounds after it, without their events. -/
theorem result_collect (p : Parser α) (c : Cursor) : (p.collect c).result =
    match (p.parse c).result with
    | .ok a =>
      if a.range.stop ≤ c.idx then .ok ([a.value], c)
      else do
        let next ← .ofChecked (c.goto a.range.stop)
        let (values, last) ← (p.collect next).result
        return (a.value :: values, last)
    | .fail _ => .ok ([], c)
    | .fault cause => .fault cause
    | .exhausted => .exhausted := by
  rw [collect_eq, Outcome.result_bind, Outcome.result_attempt]
  cases (p.parse c).result with
  | ok a =>
    rw [Result.attempt_ok, Result.ok_bind]
    dsimp only
    by_cases hstop : a.range.stop ≤ c.idx
    · rw [if_pos hstop, if_pos hstop]
      rfl
    · rw [if_neg hstop, if_neg hstop, Outcome.result_bind, Outcome.result_ofChecked]
      congr 1
      funext next
      rw [Outcome.result_bind]
      rfl
  | fail error => rfl
  | fault cause => rfl
  | exhausted => rfl

/-- A repetition does not fail before its values are counted. -/
theorem collect_ne_fail (p : Parser α) : ∀ (c : Cursor) (error : ParseError),
    (p.collect c).result ≠ .fail error := by
  intro c error h
  rw [result_collect] at h
  cases hp : (p.parse c).result with
  | ok a =>
    rw [hp] at h
    dsimp only at h
    by_cases hstop : a.range.stop ≤ c.idx
    · rw [if_pos hstop] at h
      cases h
    · rw [if_neg hstop] at h
      cases hgo : c.goto a.range.stop with
      | ok next =>
        rw [hgo, Result.ofChecked_ok, Result.ok_bind] at h
        have hshort : next.remaining < c.remaining :=
          Cursor.remaining_lt_of_goto hgo (Nat.lt_of_not_le hstop)
        cases hmore : (p.collect next).result with
        | ok ended => rw [hmore] at h; cases h
        | fail error' => exact collect_ne_fail p next error' hmore
        | fault cause => rw [hmore] at h; cases h
        | exhausted => rw [hmore] at h; cases h
      | error cause => rw [hgo] at h; cases h
  | fail error' => rw [hp] at h; cases h
  | fault cause => rw [hp] at h; cases h
  | exhausted => rw [hp] at h; cases h
termination_by c => c.remaining

/-- The rounds of a repetition come through a chain of its parser. -/
theorem result_collect_of_chain {i last : Nat} {values : List α} (h : Chain p text i values last)
    (hsize : text.byteSize ≤ maxTextSize) (hi : i ≤ text.length) :
    (p.collect (.atOffset text i)).result = (do
      let (more, behind) ← (p.collect (.atOffset text last)).result
      return (values ++ more, behind)) := by
  induction h with
  | nil i => exact (bind_pure _).symm
  | @cons i last a values ha hlt hle _ ih =>
    have hc : (Cursor.atOffset text i).Sound := Cursor.sound_atOffset hi hsize
    have hgo := hc.goto_eq (Nat.le_of_lt hlt) hle
    have hforward : ¬ a.range.stop ≤ (Cursor.atOffset text i).idx := Nat.not_le_of_lt hlt
    rw [result_collect, ha]
    dsimp only
    rw [if_neg hforward, hgo, Result.ofChecked_ok, Result.ok_bind]
    show ((p.collect (.atOffset text a.range.stop)).result >>= _) = _
    rw [ih hle, bind_assoc]
    rfl

theorem Rounds.leadsTo {c last : Cursor} {values : List α} (h : Rounds p c values last) :
    c.LeadsTo last := by
  induction h with
  | failed _ => exact .refl _
  | stalled _ _ => exact .refl _
  | forward _ _ hgo _ ih => exact (Cursor.leadsTo_of_goto hgo).trans ih

/-! ## The count -/

/-- What a repetition comes to that ends at `stop` with these values, of which there
have to be `min`. -/
def counted (min start stop : Nat) (values : List α) : Result (Parsed (List α)) :=
  if values.length < min then
    .fail ⟨stop, s!"expected at least {min} occurrences, found {values.length}"⟩
  else .ok ⟨⟨start, stop⟩, values⟩

/-- A repetition is its rounds, counted. -/
theorem result_atLeast (p : Parser α) (min : Nat) (c : Cursor) :
    ((p.atLeast min).parse c).result = (do
      let (values, last) ← (p.collect c).result
      counted min c.idx last.idx values) := by
  unfold atLeast
  rw [Outcome.result_bind]
  cases hcollect : (p.collect c).result with
  | ok ended =>
    obtain ⟨values, last⟩ := ended
    have hle : c.idx ≤ last.idx := (rounds_of_collect hcollect).leadsTo.idx_le
    rw [Result.ok_bind, Result.ok_bind]
    dsimp only [counted]
    by_cases hfew : values.length < min
    · rw [if_pos hfew, if_pos hfew]
      rfl
    · rw [if_neg hfew, if_neg hfew, Parsed.new_of_le hle]
      rfl
  | fail error => rfl
  | fault cause => rfl
  | exhausted => rfl

/-- What a repetition comes to whose chain took it from `start` to `last`, to these
values, told by what its parser does there. -/
structure Concludes (p : Parser α) (text : Text) (min start last : Nat) (values : List α)
    (result : Result (Parsed (List α))) : Prop where
  failed : ∀ error, (p.parse (.atOffset text last)).result = .fail error →
    result = counted min start last values
  /-- Nothing was read; the value counts once. -/
  stalled : ∀ a, (p.parse (.atOffset text last)).result = .ok a → a.range.stop ≤ last →
    result = counted min start last (values ++ [a.value])
  /-- The end lies past the text. -/
  outside : ∀ a, (p.parse (.atOffset text last)).result = .ok a → text.length < a.range.stop →
    ∃ cause, result = .fault cause ∧ cause.message? =
      some s!"cannot move to offset {a.range.stop}: valid offsets are {last}..={text.length}"
  faulted : ∀ cause, (p.parse (.atOffset text last)).result = .fault cause →
    result = .fault cause
  exhausted : (p.parse (.atOffset text last)).result = .exhausted → result = .exhausted

theorem concludes_of_chain {i last : Nat} {values : List α} (h : Chain p text i values last)
    (hsize : text.byteSize ≤ maxTextSize) (hi : i ≤ text.length) (min : Nat) :
    Concludes p text min i last values ((p.atLeast min).parse (.atOffset text i)).result := by
  have hrounds := result_collect_of_chain h hsize hi
  have hidx : (Cursor.atOffset text last).idx = last := rfl
  constructor
  · intro error he
    rw [result_atLeast, hrounds, result_collect, he]
    show counted min i last (values ++ []) = _
    rw [List.append_nil]
  · intro a ha hstop
    rw [result_atLeast, hrounds, result_collect, ha]
    dsimp only
    rw [hidx, if_pos hstop]
    rfl
  · intro a ha hpast
    have hcan : (Cursor.atOffset text last).canGoto a.range.stop = false := by
      refine Bool.eq_false_iff.mpr fun hcan => ?_
      exact Nat.not_le_of_lt hpast (Cursor.canGoto_iff.mp hcan).2
    have hle := h.le_length hi
    refine ⟨.outOfRange ⟨a.range.stop, last, text.length⟩, ?_, rfl⟩
    rw [result_atLeast, hrounds, result_collect, ha]
    dsimp only
    rw [hidx, if_neg (by omega), Cursor.goto_of_not_canGoto hcan]
    rfl
  · intro cause hcause
    rw [result_atLeast, hrounds, result_collect, hcause]
    rfl
  · intro hexhausted
    rw [result_atLeast, hrounds, result_collect, hexhausted]
    rfl

/-! ## One or more -/

theorem result_many1 (p : Parser α) (c : Cursor) : (p.many1.parse c).result =
    match ((p.atLeast 1).parse c).result with
    | .fail _ => .fail ⟨c.idx, "expected at least one element"⟩
    | other => other := by
  unfold many1
  rw [Outcome.result_bind, many, result_atLeast, result_atLeast]
  cases hcollect : (p.collect c).result with
  | ok ended =>
    obtain ⟨values, last⟩ := ended
    cases values with
    | nil => rfl
    | cons value values => rfl
  | fail error => exact absurd hcollect (p.collect_ne_fail c error)
  | fault cause => rfl
  | exhausted => rfl

/-- Too few values for one are none, and then the repetition did not move. -/
theorem error_of_atLeast_one {c : Cursor} {error : ParseError}
    (h : ((p.atLeast 1).parse c).result = .fail error) :
    error = ⟨c.idx, "expected at least 1 occurrences, found 0"⟩ := by
  rw [result_atLeast] at h
  cases hcollect : (p.collect c).result with
  | ok ended =>
    obtain ⟨values, last⟩ := ended
    rw [hcollect] at h
    cases rounds_of_collect hcollect with
    | failed _ =>
      have hwords : s!"expected at least {1} occurrences, found {0}" =
        "expected at least 1 occurrences, found 0" := by decide
      rw [← hwords]
      exact (Result.fail.inj h).symm
    | stalled _ _ => cases h
    | forward _ _ _ _ => cases h
  | fail error => exact absurd hcollect (p.collect_ne_fail c error)
  | fault cause => rw [hcollect] at h; cases h
  | exhausted => rw [hcollect] at h; cases h

/-- `many1` is `atLeast 1` under another message. -/
theorem many1_iff (p : Parser α) (c : Cursor) :
    (∀ parsed, (p.many1.parse c).result = .ok parsed ↔
      ((p.atLeast 1).parse c).result = .ok parsed) ∧
    (∀ cause, (p.many1.parse c).result = .fault cause ↔
      ((p.atLeast 1).parse c).result = .fault cause) ∧
    (∀ error, (p.many1.parse c).result = .fail error ↔
      error = ⟨c.idx, "expected at least one element"⟩ ∧
        ((p.atLeast 1).parse c).result =
          .fail ⟨c.idx, "expected at least 1 occurrences, found 0"⟩) := by
  rw [result_many1]
  cases hone : ((p.atLeast 1).parse c).result with
  | ok parsed => exact ⟨fun _ => Iff.rfl, fun _ => Iff.rfl, fun _ => ⟨nofun, fun h => nomatch h.2⟩⟩
  | fail error =>
    rw [error_of_atLeast_one hone]
    refine ⟨fun _ => ⟨nofun, nofun⟩, fun _ => ⟨nofun, nofun⟩, fun error' => ⟨fun h => ?_, ?_⟩⟩
    · exact ⟨(Result.fail.inj h).symm, rfl⟩
    · rintro ⟨rfl, -⟩
      rfl
  | fault cause => exact ⟨fun _ => Iff.rfl, fun _ => Iff.rfl, fun _ => ⟨nofun, fun h => nomatch h.2⟩⟩
  | exhausted => exact ⟨fun _ => Iff.rfl, fun _ => Iff.rfl, fun _ => ⟨nofun, fun h => nomatch h.2⟩⟩

/-- A repetition goes along the one chain of its parser that cannot be made longer, with
no more links than there are characters left, and ends as its parser does there.
Whether there are enough values is asked at the end only. -/
theorem atLeast_greedy (p : Parser α) {c : Cursor} (hc : c.Reachable) :
    ∃ values last, Chain p c.text c.idx values last ∧ ¬ p.Advances c.text last ∧
      (∀ values' last', Chain p c.text c.idx values' last' → ¬ p.Advances c.text last' →
        values' = values ∧ last' = last) ∧
      c.idx ≤ last ∧ last ≤ c.len ∧ values.length ≤ last - c.idx ∧
      (∀ min, Concludes p c.text min c.idx last values ((p.atLeast min).parse c).result) ∧
      (∀ parsed, (p.many1.parse c).result = .ok parsed ↔
        ((p.atLeast 1).parse c).result = .ok parsed) ∧
      (∀ cause, (p.many1.parse c).result = .fault cause ↔
        ((p.atLeast 1).parse c).result = .fault cause) ∧
      (∀ error, (p.many1.parse c).result = .fail error ↔
        error = ⟨c.idx, "expected at least one element"⟩ ∧
          ((p.atLeast 1).parse c).result =
            .fail ⟨c.idx, "expected at least 1 occurrences, found 0"⟩) := by
  obtain ⟨values, last, hchain, hlast⟩ := Chain.exists_maximal p c.text c.idx
  have hlength := hchain.length_le
  have hidx := hc.sound.idx_le
  have hplace : Cursor.atOffset c.text c.idx = c := hc.sound.eq_atOffset.symm
  refine ⟨values, last, hchain, hlast, fun _ _ h h' => hchain.unique hlast h h', by omega,
    hc.sound.len_eq ▸ hchain.le_length hidx, by omega, fun min => ?_, many1_iff p c⟩
  have hconcludes := concludes_of_chain hchain hc.sound.size_le hidx min
  rwa [hplace] at hconcludes

/-- A parser that reports more than it should, and in the end what lies behind it. -/
theorem atLeast_greedy_overreaching :
    let p : Parser Nat := ⟨fun c => .ofResult <| .ok <|
      if c.idx = 3 then ⟨⟨0, 1⟩, 7⟩ else ⟨⟨c.idx, 2 * c.idx + 1⟩, c.idx⟩⟩
    let c : Cursor := .new ['é', '日', 'a', 'b']
    ((p.atLeast 3).parse c).result = .ok ⟨⟨0, 3⟩, [0, 1, 7]⟩ ∧
      ((p.atLeast 4).parse c).result =
        .fail ⟨3, "expected at least 4 occurrences, found 3"⟩ ∧
      (p.many1.parse c).result = .ok ⟨⟨0, 3⟩, [0, 1, 7]⟩ := by
  intro p c
  have hc : c.Reachable := .new (by decide)
  have hfirst : (p.parse (.atOffset c.text 0)).result = .ok ⟨⟨0, 1⟩, 0⟩ := rfl
  have hsecond : (p.parse (.atOffset c.text 1)).result = .ok ⟨⟨1, 3⟩, 1⟩ := rfl
  have hchain : Chain p c.text 0 [0, 1] 3 :=
    .cons hfirst (by decide) (by decide) (.cons hsecond (by decide) (by decide) (.nil 3))
  have hlast : ¬ p.Advances c.text 3 := by
    rintro ⟨a, ha, hlt, -⟩
    cases Result.ok.inj ha
    exact absurd hlt (by decide)
  obtain ⟨values, last, -, -, honly, -, -, -, hconcludes, hmany1, -, -⟩ := atLeast_greedy p hc
  obtain ⟨rfl, rfl⟩ := honly _ _ hchain hlast
  refine ⟨(hconcludes 3).stalled _ rfl (by decide), ?_, ?_⟩
  · rw [(hconcludes 4).stalled _ rfl (by decide)]
    decide
  · exact (hmany1 _).mpr ((hconcludes 1).stalled _ rfl (by decide))

end Parsing.Parser
