import Mathlib.Data.List.TakeWhile
import Parsing.Proofs.Bounds
import Parsing.Proofs.Repetition
import Parsing.Proofs.Results

/-!
# Reading up to a terminator

To read up to a terminator is to repeat: one character, unless the terminator comes
next.

> `upTo_stops`: what is read this way is the text up to the first place where the
> terminator could be read, or all of it if there is none.

Three parsers look at every place: the terminator, whose success is a failure here; the
repetition, which stops at that failure without reporting it; and the parser for one
character, which fails at the end of the text. What they come to together is a chain of
single characters (`chain_of_chars`), so the statements about repetition apply.
-/

namespace Parsing.Parser

variable {α : Type} {text : Text} {i j : Nat}

/-- The characters that were read, put together. -/
def spelled (p : Parser (List Char)) : Parser String := (p.map (List.map Char.toString)).joined

/-- One character of any kind, unless `q` succeeds where it stands. -/
def anyCharUnless (q : Parser α) : Parser Char := q.notFollowedBy.keepRight anyChar

/-- All characters up to where `q` succeeds. -/
def upTo (q : Parser α) : Parser String := (anyCharUnless q).many.spelled

/-- All characters up to where `delimiter` is, which is read as well. -/
def upToAndPast (delimiter : String) : Parser String :=
  (upTo (literal delimiter)).keepLeft (literal delimiter)

/-- Whether a parser succeeds at an offset of a text. -/
def SucceedsAt (q : Parser α) (text : Text) (i : Nat) : Prop :=
  ∃ a, (q.parse (.atOffset text i)).result = .ok a

/-- A parser that comes to something on every cursor that a program can hold. Honest
parsers may still follow their references without end, and so may what repeats them. -/
def Total (q : Parser α) : Prop := ∀ c : Cursor, c.Reachable → (q.parse c).result ≠ .exhausted

/-- The first offset from `i` on at which a parser succeeds, or the end of the text if
there is none. -/
structure StopsAt (q : Parser α) (text : Text) (i j : Nat) : Prop where
  le : i ≤ j
  le_length : j ≤ text.length
  before : ∀ k, i ≤ k → k < j → ¬ q.SucceedsAt text k
  here : q.SucceedsAt text j ∨ j = text.length

theorem exists_stopsAt (q : Parser α) (text : Text) :
    ∀ i, i ≤ text.length → ∃ j, q.StopsAt text i j := by
  intro i hi
  by_cases hhere : q.SucceedsAt text i ∨ i = text.length
  · exact ⟨i, Nat.le_refl _, hi, fun k hlo hhi => absurd hlo (Nat.not_le_of_lt hhi), hhere⟩
  · rw [not_or] at hhere
    obtain ⟨hfirst, hmore⟩ := hhere
    have hshort : text.length - (i + 1) < text.length - i := by omega
    obtain ⟨j, hle, hlength, hbefore, hstop⟩ := exists_stopsAt q text (i + 1) (by omega)
    refine ⟨j, by omega, hlength, fun k hlo hhi => ?_, hstop⟩
    rcases Nat.eq_or_lt_of_le hlo with rfl | hlt
    · exact hfirst
    · exact hbefore k hlt hhi
termination_by i => text.length - i

/-! ## Single characters -/

/-- A parser that reads one character after another goes along all of them. -/
theorem chain_of_chars {p : Parser Char} (hij : i ≤ j) (hj : j ≤ text.length)
    (h : ∀ k char, i ≤ k → k < j → text[k]? = some char →
      (p.parse (.atOffset text k)).result = .ok ⟨⟨k, k + 1⟩, char⟩) :
    Chain p text i ((text.drop i).take (j - i)) j := by
  -- On the number of characters: the first one is read at `i`, the others from `i + 1` on.
  obtain ⟨n, rfl⟩ : ∃ n, j = i + n := ⟨j - i, by omega⟩
  rw [Nat.add_sub_cancel_left]
  induction n generalizing i with
  | zero => exact .nil i
  | succ n ih =>
    have hi : i < text.length := by omega
    rw [List.drop_eq_getElem_cons hi, List.take_succ_cons]
    refine .cons (h i text[i] (Nat.le_refl _) (by omega) (List.getElem?_eq_getElem hi))
      (Nat.lt_succ_self _) hi ?_
    rw [show i + (n + 1) = i + 1 + n by omega] at h hj ⊢
    exact ih (Nat.le_add_right _ _) hj fun k char hlo hhi => h k char (Nat.le_of_succ_le hlo) hhi

theorem join_map_toString (chars : List Char) :
    String.join (chars.map Char.toString) = String.ofList chars := by
  refine String.toList_inj.mp ?_
  rw [String.toList_join, List.flatMap_map, String.toList_ofList]
  simp only [Char.toString_eq_singleton, String.toList_singleton, List.flatMap_singleton']

/-- A repetition of characters that ends in a failure spells what it went along. -/
theorem result_spelled_many {p : Parser Char} (hsize : text.byteSize ≤ maxTextSize)
    (hi : i ≤ text.length) {chars : List Char} (hchain : Chain p text i chars j)
    {error : ParseError} (hfail : (p.parse (.atOffset text j)).result = .fail error) :
    (p.many.spelled.parse (.atOffset text i)).result = .ok ⟨⟨i, j⟩, String.ofList chars⟩ := by
  have hmany : (p.many.parse (.atOffset text i)).result = .ok ⟨⟨i, j⟩, chars⟩ :=
    (concludes_of_chain hchain hsize hi 0).failed error hfail
  rw [spelled, joined, result_map, result_map, hmany, Result.ok_bind, Result.pure_eq_ok,
    Result.ok_bind, Result.pure_eq_ok, Parsed.map, Parsed.map]
  dsimp only
  rw [join_map_toString]

/-! ## Up to a terminator -/

theorem result_anyCharUnless (q : Parser α) {c : Cursor} (hc : c.Sound) :
    ((anyCharUnless q).parse c).result =
    match (q.parse c).result with
    | .ok _ => .fail ⟨c.idx, "unexpected"⟩
    | .fail _ => (anyChar.parse c).result
    | .fault cause => .fault cause
    | .exhausted => .exhausted := by
  have hhere : c.goto c.idx = .ok c :=
    (hc.goto_eq (Nat.le_refl _) hc.idx_le_len).trans (congrArg Except.ok hc.eq_atOffset.symm)
  have hnot := result_notFollowedBy q c
  rw [anyCharUnless, keepRight, result_map]
  cases hq : (q.parse c).result with
  | ok a =>
    rw [hq] at hnot
    rw [both_of_fail hnot]
    rfl
  | fail error =>
    rw [hq] at hnot
    have hany := result_anyChar hc
    dsimp only
    cases hpeek : c.peek with
    | some char =>
      rw [hpeek] at hany
      rw [both_of_ok_of_ok hnot hhere hany (Nat.le_succ _), hany]
      rfl
    | none =>
      rw [hpeek] at hany
      rw [both_of_ok_of_fail hnot hhere hany, hany]
      rfl
  | fault cause =>
    rw [result_both, hnot, hq]
    rfl
  | exhausted =>
    rw [result_both, hnot, hq]
    rfl

/-- A parser that keeps its promises and comes to something fails where it does not
succeed. -/
theorem Honest.fail_of_not_succeedsAt {q : Parser α} (hq : q.Honest) (htotal : q.Total)
    (hsize : text.byteSize ≤ maxTextSize) (hi : i ≤ text.length) (h : ¬ q.SucceedsAt text i) :
    ∃ error, (q.parse (.atOffset text i)).result = .fail error := by
  have hc : (Cursor.atOffset text i).Reachable := Cursor.reachable_atOffset hi hsize
  cases hresult : (q.parse (.atOffset text i)).result with
  | ok a => exact absurd ⟨a, hresult⟩ h
  | fail error => exact ⟨error, rfl⟩
  | fault cause => exact absurd hresult (hq.ne_fault _ hc cause)
  | exhausted => exact absurd hresult (htotal _ hc)

section

variable {q : Parser α} (hq : q.Honest) (htotal : q.Total) (hsize : text.byteSize ≤ maxTextSize)
  (hstops : q.StopsAt text i j)

include hq htotal hsize hstops

/-- Up to the terminator there is a character everywhere, and it is read. -/
theorem StopsAt.chain : Chain (anyCharUnless q) text i ((text.drop i).take (j - i)) j := by
  refine chain_of_chars hstops.le hstops.le_length fun k char hlo hhi hchar => ?_
  have hk : k ≤ text.length := Nat.le_of_lt (Nat.lt_of_lt_of_le hhi hstops.le_length)
  have hc : (Cursor.atOffset text k).Sound := Cursor.sound_atOffset hk hsize
  obtain ⟨error, hfail⟩ := hq.fail_of_not_succeedsAt htotal hsize hk (hstops.before k hlo hhi)
  have hpeek : (Cursor.atOffset text k).peek = some char := hc.peek_eq.trans hchar
  have hany := result_anyChar hc
  rw [hpeek] at hany
  rw [result_anyCharUnless q hc, hfail]
  exact hany

/-- At the end either the terminator succeeds or there is no character left. -/
theorem StopsAt.fails_at_end :
    ∃ error, ((anyCharUnless q).parse (.atOffset text j)).result = .fail error := by
  have hj : j ≤ text.length := hstops.le_length
  have hc : (Cursor.atOffset text j).Sound := Cursor.sound_atOffset hj hsize
  rw [result_anyCharUnless q hc]
  by_cases hsucceeds : q.SucceedsAt text j
  · obtain ⟨a, ha⟩ := hsucceeds
    rw [ha]
    exact ⟨_, rfl⟩
  · obtain ⟨error, hfail⟩ := hq.fail_of_not_succeedsAt htotal hsize hj hsucceeds
    have hend : text.length ≤ j := Nat.le_of_eq (hstops.here.resolve_left hsucceeds).symm
    have hpeek : (Cursor.atOffset text j).peek = none :=
      hc.peek_eq.trans (List.getElem?_eq_none hend)
    have hany := result_anyChar hc
    rw [hpeek] at hany
    rw [hfail]
    exact ⟨_, hany⟩

theorem result_upTo : ((upTo q).parse (.atOffset text i)).result =
    .ok ⟨⟨i, j⟩, String.ofList ((text.drop i).take (j - i))⟩ := by
  obtain ⟨error, hfail⟩ := hstops.fails_at_end hq htotal hsize
  exact result_spelled_many hsize (Nat.le_trans hstops.le hstops.le_length)
    (hstops.chain hq htotal hsize) hfail

end

/-! ## Delimiters -/

/-- `before` is what stands before the first place where `piece` is in a text. -/
structure PrecedesFirst (before piece text : Text) : Prop where
  here : before ++ piece <+: text
  first : ∀ other, other ++ piece <+: text → before.length ≤ other.length

theorem PrecedesFirst.unique {before before' piece : Text}
    (h : PrecedesFirst before piece text) (h' : PrecedesFirst before' piece text) :
    before' = before := by
  have hlength : before'.length = before.length :=
    Nat.le_antisymm (h'.first _ h.here) (h.first _ h'.here)
  have hstart : before <+: text := (List.prefix_append _ _).trans h.here
  have hstart' : before' <+: text := (List.prefix_append _ _).trans h'.here
  exact (List.prefix_of_prefix_length_le hstart' hstart (Nat.le_of_eq hlength)).eq_of_length hlength

/-- A piece that is in a text behind some characters is where they end. -/
theorem isPrefix_drop {other piece : Text} (h : other ++ piece <+: text.drop i) :
    piece <+: text.drop (i + other.length) := by
  obtain ⟨more, hmore⟩ := h
  rw [← List.drop_drop, ← hmore, List.append_assoc, List.drop_left]
  exact List.prefix_append _ _

theorem literal_honest (expected : String) : (literal expected).Honest where
  ne_fault c hc cause h := by
    rw [result_literal hc.sound] at h
    split at h
    · cases h
    · cases h
  in_bounds c hc parsed h := by
    rw [result_literal hc.sound] at h
    split at h
    · next hnext =>
      have hle := hc.sound.length_le_of_isPrefix hnext
      cases Result.ok.inj h
      exact ⟨Nat.le_refl _, Nat.le_add_right _ _, hle⟩
    · cases h

theorem literal_total (expected : String) : (literal expected).Total := by
  intro c hc h
  rw [result_literal hc.sound] at h
  split at h
  · cases h
  · cases h

theorem literal_succeedsAt_iff (expected : String) (hsize : text.byteSize ≤ maxTextSize)
    (hi : i ≤ text.length) :
    (literal expected).SucceedsAt text i ↔ expected.toList <+: text.drop i := by
  rw [SucceedsAt, result_literal (Cursor.sound_atOffset hi hsize), Cursor.rest_atOffset]
  constructor
  · intro h
    obtain ⟨a, ha⟩ := h
    split at ha
    · next hnext => exact hnext
    · cases ha
  · intro hnext
    rw [if_pos hnext]
    exact ⟨_, rfl⟩

section

variable {delimiter : String} (hsize : text.byteSize ≤ maxTextSize)
  (hstops : (literal delimiter).StopsAt text i j)

include hsize hstops

/-- What is read before a delimiter is what stands before its first place. -/
theorem StopsAt.precedesFirst (hhere : delimiter.toList <+: text.drop j) :
    PrecedesFirst ((text.drop i).take (j - i)) delimiter.toList (text.drop i) where
  here := by
    obtain ⟨more, hmore⟩ := hhere
    refine ⟨more, ?_⟩
    rw [List.append_assoc, hmore, show text.drop j = (text.drop i).drop (j - i) by
      rw [List.drop_drop, Nat.add_sub_cancel' hstops.le]]
    exact List.take_append_drop _ _
  first other hother := by
    refine Nat.le_trans (List.length_take_le _ _) (Nat.le_of_not_lt fun hlt => ?_)
    have hplace : i + other.length < j := by omega
    have hwithin : i + other.length ≤ text.length :=
      Nat.le_trans (Nat.le_of_lt hplace) hstops.le_length
    refine hstops.before _ (Nat.le_add_right _ _) hplace ?_
    exact (literal_succeedsAt_iff _ hsize hwithin).mpr (isPrefix_drop hother)

/-- A delimiter that is missed at the end is nowhere. -/
theorem StopsAt.not_isInfix (hnot : ¬ delimiter.toList <+: text.drop j) :
    ¬ delimiter.toList <:+: text.drop i := by
  have hend : j = text.length := by
    refine hstops.here.resolve_left fun h => hnot ?_
    exact (literal_succeedsAt_iff _ hsize hstops.le_length).mp h
  intro hin
  obtain ⟨before, more, hmore⟩ := hin
  have hplace : i + before.length ≤ text.length := by
    have hlength := congrArg List.length hmore
    have hle := hstops.le
    simp only [List.length_append, List.length_drop] at hlength
    omega
  have hnext : delimiter.toList <+: text.drop (i + before.length) := isPrefix_drop ⟨more, hmore⟩
  rcases Nat.eq_or_lt_of_le hplace with heq | hlt
  · exact hnot (hend ▸ heq ▸ hnext)
  · exact hstops.before _ (Nat.le_add_right _ _) (hend ▸ hlt)
      ((literal_succeedsAt_iff _ hsize hplace).mpr hnext)

/-- Behind what was read up to it, the delimiter is tried once more. -/
theorem result_upToAndPast : ((upToAndPast delimiter).parse (.atOffset text i)).result =
    if delimiter.toList <+: text.drop j then
      .ok ⟨⟨i, j + delimiter.length⟩, String.ofList ((text.drop i).take (j - i))⟩
    else .fail ⟨j, s!"Expected: '{delimiter}'"⟩ := by
  have hi : i ≤ text.length := Nat.le_trans hstops.le hstops.le_length
  have hup := result_upTo (literal_honest _) (literal_total _) hsize hstops
  have hgo : (Cursor.atOffset text i).goto j = .ok (.atOffset text j) :=
    (Cursor.sound_atOffset hi hsize).goto_eq hstops.le hstops.le_length
  have hliteral := result_literal (Cursor.sound_atOffset hstops.le_length hsize) delimiter
  rw [Cursor.rest_atOffset] at hliteral
  rw [upToAndPast, keepLeft, result_map]
  by_cases hnext : delimiter.toList <+: text.drop j
  · rw [if_pos hnext] at hliteral ⊢
    rw [both_of_ok_of_ok hup hgo hliteral (Nat.le_trans hstops.le (Nat.le_add_right _ _))]
    rfl
  · rw [if_neg hnext] at hliteral ⊢
    rw [both_of_ok_of_fail hup hgo hliteral]
    rfl

end

/-- A delimiter is found at its first place, wherever it is in what is left. -/
theorem upToAndPast_found {delimiter : String} {c : Cursor} (hc : c.Sound)
    (hin : delimiter.toList <:+: c.rest) :
    ∃ before, PrecedesFirst before delimiter.toList c.rest ∧
      ((upToAndPast delimiter).parse c).result =
        .ok ⟨⟨c.idx, c.idx + before.length + delimiter.length⟩, String.ofList before⟩ := by
  obtain ⟨j, hstops⟩ := exists_stopsAt (literal delimiter) c.text c.idx hc.idx_le
  have hresult := result_upToAndPast hc.size_le hstops
  rw [← hc.eq_atOffset] at hresult
  rw [hc.rest_eq] at hin ⊢
  have hhere : delimiter.toList <+: c.text.drop j :=
    Decidable.byContradiction fun hnot => hstops.not_isInfix hc.size_le hnot hin
  have hlength : ((c.text.drop c.idx).take (j - c.idx)).length = j - c.idx := by
    rw [List.length_take, List.length_drop]
    have hle := hstops.le_length
    omega
  refine ⟨_, hstops.precedesFirst hc.size_le hhere, ?_⟩
  rw [hresult, if_pos hhere, hlength, Nat.add_sub_cancel' hstops.le]

/-- Where it is not, reading goes on to the end of the text and fails there. -/
theorem upToAndPast_missing {delimiter : String} {c : Cursor} (hc : c.Sound)
    (hnot : ¬ delimiter.toList <:+: c.rest) :
    ((upToAndPast delimiter).parse c).result = .fail ⟨c.len, s!"Expected: '{delimiter}'"⟩ := by
  obtain ⟨j, hstops⟩ := exists_stopsAt (literal delimiter) c.text c.idx hc.idx_le
  have hresult := result_upToAndPast hc.size_le hstops
  rw [← hc.eq_atOffset] at hresult
  have hhere : ¬ delimiter.toList <+: c.text.drop j := by
    intro hnext
    have hfirst := hstops.precedesFirst hc.size_le hnext
    rw [← hc.rest_eq] at hfirst
    obtain ⟨more, hmore⟩ := hfirst.here
    exact hnot ⟨_, more, hmore⟩
  have hend : j = c.len := by
    rw [hc.len_eq]
    refine hstops.here.resolve_left fun h => hhere ?_
    exact (literal_succeedsAt_iff _ hc.size_le hstops.le_length).mp h
  rw [hresult, if_neg hhere, hend]

/-! ## Runs of characters -/

variable {accepts : Char → Bool}

theorem drop_run (text : Text) :
    text.drop (text.takeWhile accepts).length = text.dropWhile accepts :=
  calc text.drop (text.takeWhile accepts).length
      = (text.takeWhile accepts ++ text.dropWhile accepts).drop
          (text.takeWhile accepts).length := by rw [List.takeWhile_append_dropWhile]
    _ = text.dropWhile accepts := List.drop_left

theorem accepts_of_lt_run {n : Nat} (h : n < (text.takeWhile accepts).length) :
    ∃ char, text[n]? = some char ∧ accepts char = true := by
  have hchar : text[n]? = some (text.takeWhile accepts)[n] :=
    calc text[n]? = (text.takeWhile accepts ++ text.dropWhile accepts)[n]? := by
          rw [List.takeWhile_append_dropWhile]
      _ = (text.takeWhile accepts)[n]? := List.getElem?_append_left h
      _ = some (text.takeWhile accepts)[n] := List.getElem?_eq_getElem h
  exact ⟨_, hchar, List.mem_takeWhile_imp (List.getElem_mem h)⟩

/-- No run goes on with the character behind it. -/
theorem not_accepts_behind_run {char : Char}
    (h : text[(text.takeWhile accepts).length]? = some char) : accepts char = false := by
  have hnext := List.head?_dropWhile_not accepts text
  rw [← drop_run, List.head?_drop, h] at hnext
  exact hnext

/-- A parser of the characters of a class is repeated along the longest start of the text
whose characters are all of that class. -/
theorem result_spelled_many_while {p : Parser Char}
    (hreads : ∀ c : Cursor, c.Sound → ∀ char, c.peek = some char → accepts char = true →
      (p.parse c).result = .ok ⟨⟨c.idx, c.idx + 1⟩, char⟩)
    (hfails : ∀ c : Cursor, c.Sound → (∀ char, c.peek = some char → accepts char = false) →
      ∃ error, (p.parse c).result = .fail error)
    {c : Cursor} (hc : c.Sound) :
    (p.many.spelled.parse c).result =
      .ok ⟨⟨c.idx, c.idx + (c.rest.takeWhile accepts).length⟩,
        String.ofList (c.rest.takeWhile accepts)⟩ := by
  have hrun : (c.text.drop c.idx).take (c.rest.takeWhile accepts).length =
      c.rest.takeWhile accepts := by
    rw [← hc.rest_eq]
    exact (List.prefix_iff_eq_take.mp (List.takeWhile_prefix _)).symm
  have hstop : c.idx + (c.rest.takeWhile accepts).length ≤ c.text.length :=
    hc.len_eq ▸ hc.length_le_of_isPrefix (List.takeWhile_prefix _)
  have hsound : ∀ n, n ≤ (c.rest.takeWhile accepts).length →
      (Cursor.atOffset c.text (c.idx + n)).Sound := fun n hn =>
    Cursor.sound_atOffset (Nat.le_trans (Nat.add_le_add_left hn _) hstop) hc.size_le
  have hchain : Chain p c.text c.idx (c.rest.takeWhile accepts)
      (c.idx + (c.rest.takeWhile accepts).length) := by
    have hchars := chain_of_chars (p := p) (Nat.le_add_right c.idx _) hstop
    rw [Nat.add_sub_cancel_left, hrun] at hchars
    refine hchars fun k char hlo hhi hk => ?_
    obtain ⟨n, rfl⟩ := Nat.exists_eq_add_of_le hlo
    have hn : n < (c.rest.takeWhile accepts).length := Nat.lt_of_add_lt_add_left hhi
    obtain ⟨char', hchar', haccepts⟩ := accepts_of_lt_run hn
    cases Option.some.inj (hk.symm.trans ((hc.getElem?_rest n).symm.trans hchar'))
    have hplace := hsound n (Nat.le_of_lt hn)
    exact hreads _ hplace char (hplace.peek_eq.trans hk) haccepts
  have hend : ∃ error, (p.parse (.atOffset c.text
      (c.idx + (c.rest.takeWhile accepts).length))).result = .fail error := by
    have hplace := hsound _ (Nat.le_refl _)
    refine hfails _ hplace fun char hpeek => ?_
    rw [hplace.peek_eq] at hpeek
    exact not_accepts_behind_run ((hc.getElem?_rest _).trans hpeek)
  obtain ⟨error, hfail⟩ := hend
  have hresult := result_spelled_many hc.size_le hc.idx_le hchain hfail
  rwa [← hc.eq_atOffset] at hresult

theorem result_spelled_many_satisfy (accepts : Char → Bool) (describe : Char → String)
    {c : Cursor} (hc : c.Sound) :
    ((satisfy accepts describe).many.spelled.parse c).result =
      .ok ⟨⟨c.idx, c.idx + (c.rest.takeWhile accepts).length⟩,
        String.ofList (c.rest.takeWhile accepts)⟩ := by
  refine result_spelled_many_while (fun d hd char hpeek haccepts => ?_) (fun d hd hnone => ?_) hc
  · rw [result_satisfy hd, hpeek]
    exact if_pos haccepts
  · rw [result_satisfy hd]
    cases hpeek : d.peek with
    | some char => exact ⟨_, if_neg (Bool.eq_false_iff.mp (hnone char hpeek))⟩
    | none => exact ⟨_, rfl⟩

/-- The terminator fails at the end of the text as well, where the one character is then
missing. -/
theorem result_upTo_satisfy (accepts : Char → Bool) (describe : Char → String)
    {c : Cursor} (hc : c.Sound) :
    ((upTo (satisfy (fun char => !accepts char) describe)).parse c).result =
      .ok ⟨⟨c.idx, c.idx + (c.rest.takeWhile accepts).length⟩,
        String.ofList (c.rest.takeWhile accepts)⟩ := by
  refine result_spelled_many_while (fun d hd char hpeek haccepts => ?_) (fun d hd hnone => ?_) hc
  · rw [result_anyCharUnless _ hd, result_satisfy hd, hpeek]
    dsimp only
    rw [haccepts, if_neg (by decide), result_anyChar hd, hpeek]
  · rw [result_anyCharUnless _ hd, result_satisfy hd]
    cases hpeek : d.peek with
    | some char =>
      dsimp only
      rw [hnone char hpeek, if_pos (by decide)]
      exact ⟨_, rfl⟩
    | none =>
      dsimp only
      rw [result_anyChar hd, hpeek]
      exact ⟨_, rfl⟩

/-! ## What is read -/

/-- Reading up to a terminator always succeeds, with the text up to the first place where
the terminator could be read, or all that is left. So a delimiter that is read
afterwards is the first one, and is missed only if there is none; and reading up to a
character outside a class is reading the characters of that class. -/
theorem upTo_stops :
    (∀ {α : Type} (q : Parser α), q.Honest → q.Total → ∀ c : Cursor, c.Reachable →
      (∃ j, q.StopsAt c.text c.idx j) ∧
      ∀ j, q.StopsAt c.text c.idx j → ((upTo q).parse c).result =
        .ok ⟨⟨c.idx, j⟩, String.ofList ((c.text.drop c.idx).take (j - c.idx))⟩) ∧
    (∀ (delimiter : String) (c : Cursor), c.Reachable →
      (delimiter.toList <:+: c.rest →
        ∃ before, PrecedesFirst before delimiter.toList c.rest ∧
          ((upToAndPast delimiter).parse c).result =
            .ok ⟨⟨c.idx, c.idx + before.length + delimiter.length⟩, String.ofList before⟩) ∧
      (¬ delimiter.toList <:+: c.rest →
        ((upToAndPast delimiter).parse c).result = .fail ⟨c.len, s!"Expected: '{delimiter}'"⟩)) ∧
    (∀ (accepts : Char → Bool) (describe describe' : Char → String) (c : Cursor), c.Reachable →
      ((upTo (satisfy (fun char => !accepts char) describe)).parse c).result =
        ((satisfy accepts describe').many.spelled.parse c).result ∧
      ((satisfy accepts describe').many.spelled.parse c).result =
        .ok ⟨⟨c.idx, c.idx + (c.rest.takeWhile accepts).length⟩,
          String.ofList (c.rest.takeWhile accepts)⟩) := by
  refine ⟨?_, ?_, ?_⟩
  · intro α q hq htotal c hc
    refine ⟨exists_stopsAt q c.text c.idx hc.sound.idx_le, fun j hstops => ?_⟩
    have hresult := result_upTo hq htotal hc.sound.size_le hstops
    rwa [← hc.sound.eq_atOffset] at hresult
  · intro delimiter c hc
    exact ⟨upToAndPast_found hc.sound, upToAndPast_missing hc.sound⟩
  · intro accepts describe describe' c hc
    have hmany := result_spelled_many_satisfy accepts describe' hc.sound
    exact ⟨(result_upTo_satisfy accepts describe hc.sound).trans hmany.symm, hmany⟩

/-- A delimiter that overlaps itself, behind a character of two bytes. -/
theorem upTo_stops_overlapping :
    let text : Text := ['é', 'a', 'a', 'a', 'b', '日']
    let c : Cursor := .new text
    ((upTo (literal "aab")).parse c).result = .ok ⟨⟨0, 2⟩, "éa"⟩ ∧
      ((upToAndPast "aab").parse c).result = .ok ⟨⟨0, 5⟩, "éa"⟩ ∧
      ((upToAndPast "").parse (.atOffset text 2)).result = .ok ⟨⟨2, 2⟩, ""⟩ ∧
      ((upToAndPast "é").parse (.atOffset text 2)).result = .fail ⟨6, "Expected: 'é'"⟩ ∧
      ((upTo (satisfy (fun char => !decide (char ≠ 'b')) fun _ => "")).parse c).result =
        .ok ⟨⟨0, 4⟩, "éaaa"⟩ := by
  intro text c
  have hc : c.Reachable := .new (by decide)
  have hbehind : (Cursor.atOffset text 2).Reachable :=
    Cursor.reachable_atOffset (by decide) (by decide)
  obtain ⟨hup, hdelimiter, hclass⟩ := upTo_stops
  have hstops : (literal "aab").StopsAt c.text c.idx 2 := by
    have hnone : ∀ k, k < 2 → ¬ "aab".toList <+: text.drop k := by decide
    refine ⟨by decide, by decide, fun k _ hlt => ?_, .inl ⟨⟨⟨2, 5⟩, "aab"⟩, rfl⟩⟩
    rw [literal_succeedsAt_iff _ (by decide) (Nat.le_of_lt (Nat.lt_trans hlt (by decide)))]
    exact hnone k hlt
  have hfirst : PrecedesFirst ['é', 'a'] "aab".toList c.rest :=
    hstops.precedesFirst (by decide) (by decide)
  have hempty : PrecedesFirst [] "".toList (Cursor.atOffset text 2).rest :=
    ⟨by decide, fun _ _ => Nat.zero_le _⟩
  refine ⟨?_, ?_, ?_, ?_, ?_⟩
  · exact (hup _ (literal_honest _) (literal_total _) c hc).2 2 hstops
  · obtain ⟨before, hbefore, hresult⟩ := (hdelimiter "aab" c hc).1 (by decide)
    cases hfirst.unique hbefore
    exact hresult
  · obtain ⟨before, hbefore, hresult⟩ := (hdelimiter "" _ hbehind).1 (by decide)
    cases hempty.unique hbefore
    exact hresult
  · exact (hdelimiter "é" _ hbehind).2 (by decide)
  · obtain ⟨hsame, hmany⟩ :=
      hclass (fun char => decide (char ≠ 'b')) (fun _ => "") (fun _ => "") c hc
    exact hsame.trans hmany

end Parsing.Parser
