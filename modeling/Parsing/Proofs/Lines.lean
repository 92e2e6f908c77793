import Mathlib.Data.List.DropRight
import Parsing.Position
import Parsing.Proofs.Moves

/-!
# Offsets and positions

A position is found by walking through the text and counting. What the walk comes
to can be read off the lines of the text, which are found by cutting it at its line
feeds, without any counting:

> `resolve_exact`: the offsets of a text are those that have a position, and the
> position of an offset leads back to it: so many whole lines, each with its line
> feed, and so many characters of the next one.

The two meet in the lines of the text *before* an offset (`walked_lines`). There are
as many of them as the line number says, and the last one, at whose end the offset
lies, is as long as the column says. What comes after the offset only makes that one
longer and adds lines behind it (`lines_append`).
-/

namespace Parsing

namespace Text

theorem lines_feed (text : Text) : lines ('\n' :: text) = [] :: lines text := by
  rw [lines, if_pos rfl]

theorem lines_cons {c : Char} (hc : c ≠ '\n') {text line : Text} {more : List Text}
    (h : lines text = line :: more) : lines (c :: text) = (c :: line) :: more := by
  rw [lines, if_neg hc, h]

theorem exists_lines_eq (text : Text) : ∃ line more, lines text = line :: more :=
  List.exists_cons_of_ne_nil (lines_ne_nil text)

/-- The pieces between line feeds are those that the text splits into there. -/
theorem lines_eq_splitOn (text : Text) : lines text = text.splitOn '\n' := by
  induction text with
  | nil => rw [lines, List.splitOn_nil]
  | cons c text ih =>
    rw [List.splitOn_cons_eq_if_modifyHead, ← ih]
    by_cases hc : c = '\n'
    · rw [if_pos (beq_iff_eq.mpr hc), hc, lines_feed]
    · obtain ⟨line, more, hlines⟩ := exists_lines_eq text
      rw [if_neg (fun h => hc (beq_iff_eq.mp h)), lines_cons hc hlines, hlines]
      rfl

theorem length_lines (text : Text) : (lines text).length = text.count '\n' + 1 := by
  induction text with
  | nil => rfl
  | cons c text ih =>
    by_cases hc : c = '\n'
    · rw [hc, lines_feed, List.count_cons_self, List.length_cons, ih]
    · obtain ⟨line, more, hlines⟩ := exists_lines_eq text
      rw [List.count_cons_of_ne hc, ← ih, lines_cons hc hlines, hlines]
      rfl

/-- The number of characters of some lines, each with its line feed. -/
def lengthOfLines : List Text → Nat
  | [] => 0
  | line :: more => line.length + 1 + lengthOfLines more

theorem lengthOfLines_append (front back : List Text) :
    lengthOfLines (front ++ back) = lengthOfLines front + lengthOfLines back := by
  induction front with
  | nil => exact (Nat.zero_add _).symm
  | cons line front ih =>
    show line.length + 1 + lengthOfLines (front ++ back) =
      line.length + 1 + lengthOfLines front + lengthOfLines back
    omega

/-- The lines of a text have all its characters, and one line feed too many. -/
theorem lengthOfLines_lines (text : Text) : lengthOfLines (lines text) = text.length + 1 := by
  induction text with
  | nil => rfl
  | cons c text ih =>
    by_cases hc : c = '\n'
    · rw [hc, lines_feed]
      show 0 + 1 + lengthOfLines (lines text) = text.length + 1 + 1
      omega
    · obtain ⟨line, more, hlines⟩ := exists_lines_eq text
      rw [hlines] at ih
      have hcount : line.length + 1 + lengthOfLines more = text.length + 1 := ih
      rw [lines_cons hc hlines]
      show line.length + 1 + 1 + lengthOfLines more = text.length + 1 + 1
      omega

/-- The last line of one text and the first line of the next one become one line. -/
theorem lines_append {front back : Text} {closed more : List Text} {last first : Text}
    (hfront : lines front = closed ++ [last]) (hback : lines back = first :: more) :
    lines (front ++ back) = closed ++ (last ++ first) :: more := by
  induction front generalizing closed last with
  | nil =>
    cases closed with
    | nil =>
      obtain rfl : [] = last := List.singleton_inj.mp hfront
      exact hback
    | cons line closed => exact absurd hfront (by simp [lines])
  | cons c front ih =>
    by_cases hc : c = '\n'
    · rw [hc, lines_feed] at hfront
      cases closed with
      | nil => exact absurd (List.cons.inj hfront).2 (lines_ne_nil front)
      | cons line closed =>
        obtain ⟨hline, hclosed⟩ := List.cons.inj hfront
        rw [← hline, hc, List.cons_append, lines_feed, ih hclosed]
        rfl
    · obtain ⟨line, others, hlines⟩ := exists_lines_eq front
      rw [lines_cons hc hlines] at hfront
      cases closed with
      | nil =>
        -- The line that is open begins with this character.
        obtain ⟨hlast, hothers⟩ := List.cons.inj hfront
        have hopen : lines front = [] ++ [line] := by rw [hlines, hothers]; rfl
        rw [← hlast]
        exact lines_cons hc (ih hopen)
      | cons head closed =>
        obtain ⟨hhead, hothers⟩ := List.cons.inj hfront
        have hmore : lines front = (line :: closed) ++ [last] := by rw [hlines, hothers]; rfl
        rw [← hhead]
        exact lines_cons hc (ih hmore)

end Text

namespace Position

/-! ## The walk -/

/-- A walk goes on by the characters that are between here and there. -/
theorem walkTo_eq_foldl (target : Nat) : ∀ (text : Text) (p : Position), p.idx ≤ target →
    walkTo target text p = (text.take (target - p.idx)).foldl advance p := by
  intro text
  induction text with
  | nil =>
    intro p _
    rw [walkTo, List.take_nil]
    rfl
  | cons c text ih =>
    intro p hp
    rw [walkTo]
    by_cases hstop : p.idx = target
    · rw [if_pos hstop, hstop, Nat.sub_self, List.take_zero]
      rfl
    · obtain ⟨left, hleft⟩ : ∃ left, target - p.idx = left + 1 :=
        ⟨target - p.idx - 1, by omega⟩
      have hnext : target - (p.advance c).idx = left := by
        rw [idx_advance]
        omega
      rw [if_neg hstop, ih _ (by rw [idx_advance]; omega), hnext, hleft, List.take_succ_cons]
      rfl

/-- The position behind a text that was walked through. -/
def behind (front : Text) : Position := front.foldl advance origin

theorem behind_concat (front : Text) (c : Char) :
    behind (front ++ [c]) = (behind front).advance c := by
  rw [behind, List.foldl_append]
  rfl

/-- Whoever has walked through a text stands at the end of the last of its lines, which
is what comes behind the last line feed. -/
theorem walked_lines (front : Text) : ∃ closed last, front.lines = closed ++ [last] ∧
    last = front.rtakeWhile (· ≠ '\n') ∧
    behind front = ⟨front.length, closed.length + 1, last.length + 1⟩ := by
  -- On the last character: a line feed closes the line, another one makes it longer.
  induction front using List.reverseRecOn with
  | nil => exact ⟨[], [], rfl, rfl, rfl⟩
  | append_singleton front c ih =>
    obtain ⟨closed, last, hlines, hlast, hbehind⟩ := ih
    rw [behind_concat, hbehind, List.length_append]
    by_cases hc : c = '\n'
    · refine ⟨closed ++ [last], [], ?_, ?_, ?_⟩
      · rw [hc, Text.lines_append hlines (Text.lines_feed []), List.append_nil, List.append_assoc]
        rfl
      · exact (List.rtakeWhile_concat_neg _ _ _ (by simp [hc])).symm
      · rw [advance, if_pos hc, List.length_append]
        rfl
    · refine ⟨closed, last ++ [c], ?_, ?_, ?_⟩
      · exact Text.lines_append hlines (Text.lines_cons hc rfl)
      · rw [List.rtakeWhile_concat_pos _ _ _ (by simp [hc]), hlast]
      · rw [advance, if_neg hc, List.length_append]
        rfl

theorem idx_behind (front : Text) : (behind front).idx = front.length := by
  obtain ⟨closed, last, -, -, hbehind⟩ := walked_lines front
  rw [hbehind]

/-- The walk to an offset, if the text reaches that far. -/
theorem resolve_of_le {idx : Nat} {text : Text} (h : idx ≤ text.length) :
    resolve idx text = .ok (behind (text.take idx)) := by
  have hwalk : walkTo idx text origin = behind (text.take idx) :=
    walkTo_eq_foldl idx text origin (Nat.zero_le _)
  obtain ⟨closed, last, -, -, hbehind⟩ := walked_lines (text.take idx)
  rw [List.length_take_of_le h] at hbehind
  rw [resolve, hwalk, hbehind, if_neg (Nat.lt_irrefl _)]

theorem resolve_of_lt {idx : Nat} {text : Text} (h : text.length < idx) :
    resolve idx text = .error ⟨idx, 0, text.length⟩ := by
  have hwalk : walkTo idx text origin = behind (text.take idx) :=
    walkTo_eq_foldl idx text origin (Nat.zero_le _)
  rw [resolve, hwalk, List.take_of_length_le (Nat.le_of_lt h), idx_behind, if_pos h]

theorem resolve_eq_ok {idx : Nat} {text : Text} {p : Position} (h : resolve idx text = .ok p) :
    idx ≤ text.length ∧ p = behind (text.take idx) := by
  by_cases hle : idx ≤ text.length
  · rw [resolve_of_le hle] at h
    exact ⟨hle, (Except.ok.inj h).symm⟩
  · rw [resolve_of_lt (Nat.lt_of_not_le hle)] at h
    cases h

/-! ## Positions and lines -/

/-- What a position says about its offset, told by the lines of the text: so many whole
lines come before it, and so many characters of the next one. -/
structure Locates (p : Position) (text : Text) : Prop where
  idx_le : p.idx ≤ text.length
  line_pos : 1 ≤ p.line
  line_le : p.line ≤ (text.splitOn '\n').length
  column_pos : 1 ≤ p.column
  column_le : ∃ line, (text.splitOn '\n')[p.line - 1]? = some line ∧ p.column - 1 ≤ line.length
  idx_eq : p.idx = Text.lengthOfLines ((text.splitOn '\n').take (p.line - 1)) + (p.column - 1)
  line_eq : p.line = (text.take p.idx).count '\n' + 1
  column_eq : p.column = ((text.take p.idx).rtakeWhile (· ≠ '\n')).length + 1

/-- An offset cuts one line of its text in two. What comes after the offset makes that
line longer and adds lines behind it; the position is told by what comes before. -/
theorem lines_around {idx : Nat} {text : Text} (h : idx ≤ text.length) :
    ∃ closed last first more,
      Text.lines (text.take idx) = closed ++ [last] ∧
      Text.lines (text.drop idx) = first :: more ∧
      text.splitOn '\n' = closed ++ (last ++ first) :: more ∧
      last = (text.take idx).rtakeWhile (· ≠ '\n') ∧
      behind (text.take idx) = ⟨idx, closed.length + 1, last.length + 1⟩ := by
  obtain ⟨closed, last, hfront, hlast, hbehind⟩ := walked_lines (text.take idx)
  obtain ⟨first, more, hback⟩ := Text.exists_lines_eq (text.drop idx)
  rw [List.length_take_of_le h] at hbehind
  refine ⟨closed, last, first, more, hfront, hback, ?_, hlast, hbehind⟩
  rw [← Text.lines_eq_splitOn, ← Text.lines_append hfront hback, List.take_append_drop]

/-- The walk to an offset of a text ends at a position that locates it. -/
theorem locates_behind {idx : Nat} {text : Text} (h : idx ≤ text.length) :
    (behind (text.take idx)).Locates text := by
  obtain ⟨closed, last, first, more, hfront, -, hlines, hlast, hbehind⟩ := lines_around h
  have hcount : closed.length + 1 = (text.take idx).count '\n' + 1 := by
    rw [← Text.length_lines, hfront, List.length_append]
    rfl
  have hsize : Text.lengthOfLines closed + (last.length + 1) = idx + 1 := by
    have hwhole := Text.lengthOfLines_lines (text.take idx)
    rw [hfront, Text.lengthOfLines_append, List.length_take_of_le h] at hwhole
    exact hwhole
  have hnext : (text.splitOn '\n')[closed.length]? = some (last ++ first) := by
    rw [hlines, List.getElem?_append_right (Nat.le_refl _), Nat.sub_self]
    rfl
  have hbefore : (text.splitOn '\n').take closed.length = closed := by
    rw [hlines, List.take_left]
  rw [hbehind]
  exact {
    idx_le := h
    line_pos := Nat.le_add_left _ _
    line_le := by
      rw [hlines, List.length_append, List.length_cons]
      show closed.length + 1 ≤ closed.length + (more.length + 1)
      omega
    column_pos := Nat.le_add_left _ _
    column_le := by
      refine ⟨last ++ first, hnext, ?_⟩
      rw [List.length_append]
      exact Nat.le_add_right _ _
    idx_eq := by
      show idx = Text.lengthOfLines ((text.splitOn '\n').take closed.length) + last.length
      rw [hbefore]
      omega
    line_eq := hcount
    column_eq := congrArg (·.length + 1) hlast }

/-! ## The order of positions -/

/-- An earlier line, or the same line and an earlier column. -/
def Before (p q : Position) : Prop :=
  p.line < q.line ∨ p.line = q.line ∧ p.column < q.column

theorem Before.trans {p q r : Position} (hpq : p.Before q) (hqr : q.Before r) : p.Before r := by
  unfold Before at hpq hqr ⊢
  omega

theorem before_advance (p : Position) (c : Char) : p.Before (p.advance c) := by
  unfold advance
  split
  · exact .inl (Nat.lt_succ_self _)
  · exact .inr ⟨rfl, Nat.lt_succ_self _⟩

/-- A walk over some characters ends at a later position. -/
theorem before_foldl {text : Text} (hne : text ≠ []) (p : Position) :
    p.Before (text.foldl advance p) := by
  induction text generalizing p with
  | nil => exact absurd rfl hne
  | cons c text ih =>
    rw [List.foldl_cons]
    cases text with
    | nil => exact before_advance p c
    | cons d text => exact (before_advance p c).trans (ih (List.cons_ne_nil _ _) _)

theorem before_behind {i j : Nat} {text : Text} (hij : i < j) (hj : j ≤ text.length) :
    (behind (text.take i)).Before (behind (text.take j)) := by
  have hsplit : text.take j = text.take i ++ (text.drop i).take (j - i) := by
    rw [← List.take_add, Nat.add_sub_cancel' (Nat.le_of_lt hij)]
  have hne : (text.drop i).take (j - i) ≠ [] := by
    intro hnil
    have hlength := congrArg List.length hnil
    rw [List.length_take, List.length_drop, List.length_nil] at hlength
    omega
  rw [hsplit, behind, behind, List.foldl_append]
  exact before_foldl hne _

theorem before_of_resolve {i j : Nat} {text : Text} {p q : Position}
    (hp : resolve i text = .ok p) (hq : resolve j text = .ok q) (hij : i < j) : p.Before q := by
  obtain ⟨-, rfl⟩ := resolve_eq_ok hp
  obtain ⟨hj, rfl⟩ := resolve_eq_ok hq
  exact before_behind hij hj

/-- The offsets of a text have positions, and others have none, which is told in the
words of a cursor that is to move there. A position leads back to its offset through
the lines of the text; the positions of two offsets are in the order of these, and
never the same. -/
theorem resolve_exact (text : Text) :
    (∀ idx, (∃ p, resolve idx text = .ok p) ↔ idx ≤ text.length) ∧
    (∀ idx, text.length < idx →
      resolve idx text = .error ⟨idx, 0, text.length⟩ ∧
      (Cursor.new text).tryGoto idx = .error ⟨idx, 0, text.length⟩) ∧
    (∀ idx p, resolve idx text = .ok p → p.idx = idx ∧ p.Locates text) ∧
    (∀ i j p q, resolve i text = .ok p → resolve j text = .ok q → i < j → p.Before q) ∧
    (∀ i j p q, resolve i text = .ok p → resolve j text = .ok q →
      p.line = q.line → p.column = q.column → i = j) := by
  refine ⟨fun idx => ⟨?_, fun hle => ⟨_, resolve_of_le hle⟩⟩, ?_, ?_, ?_, ?_⟩
  · intro h
    obtain ⟨p, hp⟩ := h
    exact (resolve_eq_ok hp).1
  · intro idx hlt
    refine ⟨resolve_of_lt hlt, Cursor.tryGoto_of_not_canGoto (Bool.eq_false_iff.mpr ?_)⟩
    intro hcan
    exact Nat.not_le_of_lt hlt (Cursor.canGoto_iff.mp hcan).2
  · intro idx p hp
    obtain ⟨hle, rfl⟩ := resolve_eq_ok hp
    refine ⟨?_, locates_behind hle⟩
    rw [idx_behind, List.length_take_of_le hle]
  · intro i j p q hp hq hij
    exact before_of_resolve hp hq hij
  · intro i j p q hp hq hline hcolumn
    -- If they were two offsets, the position of one of them would come first.
    rcases Nat.lt_trichotomy i j with hij | hij | hij
    · rcases before_of_resolve hp hq hij with hlt | ⟨-, hlt⟩
      · omega
      · omega
    · exact hij
    · rcases before_of_resolve hq hp hij with hlt | ⟨-, hlt⟩
      · omega
      · omega

/-- An offset at a line feed behind another one, an offset in the line that follows, and
one past the text. -/
theorem resolve_exact_empty_line :
    let text : Text := ['a', 'é', '\n', '\n', '日']
    resolve 3 text = .ok ⟨3, 2, 1⟩ ∧ (⟨3, 2, 1⟩ : Position).Locates text ∧
      resolve 5 text = .ok ⟨5, 3, 2⟩ ∧ (⟨3, 2, 1⟩ : Position).Before ⟨5, 3, 2⟩ ∧
      resolve 6 text = .error ⟨6, 0, 5⟩ ∧ (Cursor.new text).tryGoto 6 = .error ⟨6, 0, 5⟩ := by
  intro text
  obtain ⟨-, houtside, hlocates, hbefore, -⟩ := resolve_exact text
  have hfirst : resolve 3 text = .ok ⟨3, 2, 1⟩ := rfl
  have hsecond : resolve 5 text = .ok ⟨5, 3, 2⟩ := rfl
  obtain ⟨hresolve, hmove⟩ := houtside 6 (by decide)
  exact ⟨hfirst, (hlocates 3 _ hfirst).2, hsecond, hbefore 3 5 _ _ hfirst hsecond (by decide),
    hresolve, hmove⟩

end Position

end Parsing
