import Parsing.Proofs.Answers
import Parsing.Proofs.Delimiters

/-!
# Nested parentheses

The grammar of parentheses that count how deep they are is a definition that refers to
itself: a group is an opening parenthesis, what the definition comes to behind it, and a
closing one; where there is no group, the definition comes to 0.

> `nests_answers`: it comes to the number of opening parentheses in a row, if no fewer
> closing ones stand directly behind them, and otherwise to 0, with nothing read.

So a group that is not closed takes all groups around it down with it: inside of it the
definition goes back to where it stands, and the opening parenthesis that is there is
not the closing one that the group around it asks for next. The statement that goes by
induction on the opening parentheses (`resultAt_of_parentheses`) is therefore about any
number of closing ones, too few of them included.
-/

namespace Parsing.Grammar

/-- The number that is one greater. -/
def deeper (depth : Value) : Except Fault Value := (Value.addInts depth.toInt 1).map .int

/-- A pair of parentheses around what the definition comes to. -/
def group : Grammar Unit :=
  .map deeper (.keepLeft (.keepRight (.literal "(") (.ref ())) (.literal ")"))

/-- Nested parentheses: a group, or else nothing, which is 0 deep. -/
def nests : Unit → Grammar Unit := fun _ => .orElse group (.pure (.int 0))

/-- A depth, or 0 where there is none. -/
def orZero : Value → Except Fault Value
  | .some depth => .ok depth
  | _ => .ok (.int 0)

/-- Nested parentheses: a group that may be missing, and is 0 deep then. -/
def nestsOptional : Unit → Grammar Unit := fun _ => .map orZero (.optional group)

/-- The number of opening parentheses in a row. -/
def openingRun (text : Text) : Nat := (text.takeWhile (· = '(')).length

/-- The number of closing parentheses in a row directly behind the opening ones. -/
def closingRun (text : Text) : Nat :=
  ((text.dropWhile (· = '(')).takeWhile (· = ')')).length

/-- What is read at an offset with this many parentheses of either kind. -/
def nestAt (i opens closes : Nat) : Parsed Value :=
  if opens ≤ closes then ⟨⟨i, i + 2 * opens⟩, .int opens⟩ else ⟨⟨i, i⟩, .int 0⟩

theorem nestAt_of_le {i opens closes : Nat} (h : opens ≤ closes) :
    nestAt i opens closes = ⟨⟨i, i + 2 * opens⟩, .int opens⟩ := if_pos h

theorem nestAt_of_lt {i opens closes : Nat} (h : closes < opens) :
    nestAt i opens closes = ⟨⟨i, i⟩, .int 0⟩ := if_neg (Nat.not_le_of_lt h)

/-! ## One group -/

theorem parserWith_group (call : Unit → Parser Value) : group.parserWith call =
    ((((literal "(").parserWith call).keepRight (call ())).keepLeft
      ((literal ")").parserWith call)).mapChecked deeper := by
  simp only [group, parserWith]

theorem deeper_of_lt {depth : Nat} (h : depth < maxTextSize) :
    deeper (.int depth) = .ok (.int (depth + 1 : Nat)) := by
  have hmax : (depth : Int) + 1 ≤ Value.maxInt := by
    have hle : (depth : Int) + 1 ≤ (maxTextSize : Nat) := by omega
    exact hle
  have hmin : Value.minInt ≤ (depth : Int) + 1 := by
    unfold Value.minInt
    omega
  rw [deeper, Value.toInt, Value.addInts, if_pos ⟨hmin, hmax⟩]
  rfl

section

variable {text : Text} {i : Nat} {call : Unit → Parser Value}
  (hsize : text.byteSize ≤ maxTextSize) (hi : i ≤ text.length)

include hsize hi

/-- A parenthesis is read where it is the next character. -/
theorem result_parenthesis (call : Unit → Parser Value) {expected : String} {char : Char}
    (hone : expected.toList = [char]) :
    (((literal expected).parserWith call).parse (.atOffset text i)).result =
    if text[i]? = some char then .ok ⟨⟨i, i + 1⟩, .str expected⟩
    else .fail ⟨i, s!"Expected: '{expected}'"⟩ := by
  have hlength : expected.length = 1 := by
    rw [← String.length_toList, hone]
    rfl
  have hnext : expected.toList <+: text.drop i ↔ text[i]? = some char := by
    rw [hone, ← List.head?_drop]
    cases text.drop i with
    | nil => simp
    | cons first more => simp [List.cons_prefix_cons, eq_comm]
  rw [parserWith, Parser.result_map, Parser.result_literal (Cursor.sound_atOffset hi hsize),
    Cursor.rest_atOffset, hlength]
  by_cases hhere : text[i]? = some char
  · rw [if_pos (hnext.mpr hhere), if_pos hhere]
    rfl
  · rw [if_neg (fun h => hhere (hnext.mp h)), if_neg hhere]
    rfl

/-- Without an opening parenthesis there is no group. -/
theorem group_of_not_open (hopen : text[i]? ≠ some '(') :
    ((group.parserWith call).parse (.atOffset text i)).result = .fail ⟨i, "Expected: '('"⟩ := by
  have hliteral := result_parenthesis hsize hi call (show "(".toList = ['('] from rfl)
  rw [if_neg hopen] at hliteral
  have hinside : ((((literal "(").parserWith call).keepRight (call ())).parse
      (.atOffset text i)).result = .fail ⟨i, "Expected: '('"⟩ := by
    rw [Parser.keepRight, Parser.result_map, Parser.both_of_fail hliteral]
    rfl
  rw [parserWith_group, Parser.result_mapChecked, Parser.keepLeft, Parser.result_map,
    Parser.both_of_fail hinside]
  rfl

/-- Behind an opening parenthesis it depends on what is read there, and on whether that ends
before a closing one. -/
theorem result_group (hopen : text[i]? = some '(') {start stop : Nat} {value : Value}
    (hinside : ((call ()).parse (.atOffset text (i + 1))).result = .ok ⟨⟨start, stop⟩, value⟩)
    (hlo : i ≤ stop) (hhi : stop ≤ text.length) :
    ((group.parserWith call).parse (.atOffset text i)).result =
      if text[stop]? = some ')' then (do
        let depth ← .ofChecked (deeper value)
        return ⟨⟨i, stop + 1⟩, depth⟩)
      else .fail ⟨stop, "Expected: ')'"⟩ := by
  have hc : (Cursor.atOffset text i).Sound := Cursor.sound_atOffset hi hsize
  have hstep : (Cursor.atOffset text i).goto (i + 1) = .ok (.atOffset text (i + 1)) :=
    hc.goto_eq (Nat.le_succ i) (hc.idx_lt_len_of_peek (hc.peek_eq.trans hopen))
  have hgo : (Cursor.atOffset text i).goto stop = .ok (.atOffset text stop) := hc.goto_eq hlo hhi
  have hliteral := result_parenthesis hsize hi call (show "(".toList = ['('] from rfl)
  rw [if_pos hopen] at hliteral
  have hread : ((((literal "(").parserWith call).keepRight (call ())).parse
      (.atOffset text i)).result = .ok ⟨⟨i, stop⟩, value⟩ := by
    rw [Parser.keepRight, Parser.result_map, Parser.both_of_ok_of_ok hliteral hstep hinside hlo]
    rfl
  have hclose := result_parenthesis hsize hhi call (show ")".toList = [')'] from rfl)
  rw [parserWith_group, Parser.result_mapChecked, Parser.keepLeft, Parser.result_map]
  by_cases hnext : text[stop]? = some ')'
  · rw [if_pos hnext] at hclose ⊢
    rw [Parser.both_of_ok_of_ok hread hgo hclose (Nat.le_succ_of_le hlo)]
    rfl
  · rw [if_neg hnext] at hclose ⊢
    rw [Parser.both_of_ok_of_fail hread hgo hclose]
    rfl

end

/-! ## Parentheses in a row -/

/-- At an offset stand so many opening parentheses, no more, and behind them so many
closing ones, no more. -/
structure Parentheses (text : Text) (i opens closes : Nat) : Prop where
  opening : ∀ n, i ≤ n → n < i + opens → text[n]? = some '('
  closing : ∀ n, i + opens ≤ n → n < i + opens + closes → text[n]? = some ')'
  not_opening : text[i + opens]? ≠ some '('
  not_closing : text[i + opens + closes]? ≠ some ')'

namespace Parentheses

variable {text : Text} {i opens closes : Nat}

/-- Behind the first one there is one opening parenthesis less. -/
theorem inside (h : Parentheses text i (opens + 1) closes) :
    Parentheses text (i + 1) opens closes := by
  have hbehind : i + 1 + opens = i + (opens + 1) := by omega
  constructor
  · exact fun n hlo hhi => h.opening n (by omega) (by omega)
  · exact fun n hlo hhi => h.closing n (by omega) (by omega)
  · exact hbehind ▸ h.not_opening
  · exact hbehind ▸ h.not_closing

theorem le_length (h : Parentheses text i opens closes) (hi : i ≤ text.length) :
    i + opens + closes ≤ text.length := by
  have hwithin : ∀ n char, text[n]? = some char → n < text.length := fun n char hchar =>
    (List.getElem?_eq_some_iff.mp hchar).1
  cases closes with
  | zero =>
    cases opens with
    | zero => exact hi
    | succ opens => exact hwithin (i + opens) '(' (h.opening _ (by omega) (by omega))
  | succ closes => exact hwithin (i + opens + closes) ')' (h.closing _ (by omega) (by omega))

end Parentheses

/-- The parentheses that come next, counted. -/
theorem parentheses_of_rest {c : Cursor} (hc : c.Sound) :
    Parentheses c.text c.idx (openingRun c.rest) (closingRun c.rest) := by
  have hbehind : ∀ n, c.text[c.idx + openingRun c.rest + n]? =
      (c.rest.dropWhile (· = '('))[n]? := fun n => by
    rw [Nat.add_assoc, ← hc.getElem?_rest, ← Parser.drop_run, List.getElem?_drop]
    rfl
  constructor
  · intro n hlo hhi
    obtain ⟨m, rfl⟩ := Nat.exists_eq_add_of_le hlo
    obtain ⟨char, hchar, haccepts⟩ := Parser.accepts_of_lt_run (Nat.lt_of_add_lt_add_left hhi)
    rw [← hc.getElem?_rest, hchar, of_decide_eq_true haccepts]
  · intro n hlo hhi
    obtain ⟨m, rfl⟩ := Nat.exists_eq_add_of_le hlo
    obtain ⟨char, hchar, haccepts⟩ := Parser.accepts_of_lt_run (Nat.lt_of_add_lt_add_left hhi)
    rw [hbehind, hchar, of_decide_eq_true haccepts]
  · intro hopen
    rw [← hc.getElem?_rest] at hopen
    exact absurd (Parser.not_accepts_behind_run hopen) (by decide)
  · intro hclose
    rw [hbehind] at hclose
    exact absurd (Parser.not_accepts_behind_run hclose) (by decide)

/-! ## A group or nothing -/

/-- A definition that comes to what a group does, or to 0 where there is no group. -/
def FallsBack (definitions : Unit → Grammar Unit) : Prop :=
  ∀ (call : Unit → Parser Value) (c : Cursor),
    (((definitions ()).parserWith call).parse c).result =
    match ((group.parserWith call).parse c).result with
    | .fail _ => .ok (.empty c.idx (.int 0))
    | other => other

theorem nests_fallsBack : FallsBack nests := by
  intro call c
  rw [nests, parserWith, Parser.result_orElse]
  cases ((group.parserWith call).parse c).result with
  | ok parsed => rfl
  | fail error => rw [parserWith]; rfl
  | fault cause => rfl
  | exhausted => rfl

theorem nestsOptional_fallsBack : FallsBack nestsOptional := by
  intro call c
  rw [nestsOptional, parserWith, parserWith, Parser.result_mapChecked, Parser.result_map,
    Parser.result_optional]
  cases ((group.parserWith call).parse c).result with
  | ok parsed => rfl
  | fail error => rfl
  | fault cause => rfl
  | exhausted => rfl

section

variable {definitions : Unit → Grammar Unit} (hdefinitions : FallsBack definitions)
  {text : Text} (hsize : text.byteSize ≤ maxTextSize) {i closes : Nat}

include hdefinitions hsize

/-- One opening parenthesis, when inside of it the definition comes to what it should. -/
theorem nest_step {call : Unit → Parser Value} {opens : Nat} (hi : i ≤ text.length)
    (hparens : Parentheses text i (opens + 1) closes)
    (hcall : ((call ()).parse (.atOffset text (i + 1))).result =
      .ok (nestAt (i + 1) opens closes)) :
    (((definitions ()).parserWith call).parse (.atOffset text i)).result =
      .ok (nestAt i (opens + 1) closes) := by
  have hopen : text[i]? = some '(' := hparens.opening i (Nat.le_refl i) (by omega)
  have hlength := hparens.le_length hi
  rw [hdefinitions]
  rcases Nat.lt_trichotomy closes opens with hfew | rfl | hmany
  · -- The group inside is not closed either: there its opening parenthesis comes next.
    have hnext : text[i + 1]? ≠ some ')' := by
      rw [hparens.opening (i + 1) (Nat.le_succ i) (by omega)]
      decide
    rw [nestAt_of_lt hfew] at hcall
    rw [result_group hsize hi hopen hcall (Nat.le_succ i) (by omega), if_neg hnext,
      nestAt_of_lt (Nat.lt_succ_of_lt hfew)]
    rfl
  · -- The group inside took the last closing parenthesis.
    have hnext : text[i + 1 + 2 * closes]? ≠ some ')' := by
      rw [show i + 1 + 2 * closes = i + (closes + 1) + closes by omega]
      exact hparens.not_closing
    rw [nestAt_of_le (Nat.le_refl closes)] at hcall
    rw [result_group hsize hi hopen hcall (by omega) (by omega), if_neg hnext,
      nestAt_of_lt (Nat.lt_succ_self closes)]
    rfl
  · have hnext : text[i + 1 + 2 * opens]? = some ')' := hparens.closing _ (by omega) (by omega)
    have hsmall : opens < maxTextSize := by
      have hchars := Text.length_le_byteSize text
      omega
    rw [nestAt_of_le (Nat.le_of_lt hmany)] at hcall
    rw [result_group hsize hi hopen hcall (by omega) (by omega), if_pos hnext,
      deeper_of_lt hsmall, nestAt_of_le (Nat.succ_le_of_lt hmany),
      show i + 1 + 2 * opens + 1 = i + 2 * (opens + 1) by omega]
    rfl

/-- With its references followed as deep as there are opening parentheses, the definition
comes to what it should. -/
theorem resultAt_of_parentheses {opens : Nat} : ∀ {depth i : Nat}, opens ≤ depth →
    i ≤ text.length → Parentheses text i opens closes →
    (definitions ()).resultAt definitions depth (.atOffset text i) =
      .ok (nestAt i opens closes) := by
  -- On the opening parentheses: the one at `i` makes one group, and one reference.
  induction opens with
  | zero =>
    intro depth i _ hi hparens
    obtain ⟨call, hcall⟩ := exists_parserWith definitions depth
    rw [resultAt, hcall, hdefinitions, group_of_not_open hsize hi hparens.not_opening,
      nestAt_of_le (Nat.zero_le _)]
    rfl
  | succ opens ih =>
    intro depth i hdepth hi hparens
    cases depth with
    | zero => exact absurd hdepth (Nat.not_succ_le_zero _)
    | succ depth =>
      have hnext : i + 1 ≤ text.length := by
        have hlength := hparens.le_length hi
        omega
      exact nest_step hdefinitions hsize hi hparens
        (ih (Nat.le_of_succ_le_succ hdepth) hnext hparens.inside)

end

theorem answers_nestAt {definitions : Unit → Grammar Unit} (hdefinitions : FallsBack definitions)
    {c : Cursor} (hc : c.Sound) : (definitions ()).Answers definitions c
      (.ok (nestAt c.idx (openingRun c.rest) (closingRun c.rest))) := by
  have hresult := resultAt_of_parentheses hdefinitions hc.size_le
    (Nat.le_refl (openingRun c.rest)) hc.idx_le (parentheses_of_rest hc)
  rw [← hc.eq_atOffset] at hresult
  exact ⟨nofun, _, hresult⟩

/-- Nested parentheses are read as a whole or not at all, from wherever they are read and
in whichever of the two ways the definition is written. -/
theorem nests_answers {c : Cursor} (hc : c.Reachable) :
    (nests ()).Answers nests c
      (.ok (nestAt c.idx (openingRun c.rest) (closingRun c.rest))) ∧
    (nestsOptional ()).Answers nestsOptional c
      (.ok (nestAt c.idx (openingRun c.rest) (closingRun c.rest))) :=
  ⟨answers_nestAt nests_fallsBack hc.sound, answers_nestAt nestsOptional_fallsBack hc.sound⟩

/-- A nest behind another character, with a closing parenthesis too many, and one that is
not closed. -/
theorem nests_answers_unbalanced :
    let c : Cursor := .atOffset ['é', '(', '(', ')', ')', ')'] 1
    let d : Cursor := .new ['(', '(', ')']
    (nests ()).Answers nests c (.ok ⟨⟨1, 5⟩, .int 2⟩) ∧
      (nestsOptional ()).Answers nestsOptional c (.ok ⟨⟨1, 5⟩, .int 2⟩) ∧
      (nests ()).Answers nests d (.ok ⟨⟨0, 0⟩, .int 0⟩) ∧
      (nestsOptional ()).Answers nestsOptional d (.ok ⟨⟨0, 0⟩, .int 0⟩) := by
  intro c d
  have hc : c.Reachable := Cursor.reachable_atOffset (by decide) (by decide)
  have hd : d.Reachable := .new (by decide)
  obtain ⟨hclosed, hclosed'⟩ := nests_answers hc
  obtain ⟨hopen, hopen'⟩ := nests_answers hd
  exact ⟨hclosed, hclosed', hopen, hopen'⟩

end Parsing.Grammar
