import Parsing.Proofs.Answers
import Parsing.Proofs.Reachable
import Parsing.Proofs.Success

/-!
# Values that spell what was read

A *verbatim* grammar makes its values of what it reads and of nothing else: of
characters and strings, put together by pairs, lists and options. Nothing that it
reads is then lost, taken twice or put in another place:

> `value_spells_text`: the value of a verbatim grammar spells the text in its
> range, which begins at the cursor, and what is left of the text comes right
> behind it.

`Cursor.Reads` is the statement about one parser, and `Reads.append` carries it
from two parsers to the pair of them; a repetition is a pair with the rounds that
follow. Its last value may stand for a round that did not go forward: such a round
read the empty text, so the value adds nothing.
-/

namespace Parsing

variable {ρ : Type}

mutual

/-- The text that a value made of characters and strings spells, its parts in order.
Values of other kinds spell nothing. -/
inductive Value.Spells : Value → Text → Prop where
  | unit : Spells .unit []
  | char (c : Char) : Spells (.char c) [c]
  | str (s : String) : Spells (.str s) s.toList
  | none : Spells .none []
  | some {inner : Value} {piece : Text} (h : Spells inner piece) : Spells (.some inner) piece
  | pair {left right : Value} {front back : Text} (hleft : Spells left front)
    (hright : Spells right back) : Spells (.pair left right) (front ++ back)
  | list {items : List Value} {piece : Text} (h : SpellAll items piece) :
    Spells (.list items) piece

/-- The text that values spell one behind the other. -/
inductive Value.SpellAll : List Value → Text → Prop where
  | nil : SpellAll [] []
  | cons {value : Value} {more : List Value} {front back : Text} (h : Spells value front)
    (hmore : SpellAll more back) : SpellAll (value :: more) (front ++ back)

end

namespace Value

mutual

/-- A value spells its text, and no other. -/
theorem Spells.text_eq : ∀ {value : Value} {piece : Text}, value.Spells piece →
    value.text.toList = piece
  | _, _, .unit => rfl
  | _, _, .char c => by rw [text, Char.toString, String.toList_singleton]
  | _, _, .str s => by rw [text]
  | _, _, .none => rfl
  | _, _, .some h => by rw [text, h.text_eq]
  | _, _, .pair hleft hright => by
    rw [text, String.toList_append, hleft.text_eq, hright.text_eq]
  | _, _, .list h => by rw [text, h.texts_eq]

theorem SpellAll.texts_eq : ∀ {values : List Value} {piece : Text}, SpellAll values piece →
    (texts values).toList = piece
  | _, _, .nil => rfl
  | _, _, .cons h hmore => by rw [texts, String.toList_append, h.text_eq, hmore.texts_eq]

end

/-- The texts of the items of a value, put together, are the text of the value. -/
theorem join_items (value : Value) : String.join (value.items.map text) = value.text := by
  cases value with
  | list items =>
    rw [text]
    induction items with
    | nil => rfl
    | cons value more ih =>
      rw [texts, ← ih]
      simp [Value.items, String.join_cons]
  | _ => simp [Value.items, String.join_cons]

end Value

namespace Cursor

/-- A report of having read a piece of text: it comes next, and the range begins at
the cursor and is as long as the piece. -/
structure Reads (c : Cursor) (range : Range) (piece : Text) : Prop where
  range_eq : range = ⟨c.idx, c.idx + piece.length⟩
  next : piece <+: c.rest

namespace Reads

variable {c d : Cursor} {r s : Range} {piece front back : Text}

theorem nothing (c : Cursor) : c.Reads (.empty c.idx) [] := ⟨rfl, List.nil_prefix⟩

/-- Behind what was read comes what it left. -/
theorem goto_eq (hc : c.Sound) (h : c.Reads r piece) :
    ∃ d, c.goto r.stop = .ok d ∧ d.Sound ∧ d.idx = c.idx + piece.length ∧
      piece ++ d.rest = c.rest := by
  have hle : c.idx + piece.length ≤ c.len := hc.length_le_of_isPrefix h.next
  have hd : (atOffset c.text (c.idx + piece.length)).Sound :=
    sound_atOffset (hc.len_eq ▸ hle) hc.size_le
  have hgo : c.goto r.stop = .ok (atOffset c.text (c.idx + piece.length)) := by
    rw [h.range_eq]
    exact hc.goto_eq (Nat.le_add_right _ _) hle
  obtain ⟨more, hmore⟩ := h.next
  refine ⟨_, hgo, hd, rfl, ?_⟩
  rw [rest_atOffset, ← List.drop_drop, ← hc.rest_eq, ← hmore, List.drop_left]

/-- One piece read behind another. -/
theorem append (hc : c.Sound) (h : c.Reads r front) (hgo : c.goto r.stop = .ok d)
    (hd : d.Reads s back) : c.Reads ⟨r.start, s.stop⟩ (front ++ back) := by
  obtain ⟨behind, hbehind, -, hidx, hrest⟩ := h.goto_eq hc
  rw [hgo] at hbehind
  cases Except.ok.inj hbehind
  constructor
  · rw [h.range_eq, hd.range_eq, hidx, List.length_append, Nat.add_assoc]
  · rw [← hrest]
    exact (List.prefix_append_right_inj front).mpr hd.next

/-- The range of what was read cuts it out of the text. -/
theorem slice_eq (hc : c.Sound) (h : c.Reads r piece) : r.slice c.text = .ok piece := by
  obtain ⟨more, hmore⟩ := h.next
  rw [h.range_eq, Range.slice_of_le (Nat.le_add_right _ _), ← hc.rest_eq, ← hmore,
    Nat.add_sub_cancel_left, List.take_left]

end Reads

end Cursor

namespace Parser

/-- A parser whose values spell what it reads. -/
def Spelling (p : Parser Value) : Prop :=
  ∀ c : Cursor, c.Sound → ∀ parsed, (p.parse c).result = .ok parsed →
    ∃ piece, parsed.value.Spells piece ∧ c.Reads parsed.range piece

theorem map_parse_eq_ok {α β : Type} {p : Parser α} {c : Cursor} {a : Parsed α}
    (h : (p.parse c).result = .ok a) (f : α → β) :
    ((p.map f).parse c).result = .ok (a.map f) := by
  unfold map
  rw [Outcome.result_bind, h]
  rfl

/-- One character, read where it stands. -/
theorem reads_one {c : Cursor} {char : Char} (hpeek : c.peek = some char) :
    c.Reads ⟨c.idx, c.idx + 1⟩ [char] := by
  refine ⟨rfl, ?_⟩
  cases hrest : c.rest with
  | nil => rw [Cursor.peek, hrest] at hpeek; cases hpeek
  | cons d more =>
    rw [Cursor.peek, hrest] at hpeek
    cases hpeek
    exact List.prefix_append [char] more

theorem spelling_literal (expected : String) : ((literal expected).map .str).Spelling := by
  intro c _ parsed h
  obtain ⟨a, ha, hparsed⟩ := map_eq_ok h
  obtain ⟨hnext, hvalue, hrange⟩ := literal_eq_ok ha
  refine ⟨expected.toList, ?_, hparsed ▸ hrange, hnext⟩
  rw [hparsed, Parsed.value_map, hvalue]
  exact .str expected

/-- A parser of the next character. -/
theorem spelling_one {p : Parser Char}
    (hp : ∀ {c : Cursor} {parsed}, (p.parse c).result = .ok parsed →
      c.peek = some parsed.value ∧ parsed.range = ⟨c.idx, c.idx + 1⟩) :
    (p.map .char).Spelling := by
  intro c _ parsed h
  obtain ⟨a, ha, hparsed⟩ := map_eq_ok h
  obtain ⟨hpeek, hrange⟩ := hp ha
  rw [hparsed, Parsed.value_map, Parsed.range_map, hrange]
  exact ⟨[a.value], .char a.value, reads_one hpeek⟩

/-- A parser that reads nothing. -/
theorem spelling_nothing {p : Parser Unit}
    (hp : ∀ {c : Cursor} {parsed}, (p.parse c).result = .ok parsed →
      parsed = .empty c.idx ()) : (p.map fun _ => .unit).Spelling := by
  intro c _ parsed h
  obtain ⟨a, ha, hparsed⟩ := map_eq_ok h
  rw [hparsed, hp ha]
  exact ⟨[], .unit, .nothing c⟩

theorem spelling_of_mem {p : Parser Value} {ps : List (Parser Value)}
    (hps : ∀ q ∈ ps, q.Spelling)
    (hp : ∀ {c : Cursor} {parsed}, (p.parse c).result = .ok parsed →
      ∃ q ∈ ps, (q.parse c).result = .ok parsed) : p.Spelling := by
  intro c hc parsed h
  obtain ⟨q, hq, hparsed⟩ := hp h
  exact hps q hq c hc parsed hparsed

/-- The rounds of a repetition spell what lies between the first and the last. -/
theorem Rounds.spelling {p : Parser Value} (hp : p.Spelling) {c last : Cursor}
    {values : List Value} (h : Rounds p c values last) (hc : c.Sound) :
    ∃ piece, Value.SpellAll values piece ∧ c.Reads ⟨c.idx, last.idx⟩ piece := by
  induction h with
  | failed _ => exact ⟨[], .nil, .nothing _⟩
  | @stalled c a ha hstop =>
    obtain ⟨piece, hspells, hreads⟩ := hp c hc a ha
    -- The range is as long as the piece, and it has no length.
    rw [hreads.range_eq] at hstop
    have hlength : c.idx + piece.length ≤ c.idx := hstop
    obtain rfl : piece = [] := List.eq_nil_of_length_eq_zero (by omega)
    exact ⟨[] ++ [], .cons hspells .nil, .nothing c⟩
  | @forward c next last a values ha _ hgo _ ih =>
    obtain ⟨piece, hspells, hreads⟩ := hp c hc a ha
    obtain ⟨more, hmore, hrest⟩ := ih (hc.of_goto hgo)
    have hboth := hreads.append hc hgo hrest
    rw [hreads.range_eq] at hboth
    exact ⟨piece ++ more, .cons hspells hmore, hboth⟩

namespace Spelling

variable {p q : Parser Value}

theorem both (hp : p.Spelling) (hq : q.Spelling) :
    ((p.both q).map Grammar.pairValue).Spelling := by
  intro c hc parsed h
  obtain ⟨a, ha, hparsed⟩ := map_eq_ok h
  obtain ⟨left, behind, right, hleft, hgo, hright, hpair⟩ := both_eq_ok ha
  obtain ⟨front, hfront, hreads⟩ := hp c hc left hleft
  obtain ⟨back, hback, hreads'⟩ := hq behind (hc.of_goto hgo) right hright
  rw [hparsed, hpair]
  exact ⟨front ++ back, .pair hfront hback, hreads.append hc hgo hreads'⟩

theorem orElse (hp : p.Spelling) (hq : q.Spelling) : (p.orElse q).Spelling := by
  intro c hc parsed h
  rcases orElse_eq_ok h with hfirst | hsecond
  · exact hp c hc parsed hfirst
  · exact hq c hc parsed hsecond

theorem atLeast (hp : p.Spelling) (min : Nat) : ((p.atLeast min).map .list).Spelling := by
  intro c hc parsed h
  obtain ⟨a, ha, hparsed⟩ := map_eq_ok h
  obtain ⟨last, hrounds, -, hrange⟩ := atLeast_eq_ok ha
  obtain ⟨piece, hspells, hreads⟩ := hrounds.spelling hp hc
  rw [hparsed, Parsed.value_map, Parsed.range_map, hrange]
  exact ⟨piece, .list hspells, hreads⟩

theorem many1 (hp : p.Spelling) : (p.many1.map .list).Spelling := by
  intro c hc parsed h
  obtain ⟨a, ha, hparsed⟩ := map_eq_ok h
  refine hp.atLeast 0 c hc parsed ?_
  rw [hparsed]
  exact map_parse_eq_ok (many1_eq_ok ha) _

/-- The texts of the items, put together, are what the value spelled. -/
theorem joined (hp : p.Spelling) :
    (((p.map fun value => value.items.map Value.text).joined).map .str).Spelling := by
  intro c hc parsed h
  obtain ⟨joined, hjoined, hparsed⟩ := map_eq_ok h
  obtain ⟨texts, htexts, hjoin⟩ := map_eq_ok hjoined
  obtain ⟨a, ha, hitems⟩ := map_eq_ok htexts
  obtain ⟨piece, hspells, hreads⟩ := hp c hc a ha
  rw [hparsed, hjoin, hitems]
  refine ⟨piece, ?_, hreads⟩
  have hstr := Value.Spells.str a.value.text
  rw [hspells.text_eq] at hstr
  rw [Parsed.value_map, Parsed.value_map, Parsed.value_map, Value.join_items]
  exact hstr

theorem optional (hp : p.Spelling) : (p.optional.map .ofOption).Spelling := by
  intro c hc parsed h
  obtain ⟨a, ha, hparsed⟩ := map_eq_ok h
  rcases optional_eq_ok ha with ⟨inner, hinner, hsome⟩ | hnone
  · obtain ⟨piece, hspells, hreads⟩ := hp c hc inner hinner
    rw [hparsed, hsome]
    exact ⟨piece, .some hspells, hreads⟩
  · rw [hparsed, hnone]
    exact ⟨[], .none, .nothing c⟩

theorem label (hp : p.Spelling) (message : String) : (p.label message).Spelling :=
  fun c hc parsed h => hp c hc parsed (mapError_eq_ok h)

end Spelling

end Parser

namespace Grammar

/-- Grammars whose values are made of what they read. -/
inductive Verbatim : Grammar ρ → Prop where
  | literal (expected : String) : Verbatim (.literal expected)
  | anyChar : Verbatim .anyChar
  | satisfy (accepts : Char → Bool) (describe : Char → String) :
    Verbatim (.satisfy accepts describe)
  | endOfInput : Verbatim .endOfInput
  | notFollowedBy {g : Grammar ρ} (h : Verbatim g) : Verbatim (.notFollowedBy g)
  | fail (message : String) : Verbatim (.fail message)
  | both {first second : Grammar ρ} (h : Verbatim first) (hs : Verbatim second) :
    Verbatim (.both first second)
  | orElse {first second : Grammar ρ} (h : Verbatim first) (hs : Verbatim second) :
    Verbatim (.orElse first second)
  | firstOf {gs : List (Grammar ρ)} (h : ∀ g ∈ gs, Verbatim g) : Verbatim (.firstOf gs)
  | choice {gs : List (Grammar ρ)} (h : ∀ g ∈ gs, Verbatim g) : Verbatim (.choice gs)
  | atLeast {g : Grammar ρ} (min : Nat) (h : Verbatim g) : Verbatim (.atLeast min g)
  | many1 {g : Grammar ρ} (h : Verbatim g) : Verbatim (.many1 g)
  | joined {g : Grammar ρ} (h : Verbatim g) : Verbatim (.joined g)
  | optional {g : Grammar ρ} (h : Verbatim g) : Verbatim (.optional g)
  | label {g : Grammar ρ} (message : String) (h : Verbatim g) : Verbatim (.label message g)
  | ref (name : ρ) : Verbatim (.ref name)

variable {definitions : ρ → Grammar ρ} {g : Grammar ρ}

theorem spelling_of_mem_parsersWith {call : ρ → Parser Value} {gs : List (Grammar ρ)}
    (h : ∀ g ∈ gs, (g.parserWith call).Spelling) : ∀ p ∈ parsersWith call gs, p.Spelling := by
  rw [parsersWith_eq_map]
  intro p hp
  obtain ⟨g, hg, rfl⟩ := List.mem_map.mp hp
  exact h g hg

/-- The values of verbatim grammars spell what they read if those of their references
do. -/
theorem Verbatim.spelling {call : ρ → Parser Value} (hcall : ∀ name, (call name).Spelling)
    (hg : g.Verbatim) : (g.parserWith call).Spelling := by
  induction hg with
  | literal expected => exact Parser.spelling_literal expected
  | anyChar => exact Parser.spelling_one Parser.anyChar_eq_ok
  | satisfy accepts describe => exact Parser.spelling_one Parser.satisfy_eq_ok
  | endOfInput => exact Parser.spelling_nothing Parser.endOfInput_eq_ok
  | notFollowedBy _ _ => exact Parser.spelling_nothing Parser.notFollowedBy_eq_ok
  | fail message => exact fun _ _ _ h => nomatch h
  | both _ _ ih ihs => exact ih.both ihs
  | orElse _ _ ih ihs => exact ih.orElse ihs
  | firstOf _ ih =>
    exact Parser.spelling_of_mem (spelling_of_mem_parsersWith ih) Parser.firstOf_eq_ok
  | choice _ ih =>
    exact Parser.spelling_of_mem (spelling_of_mem_parsersWith ih) Parser.choice_eq_ok
  | atLeast min _ ih => exact ih.atLeast min
  | many1 _ ih => exact ih.many1
  | joined _ ih => exact ih.joined
  | optional _ ih => exact ih.optional
  | label message _ ih => exact ih.label message
  | ref name => exact hcall name

/-- The value of a verbatim grammar spells the text of its range. The range begins
at the cursor, and where it stops the rest of the text goes on. -/
theorem value_spells_text (hg : g.Verbatim) (hdefinitions : ∀ name, (definitions name).Verbatim)
    {c : Cursor} (hc : c.Reachable) {parsed : Parsed Value}
    (h : g.Answers definitions c (.ok parsed)) :
    parsed.range.start = c.idx ∧ ∃ piece, parsed.value.Spells piece ∧
      parsed.range.slice c.text = .ok piece ∧
      ∃ behind, c.goto parsed.range.stop = .ok behind ∧ piece ++ behind.rest = c.rest := by
  obtain ⟨-, depth, hdepth⟩ := h
  have hspelling : (g.parser definitions depth).Spelling :=
    parser_induction (fun _ _ _ h => nomatch h)
      (fun _ hcall _ hg => hg.spelling fun name => hcall name (hdefinitions name)) depth g hg
  obtain ⟨piece, hspells, hreads⟩ := hspelling c hc.sound parsed hdepth
  obtain ⟨behind, hgo, -, -, hrest⟩ := hreads.goto_eq hc.sound
  refine ⟨?_, piece, hspells, hreads.slice_eq hc.sound, behind, hgo, hrest⟩
  rw [hreads.range_eq]

/-- Days, of which the last one is no day at all, and then accents as deep as they
go, from within a text. -/
theorem value_spells_text_accents :
    let accents : Unit → Grammar Unit := fun _ => .both (.literal "é") (.optional (.ref ()))
    let g : Grammar Unit := .both (.many (.optional (.literal "日"))) (.ref ())
    let c : Cursor := .atOffset ['x', '日', '日', 'é', 'é', '!'] 1
    let value : Value := .pair (.list [.some (.str "日"), .some (.str "日"), .none])
      (.pair (.str "é") (.some (.pair (.str "é") .none)))
    g.Answers accents c (.ok ⟨⟨1, 5⟩, value⟩) ∧
      ∃ piece, value.Spells piece ∧ Range.slice ⟨1, 5⟩ c.text = .ok piece := by
  intro accents g c value
  have haccents : ∀ name, (accents name).Verbatim := fun _ =>
    .both (.literal _) (.optional (.ref ()))
  have hg : g.Verbatim := .both (.atLeast 0 (.optional (.literal _))) (.ref ())
  have hc : c.Reachable := Cursor.reachable_atOffset (by decide) (by decide)
  have hanswer : g.Answers accents c (.ok ⟨⟨1, 5⟩, value⟩) := ⟨nofun, 3, by decide +kernel⟩
  obtain ⟨-, piece, hspells, hslice, -⟩ := value_spells_text hg haccents hc hanswer
  exact ⟨hanswer, piece, hspells, hslice⟩

end Grammar

end Parsing
