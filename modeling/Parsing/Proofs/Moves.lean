import Parsing.Proofs.Reachable

/-!
# Moves

Cursors are handed from one parser to the next, put aside and taken up again, and
they come to the same place in different ways. None of that can be seen from
them. What a cursor shows depends on its text and its offset only:

> `reachable_canonical`: a reachable cursor shows its text as it is from its
> offset on; two of them on one text are the same if their offsets are; a move in
> two parts is the move in one; what a cursor is asked before it moves is what it
> answers when it does; and a move that succeeds ends where it was to go.

The three ways in which a byte is found, at the start, by counting on and by
adding the size of a piece, were brought together in `Sound`; here it is read off
in terms of the text.
-/

namespace Parsing.Cursor

/-- What is read off a cursor is what its text has at its offset. -/
structure Faithful (c : Cursor) : Prop where
  len_eq : c.len = c.text.length
  idx_le : c.idx ≤ c.len
  byte_eq : c.byte = (Text.utf8 (c.text.take c.idx)).length
  /-- The byte lies between two characters, so the cut for `rest` finds its place. -/
  cut : c.text.fromByte? c.byte = some c.rest
  rest_eq : c.rest = c.text.drop c.idx
  peek_eq : c.peek = c.text[c.idx]?
  atEnd_iff : c.atEnd = true ↔ c.rest = []

namespace Sound

variable {c d : Cursor} {i j n : Nat}

theorem byte_eq (hc : c.Sound) : c.byte = Text.byteSize (c.text.take c.idx) :=
  congrArg byte hc.eq_atOffset

theorem peek_eq (hc : c.Sound) : c.peek = c.text[c.idx]? := by
  rw [peek, hc.rest_eq, List.head?_drop]

theorem getElem?_rest (hc : c.Sound) (n : Nat) : c.rest[n]? = c.text[c.idx + n]? := by
  rw [hc.rest_eq, List.getElem?_drop]

theorem atEnd_iff (hc : c.Sound) : c.atEnd = true ↔ c.rest = [] := by
  have hle := hc.idx_le
  rw [atEnd, beq_iff_eq, hc.rest_eq, List.drop_eq_nil_iff, hc.len_eq]
  omega

theorem faithful (hc : c.Sound) : c.Faithful where
  len_eq := hc.len_eq
  idx_le := hc.idx_le_len
  byte_eq := by rw [hc.byte_eq, Text.length_utf8]
  cut := by rw [hc.byte_eq, Text.fromByte?_byteSize_take, hc.rest_eq]
  rest_eq := hc.rest_eq
  peek_eq := hc.peek_eq
  atEnd_iff := hc.atEnd_iff

/-- Sound cursors on one text differ in their offsets or not at all. -/
theorem eq_iff (hc : c.Sound) (hd : d.Sound) (htext : c.text = d.text) :
    c = d ↔ c.idx = d.idx := by
  constructor
  · exact congrArg idx
  · intro hidx
    rw [hc.eq_atOffset, hd.eq_atOffset, htext, hidx]

/-- A place on the way makes no difference to where a move ends. -/
theorem goto_goto (hc : c.Sound) (hlo : c.idx ≤ i) (hij : i ≤ j) (hhi : j ≤ c.len) :
    (c.goto i >>= fun between => between.goto j) = c.goto j := by
  have hi : i ≤ c.len := Nat.le_trans hij hhi
  have hbetween : (atOffset c.text i).Sound := sound_atOffset (hc.len_eq ▸ hi) hc.size_le
  rw [hc.goto_eq hlo hi, hc.goto_eq (Nat.le_trans hlo hij) hhi]
  exact hbetween.goto_eq hij (Nat.le_trans hhi (Nat.le_of_eq hc.len_eq))

/-- No walk comes to the largest offset, which stands for all that are too large. -/
theorem len_lt_maxOffset (hc : c.Sound) : c.len < maxOffset := by
  have hle := Nat.le_trans (Text.length_le_byteSize c.text) hc.size_le
  rw [hc.len_eq]
  exact Nat.lt_of_le_of_lt hle (by decide)

theorem walk_eq_goto (hc : c.Sound) (hle : c.idx + n ≤ c.len) : c.walk n = c.goto (c.idx + n) := by
  rw [hc.walk_eq hle, hc.goto_eq (Nat.le_add_right _ _) hle]

end Sound

variable {c : Cursor} {idx n : Nat}

theorem tryGoto_of_not_canGoto (h : c.canGoto idx = false) :
    c.tryGoto idx = .error ⟨idx, c.idx, c.len⟩ := by
  rw [tryGoto, h]
  rfl

theorem goto_of_not_canGoto (h : c.canGoto idx = false) :
    c.goto idx = .error (.outOfRange ⟨idx, c.idx, c.len⟩) := by
  rw [goto, tryGoto_of_not_canGoto h]
  rfl

/-- The question whether a move is possible, the attempt and the move that has to
succeed are of one mind, on every cursor. -/
theorem moves_agree (c : Cursor) (idx : Nat) :
    (c.canGoto idx = true ∧ ∃ d, c.tryGoto idx = .ok d ∧ c.goto idx = .ok d) ∨
    (c.canGoto idx = false ∧ c.tryGoto idx = .error ⟨idx, c.idx, c.len⟩ ∧
      c.goto idx = .error (.outOfRange ⟨idx, c.idx, c.len⟩)) := by
  cases hcan : c.canGoto idx with
  | false => exact .inr ⟨rfl, tryGoto_of_not_canGoto hcan, goto_of_not_canGoto hcan⟩
  | true =>
    cases hmove : c.tryGoto idx with
    | ok d => exact .inl ⟨rfl, d, rfl, goto_eq_ok_iff.mpr hmove⟩
    | error e =>
      rw [tryGoto, if_pos hcan] at hmove
      cases hmove

/-- A walk that does not fit says how far it was to go, as far as that can be named. -/
theorem Sound.walk_of_lt (hc : c.Sound) (hlt : c.len < c.idx + n) :
    c.walk n = .error (.outOfRange ⟨min (c.idx + n) maxOffset, c.idx, c.len⟩) := by
  have htarget : (addOffsets? c.idx n).getD maxOffset = min (c.idx + n) maxOffset := by
    unfold addOffsets?
    split
    · next hle => rw [Nat.min_eq_left hle]; rfl
    · next hgt => rw [Nat.min_eq_right (by omega)]; rfl
  have hmax := hc.len_lt_maxOffset
  rw [walk, htarget]
  refine goto_of_not_canGoto (Bool.eq_false_iff.mpr fun hcan => ?_)
  obtain ⟨-, hhi⟩ := canGoto_iff.mp hcan
  omega

/-- A walk that succeeds ends as many characters further on. -/
theorem Sound.walk_lands (hc : c.Sound) {d : Cursor} (h : c.walk n = .ok d) :
    d.text = c.text ∧ d.idx = c.idx + n := by
  by_cases hle : c.idx + n ≤ c.len
  · rw [hc.walk_eq hle] at h
    cases Except.ok.inj h
    exact ⟨rfl, rfl⟩
  · rw [hc.walk_of_lt (Nat.lt_of_not_le hle)] at h
    cases h

/-- A step that succeeds ends behind the piece. -/
theorem Sound.stepOver_lands (hc : c.Sound) {d : Cursor} {piece : Text}
    (h : c.stepOver piece = .ok d) : d.text = c.text ∧ d.idx = c.idx + piece.length := by
  by_cases hstarts : c.rest.startsWith piece = true
  · rw [hc.stepOver_eq ((Text.startsWith_iff_isPrefix _ _).mp hstarts)] at h
    cases Except.ok.inj h
    exact ⟨rfl, rfl⟩
  · rw [stepOver, if_neg hstarts] at h
    cases h

/-- Reachable cursors show their text faithfully and are known by their offsets;
moves do not depend on the way, walks are moves wherever they fit, and a move that
succeeds ends at the offset it was told, on the same text. -/
theorem reachable_canonical :
    (∀ c : Cursor, c.Reachable → c.Faithful) ∧
    (∀ c d : Cursor, c.Reachable → d.Reachable → c.text = d.text → (c = d ↔ c.idx = d.idx)) ∧
    (∀ c : Cursor, c.Reachable → ∀ i j, c.idx ≤ i → i ≤ j → j ≤ c.len →
      (∃ d, c.goto j = .ok d) ∧ (c.goto i >>= fun between => between.goto j) = c.goto j) ∧
    (∀ c : Cursor, c.Reachable → ∀ n,
      (c.canWalk n = true ↔ c.idx + n ≤ c.len) ∧
      (c.idx + n ≤ c.len ↔ ∃ d, c.walk n = .ok d) ∧
      (c.idx + n ≤ c.len → c.walk n = c.goto (c.idx + n)) ∧
      (c.len < c.idx + n →
        c.walk n = .error (.outOfRange ⟨min (c.idx + n) maxOffset, c.idx, c.len⟩))) ∧
    (∀ c : Cursor, c.Reachable → ∀ idx,
      (c.canGoto idx = true ∧ ∃ d, c.tryGoto idx = .ok d ∧ c.goto idx = .ok d) ∨
      (c.canGoto idx = false ∧ c.tryGoto idx = .error ⟨idx, c.idx, c.len⟩ ∧
        c.goto idx = .error (.outOfRange ⟨idx, c.idx, c.len⟩))) ∧
    (∀ c d : Cursor, c.Reachable →
      (∀ idx, c.goto idx = .ok d → d.text = c.text ∧ d.idx = idx) ∧
      (∀ n, c.walk n = .ok d → d.text = c.text ∧ d.idx = c.idx + n) ∧
      (∀ piece, c.stepOver piece = .ok d → d.text = c.text ∧ d.idx = c.idx + piece.length)) := by
  refine ⟨fun c hc => hc.sound.faithful, fun c d hc hd => hc.sound.eq_iff hd.sound, ?_, ?_,
    fun c _ => moves_agree c, fun c d hc => ⟨fun idx h => ?_, fun n => hc.sound.walk_lands,
      fun piece => hc.sound.stepOver_lands⟩⟩
  · intro c hc i j hlo hij hhi
    have hgo := hc.sound.goto_eq (Nat.le_trans hlo hij) hhi
    exact ⟨⟨_, hgo⟩, hc.sound.goto_goto hlo hij hhi⟩
  · intro c hc n
    refine ⟨hc.sound.canWalk_iff, ⟨fun hle => ⟨_, hc.sound.walk_eq hle⟩, ?_⟩,
      hc.sound.walk_eq_goto, hc.sound.walk_of_lt⟩
    intro hwalk
    obtain ⟨d, hd⟩ := hwalk
    -- Where it did not fit, the walk would have ended in a fault.
    refine Nat.le_of_not_lt fun hlt => ?_
    rw [hc.sound.walk_of_lt hlt] at hd
    cases hd
  · obtain ⟨htext, -, hidx, -⟩ := goto_eq_ok h
    exact ⟨htext, hidx⟩

/-- Two ways over a text whose characters have one, two, three and four bytes. -/
theorem reachable_canonical_four_sizes :
    let text : Text := ['a', 'é', '日', '😀']
    let straight : Cursor := ⟨text, 4, 3, 6⟩
    let stepwise : Cursor := atOffset text 3
    straight.Reachable ∧ stepwise.Reachable ∧ straight = stepwise ∧ straight.Faithful ∧
      (∃ d, straight.walk 1 = .ok d ∧ d.text = text ∧ d.idx = 4) ∧
      straight.walk maxOffset = .error (.outOfRange ⟨maxOffset, 3, 4⟩) := by
  intro text straight stepwise
  have hstart : (new text).Reachable := .new (by decide)
  have hto : (new text).goto 3 = .ok straight := rfl
  have hwalk : (new text).walk 1 = .ok (atOffset text 1) := rfl
  have hover : (atOffset text 1).stepOver ['é', '日'] = .ok stepwise := rfl
  have hstraight : straight.Reachable := .goto hstart hto
  have hstepwise : stepwise.Reachable := .stepOver (.walk hstart hwalk) hover
  obtain ⟨hfaithful, hsame, -, hwalks, -, hlands⟩ := reachable_canonical
  obtain ⟨-, hfits, -, -⟩ := hwalks straight hstraight 1
  obtain ⟨-, -, -, hoverflow⟩ := hwalks straight hstraight maxOffset
  have hlargest : min (3 + maxOffset) maxOffset = maxOffset :=
    Nat.min_eq_right (Nat.le_add_left _ _)
  have hlt : 4 < 3 + maxOffset := by decide
  obtain ⟨d, hd⟩ := hfits.mp (by decide)
  obtain ⟨-, hwalked, -⟩ := hlands straight d hstraight
  exact ⟨hstraight, hstepwise, (hsame _ _ hstraight hstepwise rfl).mpr rfl,
    hfaithful _ hstraight, ⟨d, hd, hwalked 1 hd⟩, hlargest ▸ hoverflow hlt⟩

end Parsing.Cursor
