import Parsing.Cursor

/-!
# The cursors of a text

A cursor keeps three numbers that are counted in different ways. On every cursor
that moves lead to they agree with the text and with each other:

> `reachable_iff_sound`: a cursor is reachable exactly if it is
> `atOffset text idx` for an offset `idx` of a text that a program can hold.

So a reachable cursor is known by its text and its offset, whatever moves led to
it. `Sound` is the form in which the other files use this: `goto_eq` and
`stepOver_eq` say where a move from a sound cursor ends, and that no sum in it
is too large.
-/

namespace Parsing.Cursor

/-- The cursor at an offset of a text, with its byte counted from the start. -/
def atOffset (text : Text) (idx : Nat) : Cursor :=
  ⟨text, text.length, idx, Text.byteSize (text.take idx)⟩

/-- The cursors that a program can come to hold: the one at the start of a text,
whose size is limited, and those that moves make of one that it holds. -/
inductive Reachable : Cursor → Prop where
  | new {text : Text} (hsize : text.byteSize ≤ maxTextSize) : Reachable (new text)
  | tryGoto {c d : Cursor} {idx : Nat} (hc : Reachable c) (h : c.tryGoto idx = .ok d) : Reachable d
  | goto {c d : Cursor} {idx : Nat} (hc : Reachable c) (h : c.goto idx = .ok d) : Reachable d
  | walk {c d : Cursor} {n : Nat} (hc : Reachable c) (h : c.walk n = .ok d) : Reachable d
  | stepOver {c d : Cursor} {piece : Text} (hc : Reachable c) (h : c.stepOver piece = .ok d) :
    Reachable d

/-- A cursor whose fields agree with each other. -/
structure Sound (c : Cursor) : Prop where
  eq_atOffset : c = atOffset c.text c.idx
  idx_le : c.idx ≤ c.text.length
  size_le : c.text.byteSize ≤ maxTextSize

theorem sound_atOffset {text : Text} {idx : Nat} (hidx : idx ≤ text.length)
    (hsize : text.byteSize ≤ maxTextSize) : (atOffset text idx).Sound := ⟨rfl, hidx, hsize⟩

theorem sound_new {text : Text} (hsize : text.byteSize ≤ maxTextSize) : (new text).Sound :=
  ⟨by rw [new, atOffset, List.take_zero]; rfl, Nat.zero_le _, hsize⟩

theorem rest_atOffset (text : Text) (idx : Nat) : (atOffset text idx).rest = text.drop idx := by
  show (text.fromByte? (Text.byteSize (text.take idx))).getD [] = text.drop idx
  rw [Text.fromByte?_byteSize_take]
  rfl

/-- Whichever way the byte is found, by counting on or as the end of the text, it
is that of the requested offset. -/
theorem tryGoto_atOffset {text : Text} {idx target : Nat} (hlo : idx ≤ target)
    (hhi : target ≤ text.length) :
    (atOffset text idx).tryGoto target = .ok (atOffset text target) := by
  have hcan : (atOffset text idx).canGoto target = true := canGoto_iff.mpr ⟨hlo, hhi⟩
  have hidx : (atOffset text idx).idx = idx := rfl
  have hlen : (text.drop idx).length = text.length - idx := List.length_drop
  rw [tryGoto, if_pos hcan, rest_atOffset, Text.byteOffset?]
  -- The byte is counted on from here, or there is no character to count up to.
  by_cases hbefore : target - (atOffset text idx).idx < (text.drop idx).length
  · rw [if_pos hbefore]
    have hbyte : Text.byteSize (text.take idx) +
        Text.byteSize ((text.drop idx).take (target - idx)) = Text.byteSize (text.take target) := by
      rw [← Text.byteSize_append, ← List.take_add, Nat.add_sub_cancel' hlo]
    exact congrArg (fun byte => Except.ok (Cursor.mk text text.length target byte)) hbyte
  · rw [if_neg hbefore]
    rw [hidx, hlen] at hbefore
    have htarget : target = text.length := by omega
    have hbyte : Text.byteSize text = Text.byteSize (text.take target) := by
      rw [htarget, List.take_length]
    exact congrArg (fun byte => Except.ok (Cursor.mk text text.length target byte)) hbyte

namespace Sound

variable {c d : Cursor} {idx n : Nat}

theorem len_eq (hc : c.Sound) : c.len = c.text.length := by
  rw [hc.eq_atOffset]
  rfl

theorem idx_le_len (hc : c.Sound) : c.idx ≤ c.len := hc.len_eq ▸ hc.idx_le

theorem rest_eq (hc : c.Sound) : c.rest = c.text.drop c.idx :=
  (congrArg rest hc.eq_atOffset).trans (rest_atOffset _ _)

theorem size_le_maxOffset (hc : c.Sound) : c.text.byteSize ≤ maxOffset :=
  Nat.le_trans hc.size_le (by decide)

/-- Every offset of the text can be named. -/
theorem len_le_maxOffset (hc : c.Sound) : c.len ≤ maxOffset := by
  rw [hc.len_eq]
  exact Nat.le_trans (Text.length_le_byteSize c.text) hc.size_le_maxOffset

/-- So can the byte that a move counts on to. -/
theorem byte_add_le_maxOffset (hc : c.Sound) {offset : Nat}
    (h : c.rest.byteOffset? n = some offset) : c.byte + offset ≤ maxOffset := by
  rw [hc.rest_eq, Text.byteOffset?] at h
  split at h
  · cases h
    rw [congrArg byte hc.eq_atOffset, atOffset, ← Text.byteSize_append, ← List.take_add]
    exact Nat.le_trans (Text.byteSize_take_le _ _) hc.size_le_maxOffset
  · cases h

theorem goto_eq (hc : c.Sound) (hlo : c.idx ≤ idx) (hhi : idx ≤ c.len) :
    c.goto idx = .ok (atOffset c.text idx) := by
  rw [goto_eq_ok_iff]
  calc c.tryGoto idx = (atOffset c.text c.idx).tryGoto idx :=
        congrArg (tryGoto · idx) hc.eq_atOffset
    _ = .ok (atOffset c.text idx) := tryGoto_atOffset hlo (hc.len_eq ▸ hhi)

theorem canWalk_iff (hc : c.Sound) : c.canWalk n = true ↔ c.idx + n ≤ c.len := by
  rw [Cursor.canWalk_iff]
  constructor
  · exact And.right
  · intro hle
    refine ⟨?_, hle⟩
    rw [addOffsets?, if_pos (Nat.le_trans hle hc.len_le_maxOffset)]

theorem walk_eq (hc : c.Sound) (hle : c.idx + n ≤ c.len) :
    c.walk n = .ok (atOffset c.text (c.idx + n)) := by
  rw [walk, addOffsets?, if_pos (Nat.le_trans hle hc.len_le_maxOffset)]
  exact hc.goto_eq (Nat.le_add_right _ _) hle

theorem idx_lt_len_of_peek (hc : c.Sound) {char : Char} (h : c.peek = some char) :
    c.idx + 1 ≤ c.len := by
  have hpos : 0 < c.rest.length := by
    cases hrest : c.rest with
    | nil => rw [peek, hrest] at h; cases h
    | cons _ _ => exact Nat.succ_pos _
  rw [hc.rest_eq, List.length_drop] at hpos
  rw [hc.len_eq]
  omega

/-- A sound cursor is where moves to its offset end. -/
theorem of_goto (hc : c.Sound) (h : c.goto idx = .ok d) : d.Sound := by
  obtain ⟨_, _, _, hlo, hhi⟩ := goto_eq_ok h
  rw [hc.goto_eq hlo hhi] at h
  cases Except.ok.inj h
  exact sound_atOffset (hc.len_eq ▸ hhi) hc.size_le

theorem length_le_of_isPrefix (hc : c.Sound) {piece : Text} (h : piece <+: c.rest) :
    c.idx + piece.length ≤ c.len := by
  have hlen := h.length_le
  have hle := hc.idx_le
  rw [hc.rest_eq, List.length_drop] at hlen
  rw [hc.len_eq]
  omega

/-- A step over the text that comes next ends behind it. -/
theorem stepOver_eq (hc : c.Sound) {piece : Text} (hnext : piece <+: c.rest) :
    c.stepOver piece = .ok (atOffset c.text (c.idx + piece.length)) := by
  -- Neither sum is too large, since the piece lies within a text that is not.
  have hstarts : c.rest.startsWith piece = true := (Text.startsWith_iff_isPrefix _ _).mpr hnext
  have htake : c.text.take (c.idx + piece.length) = c.text.take c.idx ++ piece := by
    obtain ⟨more, hmore⟩ := hnext
    rw [List.take_add, ← hc.rest_eq, ← hmore, List.take_left]
  have hbyte : c.byte + piece.byteSize = Text.byteSize (c.text.take (c.idx + piece.length)) := by
    rw [htake, Text.byteSize_append, congrArg byte hc.eq_atOffset]
    rfl
  have hidx : c.idx + piece.length ≤ c.len := hc.length_le_of_isPrefix hnext
  have hsize : Text.byteSize (c.text.take (c.idx + piece.length)) ≤ maxOffset :=
    Nat.le_trans (Text.byteSize_take_le _ _) hc.size_le_maxOffset
  rw [stepOver, if_pos hstarts, addOffsets_of_le (Nat.le_trans hidx hc.len_le_maxOffset),
    addOffsets_of_le (hbyte ▸ hsize), hbyte, atOffset, ← hc.len_eq]
  rfl

theorem of_stepOver (hc : c.Sound) {piece : Text} (h : c.stepOver piece = .ok d) : d.Sound := by
  by_cases hstarts : c.rest.startsWith piece = true
  · have hnext := (Text.startsWith_iff_isPrefix _ _).mp hstarts
    rw [hc.stepOver_eq hnext] at h
    cases Except.ok.inj h
    exact sound_atOffset (hc.len_eq ▸ hc.length_le_of_isPrefix hnext) hc.size_le
  · rw [stepOver, if_neg hstarts] at h
    cases h

end Sound

theorem Reachable.sound {c : Cursor} (hc : c.Reachable) : c.Sound := by
  induction hc with
  | new hsize => exact sound_new hsize
  | tryGoto _ h ih => exact ih.of_goto (goto_eq_ok_iff.mpr h)
  | goto _ h ih => exact ih.of_goto h
  | walk _ h ih => exact ih.of_goto h
  | stepOver _ h ih => exact ih.of_stepOver h

theorem reachable_atOffset {text : Text} {idx : Nat} (hidx : idx ≤ text.length)
    (hsize : text.byteSize ≤ maxTextSize) : (atOffset text idx).Reachable :=
  .goto (.new hsize) ((sound_new hsize).goto_eq (Nat.zero_le _) hidx)

/-- Reachable cursors are the sound ones. -/
theorem reachable_iff_sound {c : Cursor} : c.Reachable ↔ c.Sound := by
  constructor
  · exact Reachable.sound
  · intro hc
    rw [hc.eq_atOffset]
    exact reachable_atOffset hc.idx_le hc.size_le

/-- So a program only holds cursors at offsets of texts. -/
theorem Reachable.exists_eq_atOffset {c : Cursor} (hc : c.Reachable) :
    ∃ text idx, idx ≤ text.length ∧ text.byteSize ≤ maxTextSize ∧ c = atOffset text idx :=
  ⟨c.text, c.idx, hc.sound.idx_le, hc.sound.size_le, hc.sound.eq_atOffset⟩

end Parsing.Cursor
