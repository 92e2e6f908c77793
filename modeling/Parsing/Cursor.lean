import Parsing.Error
import Parsing.Text

/-!
# Cursors

A cursor is a place in a text. It knows its character offset `idx`, the number
`len` of characters of the text, and the number `byte` of UTF-8 bytes before
it, from which `rest` cuts the text. Cursors only move forward: `goto` answers
for the offsets `idx..=len` and refuses all others.

`LeadsTo` is the order that moves respect. `leadsTo_of_goto` puts every move
into it, and `remaining_lt_of_goto` is the measure by which every loop over a
text comes to an end.
-/

namespace Parsing

/-- A place in a text. -/
structure Cursor where
  text : Text
  len : Nat
  idx : Nat
  byte : Nat
  deriving DecidableEq, Repr

namespace Cursor

/-- The cursor at the start of a text. -/
def new (text : Text) : Cursor := ⟨text, text.length, 0, 0⟩

/-- The characters from the cursor on. -/
def rest (c : Cursor) : Text := (c.text.fromByte? c.byte).getD []

/-- The next character. -/
def peek (c : Cursor) : Option Char := c.rest.head?

/-- Whether the whole text has been passed. -/
def atEnd (c : Cursor) : Bool := c.idx == c.len

/-- Whether a character is left. -/
def hasRest (c : Cursor) : Bool := !c.atEnd

/-- The number of characters that are left. -/
def remaining (c : Cursor) : Nat := c.len - c.idx

/-- Whether the cursor can move to offset `idx`. -/
def canGoto (c : Cursor) (idx : Nat) : Bool := c.idx ≤ idx && idx ≤ c.len

/-- Whether the cursor can move `n` characters on. -/
def canWalk (c : Cursor) (n : Nat) : Bool := (addOffsets? c.idx n).any c.canGoto

/-- The cursor at offset `idx`, which must not lie behind this one or past the
end. Its byte is found by counting on from here; at the end it is the size of
the text. -/
def tryGoto (c : Cursor) (idx : Nat) : Except OutOfRange Cursor :=
  if c.canGoto idx then
    let byte :=
      match c.rest.byteOffset? (idx - c.idx) with
      | some offset => c.byte + offset
      | none => c.text.byteSize
    .ok { c with idx, byte }
  else .error ⟨idx, c.idx, c.len⟩

/-- A move that has to succeed. -/
def goto (c : Cursor) (idx : Nat) : Except Fault Cursor := (c.tryGoto idx).mapError .outOfRange

/-- A move by `n` characters that has to succeed; a target that cannot be named
counts as the largest offset. -/
def walk (c : Cursor) (n : Nat) : Except Fault Cursor :=
  c.goto ((addOffsets? c.idx n).getD maxOffset)

/-- The cursor behind `piece`, which has to be the text that comes next. -/
def stepOver (c : Cursor) (piece : Text) : Except Fault Cursor :=
  if c.rest.startsWith piece then do
    let idx ← addOffsets c.idx piece.length
    let byte ← addOffsets c.byte piece.byteSize
    return { c with idx, byte }
  else .error .badStep

/-- The second cursor is the first one, or lies on the same text between it and
the end. -/
def LeadsTo (c d : Cursor) : Prop :=
  d = c ∨ d.text = c.text ∧ d.len = c.len ∧ c.idx ≤ d.idx ∧ d.idx ≤ c.len

namespace LeadsTo

variable {c d e : Cursor}

theorem refl (c : Cursor) : c.LeadsTo c := .inl rfl

theorem text_eq (h : c.LeadsTo d) : d.text = c.text := by
  rcases h with rfl | h
  · rfl
  · exact h.1

theorem len_eq (h : c.LeadsTo d) : d.len = c.len := by
  rcases h with rfl | h
  · rfl
  · exact h.2.1

theorem idx_le (h : c.LeadsTo d) : c.idx ≤ d.idx := by
  rcases h with rfl | h
  · exact Nat.le_refl _
  · exact h.2.2.1

theorem idx_le_len (h : c.LeadsTo d) (hc : c.idx ≤ c.len) : d.idx ≤ d.len := by
  rcases h with rfl | h
  · exact hc
  · rw [h.2.1]; exact h.2.2.2

theorem trans (hcd : c.LeadsTo d) (hde : d.LeadsTo e) : c.LeadsTo e := by
  rcases hcd with rfl | ⟨ht, hl, hi, hn⟩
  · exact hde
  · rcases hde with rfl | ⟨ht', hl', hi', hn'⟩
    · exact .inr ⟨ht, hl, hi, hn⟩
    · exact .inr ⟨ht'.trans ht, hl'.trans hl, Nat.le_trans hi hi', hl ▸ hn'⟩

theorem remaining_le (h : c.LeadsTo d) : d.remaining ≤ c.remaining := by
  have hlen := h.len_eq
  have hle := h.idx_le
  unfold remaining
  omega

/-- A place further on has fewer characters left. -/
theorem remaining_lt (h : c.LeadsTo d) (hlt : c.idx < d.idx) : d.remaining < c.remaining := by
  rcases h with rfl | ⟨_, hlen, _, hle⟩
  · exact absurd hlt (Nat.lt_irrefl _)
  · unfold remaining
    omega

end LeadsTo

variable {c d : Cursor} {idx n : Nat}

theorem canGoto_iff : c.canGoto idx = true ↔ c.idx ≤ idx ∧ idx ≤ c.len := by
  simp [canGoto]

/-- A move that succeeds ends at the requested offset of the same text. -/
theorem tryGoto_eq_ok (h : c.tryGoto idx = .ok d) :
    d.text = c.text ∧ d.len = c.len ∧ d.idx = idx ∧ c.idx ≤ idx ∧ idx ≤ c.len := by
  unfold tryGoto at h
  split at h
  · next hcan =>
    obtain ⟨hlo, hhi⟩ := canGoto_iff.mp hcan
    cases Except.ok.inj h
    exact ⟨rfl, rfl, rfl, hlo, hhi⟩
  · cases h

theorem goto_eq_ok_iff : c.goto idx = .ok d ↔ c.tryGoto idx = .ok d := by
  unfold goto
  cases c.tryGoto idx with
  | ok e =>
    constructor
    · exact fun h => congrArg Except.ok (Except.ok.inj h)
    · exact fun h => congrArg Except.ok (Except.ok.inj h)
  | error e => exact ⟨nofun, nofun⟩

theorem goto_eq_ok (h : c.goto idx = .ok d) :
    d.text = c.text ∧ d.len = c.len ∧ d.idx = idx ∧ c.idx ≤ idx ∧ idx ≤ c.len :=
  tryGoto_eq_ok (goto_eq_ok_iff.mp h)

/-- Moves go forward. -/
theorem leadsTo_of_goto (h : c.goto idx = .ok d) : c.LeadsTo d := by
  obtain ⟨ht, hl, hi, hlo, hhi⟩ := goto_eq_ok h
  exact .inr ⟨ht, hl, by omega, by omega⟩

theorem leadsTo_of_walk (h : c.walk n = .ok d) : c.LeadsTo d := leadsTo_of_goto h

/-- A move past the present offset leaves fewer characters. -/
theorem remaining_lt_of_goto (h : c.goto idx = .ok d) (hlt : c.idx < idx) :
    d.remaining < c.remaining := by
  obtain ⟨_, hl, hi, _, hhi⟩ := goto_eq_ok h
  unfold remaining
  omega

theorem idx_of_stepOver {piece : Text} (h : c.stepOver piece = .ok d) :
    d.idx = c.idx + piece.length := by
  unfold stepOver at h
  split at h
  · cases hidx : addOffsets c.idx piece.length with
    | error cause => rw [hidx] at h; cases h
    | ok idx =>
      cases hbyte : addOffsets c.byte piece.byteSize with
      | error cause => rw [hidx, hbyte] at h; cases h
      | ok byte =>
        rw [hidx, hbyte] at h
        cases Except.ok.inj h
        exact addOffsets_eq_ok hidx
  · cases h

theorem canWalk_iff : c.canWalk n = true ↔
    addOffsets? c.idx n = some (c.idx + n) ∧ c.idx + n ≤ c.len := by
  unfold canWalk
  cases h : addOffsets? c.idx n with
  | none => simp
  | some sum =>
    rw [addOffsets?_eq_some h]
    simp [canGoto]

/-- A walk by one character that was found possible leaves fewer characters. -/
theorem remaining_lt_of_walk_one (hcan : c.canWalk 1 = true) (h : c.walk 1 = .ok d) :
    d.remaining < c.remaining := by
  unfold walk at h
  rw [(canWalk_iff.mp hcan).1] at h
  exact remaining_lt_of_goto h (Nat.lt_succ_self _)

end Cursor

end Parsing
