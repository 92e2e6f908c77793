import Parsing.Proofs.Correspondence
import Parsing.Proofs.Reachable

/-!
# Runs behind a lead

A text can be parsed on its own or behind a `lead`, and then every offset is
larger by the length of the lead. `Beside lead c c'` says that `c'` is the place
behind the lead that `c` is in the text alone, and `translated` is the
correspondence of two runs that stand beside each other.

Its ranges and errors lie between the place that they are reported from and the
end of the text. So already with an empty lead, where it speaks of one run only,
it says something: that reports are in bounds, and that the moves they ask for
succeed.
-/

namespace Parsing

/-- The range of the same characters behind `n` others. -/
def Range.shift (n : Nat) (r : Range) : Range := ⟨n + r.start, n + r.stop⟩

/-- The same failure behind `n` characters. -/
def ParseError.shift (n : Nat) (e : ParseError) : ParseError := { e with idx := n + e.idx }

/-- The same place, in a text on its own and behind a lead. -/
structure Cursor.Beside (lead : Text) (c c' : Cursor) : Prop where
  left : c.Sound
  right : c'.Sound
  text_eq : c'.text = lead ++ c.text
  idx_eq : c'.idx = lead.length + c.idx

namespace Cursor.Beside

variable {lead : Text} {c c' d d' : Cursor}

theorem len_eq (h : Beside lead c c') : c'.len = lead.length + c.len := by
  rw [h.right.len_eq, h.left.len_eq, h.text_eq, List.length_append]

theorem rest_eq (h : Beside lead c c') : c'.rest = c.rest := by
  rw [h.right.rest_eq, h.left.rest_eq, h.text_eq, h.idx_eq, List.drop_length_add_append]

theorem atEnd_eq (h : Beside lead c c') : c'.atEnd = c.atEnd := by
  unfold atEnd
  rw [h.idx_eq, h.len_eq, Bool.eq_iff_iff, beq_iff_eq, beq_iff_eq]
  omega

theorem canWalk_eq (h : Beside lead c c') (n : Nat) : c'.canWalk n = c.canWalk n := by
  rw [Bool.eq_iff_iff, h.right.canWalk_iff, h.left.canWalk_iff, h.idx_eq, h.len_eq]
  omega

/-- Every offset of the text has one behind the lead. -/
theorem atOffset (h : Beside lead c c') {idx idx' : Nat} (hidx : idx' = lead.length + idx)
    (hle : idx ≤ c.len) : Beside lead (atOffset c.text idx) (atOffset c'.text idx') where
  left := sound_atOffset (h.left.len_eq ▸ hle) h.left.size_le
  right := by
    refine sound_atOffset ?_ h.right.size_le
    rw [← h.right.len_eq, h.len_eq, hidx]
    omega
  text_eq := h.text_eq
  idx_eq := hidx

theorem goto (h : Beside lead c c') {idx idx' : Nat} (hidx : idx' = lead.length + idx)
    (hlo : c.idx ≤ idx) (hhi : idx ≤ c.len) {errors : Fault → Fault → Prop} :
    RelatedExcept errors (Beside lead) (c.goto idx) (c'.goto idx') := by
  have hlo' : c'.idx ≤ idx' := by rw [h.idx_eq]; omega
  have hhi' : idx' ≤ c'.len := by rw [h.len_eq]; omega
  rw [h.left.goto_eq hlo hhi, h.right.goto_eq hlo' hhi']
  exact .ok (h.atOffset hidx hhi)

theorem walk (h : Beside lead c c') {n : Nat} (hle : c.idx + n ≤ c.len)
    {errors : Fault → Fault → Prop} :
    RelatedExcept errors (Beside lead) (c.walk n) (c'.walk n) := by
  have hle' : c'.idx + n ≤ c'.len := by rw [h.idx_eq, h.len_eq]; omega
  rw [h.left.walk_eq hle, h.right.walk_eq hle']
  exact .ok (h.atOffset (by rw [h.idx_eq]; omega) hle)

end Cursor.Beside

namespace Correspondence

variable {lead : Text} {c c' d d' : Cursor}

/-- A range within what is ahead of a place, and the same one behind the lead. -/
def RangesBeside (lead : Text) (c : Cursor) (r r' : Range) : Prop :=
  c.idx ≤ r.start ∧ r.start ≤ r.stop ∧ r.stop ≤ c.len ∧ r' = r.shift lead.length

/-- A failure somewhere ahead of a place, and the same one behind the lead. -/
def ErrorsBeside (lead : Text) (c : Cursor) (e e' : ParseError) : Prop :=
  c.idx ≤ e.idx ∧ e.idx ≤ c.len ∧ e' = e.shift lead.length

/-- What lies on the way is within bounds. -/
theorem idx_le_len_of_onward (hd : Onward (Cursor.Beside lead) c c' d d') :
    c.idx ≤ d.idx ∧ d.idx ≤ c.len :=
  ⟨hd.left.idx_le, hd.left.len_eq ▸ hd.cursors.left.idx_le_len⟩

/-- Runs of a text on its own and behind a lead. -/
def translated (lead : Text) (faults : Fault → Fault → Prop) : Correspondence where
  faults := faults
  exhausted := True
  behind := False
  cursors := Cursor.Beside lead
  ranges c _ := RangesBeside lead c
  errors c _ := ErrorsBeside lead c
  rest_eq hc := hc.rest_eq
  atEnd_eq hc := hc.atEnd_eq
  canWalk_eq hc := hc.canWalk_eq 1
  idx_lt_iff hc hd := by
    rw [hc.idx_eq, hd.cursors.idx_eq]
    exact Nat.add_lt_add_iff_left.symm
  stop_le_iff hc hr := by
    rw [hc.idx_eq, hr.2.2.2]
    exact Nat.add_le_add_iff_left.symm
  goto hc hr := by
    obtain ⟨hlo, hle, hhi, hr'⟩ := hr
    rw [hr']
    exact hc.goto rfl (Nat.le_trans hlo hle) hhi
  walk hc hcan := hc.walk (hc.left.canWalk_iff.mp hcan)
  span hc hd := by
    obtain ⟨hlo, hhi⟩ := idx_le_len_of_onward hd
    rw [hc.idx_eq, hd.cursors.idx_eq]
    exact ⟨Nat.le_refl _, hlo, hhi, rfl⟩
  one hc hpeek := by
    have hle := hc.left.idx_lt_len_of_peek hpeek
    have hmax := hc.right.len_le_maxOffset
    rw [hc.len_eq] at hmax
    rw [hc.idx_eq, addOffsets_of_le (Nat.le_trans hle hc.left.len_le_maxOffset),
      addOffsets_of_le (by omega)]
    exact .ok ⟨Nat.le_refl _, Nat.le_succ _, hle, rfl⟩
  stepOver hc hstarts := by
    have hnext := (Text.startsWith_iff_isPrefix _ _).mp hstarts
    have hnext' := hc.rest_eq ▸ hnext
    have hle := hc.left.length_le_of_isPrefix hnext
    rw [hc.left.stepOver_eq hnext, hc.right.stepOver_eq hnext']
    refine .ok ⟨Nat.le_refl _, Nat.le_add_right _ _, hle, ?_⟩
    rw [hc.idx_eq, Nat.add_assoc]
    rfl
  ranges_onward hc hd hr := by
    obtain ⟨hlo, hle, hhi, hr'⟩ := hr
    exact ⟨Nat.le_trans hd.left.idx_le hlo, hle, hd.left.len_eq ▸ hhi, hr'⟩
  errors_onward hc hd he := by
    obtain ⟨hlo, hhi, he'⟩ := he
    exact ⟨Nat.le_trans hd.left.idx_le hlo, hd.left.len_eq ▸ hhi, he'⟩
  merge := by
    intro c c' d d' r r' s s' hc hr hd hidx hidx' hs
    obtain ⟨hlo, hle, -, hr'⟩ := hr
    obtain ⟨hlo', hle', hhi', hs'⟩ := hs
    have horder : r.start ≤ s.stop := by omega
    have horder' : lead.length + r.start ≤ lead.length + s.stop := by omega
    have hmerge : r.merge s = .ok ⟨r.start, s.stop⟩ := Range.new_of_le horder
    have hmerge' : r'.merge s' = .ok ⟨lead.length + r.start, lead.length + s.stop⟩ := by
      rw [hr', hs']
      exact Range.new_of_le horder'
    rw [hmerge, hmerge']
    exact .ok ⟨hlo, horder, hd.left.len_eq ▸ hhi', rfl⟩
  error_here message hc := ⟨Nat.le_refl _, hc.left.idx_le_len, by rw [hc.idx_eq]; rfl⟩
  withMessage message he := ⟨he.1, he.2.1, by rw [he.2.2]; rfl⟩

end Correspondence

end Parsing
