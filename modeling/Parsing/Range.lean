import Parsing.Error
import Parsing.Text

/-!
# Ranges of offsets

A range is a pair of character offsets, start included and stop excluded. The
fields are open, so a range whose start lies past its stop can be written down;
`Range.new` and `Range.merge` refuse to build one.
-/

namespace Parsing

/-- The characters from `start` up to, but not including, `stop`. -/
structure Range where
  start : Nat
  stop : Nat
  deriving DecidableEq, Repr

namespace Range

/-- The range from `start` to `stop`, in this order. -/
def new (start stop : Nat) : Except Fault Range :=
  if start ≤ stop then .ok ⟨start, stop⟩ else .error (.invertedRange start stop)

/-- The range at an offset that holds no character. -/
def empty (idx : Nat) : Range := ⟨idx, idx⟩

/-- The number of offsets in a range. -/
def len (r : Range) : Except Fault Nat :=
  if r.start ≤ r.stop then .ok (r.stop - r.start) else .error .subtractionOverflow

/-- Whether a range starts where it stops. -/
def isEmpty (r : Range) : Bool := r.start == r.stop

/-- From the start of the first range to the stop of the second. -/
def merge (first second : Range) : Except Fault Range := new first.start second.stop

/-- The byte at which offset `idx` starts, or the end of the text for an offset
past it. -/
def byteAt (text : Text) (idx : Nat) : Nat := (text.byteOffset? idx).getD text.byteSize

/-- The characters of `text` in a range; both ends are first moved back to the
end of the text where they lie past it. -/
def slice (r : Range) (text : Text) : Except Fault Text :=
  let lo := byteAt text r.start
  let hi := byteAt text r.stop
  if lo ≤ hi then
    match (text.fromByte? lo).bind (·.upToByte? (hi - lo)) with
    | some piece => .ok piece
    | none => .error .badSlice
  else .error .badSlice

theorem new_eq_ok {start stop : Nat} {r : Range} (h : new start stop = .ok r) :
    r = ⟨start, stop⟩ ∧ start ≤ stop := by
  unfold new at h
  split at h
  · next hle => exact ⟨(Except.ok.inj h).symm, hle⟩
  · cases h

theorem new_of_le {start stop : Nat} (h : start ≤ stop) : new start stop = .ok ⟨start, stop⟩ :=
  if_pos h

/-- An offset starts behind the bytes of the characters before it. -/
theorem byteAt_eq (text : Text) (idx : Nat) : byteAt text idx = Text.byteSize (text.take idx) := by
  unfold byteAt Text.byteOffset?
  split
  · rfl
  · next hpast => rw [List.take_of_length_le (Nat.le_of_not_lt hpast)]; rfl

/-- The slice of a range whose ends are in order, cut by bytes, is its characters. -/
theorem slice_of_le {r : Range} (h : r.start ≤ r.stop) (text : Text) :
    r.slice text = .ok ((text.drop r.start).take (r.stop - r.start)) := by
  have hsplit : text.take r.stop =
      text.take r.start ++ (text.drop r.start).take (r.stop - r.start) := by
    rw [← List.take_add, Nat.add_sub_cancel' h]
  have hpiece : Text.byteSize (text.take r.stop) - Text.byteSize (text.take r.start) =
      Text.byteSize ((text.drop r.start).take (r.stop - r.start)) := by
    rw [hsplit, Text.byteSize_append, Nat.add_sub_cancel_left]
  have hle : Text.byteSize (text.take r.start) ≤ Text.byteSize (text.take r.stop) := by
    rw [hsplit, Text.byteSize_append]
    exact Nat.le_add_right _ _
  unfold slice
  simp only [byteAt_eq, if_pos hle, Text.fromByte?_byteSize_take, hpiece, Option.bind_some,
    Text.upToByte?_byteSize_take]

end Range

end Parsing
