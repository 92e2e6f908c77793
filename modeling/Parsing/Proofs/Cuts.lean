import Parsing.Proofs.Results
import Parsing.Proofs.Spelling

/-!
# Cutting a text

A text is stored as bytes, and it is cut in three ways. A slice counts the bytes before
its ends from the start of the text; a cursor counts on from where it is; and behind a
literal that was found come the bytes after as many as the literal has. All of these
are between characters, and at the same places:

> `slice_cuts_like_cursor`: a slice is the characters between its ends, both moved back
> to the end of the text; slices that meet can be put together, and so can a slice and
> what a cursor leaves behind it.

> `literal_cuts_like_cursor`: a literal is found by its bytes exactly where it stands by
> its characters, and what is behind it by bytes is where a move by characters ends.

Where a text can be cut is said by `Boundary`. `boundary_prefix_iff` is what a comparison
of bytes rests on: as far as two texts are the same, they have the same boundaries.
-/

namespace Parsing

namespace Text

variable {text front back lead : Text} {n : Nat}

/-- Byte `n` of a text does not lie inside a character: the bytes before it are those of
the characters before it. -/
def Boundary (text : Text) (n : Nat) : Prop :=
  ∃ front back, front ++ back = text ∧ byteSize front = n

/-- The bytes from `n` on are whole characters only if those before `n` are. -/
theorem eq_append_of_fromByte? (h : text.fromByte? n = some back) :
    ∃ front, front ++ back = text ∧ byteSize front = n := by
  fun_induction fromByte? n text with
  | case1 text =>
    cases h
    exact ⟨[], rfl, rfl⟩
  | case2 n => cases h
  | case3 n c text hfits ih =>
    obtain ⟨front, hsplit, hsize⟩ := ih h
    refine ⟨c :: front, congrArg (c :: ·) hsplit, ?_⟩
    rw [byteSize_cons, hsize]
    omega
  | case4 n c text hfits => cases h

/-- Boundaries are where the text can be cut. -/
theorem boundary_iff_isSome : text.Boundary n ↔ (text.fromByte? n).isSome = true := by
  rw [Option.isSome_iff_exists]
  constructor
  · rintro ⟨front, back, rfl, rfl⟩
    exact ⟨back, fromByte?_byteSize_append front back⟩
  · rintro ⟨back, h⟩
    obtain ⟨front, hsplit, hsize⟩ := eq_append_of_fromByte? h
    exact ⟨front, back, hsplit, hsize⟩

instance (text : Text) (n : Nat) : Decidable (text.Boundary n) :=
  decidable_of_iff _ boundary_iff_isSome.symm

theorem boundary_byteSize_take (text : Text) (idx : Nat) :
    text.Boundary (byteSize (text.take idx)) := ⟨_, _, List.take_append_drop _ _, rfl⟩

theorem eq_nil_of_byteSize (h : byteSize text = 0) : text = [] := by
  have hlength := length_le_byteSize text
  exact List.eq_nil_of_length_eq_zero (by omega)

/-- Of two initial parts of a text, the one with fewer bytes begins the other. -/
theorem isPrefix_of_byteSize_le (hfront : front <+: text) (hlead : lead <+: text)
    (hle : byteSize front ≤ byteSize lead) : front <+: lead := by
  rcases List.prefix_or_prefix_of_prefix hfront hlead with h | h
  · exact h
  · obtain ⟨more, rfl⟩ := h
    rw [byteSize_append] at hle
    obtain rfl : more = [] := eq_nil_of_byteSize (by omega)
    exact ⟨[], by simp⟩

/-- Behind whole characters, boundaries are counted on. -/
theorem boundary_append_iff : (front ++ back).Boundary (byteSize front + n) ↔ back.Boundary n := by
  constructor
  · intro h
    obtain ⟨upTo, behind, hsplit, hsize⟩ := h
    have hprefix : front <+: upTo :=
      isPrefix_of_byteSize_le (List.prefix_append _ _) (hsplit ▸ List.prefix_append _ _) (by omega)
    obtain ⟨more, rfl⟩ := hprefix
    rw [List.append_assoc] at hsplit
    rw [byteSize_append] at hsize
    exact ⟨more, behind, List.append_cancel_left hsplit, by omega⟩
  · rintro ⟨upTo, behind, rfl, rfl⟩
    exact ⟨front ++ upTo, behind, List.append_assoc _ _ _, byteSize_append _ _⟩

/-- The boundaries of a text are those of its initial parts, as far as these go. -/
theorem boundary_prefix_iff (hlead : lead <+: text) (hn : n ≤ byteSize lead) :
    text.Boundary n ↔ lead.Boundary n := by
  constructor
  · rintro ⟨upTo, behind, rfl, rfl⟩
    obtain ⟨between, hbetween⟩ := isPrefix_of_byteSize_le (List.prefix_append _ _) hlead hn
    exact ⟨upTo, between, hbetween, rfl⟩
  · obtain ⟨more, rfl⟩ := hlead
    rintro ⟨upTo, behind, rfl, rfl⟩
    exact ⟨upTo, behind ++ more, (List.append_assoc _ _ _).symm, rfl⟩

theorem utf8_take_append_drop (text : Text) (idx : Nat) :
    utf8 (text.take idx) ++ utf8 (text.drop idx) = text.utf8 := by
  rw [← utf8_append, List.take_append_drop]

/-- The bytes of the characters before an offset are those before its byte. -/
theorem take_utf8 (text : Text) (idx : Nat) :
    text.utf8.take (byteSize (text.take idx)) = utf8 (text.take idx) := by
  rw [← utf8_take_append_drop text idx, ← length_utf8, List.take_left]

theorem drop_utf8 (text : Text) (idx : Nat) :
    text.utf8.drop (byteSize (text.take idx)) = utf8 (text.drop idx) := by
  rw [← utf8_take_append_drop text idx, ← length_utf8, List.drop_left]

end Text

/-! ## Slices -/

namespace Range

variable {text : Text} {start stop : Nat}

theorem byteAt_min (text : Text) (idx : Nat) :
    byteAt text (min idx text.length) = byteAt text idx := by
  rw [byteAt_eq, byteAt_eq, ← List.take_eq_take_min]

theorem boundary_byteAt (text : Text) (idx : Nat) : text.Boundary (byteAt text idx) := by
  rw [byteAt_eq]
  exact Text.boundary_byteSize_take text idx

theorem byteAt_lt {i j : Nat} (hij : i < j) (hj : j ≤ text.length) :
    byteAt text i < byteAt text j := by
  have hsplit : text.take j = text.take i ++ (text.drop i).take (j - i) := by
    rw [← List.take_add, Nat.add_sub_cancel' (Nat.le_of_lt hij)]
  have hlength := Text.length_le_byteSize ((text.drop i).take (j - i))
  rw [List.length_take, List.length_drop] at hlength
  rw [byteAt_eq, byteAt_eq, hsplit, Text.byteSize_append]
  omega

/-- An end that lies past the text counts as the end of the text. -/
theorem slice_min (start stop : Nat) (text : Text) :
    Range.slice ⟨min start text.length, min stop text.length⟩ text =
      Range.slice ⟨start, stop⟩ text := by
  unfold slice
  simp only [byteAt_min]

theorem slice_of_min_le (h : min start text.length ≤ min stop text.length) :
    Range.slice ⟨start, stop⟩ text = .ok ((text.drop (min start text.length)).take
      (min stop text.length - min start text.length)) := by
  rw [← slice_min]
  exact slice_of_le h text

/-- Ends that are out of order within the text are out of order by bytes. -/
theorem slice_of_min_lt (h : min stop text.length < min start text.length) :
    Range.slice ⟨start, stop⟩ text = .error .badSlice := by
  have hbytes := byteAt_lt h (Nat.min_le_right _ _)
  rw [byteAt_min, byteAt_min] at hbytes
  unfold slice
  dsimp only
  rw [if_neg (Nat.not_le_of_lt hbytes)]

theorem slice_eq_error_iff : (∃ cause, Range.slice ⟨start, stop⟩ text = .error cause) ↔
    min stop text.length < min start text.length := by
  constructor
  · rintro ⟨cause, h⟩
    refine Nat.lt_of_not_le fun hle => ?_
    rw [slice_of_min_le hle] at h
    cases h
  · exact fun h => ⟨_, slice_of_min_lt h⟩

/-- The bytes of the characters between two offsets are those between their bytes. -/
theorem utf8_between {i j : Nat} (hij : i ≤ j) (text : Text) :
    Text.utf8 ((text.drop i).take (j - i)) =
      (text.utf8.drop (byteAt text i)).take (byteAt text j - byteAt text i) := by
  have hfrom := Text.drop_utf8 (text.take j) i
  rw [List.take_take, Nat.min_eq_left hij] at hfrom
  rw [← List.drop_take, ← List.drop_take, byteAt_eq, byteAt_eq, Text.take_utf8, hfrom]

/-- A slice has the bytes between those of its ends. -/
theorem utf8_of_slice {piece : Text} (h : Range.slice ⟨start, stop⟩ text = .ok piece) :
    piece.utf8 =
      (text.utf8.drop (byteAt text start)).take (byteAt text stop - byteAt text start) := by
  have hle : min start text.length ≤ min stop text.length := by
    refine Nat.le_of_not_lt fun hlt => ?_
    rw [slice_of_min_lt hlt] at h
    cases h
  rw [slice_of_min_le hle] at h
  cases Except.ok.inj h
  rw [← byteAt_min text start, ← byteAt_min text stop]
  exact utf8_between hle text

/-- Slices that meet can be put together. -/
theorem slice_append {a b c : Nat} (hab : a ≤ b) (hbc : b ≤ c) (text : Text) :
    ∃ front back, Range.slice ⟨a, b⟩ text = .ok front ∧ Range.slice ⟨b, c⟩ text = .ok back ∧
      Range.slice ⟨a, c⟩ text = .ok (front ++ back) := by
  refine ⟨_, _, slice_of_le hab text, slice_of_le hbc text, ?_⟩
  rw [slice_of_le (Nat.le_trans hab hbc)]
  show Except.ok ((text.drop a).take (c - a)) =
    .ok ((text.drop a).take (b - a) ++ (text.drop b).take (c - b))
  have hdrop : text.drop b = (text.drop a).drop (b - a) := by
    rw [List.drop_drop, Nat.add_sub_cancel' hab]
  rw [hdrop, ← List.take_add, show b - a + (c - b) = c - a by omega]

end Range

/-- A cursor that moves on leaves behind it the characters up to where it moves. -/
theorem Cursor.Sound.reads_upTo {c : Cursor} (hc : c.Sound) {idx : Nat} (hlo : c.idx ≤ idx)
    (hhi : idx ≤ c.len) : c.Reads ⟨c.idx, idx⟩ ((c.text.drop c.idx).take (idx - c.idx)) := by
  constructor
  · rw [List.length_take, List.length_drop, ← hc.len_eq,
      show c.idx + min (idx - c.idx) (c.len - c.idx) = idx by omega]
  · rw [hc.rest_eq]
    exact List.take_prefix _ _

namespace Range

/-- A slice breaks its promise exactly if its ends are out of order within the text;
otherwise it is what stands between them, cut between characters. So slices that meet can
be put together, and so can a slice and what a cursor leaves behind it. -/
theorem slice_cuts_like_cursor :
    (∀ (text : Text) (start stop : Nat),
      ((∃ cause, Range.slice ⟨start, stop⟩ text = .error cause) ↔
        min stop text.length < min start text.length) ∧
      (min start text.length ≤ min stop text.length →
        Range.slice ⟨start, stop⟩ text = .ok ((text.drop (min start text.length)).take
          (min stop text.length - min start text.length))) ∧
      text.Boundary (byteAt text start) ∧ text.Boundary (byteAt text stop) ∧
      ∀ piece, Range.slice ⟨start, stop⟩ text = .ok piece → piece.utf8 =
        (text.utf8.drop (byteAt text start)).take (byteAt text stop - byteAt text start)) ∧
    (∀ (text : Text) (a b c : Nat), a ≤ b → b ≤ c →
      ∃ left right whole front back, new a b = .ok left ∧ new b c = .ok right ∧
        left.merge right = .ok whole ∧ left.slice text = .ok front ∧
        right.slice text = .ok back ∧ whole.slice text = .ok (front ++ back)) ∧
    (∀ c : Cursor, c.Reachable → ∀ idx, c.idx ≤ idx → idx ≤ c.len →
      ∃ range piece behind, new c.idx idx = .ok range ∧ range.slice c.text = .ok piece ∧
        c.goto idx = .ok behind ∧ piece ++ behind.rest = c.rest) := by
  refine ⟨?_, ?_, ?_⟩
  · intro text start stop
    exact ⟨slice_eq_error_iff, slice_of_min_le, boundary_byteAt text start,
      boundary_byteAt text stop, fun _ => utf8_of_slice⟩
  · intro text a b c hab hbc
    obtain ⟨front, back, hfront, hback, hwhole⟩ := slice_append hab hbc text
    exact ⟨⟨a, b⟩, ⟨b, c⟩, ⟨a, c⟩, front, back, new_of_le hab, new_of_le hbc,
      new_of_le (Nat.le_trans hab hbc), hfront, hback, hwhole⟩
  · intro c hc idx hlo hhi
    have hreads := hc.sound.reads_upTo hlo hhi
    obtain ⟨behind, hgo, -, -, hrest⟩ := hreads.goto_eq hc.sound
    exact ⟨_, _, behind, new_of_le hlo, hreads.slice_eq hc.sound, hgo, hrest⟩

/-- Characters of one, two and three bytes, cut before, inside and past the end. -/
theorem slice_cuts_like_cursor_accents :
    let text : Text := ['a', 'ñ', '日', 'b']
    let c : Cursor := .atOffset text 1
    Range.slice ⟨3, 10⟩ text = .ok ['b'] ∧ Range.slice ⟨9, 5⟩ text = .ok [] ∧
      (∃ cause, Range.slice ⟨3, 2⟩ text = .error cause) ∧
      (∃ front back, Range.slice ⟨1, 2⟩ text = .ok front ∧ Range.slice ⟨2, 7⟩ text = .ok back ∧
        Range.slice ⟨1, 7⟩ text = .ok (front ++ back)) ∧
      ∃ piece behind, Range.slice ⟨1, 3⟩ text = .ok piece ∧ c.goto 3 = .ok behind ∧
        piece ++ behind.rest = c.rest := by
  intro text c
  have hc : c.Reachable := Cursor.reachable_atOffset (by decide) (by decide)
  obtain ⟨hslices, hmerged, hcursor⟩ := slice_cuts_like_cursor
  refine ⟨(hslices text 3 10).2.1 (by decide), (hslices text 9 5).2.1 (by decide),
    (hslices text 3 2).1.mpr (by decide), ?_, ?_⟩
  · obtain ⟨left, right, whole, front, back, hleft, hright, hwhole, hfront, hback, hboth⟩ :=
      hmerged text 1 2 7 (by decide) (by decide)
    cases Except.ok.inj hleft
    cases Except.ok.inj hright
    cases Except.ok.inj hwhole
    exact ⟨front, back, hfront, hback, hboth⟩
  · obtain ⟨range, piece, behind, hrange, hpiece, hgo, hrest⟩ :=
      hcursor c hc 3 (by decide) (by decide)
    cases Except.ok.inj hrange
    exact ⟨piece, behind, hpiece, hgo, hrest⟩

end Range

/-! ## Literals -/

namespace Cursor.Sound

variable {c : Cursor} {piece : Text}

/-- From the byte of a cursor on come the bytes of what is left. -/
theorem drop_utf8 (hc : c.Sound) : c.text.utf8.drop c.byte = c.rest.utf8 := by
  rw [hc.byte_eq, hc.rest_eq]
  exact Text.drop_utf8 c.text c.idx

/-- A piece that comes next has its boundaries where the text has them. -/
theorem boundary_iff (hc : c.Sound) (hnext : piece <+: c.rest) {n : Nat}
    (hn : n ≤ piece.byteSize) : c.text.Boundary (c.byte + n) ↔ piece.Boundary n := by
  have hsplit : c.text.take c.idx ++ c.rest = c.text := by
    rw [hc.rest_eq, List.take_append_drop]
  have hcounted : Text.Boundary (c.text.take c.idx ++ c.rest)
      (Text.byteSize (c.text.take c.idx) + n) ↔ c.rest.Boundary n := Text.boundary_append_iff
  rw [hsplit, ← hc.byte_eq] at hcounted
  exact hcounted.trans (Text.boundary_prefix_iff hnext hn)

/-- Steps by bytes end where moves by characters do. -/
theorem stepOver_eq_goto (hc : c.Sound) (hnext : piece <+: c.rest) :
    c.stepOver piece = c.goto (c.idx + piece.length) := by
  rw [hc.stepOver_eq hnext]
  exact (hc.goto_eq (Nat.le_add_right _ _) (hc.length_le_of_isPrefix hnext)).symm

end Cursor.Sound

namespace Parser

theorem literal_reads {expected : String} {c : Cursor} (hc : c.Sound) {parsed : Parsed String}
    (h : ((literal expected).parse c).result = .ok parsed) :
    parsed = ⟨⟨c.idx, c.idx + expected.length⟩, expected⟩ ∧
      parsed.range.slice c.text = .ok expected.toList ∧
      ∃ behind, c.stepOver expected.toList = .ok behind ∧
        c.goto parsed.range.stop = .ok behind ∧ behind.Faithful ∧
        expected.toList ++ behind.rest = c.rest := by
  obtain ⟨hnext, hvalue, hrange⟩ := literal_eq_ok h
  have hreads : c.Reads parsed.range expected.toList := ⟨hrange, hnext⟩
  obtain ⟨behind, hgo, hbehind, -, hrest⟩ := hreads.goto_eq hc
  have hover : c.stepOver expected.toList = c.goto parsed.range.stop := by
    rw [hrange]
    exact hc.stepOver_eq_goto hnext
  refine ⟨?_, hreads.slice_eq hc, behind, hover.trans hgo, hgo, hbehind.faithful, hrest⟩
  obtain ⟨range, value⟩ := parsed
  rw [← String.length_toList]
  exact congrArg₂ Parsed.mk hrange hvalue

/-- A literal is found by its bytes where it stands by its characters, and its bytes lie
between those of characters. Where it is found it is read, its range cuts it out of the
text, and the step over it by bytes ends where the move behind it by characters does.
Where it is not, it fails; and it breaks no promise. -/
theorem literal_cuts_like_cursor (expected : String) {c : Cursor} (hc : c.Reachable) :
    ((∃ parsed, ((literal expected).parse c).result = .ok parsed) ↔
      expected.toList <+: c.text.drop c.idx) ∧
    (∀ parsed, ((literal expected).parse c).result = .ok parsed →
      parsed = ⟨⟨c.idx, c.idx + expected.length⟩, expected⟩ ∧
      parsed.range.slice c.text = .ok expected.toList ∧
      ∃ behind, c.stepOver expected.toList = .ok behind ∧
        c.goto parsed.range.stop = .ok behind ∧ behind.Faithful ∧
        expected.toList ++ behind.rest = c.rest) ∧
    (¬ expected.toList <+: c.text.drop c.idx →
      ((literal expected).parse c).result = .fail ⟨c.idx, s!"Expected: '{expected}'"⟩) ∧
    (∀ cause, ((literal expected).parse c).result ≠ .fault cause) ∧
    (c.rest.startsWith expected.toList = true ↔
      Text.utf8 expected.toList <+: c.text.utf8.drop c.byte) ∧
    (c.rest.startsWith expected.toList = true ↔ expected.toList <+: c.text.drop c.idx) ∧
    (c.rest.startsWith expected.toList = true →
      (∃ behind, c.stepOver expected.toList = .ok behind) ∧
      ∀ n, n ≤ Text.byteSize expected.toList →
        (c.text.Boundary (c.byte + n) ↔ Text.Boundary expected.toList n)) := by
  have hrest := hc.sound.rest_eq
  have hstarts := Text.startsWith_iff_isPrefix c.rest expected.toList
  have hresult := result_literal hc.sound expected
  rw [← hrest]
  refine ⟨?_, fun parsed h => literal_reads hc.sound h, ?_, ?_, ?_, hstarts, ?_⟩
  · constructor
    · rintro ⟨parsed, h⟩
      exact (literal_eq_ok h).1
    · intro hnext
      rw [hresult, if_pos hnext]
      exact ⟨_, rfl⟩
  · intro hnot
    rw [hresult, if_neg hnot]
  · intro cause h
    rw [hresult] at h
    split at h
    · cases h
    · cases h
  · rw [hc.sound.drop_utf8]
    exact Text.startsWith_iff c.rest expected.toList
  · intro h
    have hnext := hstarts.mp h
    exact ⟨⟨_, hc.sound.stepOver_eq hnext⟩, fun n hn => hc.sound.boundary_iff hnext hn⟩

/-- Behind a character of two bytes, a literal that comes next, and one of which only the
first byte does. -/
theorem literal_cuts_like_cursor_accents :
    let c : Cursor := .atOffset ['é', '日', 'Ã', '!'] 1
    ((literal "日Ã").parse c).result = .ok ⟨⟨1, 3⟩, "日Ã"⟩ ∧
      (∃ behind, c.stepOver ['日', 'Ã'] = .ok behind ∧ c.goto 3 = .ok behind ∧
        ['日', 'Ã'] ++ behind.rest = c.rest) ∧
      ¬ c.text.Boundary (c.byte + 4) ∧
      ((literal "日é").parse c).result = .fail ⟨1, "Expected: '日é'"⟩ := by
  intro c
  have hc : c.Reachable := Cursor.reachable_atOffset (by decide) (by decide)
  obtain ⟨hfound, hreads, -, -, -, hstarts, hbytes⟩ := literal_cuts_like_cursor "日Ã" hc
  obtain ⟨-, -, hmissed, -⟩ := literal_cuts_like_cursor "日é" hc
  have hnext : "日Ã".toList <+: c.text.drop c.idx := by decide
  obtain ⟨parsed, hparsed⟩ := hfound.mpr hnext
  obtain ⟨hvalue, -, behind, hover, hgo, -, hrest⟩ := hreads parsed hparsed
  subst hvalue
  have hinside : ¬ Text.Boundary ['日', 'Ã'] 4 := by decide
  obtain ⟨-, hboundaries⟩ := hbytes (hstarts.mpr hnext)
  exact ⟨hparsed, ⟨behind, hover, hgo, hrest⟩,
    fun h => hinside ((hboundaries 4 (by decide)).mp h), hmissed (by decide)⟩

end Parser

end Parsing
