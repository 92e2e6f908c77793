import Parsing.Proofs.Lines
import Parsing.Report

/-!
# The page that shows an error

An error is shown with the lines around it and a pointer below the line it lies in.
Three things that are counted apart have to meet there: the column, which was counted
by walking through the text; the lines, which were found by cutting it; and the width
of what stands before the content of a line, which grows with the line's number.

> `pointer_below_char`: the pointer stands below the character at the offset of the
> error, or right behind the line if there is none.
>
> `render_shows_window`: the page has the lines around the error, at most two to each
> side, and no others.

For an error at an offset of its text there always is a page, since its position
is in the text (`Position.exists_pointsInto`) and a text that a program can hold is
short enough for all sums (`Position.Locates.room`).
-/

namespace Parsing

namespace Text

theorem length_le_lengthOfLines (lines : List Text) : lines.length ≤ lengthOfLines lines := by
  induction lines with
  | nil => exact Nat.le_refl _
  | cons line more ih =>
    rw [List.length_cons]
    show more.length + 1 ≤ line.length + 1 + lengthOfLines more
    omega

theorem byteSize_of_ascii {text : Text} (h : ∀ c ∈ text, c.utf8Size = 1) :
    byteSize text = text.length := by
  induction text with
  | nil => rfl
  | cons c text ih =>
    rw [byteSize_cons, h c List.mem_cons_self, ih fun d hd => h d (List.mem_cons_of_mem _ hd),
      List.length_cons, Nat.add_comm]

/-- The first line of a text begins as the text does, if that is no line feed. -/
theorem head?_of_lines {text line : Text} {more : List Text} {c : Char}
    (h : lines text = line :: more) (hhead : text.head? = some c) (hc : c ≠ '\n') :
    line.head? = some c := by
  cases text with
  | nil => cases hhead
  | cons d text =>
    obtain rfl : d = c := Option.some.inj hhead
    obtain ⟨line', more', hlines⟩ := exists_lines_eq text
    rw [lines_cons hc hlines] at h
    rw [← (List.cons.inj h).1]
    rfl

theorem eq_nil_of_lines {text line : Text} {more : List Text} (h : lines text = line :: more)
    (hstop : text.head? = some '\n' ∨ text = []) : line = [] := by
  cases text with
  | nil => exact (List.cons.inj h).1.symm
  | cons c text =>
    rcases hstop with hfeed | hnil
    · rw [Option.some.inj hfeed, lines_feed] at h
      exact (List.cons.inj h).1.symm
    · cases hnil

end Text

namespace Position

/-! ## Where a position points -/

/-- A position points into a line of its text: at the character of its offset, or right
behind the line where that is a line feed or the end of the text. -/
structure PointsInto (p : Position) (text here : Text) : Prop where
  line_eq : (text.splitOn '\n')[p.line - 1]? = some here
  char_eq : ∀ c, text[p.idx]? = some c → c ≠ '\n' → here[p.column - 1]? = some c
  length_eq : text[p.idx]? = some '\n' ∨ p.idx = text.length → p.column - 1 = here.length

theorem exists_pointsInto {idx : Nat} {text : Text} (h : idx ≤ text.length) :
    ∃ here, (behind (text.take idx)).PointsInto text here := by
  obtain ⟨closed, last, first, more, -, hback, hlines, -, hbehind⟩ := lines_around h
  have hhead : text[idx]? = (text.drop idx).head? := List.head?_drop.symm
  have hline : (text.splitOn '\n')[closed.length]? = some (last ++ first) := by
    rw [hlines, List.getElem?_append_right (Nat.le_refl _), Nat.sub_self]
    rfl
  rw [hbehind]
  -- The line goes on behind the offset with the first line of what comes there.
  refine ⟨last ++ first, hline, ?_, ?_⟩
  · intro c hc hne
    rw [hhead] at hc
    have hfirst := Text.head?_of_lines hback hc hne
    show (last ++ first)[last.length]? = some c
    rw [List.getElem?_append_right (Nat.le_refl _), Nat.sub_self, ← List.head?_eq_getElem?]
    exact hfirst
  · intro hstop
    have hnil : first = [] := by
      refine Text.eq_nil_of_lines hback ?_
      rcases hstop with hfeed | hend
      · exact .inl (hhead ▸ hfeed)
      · exact .inr (List.drop_eq_nil_of_le (Nat.le_of_eq hend.symm))
    rw [hnil, List.append_nil]
    rfl

/-- Every line before takes at least its line feed, and every column a character, so there
is room behind the numbers for a margin and for the lines to come. -/
theorem Locates.room {p : Position} {text : Text} (h : p.Locates text)
    (hsize : text.byteSize ≤ maxTextSize) : p.line + p.column + 30 ≤ maxOffset := by
  have hline := h.line_le
  have hidx := h.idx_eq
  have hcount := Text.length_le_lengthOfLines ((text.splitOn '\n').take (p.line - 1))
  rw [List.length_take_of_le (by omega)] at hcount
  have hlength := Nat.le_trans h.idx_le (Text.length_le_byteSize text)
  have hroom : maxTextSize + 32 ≤ maxOffset := by decide
  omega

end Position

namespace SyntaxError

/-! ## The lines of a page -/

/-- A line that is shown with its number. -/
def plainLine (line : Nat × Text) : String :=
  "    " ++ toString line.1 ++ " | " ++ String.ofList line.2

/-- The line in which the error lies, shown with its number. -/
def markedLine (n : Nat) (content : Text) : String :=
  "  > " ++ toString n ++ " | " ++ String.ofList content

/-- A pointer behind `k` spaces. -/
def pointerLine (k : Nat) : String := String.ofList (List.replicate k ' ') ++ "^--- here"

/-- The number of spaces before the pointer: the width of the margin and the columns
before that of the error. -/
def indent (e : SyntaxError) : Nat :=
  (toString e.position.line).length + 7 + (e.position.column - 1)

theorem isDigit_of_mem_toString {n : Nat} {c : Char} (h : c ∈ (toString n).toList) :
    c.isDigit = true := by
  rw [Nat.toString_eq_repr, Nat.toList_repr] at h
  exact Nat.isDigit_of_mem_toDigits (by decide) (by decide) h

theorem utf8Size_of_isDigit {c : Char} (h : c.isDigit = true) : c.utf8Size = 1 := by
  have hle : c.val ≤ 57 := by
    unfold Char.isDigit at h
    simp only [Bool.and_eq_true, decide_eq_true_eq] at h
    exact h.2
  exact if_pos (UInt32.le_trans hle (by decide))

theorem toList_margin (n : Nat) (marked : Bool) : (margin n marked).toList =
    (if marked then "  > " else "    ").toList ++ (toString n).toList ++ " | ".toList := by
  rw [margin, String.toList_append, String.toList_append]

theorem length_margin (n : Nat) (marked : Bool) :
    (margin n marked).toList.length = (toString n).length + 7 := by
  have hmark : (if marked then "  > " else "    ").toList.length = 4 := by
    cases marked <;> rfl
  have hbar : " | ".toList.length = 3 := rfl
  rw [toList_margin, List.length_append, List.length_append, hmark, hbar, String.length_toList]
  omega

/-- Whatever the number, the margin has one byte for each character. -/
theorem byteSize_margin (n : Nat) (marked : Bool) :
    Text.byteSize (margin n marked).toList = (toString n).length + 7 := by
  have hmark : Text.byteSize (if marked then "  > " else "    ").toList = 4 := by
    cases marked <;> rfl
  have hdigits : Text.byteSize (toString n).toList = (toString n).length := by
    rw [← String.length_toList]
    exact Text.byteSize_of_ascii fun c hc => utf8Size_of_isDigit (isDigit_of_mem_toString hc)
  have hbar : Text.byteSize " | ".toList = 3 := rfl
  rw [toList_margin, Text.byteSize_append, Text.byteSize_append, hmark, hdigits, hbar]
  omega

theorem length_toString_le {n : Nat} (h : n ≤ maxOffset) : (toString n).length ≤ 20 := by
  rw [Nat.toString_eq_repr, Nat.length_repr_le_iff (by decide)]
  exact Nat.lt_of_le_of_lt h (by decide)

/-- Where the columns can be counted, there is a pointer. -/
theorem pointer_eq {margin : String} {column : Nat}
    (hsum : Text.byteSize margin.toList + column ≤ maxOffset) :
    pointer margin column = .ok (pointerLine (Text.byteSize margin.toList + column - 1)) := by
  rw [pointer, pointerOffset, addOffsets_of_le hsum]
  rfl

/-! ## The window -/

/-- A line of a text that belongs to the window around line `marked`: it is at most two
lines away, and an empty last line only if it is the marked one itself. -/
structure InWindow (text : Text) (marked n : Nat) (content : Text) : Prop where
  pos : 1 ≤ n
  content_eq : (text.splitOn '\n')[n - 1]? = some content
  le_add_two : n ≤ marked + 2
  marked_le : marked ≤ n + 2
  closing : n = (text.splitOn '\n').length → content = [] → n = marked

/-- The window around a line, with the numbers of its lines. -/
def window (text : Text) (marked : Nat) : List (Nat × Text) :=
  (numbered 1 text.lines).filter fun (n, content) =>
    isShown marked (marked + 2) text.lines.length n content

theorem mem_numbered {first n : Nat} {content : Text} {lines : List Text} :
    (n, content) ∈ numbered first lines ↔ first ≤ n ∧ lines[n - first]? = some content := by
  induction lines generalizing first with
  | nil => simp [numbered]
  | cons line more ih =>
    rw [numbered, List.mem_cons, ih, Prod.mk.injEq]
    constructor
    · rintro (⟨rfl, rfl⟩ | ⟨hlt, hline⟩)
      · simp
      · obtain ⟨k, rfl⟩ : ∃ k, n = first + 1 + k := ⟨n - (first + 1), by omega⟩
        refine ⟨by omega, ?_⟩
        rw [show first + 1 + k - first = k + 1 by omega, List.getElem?_cons_succ]
        rwa [Nat.add_sub_cancel_left] at hline
    · rintro ⟨hle, hline⟩
      rcases Nat.eq_or_lt_of_le hle with rfl | hlt
      · rw [Nat.sub_self, List.getElem?_cons_zero] at hline
        exact .inl ⟨rfl, (Option.some.inj hline).symm⟩
      · rw [show n - first = n - (first + 1) + 1 by omega, List.getElem?_cons_succ] at hline
        exact .inr ⟨hlt, hline⟩

theorem pairwise_numbered (first : Nat) (lines : List Text) :
    (numbered first lines).Pairwise fun a b => a.1 < b.1 := by
  induction lines generalizing first with
  | nil => exact .nil
  | cons line more ih =>
    refine .cons ?_ (ih (first + 1))
    rintro ⟨n, content⟩ hmem
    exact (mem_numbered.mp hmem).1

section

variable {text : Text} {marked : Nat}

theorem mem_window {n : Nat} {content : Text} :
    (n, content) ∈ window text marked ↔ InWindow text marked n content := by
  rw [window, List.mem_filter, mem_numbered, Text.lines_eq_splitOn]
  simp only [isShown, Bool.and_eq_true, decide_eq_true_eq, Bool.not_eq_true', Bool.and_eq_false_iff,
    beq_eq_false_iff_ne, bne_eq_false_iff_eq, List.isEmpty_eq_false_iff]
  constructor
  · rintro ⟨⟨hpos, hline⟩, ⟨hlo, hhi⟩, hclosing⟩
    refine ⟨hpos, hline, hhi, by omega, fun hlast hnil => ?_⟩
    rcases hclosing with (hne | hne) | heq
    · exact absurd hlast hne
    · exact absurd hnil hne
    · exact heq
  · rintro ⟨hpos, hline, hhi, hlo, hclosing⟩
    refine ⟨⟨hpos, hline⟩, ⟨by omega, hhi⟩, ?_⟩
    by_cases hlast : n = (text.splitOn '\n').length
    · by_cases hnil : content = []
      · exact .inr (hclosing hlast hnil)
      · exact .inl (.inr hnil)
    · exact .inl (.inl hlast)

theorem pairwise_window (text : Text) (marked : Nat) :
    (window text marked).Pairwise fun a b => a.1 < b.1 :=
  (pairwise_numbered 1 text.lines).filter _

/-- There are five numbers that are at most two away from a number. -/
theorem length_window_le (text : Text) (marked : Nat) : (window text marked).length ≤ 5 := by
  have hnodup : ((window text marked).map Prod.fst).Nodup :=
    List.pairwise_map.mpr ((pairwise_window text marked).imp Nat.ne_of_lt)
  have hsub : (window text marked).map Prod.fst ⊆ List.range' (marked - 2) 5 := by
    intro n hn
    obtain ⟨⟨n, content⟩, hmem, rfl⟩ := List.mem_map.mp hn
    have hwindow := mem_window.mp hmem
    have hlo := hwindow.marked_le
    have hhi := hwindow.le_add_two
    exact List.mem_range'_1.mpr ⟨by omega, by omega⟩
  have hle := hnodup.length_le_of_subset hsub
  rwa [List.length_map, List.length_range'] at hle

end

/-! ## The page -/

/-- What is shown for an error: its line, marked, with a pointer, and the window around. -/
structure Shows (e : SyntaxError) (text : Text) (before : List (Nat × Text)) (here : Text)
    (after : List (Nat × Text)) : Prop where
  locates : e.position.Locates text
  points : e.position.PointsInto text here
  window_eq : window text e.position.line = before ++ (e.position.line, here) :: after
  context_eq : e.context text = .ok (before.map plainLine ++
    [markedLine e.position.line here, pointerLine e.indent] ++ after.map plainLine)

/-- Where every step succeeds, so do the steps in a row. -/
theorem mapM_eq_ok {α β ε : Type} {f : α → Except ε β} {g : α → β} {xs : List α}
    (h : ∀ x ∈ xs, f x = .ok (g x)) : xs.mapM f = .ok (xs.map g) := by
  induction xs with
  | nil => rfl
  | cons x xs ih =>
    rw [List.mapM_cons, h x List.mem_cons_self, ih fun y hy => h y (List.mem_cons_of_mem _ hy)]
    rfl

/-- A line that is not marked is shown alone. -/
theorem mapM_showLine {e : SyntaxError} {lines : List (Nat × Text)}
    (h : ∀ line ∈ lines, line.1 ≠ e.position.line) :
    lines.mapM (fun (n, content) => e.showLine n content) =
      .ok (lines.map fun line => [plainLine line]) :=
  mapM_eq_ok fun line hline => if_neg (h line hline)

section

variable {e : SyntaxError} {text here : Text} {before after : List (Nat × Text)}

/-- The marked line is shown with the pointer. -/
theorem showLine_marked (hlocates : e.position.Locates text) (hsize : text.byteSize ≤ maxTextSize)
    (content : Text) : e.showLine e.position.line content =
      .ok [markedLine e.position.line content, pointerLine e.indent] := by
  have hwidth := byteSize_margin e.position.line true
  have hcolumn := hlocates.column_pos
  have hindent : Text.byteSize (margin e.position.line true).toList + e.position.column - 1 =
      e.indent := by
    rw [hwidth, indent]
    omega
  have hsum : Text.byteSize (margin e.position.line true).toList + e.position.column ≤
      maxOffset := by
    have hroom := hlocates.room hsize
    have hdigits := length_toString_le (show e.position.line ≤ maxOffset by omega)
    omega
  have hpointer := pointer_eq hsum
  rw [hindent] at hpointer
  rw [showLine, if_pos rfl]
  dsimp only
  rw [hpointer]
  rfl

theorem context_of_window (hlocates : e.position.Locates text)
    (hsize : text.byteSize ≤ maxTextSize)
    (hwindow : window text e.position.line = before ++ (e.position.line, here) :: after) :
    e.context text = .ok (before.map plainLine ++
      [markedLine e.position.line here, pointerLine e.indent] ++ after.map plainLine) := by
  have hlast : addOffsets e.position.line 2 = .ok (e.position.line + 2) := by
    have hroom := hlocates.room hsize
    exact addOffsets_of_le (by omega)
  -- The numbers of the window go up, so only one of its lines is the marked one.
  have hordered := pairwise_window text e.position.line
  rw [hwindow, List.pairwise_append] at hordered
  obtain ⟨-, hbehind, hacross⟩ := hordered
  have hbefore : ∀ line ∈ before, line.1 ≠ e.position.line := fun line hline =>
    Nat.ne_of_lt (hacross line hline _ List.mem_cons_self)
  have hafter : ∀ line ∈ after, line.1 ≠ e.position.line := fun line hline =>
    Nat.ne_of_gt (List.rel_of_pairwise_cons hbehind hline)
  have hblocks : (window text e.position.line).mapM (fun (n, content) => e.showLine n content) =
      .ok (before.map (fun line => [plainLine line]) ++
        [markedLine e.position.line here, pointerLine e.indent] ::
          after.map fun line => [plainLine line]) := by
    have hhere := showLine_marked hlocates hsize here
    rw [hwindow, List.mapM_append, List.mapM_cons, mapM_showLine hbefore, mapM_showLine hafter]
    dsimp only
    rw [hhere]
    rfl
  have hflat (lines : List (Nat × Text)) :
      (lines.map fun line => [plainLine line]).flatten = lines.map plainLine := by
    rw [← List.flatMap_def, List.map_eq_flatMap]
  unfold context
  rw [hlast]
  show (do
    let blocks ← (window text e.position.line).mapM fun (n, content) => e.showLine n content
    return blocks.flatten) = _
  rw [hblocks]
  show Except.ok (List.flatten _) = _
  rw [List.flatten_append, List.flatten_cons, hflat, hflat, List.append_assoc]

end

/-- An error at an offset of its text has a page. -/
theorem exists_shows {text : Text} (hsize : text.byteSize ≤ maxTextSize) {idx : Nat}
    (hidx : idx ≤ text.length) (message : String) :
    ∃ e before here after, resolve ⟨idx, message⟩ text = .ok e ∧
      e.message = message ∧ e.position.idx = idx ∧ Shows e text before here after := by
  obtain ⟨here, hpoints⟩ := Position.exists_pointsInto hidx
  have hlocates := Position.locates_behind hidx
  have hresolve : resolve ⟨idx, message⟩ text =
      .ok ⟨Position.behind (text.take idx), message⟩ := by
    rw [resolve, Position.create, Position.resolve_of_le hidx]
    rfl
  have hhere : InWindow text (Position.behind (text.take idx)).line
      (Position.behind (text.take idx)).line here :=
    ⟨hlocates.line_pos, hpoints.line_eq, Nat.le_add_right _ _, Nat.le_add_right _ _,
      fun _ _ => rfl⟩
  obtain ⟨before, after, hwindow⟩ := List.append_of_mem (mem_window.mpr hhere)
  refine ⟨_, before, here, after, hresolve, rfl, ?_, hlocates, hpoints, hwindow, ?_⟩
  · rw [Position.idx_behind, List.length_take_of_le hidx]
  · exact context_of_window hlocates hsize hwindow

theorem render_of_context {e : SyntaxError} {text : Text} {lines : List String}
    (h : e.context text = .ok lines) :
    e.render text = .ok (e.display ++ "\n\n" ++ String.join (lines.map (· ++ "\n"))) := by
  rw [render, h]
  rfl

/-- The page of an error at an offset of its text: the error on one line, an empty line,
and the lines of the window around the line of the error, in their order and as they
are. That line is among them, it alone is marked, and the pointer comes behind it. -/
theorem render_shows_window {text : Text} (hsize : text.byteSize ≤ maxTextSize) {idx : Nat}
    (hidx : idx ≤ text.length) (message : String) :
    ∃ e before here after, resolve ⟨idx, message⟩ text = .ok e ∧
      e.message = message ∧ e.position.idx = idx ∧ e.position.Locates text ∧
      e.render text = .ok (e.display ++ "\n\n" ++ String.join
        ((before.map plainLine ++ [markedLine e.position.line here, pointerLine e.indent] ++
          after.map plainLine).map (· ++ "\n"))) ∧
      (∀ n content, (n, content) ∈ before ++ (e.position.line, here) :: after ↔
        InWindow text e.position.line n content) ∧
      (before ++ (e.position.line, here) :: after).Pairwise (fun a b => a.1 < b.1) ∧
      (before ++ (e.position.line, here) :: after).length ≤ 5 := by
  obtain ⟨e, before, here, after, hresolve, hmessage, hidx, hshows⟩ :=
    exists_shows hsize hidx message
  refine ⟨e, before, here, after, hresolve, hmessage, hidx, hshows.locates,
    render_of_context hshows.context_eq, ?_⟩
  rw [← hshows.window_eq]
  exact ⟨fun _ _ => mem_window, pairwise_window _ _, length_window_le _ _⟩

/-- An error in the empty line behind the last line feed, which is shown for that reason,
and one in the line before, for which it is not. -/
theorem render_shows_window_last_line :
    let text : Text := ['a', 'é', '\n']
    (∃ e before after, ∃ here : Text, resolve ⟨3, "eof"⟩ text = .ok e ∧
      (1, ['a', 'é']) ∈ before ++ (2, here) :: after ∧
      (2, []) ∈ before ++ (2, here) :: after ∧ e.render text = .ok
        "syntax error at line 2, column 1: eof\n\n    1 | aé\n  > 2 | \n        ^--- here\n") ∧
    ∃ e before after, ∃ here : Text, resolve ⟨1, "bad"⟩ text = .ok e ∧
      (2, []) ∉ before ++ (1, here) :: after ∧ e.render text = .ok
        "syntax error at line 1, column 2: bad\n\n  > 1 | aé\n         ^--- here\n" := by
  intro text
  have hsize : text.byteSize ≤ maxTextSize := by decide
  constructor
  · have hresolve : resolve ⟨3, "eof"⟩ text = .ok ⟨⟨3, 2, 1⟩, "eof"⟩ := rfl
    obtain ⟨e, before, here, after, he, -, -, -, -, hwindow, -⟩ :=
      render_shows_window hsize (show 3 ≤ text.length by decide) "eof"
    cases Except.ok.inj (hresolve.symm.trans he)
    refine ⟨_, before, after, here, he, (hwindow 1 _).mpr ?_, (hwindow 2 _).mpr ?_, rfl⟩
    · exact ⟨by decide, rfl, by decide, by decide, fun _ hnil => nomatch hnil⟩
    · exact ⟨by decide, rfl, by decide, by decide, fun _ _ => rfl⟩
  · have hresolve : resolve ⟨1, "bad"⟩ text = .ok ⟨⟨1, 1, 2⟩, "bad"⟩ := rfl
    obtain ⟨e, before, here, after, he, -, -, -, -, hwindow, -⟩ :=
      render_shows_window hsize (show 1 ≤ text.length by decide) "bad"
    cases Except.ok.inj (hresolve.symm.trans he)
    refine ⟨_, before, after, here, he, fun h => ?_, rfl⟩
    exact absurd (((hwindow 2 _).mp h).closing rfl rfl) (by decide)

/-! ## The pointer -/

/-- The first character of a line that is not a space. -/
def lead (line : String) : Option Char := (line.toList.dropWhile (· == ' ')).head?

/-- A line that is marked as the one of the error. -/
def IsMarked (line : String) : Prop := "  > ".toList <+: line.toList

/-- A line that points at something. -/
def IsPointer (line : String) : Prop := ∃ k, line = pointerLine k

theorem lead_of_isMarked {line : String} (h : IsMarked line) : lead line = some '>' := by
  obtain ⟨more, hmore⟩ := h
  rw [lead, ← hmore]
  rfl

theorem lead_of_isPointer {line : String} (h : IsPointer line) : lead line = some '^' := by
  obtain ⟨k, rfl⟩ := h
  rw [lead, pointerLine, String.toList_append, String.toList_ofList,
    List.dropWhile_append_of_pos fun c hc => by rw [List.eq_of_mem_replicate hc]; rfl]
  rfl

theorem isMarked_markedLine (n : Nat) (content : Text) : IsMarked (markedLine n content) := by
  refine ⟨(toString n).toList ++ " | ".toList ++ content, ?_⟩
  simp [markedLine]

/-- What comes behind the spaces of a line that is not marked is its number. -/
theorem lead_plainLine (line : Nat × Text) : ∃ c, c.isDigit = true ∧
    lead (plainLine line) = some c := by
  have hne : (toString line.1).toList ≠ [] := by
    rw [Nat.toString_eq_repr, Nat.toList_repr]
    exact Nat.toDigits_ne_nil
  obtain ⟨c, more, hdigits⟩ := List.exists_cons_of_ne_nil hne
  have hc : c.isDigit = true := isDigit_of_mem_toString (hdigits ▸ List.mem_cons_self)
  have hspace : (c == ' ') = false := by
    refine beq_eq_false_iff_ne.mpr ?_
    rintro rfl
    exact absurd hc (by decide)
  have htext : (plainLine line).toList =
      "    ".toList ++ c :: (more ++ " | ".toList ++ line.2) := by
    simp only [plainLine, String.toList_append, String.toList_ofList, hdigits, List.append_assoc,
      List.cons_append]
  have hdrop : (plainLine line).toList.dropWhile (· == ' ') =
      (c :: (more ++ " | ".toList ++ line.2)).dropWhile (· == ' ') := by
    rw [htext]
    rfl
  refine ⟨c, hc, ?_⟩
  rw [lead, hdrop, List.dropWhile_cons, hspace]
  rfl

theorem plainLine_unmarked (line : Nat × Text) :
    ¬ IsMarked (plainLine line) ∧ ¬ IsPointer (plainLine line) := by
  obtain ⟨c, hc, hlead⟩ := lead_plainLine line
  constructor
  · intro h
    rw [lead_of_isMarked h] at hlead
    cases hlead
    exact absurd hc (by decide)
  · intro h
    rw [lead_of_isPointer h] at hlead
    cases hlead
    exact absurd hc (by decide)

theorem not_isPointer_of_isMarked {line : String} (h : IsMarked line) : ¬ IsPointer line := by
  intro hpointer
  have hlead := lead_of_isMarked h
  rw [lead_of_isPointer hpointer] at hlead
  exact absurd hlead (by decide)

/-- The characters of a line begin behind its margin. -/
theorem getElem?_markedLine (n : Nat) (content : Text) (k : Nat) :
    (markedLine n content).toList[(toString n).length + 7 + k]? = content[k]? := by
  have htext : (markedLine n content).toList = (margin n true).toList ++ content := by
    rw [markedLine, String.toList_append, String.toList_ofList]
    rfl
  rw [htext, ← length_margin n true, List.getElem?_append_right (Nat.le_add_right _ _),
    Nat.add_sub_cancel_left]

theorem length_markedLine (n : Nat) (content : Text) :
    (markedLine n content).toList.length = (toString n).length + 7 + content.length := by
  rw [← length_margin n true, ← List.length_append, markedLine, String.toList_append,
    String.toList_ofList]
  rfl

/-- The page of an error at an offset of its text has one marked line, that of the error,
and one pointer, right below it. The pointer stands below the character at the offset;
where that is a line feed or the end of the text, it stands right behind the line. -/
theorem pointer_below_char {text : Text} (hsize : text.byteSize ≤ maxTextSize) {idx : Nat}
    (hidx : idx ≤ text.length) (message : String) :
    ∃ e before marked k after, resolve ⟨idx, message⟩ text = .ok e ∧
      e.context text = .ok (before ++ [marked, pointerLine k] ++ after) ∧
      e.render text = .ok (e.display ++ "\n\n" ++
        String.join ((before ++ [marked, pointerLine k] ++ after).map (· ++ "\n"))) ∧
      (∃ content, (text.splitOn '\n')[e.position.line - 1]? = some content ∧
        marked = markedLine e.position.line content) ∧
      ¬ IsPointer marked ∧ ¬ IsMarked (pointerLine k) ∧
      (∀ line ∈ before ++ after, ¬ IsMarked line ∧ ¬ IsPointer line) ∧
      (∀ c, text[idx]? = some c → c ≠ '\n' → marked.toList[k]? = some c) ∧
      (text[idx]? = some '\n' ∨ idx = text.length → k = marked.toList.length) := by
  obtain ⟨e, before, here, after, hresolve, -, rfl, hshows⟩ := exists_shows hsize hidx message
  have hmarked := isMarked_markedLine e.position.line here
  refine ⟨e, before.map plainLine, markedLine e.position.line here, e.indent,
    after.map plainLine, hresolve, hshows.context_eq, render_of_context hshows.context_eq,
    ⟨here, hshows.points.line_eq, rfl⟩, not_isPointer_of_isMarked hmarked,
    fun h => not_isPointer_of_isMarked h ⟨_, rfl⟩, ?_, ?_, ?_⟩
  · intro line hline
    rw [← List.map_append] at hline
    obtain ⟨plain, -, rfl⟩ := List.mem_map.mp hline
    exact plainLine_unmarked plain
  · intro c hc hne
    rw [indent, getElem?_markedLine]
    exact hshows.points.char_eq c hc hne
  · intro hstop
    rw [indent, length_markedLine, hshows.points.length_eq hstop]

/-- A pointer below a character of three bytes, and one behind a line that ends in a
carriage return. -/
theorem pointer_below_char_accents :
    let text : Text := ['a', '\n', 'é', '日', '\r', '\n', 'b']
    (∃ e before k after, resolve ⟨3, "bad"⟩ text = .ok e ∧
      e.context text =
        .ok (before ++ [markedLine 2 ['é', '日', '\r'], pointerLine k] ++ after) ∧
      (markedLine 2 ['é', '日', '\r']).toList[k]? = some '日') ∧
    ∃ e before k after, resolve ⟨5, "bad"⟩ text = .ok e ∧
      e.context text =
        .ok (before ++ [markedLine 2 ['é', '日', '\r'], pointerLine k] ++ after) ∧
      k = (markedLine 2 ['é', '日', '\r']).toList.length := by
  intro text
  have hsize : text.byteSize ≤ maxTextSize := by decide
  constructor
  · have hresolve : resolve ⟨3, "bad"⟩ text = .ok ⟨⟨3, 2, 2⟩, "bad"⟩ := rfl
    obtain ⟨e, before, marked, k, after, he, hcontext, -, hmarked, -, -, -, hchar, -⟩ :=
      pointer_below_char hsize (show 3 ≤ text.length by decide) "bad"
    cases Except.ok.inj (hresolve.symm.trans he)
    obtain ⟨content, hcontent, rfl⟩ := hmarked
    cases Option.some.inj hcontent
    exact ⟨_, before, k, after, he, hcontext, hchar '日' rfl (by decide)⟩
  · have hresolve : resolve ⟨5, "bad"⟩ text = .ok ⟨⟨5, 2, 4⟩, "bad"⟩ := rfl
    obtain ⟨e, before, marked, k, after, he, hcontext, -, hmarked, -, -, -, -, hend⟩ :=
      pointer_below_char hsize (show 5 ≤ text.length by decide) "bad"
    cases Except.ok.inj (hresolve.symm.trans he)
    obtain ⟨content, hcontent, rfl⟩ := hmarked
    cases Option.some.inj hcontent
    exact ⟨_, before, k, after, he, hcontext, hend (.inl rfl)⟩

end SyntaxError

end Parsing
