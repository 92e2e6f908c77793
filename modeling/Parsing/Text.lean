/-!
# Texts, counted in characters and in UTF-8 bytes

A text is its list of characters. Offsets that users see count characters; a
cursor also keeps the number of UTF-8 bytes it has passed, because that is what
a stored text is cut by. This file relates the two counts:

> `fromByte?_byteSize_take`: cutting at the byte size of the first `n`
> characters leaves exactly the text without them,

so a byte offset that was obtained by adding up whole characters never points
into the middle of one. `startsWith_iff` says that the byte comparison behind
`startsWith` is the comparison of the two whole encodings, and
`startsWith_iff_isPrefix` that this is the comparison of the characters: no
character's encoding begins another's.
-/

namespace Parsing

/-- A text is the sequence of its characters. -/
abbrev Text := List Char

namespace Text

/-- The UTF-8 bytes of a text, in order. -/
def utf8 (text : Text) : List UInt8 := text.flatMap String.utf8EncodeChar

/-- The number of UTF-8 bytes of a text. -/
def byteSize : Text → Nat
  | [] => 0
  | c :: text => c.utf8Size + byteSize text

@[simp] theorem byteSize_nil : byteSize [] = 0 := rfl

@[simp] theorem byteSize_cons (c : Char) (text : Text) :
    byteSize (c :: text) = c.utf8Size + byteSize text := rfl

@[simp] theorem byteSize_append (front back : Text) :
    byteSize (front ++ back) = byteSize front + byteSize back := by
  induction front with
  | nil => exact (Nat.zero_add _).symm
  | cons c front ih => rw [List.cons_append, byteSize_cons, ih, byteSize_cons, Nat.add_assoc]

theorem byteSize_take_le (n : Nat) (text : Text) : byteSize (text.take n) ≤ byteSize text := by
  have hwhole := byteSize_append (text.take n) (text.drop n)
  rw [List.take_append_drop] at hwhole
  omega

/-- What is left of a text after its first `n` bytes, or nothing when byte `n`
lies inside a character or past the end. -/
def fromByte? : Nat → Text → Option Text
  | 0, text => some text
  | _ + 1, [] => none
  | n + 1, c :: text =>
    if c.utf8Size ≤ n + 1 then fromByte? (n + 1 - c.utf8Size) text else none

/-- The first `n` bytes of a text, or nothing when byte `n` lies inside a
character or past the end. -/
def upToByte? : Nat → Text → Option Text
  | 0, _ => some []
  | _ + 1, [] => none
  | n + 1, c :: text =>
    if c.utf8Size ≤ n + 1 then (upToByte? (n + 1 - c.utf8Size) text).map (c :: ·) else none

/-- The byte at which character number `n` starts, if there is such a character. -/
def byteOffset? (n : Nat) (text : Text) : Option Nat :=
  if n < text.length then some (byteSize (text.take n)) else none

/-- Whether the bytes of `lead` are the first bytes of `text`. A character has
at least one byte, so as many characters as `lead` has bytes are enough to
look at. -/
def startsWith (text lead : Text) : Bool :=
  lead.utf8.isPrefixOf (utf8 (text.take lead.utf8.length))

/-- The pieces of a text between its line feeds; there is always at least one,
and a text that ends in a line feed has an empty last one. -/
def lines : Text → List Text
  | [] => [[]]
  | c :: text =>
    if c = '\n' then [] :: lines text
    else
      match lines text with
      | [] => [[c]]
      | line :: more => (c :: line) :: more

theorem lines_ne_nil (text : Text) : lines text ≠ [] := by
  cases text with
  | nil => simp [lines]
  | cons c text =>
    rw [lines]
    split
    · simp
    · split <;> simp

/-- Cutting after whole characters leaves the characters that follow. -/
@[simp] theorem fromByte?_byteSize_append (front back : Text) :
    fromByte? (byteSize front) (front ++ back) = some back := by
  induction front with
  | nil => cases back <;> rfl
  | cons c front ih =>
    have hpos := c.utf8Size_pos
    obtain ⟨n, hn⟩ : ∃ n, byteSize (c :: front) = n + 1 :=
      ⟨byteSize (c :: front) - 1, by simp; omega⟩
    rw [hn, List.cons_append, fromByte?]
    rw [byteSize_cons] at hn
    rw [if_pos (by omega), show n + 1 - c.utf8Size = byteSize front by omega, ih]

theorem fromByte?_byteSize_take (n : Nat) (text : Text) :
    fromByte? (byteSize (text.take n)) text = some (text.drop n) := by
  have h := fromByte?_byteSize_append (text.take n) (text.drop n)
  rwa [List.take_append_drop] at h

/-- The first bytes, counted by whole characters, are those characters. -/
@[simp] theorem upToByte?_byteSize_append (front back : Text) :
    upToByte? (byteSize front) (front ++ back) = some front := by
  induction front with
  | nil => cases back <;> rfl
  | cons c front ih =>
    have hpos := c.utf8Size_pos
    obtain ⟨n, hn⟩ : ∃ n, byteSize (c :: front) = n + 1 :=
      ⟨byteSize (c :: front) - 1, by simp; omega⟩
    rw [hn, List.cons_append, upToByte?]
    rw [byteSize_cons] at hn
    rw [if_pos (by omega), show n + 1 - c.utf8Size = byteSize front by omega, ih]
    rfl

theorem upToByte?_byteSize_take (n : Nat) (text : Text) :
    upToByte? (byteSize (text.take n)) text = some (text.take n) := by
  have h := upToByte?_byteSize_append (text.take n) (text.drop n)
  rwa [List.take_append_drop] at h

@[simp] theorem utf8_nil : utf8 [] = [] := rfl

@[simp] theorem utf8_cons (c : Char) (text : Text) :
    utf8 (c :: text) = String.utf8EncodeChar c ++ utf8 text := by
  simp [utf8]

@[simp] theorem utf8_append (front back : Text) :
    utf8 (front ++ back) = utf8 front ++ utf8 back := by
  simp [utf8]

@[simp] theorem length_utf8 (text : Text) : (utf8 text).length = byteSize text := by
  induction text with
  | nil => rfl
  | cons c text ih => simp [ih]

theorem length_le_byteSize (text : Text) : text.length ≤ byteSize text := by
  induction text with
  | nil => simp
  | cons c text ih =>
    have hpos := c.utf8Size_pos
    simp only [List.length_cons, byteSize_cons]
    omega

/-- `startsWith` compares the two encodings as a whole. -/
theorem startsWith_iff (text lead : Text) :
    startsWith text lead = true ↔ lead.utf8 <+: text.utf8 := by
  rw [startsWith, List.isPrefixOf_iff_prefix]
  have hsplit : text.utf8 = utf8 (text.take lead.utf8.length)
      ++ utf8 (text.drop lead.utf8.length) := by
    rw [← utf8_append, List.take_append_drop]
  constructor
  · intro h
    rw [hsplit]
    exact h.trans (List.prefix_append _ _)
  · intro h
    rcases Nat.lt_or_ge text.length lead.utf8.length with hshort | hlong
    · rwa [List.take_of_length_le (Nat.le_of_lt hshort)]
    · rw [hsplit] at h
      refine List.prefix_of_prefix_length_le h (List.prefix_append _ _) ?_
      rw [length_utf8 (text.take _)]
      refine Nat.le_trans ?_ (length_le_byteSize _)
      rw [List.length_take]
      omega

/-- The encodings of two characters, with anything behind them, are the same only
if the characters are. -/
theorem eq_of_utf8EncodeChar_append {c d : Char} {xs ys : List UInt8}
    (h : String.utf8EncodeChar c ++ xs = String.utf8EncodeChar d ++ ys) : c = d ∧ xs = ys := by
  have hdecode (c : Char) (xs : List UInt8) :
      ByteArray.utf8DecodeChar? (String.utf8EncodeChar c ++ xs).toByteArray 0 = some c := by
    rw [List.toByteArray_append]
    exact ByteArray.utf8DecodeChar?_utf8EncodeChar_append
  have hcd : c = d := by
    have hc := hdecode c xs
    rw [h, hdecode d ys] at hc
    exact (Option.some.inj hc).symm
  subst hcd
  exact ⟨rfl, List.append_cancel_left h⟩

theorem isPrefix_of_utf8 : ∀ {lead text : Text}, lead.utf8 <+: text.utf8 → lead <+: text
  | [], _, _ => List.nil_prefix
  | c :: lead, [], h => by
    obtain ⟨more, hmore⟩ := h
    have hlen := congrArg List.length hmore
    have hpos := c.utf8Size_pos
    simp only [utf8_cons, utf8_nil, List.length_append, String.length_utf8EncodeChar,
      List.length_nil] at hlen
    omega
  | c :: lead, d :: text, h => by
    obtain ⟨more, hmore⟩ := h
    rw [utf8_cons, utf8_cons, List.append_assoc] at hmore
    obtain ⟨rfl, hrest⟩ := eq_of_utf8EncodeChar_append hmore
    exact List.cons_prefix_cons.mpr ⟨rfl, isPrefix_of_utf8 ⟨more, hrest⟩⟩

/-- `startsWith` compares characters. -/
theorem startsWith_iff_isPrefix (text lead : Text) :
    startsWith text lead = true ↔ lead <+: text := by
  rw [startsWith_iff]
  constructor
  · exact isPrefix_of_utf8
  · rintro ⟨more, rfl⟩
    exact ⟨utf8 more, (utf8_append _ _).symm⟩

end Text

end Parsing
