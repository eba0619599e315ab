import CodeAtlas.Text.Segments
import CodeAtlas.Tree.Source
import Mathlib.Data.List.Induction
import Mathlib.Data.List.TakeDrop

/-!
# Characters, bytes and points

A node is placed by the bytes of a source, and reported by characters: its text, and the lines and
columns at which it starts and ends.  A grammar reports the coordinates of the two ends by rows and
bytes, from which the points are computed.  Where the node covers whole characters, its text is made
of these characters, and its points count the line feeds before them and the characters since the
last one.  So the points of a text are in the order of its characters, and each tells where it is.

Main results:

- Theorem {lit}`Text.Utf8.decode_encode`: a text is read back from its bytes.
- Theorem {lit}`Text.Utf8.takeWhile_reverse_encode`: the last line of the bytes is that of the text.
- Theorem {lit}`Point.ofIndex_before_iff`: points are in the order of the characters.
- Theorem {lit}`Tree.Source.pointAt_of_reports`: the point that reported coordinates give.
- Theorem {lit}`Tree.Source.node_speaks_of_characters`: the text and the points of a node.

Current gaps:

- Grammars are not part of the development.  What they document about coordinates is the hypothesis
  {lit}`Tree.Source.Reports`.
-/

namespace CodeAtlas
namespace Text
namespace Utf8

/-! ## Reading what was written -/

section Reading

variable (damage : List Char) {a b c d : UInt8} (rest : List UInt8)

/-- A byte below 0x80 is a character by itself. -/
theorem decode_one (ha : a.toNat < 0x80) :
    decode damage (a :: rest) = Char.ofNat a.toNat :: decode damage rest := by
  rw [decode.eq_def]
  exact if_pos ha

/-- A lead byte of two and a tail byte make a character. -/
theorem decode_two (hlow : 0xC2 ≤ a.toNat) (hhigh : a.toNat ≤ 0xDF) (hb : isTail b.toNat = true) :
    decode damage (a :: b :: rest) =
      Char.ofNat ((a.toNat - 0xC0) * 0x40 + (b.toNat - 0x80)) :: decode damage rest := by
  rw [decode.eq_def]
  simp only
  rw [if_neg (by omega), if_pos (by simp [hlow, hhigh]), if_pos hb]

/-- A lead byte of three and two bytes that fit it make a character. -/
theorem decode_three (hlow : 0xE0 ≤ a.toNat) (hhigh : a.toNat ≤ 0xEF)
    (hb : isSecondOfThree a.toNat b.toNat = true) (hc : isTail c.toNat = true) :
    decode damage (a :: b :: c :: rest) =
      Char.ofNat ((a.toNat - 0xE0) * 0x1000 + (b.toNat - 0x80) * 0x40 + (c.toNat - 0x80)) ::
        decode damage rest := by
  rw [decode.eq_def]
  simp only
  rw [if_neg (by omega), if_neg (by simp; omega), if_pos (by simp [hlow, hhigh]), if_pos hb,
    if_pos hc]

/-- A lead byte of four and three bytes that fit it make a character. -/
theorem decode_four (hlow : 0xF0 ≤ a.toNat) (hhigh : a.toNat ≤ 0xF4)
    (hb : isSecondOfFour a.toNat b.toNat = true) (hc : isTail c.toNat = true)
    (hd : isTail d.toNat = true) :
    decode damage (a :: b :: c :: d :: rest) =
      Char.ofNat ((a.toNat - 0xF0) * 0x40000 + (b.toNat - 0x80) * 0x1000
        + (c.toNat - 0x80) * 0x40 + (d.toNat - 0x80)) :: decode damage rest := by
  rw [decode.eq_def]
  simp only
  rw [if_neg (by omega), if_neg (by simp; omega), if_neg (by simp; omega),
    if_pos (by simp [hlow, hhigh]), if_pos hb, if_pos hc, if_pos hd]

end Reading

theorem toNat_byte {n : Nat} (h : n < 0x100) : (UInt8.ofNat n).toNat = n :=
  UInt8.toNat_ofNat_of_lt' h

/-- A character is read back from its bytes, whatever follows them. -/
theorem decode_encodeChar_append (damage : List Char) (c : Char) (rest : List UInt8) :
    decode damage (encodeChar c ++ rest) = c :: decode damage rest := by
  have hvalid := toNat_valid c
  suffices h : ∃ n, decode damage (encodeChar c ++ rest) = Char.ofNat n :: decode damage rest ∧
      n = c.toNat by
    rcases h with ⟨n, hdecode, rfl⟩
    rw [hdecode, Char.ofNat_toNat]
  have htail (n : Nat) : isTail (UInt8.ofNat (0x80 + n % 0x40)).toNat = true := by
    rw [toNat_byte (by omega)]
    simp [isTail]
    omega
  have hlast := toNat_byte (show 0x80 + c.toNat % 0x40 < 0x100 by omega)
  have hthird := toNat_byte (show 0x80 + c.toNat / 0x40 % 0x40 < 0x100 by omega)
  unfold encodeChar
  dsimp only
  split
  next hone =>
    have hlead := toNat_byte (show c.toNat < 0x100 by omega)
    exact ⟨_, decode_one damage rest (by rwa [hlead]), hlead⟩
  · split
    next htwo =>
      have hlead := toNat_byte (show 0xC0 + c.toNat / 0x40 < 0x100 by omega)
      refine ⟨_, decode_two damage rest (by omega) (by omega) (htail _), ?_⟩
      rw [hlead, hlast]
      omega
    · split
      next hthree =>
        have hlead := toNat_byte (show 0xE0 + c.toNat / 0x1000 < 0x100 by omega)
        have hsecond : isSecondOfThree (0xE0 + c.toNat / 0x1000)
            (0x80 + c.toNat / 0x40 % 0x40) = true := by
          simp [isSecondOfThree, isTail]
          omega
        refine ⟨_, decode_three damage rest (by omega) (by omega) (by rwa [hlead, hthird])
          (htail _), ?_⟩
        rw [hlead, hthird, hlast]
        omega
      next hfour =>
        have hlead := toNat_byte (show 0xF0 + c.toNat / 0x40000 < 0x100 by omega)
        have hfollowing := toNat_byte (show 0x80 + c.toNat / 0x1000 % 0x40 < 0x100 by omega)
        have hsecond : isSecondOfFour (0xF0 + c.toNat / 0x40000)
            (0x80 + c.toNat / 0x1000 % 0x40) = true := by
          simp [isSecondOfFour, isTail]
          omega
        refine ⟨_, decode_four damage rest (by omega) (by omega) (by rwa [hlead, hfollowing])
          (htail _) (htail _), ?_⟩
        rw [hlead, hfollowing, hthird, hlast]
        omega

theorem encode_cons (c : Char) (cs : List Char) : encode (c :: cs) = encodeChar c ++ encode cs :=
  List.flatMap_cons

/-- A text is read back from its bytes. -/
theorem decode_encode (damage cs : List Char) : decode damage (encode cs) = cs := by
  induction cs with
  | nil => rfl
  | cons c cs ih => rw [encode_cons, decode_encodeChar_append, ih]

/-- The bytes of a character are those that the standard gives it. -/
theorem encodeChar_eq (c : Char) : encodeChar c = String.utf8EncodeChar c := by
  have hvalid := toNat_valid c
  have hlast : c.toNat % 0x40 + 0x80 = 0x80 + c.toNat % 0x40 := by omega
  unfold encodeChar String.utf8EncodeChar
  simp only [show c.val.toNat = c.toNat from rfl, hlast]
  by_cases hone : c.toNat < 0x80
  · rw [if_pos hone, if_pos (by omega)]
  · rw [if_neg hone, if_neg (show ¬c.toNat ≤ 0x7F by omega)]
    by_cases htwo : c.toNat < 0x800
    · rw [if_pos htwo, if_pos (by omega),
        show c.toNat / 0x40 % 0x20 + 0xC0 = 0xC0 + c.toNat / 0x40 by omega]
    · rw [if_neg htwo, if_neg (show ¬c.toNat ≤ 0x7FF by omega),
        show c.toNat / 0x40 % 0x40 + 0x80 = 0x80 + c.toNat / 0x40 % 0x40 by omega]
      by_cases hthree : c.toNat < 0x10000
      · rw [if_pos hthree, if_pos (by omega),
          show c.toNat / 0x1000 % 0x10 + 0xE0 = 0xE0 + c.toNat / 0x1000 by omega]
      · rw [if_neg hthree, if_neg (show ¬c.toNat ≤ 0xFFFF by omega),
          show c.toNat / 0x40000 % 0x08 + 0xF0 = 0xF0 + c.toNat / 0x40000 by omega,
          show c.toNat / 0x1000 % 0x40 + 0x80 = 0x80 + c.toNat / 0x1000 % 0x40 by omega]

/-- The bytes of a text are as many as its size says. -/
theorem length_encode (cs : List Char) : (encode cs).length = (String.ofList cs).utf8ByteSize := by
  induction cs with
  | nil => rfl
  | cons c cs ih =>
      rw [encode_cons, List.length_append, ih, encodeChar_eq, String.length_utf8EncodeChar,
        String.ofList_cons, String.utf8ByteSize_append, String.utf8ByteSize_singleton]

/-! ## Line feeds among the bytes -/

/-- Only a line feed is written with the byte of a line feed. -/
theorem newline_mem_encodeChar_iff (c : Char) : 0x0A ∈ encodeChar c ↔ c = '\n' := by
  have hvalid := toNat_valid c
  have hbyte {n : Nat} (h : n < 0x100) : (0x0A : UInt8) = UInt8.ofNat n ↔ n = 0x0A := by
    rw [← UInt8.toNat_inj, toNat_byte h]
    exact eq_comm
  have hchar : c = '\n' ↔ c.toNat = 0x0A := by
    rw [← Char.toNat_inj]
    rfl
  rw [hchar]
  unfold encodeChar
  dsimp only
  -- in longer forms every byte is at least 0x80
  split_ifs <;>
    simp (disch := omega) only [List.mem_cons, List.not_mem_nil, or_false, hbyte] <;> omega

theorem encodeChar_newline : encodeChar '\n' = [0x0A] :=
  rfl

/-- There are as many line feeds among the bytes as among the characters. -/
theorem count_newline_encode (cs : List Char) : (encode cs).count 0x0A = cs.count '\n' := by
  induction cs with
  | nil => rfl
  | cons c cs ih =>
      rw [encode_cons, List.count_append, ih]
      by_cases hc : c = '\n'
      · rw [hc, encodeChar_newline, List.count_cons_self, List.count_cons_self, List.count_nil]
        omega
      · have hnone : (encodeChar c).count 0x0A = 0 := by
          rwa [List.count_eq_zero, newline_mem_encodeChar_iff]
        rw [List.count_cons_of_ne hc, hnone, Nat.zero_add]

/-- The bytes after the last line feed of a text are those of its last line. -/
theorem takeWhile_reverse_encode (cs : List Char) :
    ((encode cs).reverse.takeWhile (· != 0x0A)).reverse = encode (lastSegment '\n' cs) := by
  induction cs using List.reverseRecOn with
  | nil => rfl
  | append_singleton cs c ih =>
      have hsingle : encode [c] = encodeChar c := List.flatMap_singleton _ _
      rw [encode_append, hsingle, List.reverse_append]
      by_cases hc : c = '\n'
      · rw [hc, lastSegment_append_cons cs List.not_mem_nil, encodeChar_newline]
        rfl
      · have hplain : ∀ b ∈ (encodeChar c).reverse, (b != 0x0A) = true := by
          intro b hb
          rw [bne_iff_ne]
          rintro rfl
          exact hc ((newline_mem_encodeChar_iff c).1 (List.mem_reverse.1 hb))
        rw [List.takeWhile_append_of_pos hplain, List.reverse_append, List.reverse_reverse, ih,
          lastSegment_append cs (by simpa using Ne.symm hc), encode_append, hsingle]

end Utf8

/-! ## Lines and columns of characters -/

/-- The index just after the last line feed among the first characters of a text. -/
def lineStart (cs : List Char) : Nat → Nat
  | 0 => 0
  | index + 1 => if cs[index]? = some '\n' then index + 1 else lineStart cs index

/-- A line starts no later than its characters. -/
theorem lineStart_le (cs : List Char) (index : Nat) : lineStart cs index ≤ index := by
  induction index with
  | zero => exact Nat.le_refl 0
  | succ index ih =>
      rw [lineStart]
      split <;> omega

/-- The last line of the first characters of a text goes back to where that line starts. -/
theorem length_lastSegment_take {cs : List Char} {index : Nat} (h : index ≤ cs.length) :
    (lastSegment '\n' (cs.take index)).length = index - lineStart cs index := by
  induction index with
  | zero => rfl
  | succ index ih =>
      have hchar : cs[index]? = some cs[index] := List.getElem?_eq_getElem h
      have hle := lineStart_le cs index
      rw [List.take_add_one, hchar, Option.toList_some, lineStart, hchar]
      by_cases hc : cs[index] = '\n'
      · rw [hc, lastSegment_append_cons _ List.not_mem_nil, if_pos rfl, Nat.sub_self,
          List.length_nil]
      · rw [lastSegment_append _ (by simpa using Ne.symm hc), if_neg (by simpa using hc),
          List.length_append, ih (by omega), List.length_singleton]
        omega

end Text

namespace Point

/-- A point comes before another: on an earlier line, or in an earlier column of the same line. -/
def Before (p q : Point) : Prop := p.line < q.line ∨ p.line = q.line ∧ p.column < q.column

theorem Before.trans {p q r : Point} (hpq : p.Before q) (hqr : q.Before r) : p.Before r := by
  unfold Before at *
  omega

theorem not_before_self (p : Point) : ¬p.Before p := by
  unfold Before
  omega

/-- The test on points is the order with equality. -/
theorem le_iff {p q : Point} : p.le q = true ↔ p = q ∨ p.Before q := by
  rcases p with ⟨pline, pcolumn⟩
  rcases q with ⟨qline, qcolumn⟩
  simp only [le, Before, mk.injEq, Bool.or_eq_true, Bool.and_eq_true, decide_eq_true_eq, beq_iff_eq]
  omega

/-- The point of the character with an index in a text, or of the end of the text. -/
def ofIndex (cs : List Char) (index : Nat) : Point :=
  ⟨1 + (cs.take index).count '\n', index - Text.lineStart cs index⟩

/-- The next character is in the next column, or after a line feed on the next line. -/
theorem ofIndex_before_succ (cs : List Char) (index : Nat) :
    (ofIndex cs index).Before (ofIndex cs (index + 1)) := by
  have hle := Text.lineStart_le cs index
  rw [Before, ofIndex, ofIndex, List.take_add_one, Text.lineStart, List.count_append]
  by_cases hc : cs[index]? = some '\n'
  · left
    rw [hc, Option.toList_some, List.count_singleton_self]
    dsimp only
    omega
  · right
    have hnone : cs[index]?.toList.count '\n' = 0 := by
      rw [List.count_eq_zero]
      simpa using hc
    rw [if_neg hc, hnone]
    dsimp only
    omega

/-- Later characters have later points. -/
theorem ofIndex_before {cs : List Char} {i j : Nat} (h : i < j) :
    (ofIndex cs i).Before (ofIndex cs j) := by
  induction j with
  | zero => omega
  | succ j ih =>
      rcases Nat.lt_succ_iff_lt_or_eq.1 h with hlt | rfl
      · exact (ih hlt).trans (ofIndex_before_succ cs j)
      · exact ofIndex_before_succ cs i

/-- Points are in the order of the characters. -/
theorem ofIndex_before_iff {cs : List Char} {i j : Nat} :
    (ofIndex cs i).Before (ofIndex cs j) ↔ i < j := by
  refine ⟨fun h => ?_, ofIndex_before⟩
  by_contra hnot
  rcases Nat.lt_or_eq_of_le (Nat.le_of_not_lt hnot) with hlt | rfl
  · exact not_before_self _ (h.trans (ofIndex_before hlt))
  · exact not_before_self _ h

/-- A point tells which character it is the point of. -/
theorem ofIndex_inj {cs : List Char} {i j : Nat} : ofIndex cs i = ofIndex cs j ↔ i = j := by
  refine ⟨fun h => ?_, fun h => by rw [h]⟩
  have hij : ¬i < j := fun hlt => not_before_self _ (h ▸ ofIndex_before hlt)
  have hji : ¬j < i := fun hlt => not_before_self _ (h ▸ ofIndex_before hlt)
  omega

theorem ofIndex_le_iff {cs : List Char} {i j : Nat} :
    (ofIndex cs i).le (ofIndex cs j) = true ↔ i ≤ j := by
  rw [le_iff, ofIndex_inj, ofIndex_before_iff]
  omega

end Point

/-! ## Coordinates -/

namespace Tree
namespace Source

/-- A grammar reports coordinates for an offset as it documents them: the row is the number of line
feeds before the offset, and the byte column the number of bytes since the last of these. -/
structure Reports (source : Source) (offset : Nat) (coordinates : Coordinates) : Prop where
  row_eq : coordinates.row = (source.bytes.take offset).count 0x0A
  byteColumn_eq : coordinates.byteColumn = (source.lineUpTo offset).length

section Coordinates

variable (source : Source) (offset : Nat)

/-- The bytes since the last line feed are the last ones before the offset. -/
theorem lineUpTo_suffix : source.lineUpTo offset <:+ source.bytes.take offset := by
  rw [lineUpTo, ← List.reverse_prefix, List.reverse_reverse]
  exact List.takeWhile_prefix _

theorem lineOffset_le : source.lineOffset offset ≤ offset :=
  Nat.le_trans (Nat.sub_le _ _) (List.length_take_le _ _)

/-- The bytes from the start of a line on are those that a scan back to the line feed finds. -/
theorem slice_lineOffset :
    source.slice (source.lineOffset offset) offset = source.lineUpTo offset :=
  (List.suffix_iff_eq_drop.1 (source.lineUpTo_suffix offset)).symm

/-- The point of an offset counts the line feeds before it and the characters since the last one. -/
theorem point_eq :
    source.point offset =
      ⟨(source.bytes.take offset).count 0x0A + 1,
        (Text.Utf8.decodeReplacing (source.lineUpTo offset)).length⟩ := by
  have hle := source.lineOffset_le offset
  have hstart : (offset : Int) - ((offset - source.lineOffset offset : Nat) : Int) =
      source.lineOffset offset := by
    omega
  have hslice : source.sliceFrom (source.lineOffset offset) offset = source.lineUpTo offset := by
    rw [sliceFrom, if_neg (by omega), Int.toNat_natCast, slice_lineOffset]
  rw [point, pointAt, coordinates]
  dsimp only
  rw [hstart, hslice]

variable {offset}

/-- Inside a source the reported coordinates are those that are found by scanning its bytes. -/
theorem reports_iff (h : offset ≤ source.bytes.length) {coordinates : Coordinates} :
    source.Reports offset coordinates ↔ coordinates = source.coordinates offset := by
  have hline : (source.lineUpTo offset).length = offset - source.lineOffset offset := by
    have hle := (source.lineUpTo_suffix offset).length_le
    rw [List.length_take_of_le h] at hle
    rw [lineOffset, List.length_take_of_le h]
    omega
  rcases coordinates with ⟨row, byteColumn⟩
  rw [Source.coordinates, Coordinates.mk.injEq, ← hline]
  exact ⟨fun hreports => ⟨hreports.row_eq, hreports.byteColumn_eq⟩, fun heq => ⟨heq.1, heq.2⟩⟩

/-- Reported coordinates give the point of the offset. -/
theorem pointAt_of_reports (h : offset ≤ source.bytes.length) {coordinates : Coordinates}
    (hreports : source.Reports offset coordinates) :
    source.pointAt offset coordinates = source.point offset := by
  rw [(source.reports_iff h).1 hreports, point]

end Coordinates
end Source
end Tree

/-! ## Nodes that cover whole characters -/

/-- The number of bytes before the character with an index in a text. -/
def Text.byteOffset (text : String) (index : Nat) : Nat :=
  (String.ofList (text.toList.take index)).utf8ByteSize

/-- Later characters have later bytes. -/
theorem Text.byteOffset_lt {text : String} {i j : Nat} (h : i < j) (hj : j ≤ text.length) :
    byteOffset text i < byteOffset text j := by
  have hnext (index : Nat) (hindex : index < text.length) :
      byteOffset text index < byteOffset text (index + 1) := by
    have hchar : text.toList[index]? = some text.toList[index] :=
      List.getElem?_eq_getElem (String.length_toList ▸ hindex)
    rw [byteOffset, byteOffset, List.take_add_one, hchar, Option.toList_some, String.ofList_append,
      String.utf8ByteSize_append, ← String.singleton_eq_ofList, String.utf8ByteSize_singleton]
    exact Nat.lt_add_of_pos_right (Char.utf8Size_pos _)
  induction j with
  | zero => omega
  | succ j ih =>
      rcases Nat.lt_succ_iff_lt_or_eq.1 h with hlt | rfl
      · exact Nat.lt_trans (ih hlt (by omega)) (hnext j hj)
      · exact hnext i hj

/-- An offset is at the boundary of a character: a character starts there, or the text ends. -/
def Text.IsBoundary (text : String) (offset : Nat) : Prop :=
  ∃ index ≤ text.length, offset = byteOffset text index

instance (text : String) (offset : Nat) : Decidable (Text.IsBoundary text offset) :=
  decidable_of_iff ((List.range (text.length + 1)).any fun index =>
    offset == Text.byteOffset text index) <| by
      simp only [List.any_eq_true, List.mem_range, Nat.lt_succ_iff, beq_iff_eq, Text.IsBoundary]

namespace Tree
namespace Source

open Text

variable (text : String)

/-- The bytes before a character are those of the characters before it. -/
theorem take_byteOffset (index : Nat) :
    (ofText text).bytes.take (byteOffset text index) = Utf8.encode (text.toList.take index) := by
  have hsplit : (ofText text).bytes =
      Utf8.encode (text.toList.take index) ++ Utf8.encode (text.toList.drop index) := by
    rw [← Utf8.encode_append, List.take_append_drop]
    rfl
  rw [hsplit, byteOffset, ← Utf8.length_encode, List.take_left]

/-- The characters between two indices are read back from the bytes between their offsets. -/
theorem chars_byteOffset {first last : Nat} (h : first ≤ last) :
    (ofText text).chars (byteOffset text first) (byteOffset text last) =
      (text.toList.take last).drop first := by
  have hsplit : text.toList.take last =
      text.toList.take first ++ (text.toList.take last).drop first := by
    have hfirst : text.toList.take first = (text.toList.take last).take first := by
      rw [List.take_take, Nat.min_eq_left h]
    rw [hfirst, List.take_append_drop]
  have hslice : (ofText text).slice (byteOffset text first) (byteOffset text last) =
      Utf8.encode ((text.toList.take last).drop first) := by
    rw [slice, take_byteOffset, hsplit, Utf8.encode_append, byteOffset, ← Utf8.length_encode,
      List.drop_left, ← hsplit]
  rw [chars, hslice]
  exact Utf8.decode_encode _ _

/-- The bytes since the last line feed before a character are those of the characters since then. -/
theorem lineUpTo_byteOffset (index : Nat) :
    (ofText text).lineUpTo (byteOffset text index) =
      Utf8.encode (lastSegment '\n' (text.toList.take index)) := by
  rw [lineUpTo, take_byteOffset, Utf8.takeWhile_reverse_encode]

/-- The point of a character is reported for the offset of its first byte. -/
theorem point_byteOffset {index : Nat} (h : index ≤ text.length) :
    (ofText text).point (byteOffset text index) = Point.ofIndex text.toList index := by
  have hcolumn := length_lastSegment_take (String.length_toList ▸ h : index ≤ text.toList.length)
  rw [point_eq, take_byteOffset, Utf8.count_newline_encode, lineUpTo_byteOffset,
    Utf8.decodeReplacing, Utf8.decode_encode, hcolumn, Nat.add_comm]
  rfl

/-- Points are in the order of the offsets, as far as these are boundaries of characters. -/
theorem point_le {a b : Nat} (ha : IsBoundary text a) (hb : IsBoundary text b) (h : a ≤ b) :
    ((ofText text).point a).le ((ofText text).point b) = true := by
  rcases ha with ⟨i, hi, rfl⟩
  rcases hb with ⟨j, hj, rfl⟩
  rw [point_byteOffset text hi, point_byteOffset text hj, Point.ofIndex_le_iff]
  by_contra hnot
  have hlt := byteOffset_lt (Nat.lt_of_not_le hnot) hi
  omega

/-- No character starts after the bytes of a text. -/
theorem byteOffset_le (index : Nat) : byteOffset text index ≤ (ofText text).bytes.length := by
  have hlength := congrArg List.length (take_byteOffset text index)
  rw [Utf8.length_encode, List.length_take] at hlength
  exact Nat.le_trans (Nat.le_of_eq hlength.symm) (Nat.min_le_right _ _)

/-- Reported coordinates give the point of a character for the offset of its first byte. -/
theorem pointAt_byteOffset {index : Nat} (h : index ≤ text.length) {coordinates : Coordinates}
    (hreports : (ofText text).Reports (byteOffset text index) coordinates) :
    (ofText text).pointAt (byteOffset text index) coordinates =
      Point.ofIndex text.toList index := by
  rw [pointAt_of_reports _ (byteOffset_le text index) hreports, point_byteOffset text h]

/-- A node that covers the characters between two indices has them as its text.  The points that are
computed from the coordinates of its ends give the lines by the line feeds before them, and the
columns by the characters since the last line feed; they are the points that the node has.  Later
characters have later points, and different characters have different ones. -/
theorem node_speaks_of_characters {first last : Nat} (hle : first ≤ last)
    (hlast : last ≤ text.length) {node : Node} (hstart : node.label.start = byteOffset text first)
    (hstop : node.label.stop = byteOffset text last) {start stop : Coordinates}
    (hreportsStart : (ofText text).Reports node.label.start start)
    (hreportsStop : (ofText text).Reports node.label.stop stop) :
    let source := ofText text
    let cs := text.toList
    source.text node = String.ofList ((cs.take last).drop first) ∧
    source.pointAt node.label.start start =
      ⟨1 + (cs.take first).count '\n', first - lineStart cs first⟩ ∧
    source.pointAt node.label.stop stop =
      ⟨1 + (cs.take last).count '\n', last - lineStart cs last⟩ ∧
    source.startPoint node = source.pointAt node.label.start start ∧
    source.endPoint node = source.pointAt node.label.stop stop ∧
    ∀ i ≤ text.length, ∀ j ≤ text.length, ∀ p q : Coordinates,
      source.Reports (byteOffset text i) p → source.Reports (byteOffset text j) q →
      ((source.pointAt (byteOffset text i) p).Before (source.pointAt (byteOffset text j) q) ↔
        i < j) ∧
      (source.pointAt (byteOffset text i) p = source.pointAt (byteOffset text j) q ↔ i = j) := by
  intro source cs
  have hfirst : first ≤ text.length := Nat.le_trans hle hlast
  rw [startPoint, endPoint, Source.text]
  rw [hstart] at hreportsStart ⊢
  rw [hstop] at hreportsStop ⊢
  refine ⟨?_, ?_, ?_, ?_, ?_, ?_⟩
  · rw [chars_byteOffset text hle]
  · exact pointAt_byteOffset text hfirst hreportsStart
  · exact pointAt_byteOffset text hlast hreportsStop
  · exact (pointAt_of_reports source (byteOffset_le text first) hreportsStart).symm
  · exact (pointAt_of_reports source (byteOffset_le text last) hreportsStop).symm
  · intro i hi j hj p q hp hq
    rw [pointAt_byteOffset text hi hp, pointAt_byteOffset text hj hq]
    exact ⟨Point.ofIndex_before_iff, Point.ofIndex_inj⟩

/-- Characters of one to four bytes, of which only the line feed ends a line. -/
theorem node_speaks_of_characters_mixed :
    let text := "aé\n€\r😀b"
    let node : Node := .mk ⟨0, "string", none, true, false, false, false, 4, 12⟩ []
    node.label.start = byteOffset text 3 ∧ node.label.stop = byteOffset text 6 ∧
      (ofText text).Reports node.label.start ⟨1, 0⟩ ∧
      (ofText text).Reports node.label.stop ⟨1, 8⟩ ∧
      (ofText text).text node = "€\r😀" ∧
      (ofText text).pointAt node.label.start ⟨1, 0⟩ = ⟨2, 0⟩ ∧
      (ofText text).pointAt node.label.stop ⟨1, 8⟩ = ⟨2, 3⟩ ∧
      (ofText text).startPoint node = ⟨2, 0⟩ ∧ (ofText text).endPoint node = ⟨2, 3⟩ := by
  intro text node
  have hstart : node.label.start = byteOffset text 3 := by decide
  have hstop : node.label.stop = byteOffset text 6 := by decide
  have hreportsStart : (ofText text).Reports node.label.start ⟨1, 0⟩ := by
    rw [hstart]
    exact ⟨by rw [take_byteOffset]; decide, by rw [lineUpTo_byteOffset]; decide⟩
  have hreportsStop : (ofText text).Reports node.label.stop ⟨1, 8⟩ := by
    rw [hstop]
    exact ⟨by rw [take_byteOffset]; decide, by rw [lineUpTo_byteOffset]; decide⟩
  rcases node_speaks_of_characters text (by decide) (by decide) hstart hstop hreportsStart
    hreportsStop with ⟨htext, hfirst, hlast, hstartPoint, hendPoint, -⟩
  have hfirst := hfirst.trans (show _ = (⟨2, 0⟩ : Point) by decide)
  have hlast := hlast.trans (show _ = (⟨2, 3⟩ : Point) by decide)
  exact ⟨hstart, hstop, hreportsStart, hreportsStop, htext.trans (by decide), hfirst, hlast,
    hstartPoint.trans hfirst, hendPoint.trans hlast⟩

end Source
end Tree
end CodeAtlas
