/-!
# UTF-8 with damaged parts

Syntax trees speak of byte offsets, and a byte range may cut a character in two.  Reading such a
range replaces each damaged part, as long as it could still begin a character, by the characters
that the caller chooses: one replacement character, or none.
-/

namespace CodeAtlas
namespace Text

/-- The number of a character is below the surrogates or above them. -/
theorem toNat_valid (c : Char) :
    c.toNat < 0xD800 ∨ 0xE000 ≤ c.toNat ∧ c.toNat < 0x110000 := by
  rcases c.valid with h | h
  · exact .inl h
  · have hlow : 0xDFFF < c.toNat := h.1
    exact .inr ⟨by omega, h.2⟩

namespace Utf8

/-! ## Writing -/

/-- The bytes of one character. -/
def encodeChar (c : Char) : List UInt8 :=
  let n := c.toNat
  if n < 0x80 then [UInt8.ofNat n]
  else if n < 0x800 then [UInt8.ofNat (0xC0 + n / 0x40), UInt8.ofNat (0x80 + n % 0x40)]
  else if n < 0x10000 then
    [UInt8.ofNat (0xE0 + n / 0x1000), UInt8.ofNat (0x80 + n / 0x40 % 0x40),
      UInt8.ofNat (0x80 + n % 0x40)]
  else
    [UInt8.ofNat (0xF0 + n / 0x40000), UInt8.ofNat (0x80 + n / 0x1000 % 0x40),
      UInt8.ofNat (0x80 + n / 0x40 % 0x40), UInt8.ofNat (0x80 + n % 0x40)]

/-- The bytes of a text. -/
def encode (cs : List Char) : List UInt8 := cs.flatMap encodeChar

/-- Encoding a text is encoding its parts. -/
@[simp]
theorem encode_append (cs ds : List Char) : encode (cs ++ ds) = encode cs ++ encode ds := by
  simp [encode]

/-! ## Reading -/

/-- Whether a byte can continue a character. -/
def isTail (b : Nat) : Bool := 0x80 ≤ b && b ≤ 0xBF

/-- Whether `b` can follow the lead byte of a three-byte character: overlong forms and surrogates
are excluded. -/
def isSecondOfThree (lead b : Nat) : Bool :=
  isTail b && (lead != 0xE0 || 0xA0 ≤ b) && (lead != 0xED || b < 0xA0)

/-- Whether `b` can follow the lead byte of a four-byte character: overlong forms and numbers
above the last code point are excluded. -/
def isSecondOfFour (lead b : Nat) : Bool :=
  isTail b && (lead != 0xF0 || 0x90 ≤ b) && (lead != 0xF4 || b < 0x90)

/-- Reads bytes as text, putting `damage` in place of each damaged part. -/
def decode (damage : List Char) : List UInt8 → List Char
  | [] => []
  | a :: rest =>
    let lead := a.toNat
    if lead < 0x80 then Char.ofNat lead :: decode damage rest
    else if 0xC2 ≤ lead && lead ≤ 0xDF then
      match rest with
      | [] => damage
      | b :: rest₂ =>
        if isTail b.toNat then
          Char.ofNat ((lead - 0xC0) * 0x40 + (b.toNat - 0x80)) :: decode damage rest₂
        else damage ++ decode damage (b :: rest₂)
    else if 0xE0 ≤ lead && lead ≤ 0xEF then
      match rest with
      | [] => damage
      | b :: rest₂ =>
        if isSecondOfThree lead b.toNat then
          match rest₂ with
          | [] => damage
          | c :: rest₃ =>
            if isTail c.toNat then
              Char.ofNat ((lead - 0xE0) * 0x1000 + (b.toNat - 0x80) * 0x40 + (c.toNat - 0x80))
                :: decode damage rest₃
            else damage ++ decode damage (c :: rest₃)
        else damage ++ decode damage (b :: rest₂)
    else if 0xF0 ≤ lead && lead ≤ 0xF4 then
      match rest with
      | [] => damage
      | b :: rest₂ =>
        if isSecondOfFour lead b.toNat then
          match rest₂ with
          | [] => damage
          | c :: rest₃ =>
            if isTail c.toNat then
              match rest₃ with
              | [] => damage
              | d :: rest₄ =>
                if isTail d.toNat then
                  Char.ofNat ((lead - 0xF0) * 0x40000 + (b.toNat - 0x80) * 0x1000
                    + (c.toNat - 0x80) * 0x40 + (d.toNat - 0x80)) :: decode damage rest₄
                else damage ++ decode damage (d :: rest₄)
            else damage ++ decode damage (c :: rest₃)
        else damage ++ decode damage (b :: rest₂)
    else damage ++ decode damage rest

/-- Reads bytes as text with one replacement character for each damaged part. -/
def decodeReplacing (bytes : List UInt8) : List Char :=
  decode [Char.ofNat 0xFFFD] bytes

/-- Reads bytes as text without the damaged parts. -/
def decodeDropping (bytes : List UInt8) : List Char :=
  decode [] bytes

end Utf8

/-! ## Line ends -/

/-- Turns each carriage return, alone or before a line feed, into a line feed. -/
def unifyLineEnds : List Char → List Char
  | [] => []
  | '\r' :: '\n' :: rest => '\n' :: unifyLineEnds rest
  | '\r' :: rest => '\n' :: unifyLineEnds rest
  | c :: rest => c :: unifyLineEnds rest

end Text
end CodeAtlas
