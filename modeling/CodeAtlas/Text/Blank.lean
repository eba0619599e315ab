/-!
# Blank characters and trimming

Names and patterns count as missing when they hold nothing but blanks.  Blank are the characters
with the Unicode property White_Space and the four information separators U+001C to U+001F.
-/

namespace CodeAtlas
namespace Text

/-- Whether a character counts as blank. -/
def isBlankChar (c : Char) : Bool :=
  let n := c.toNat
  (0x09 ≤ n && n ≤ 0x0D) || (0x1C ≤ n && n ≤ 0x20) || n == 0x85 || n == 0xA0 || n == 0x1680
    || (0x2000 ≤ n && n ≤ 0x200A) || n == 0x2028 || n == 0x2029 || n == 0x202F || n == 0x205F
    || n == 0x3000

/-- Whether a text holds nothing but blanks. -/
def isBlank (text : String) : Bool :=
  text.toList.all isBlankChar

/-- Drops the characters at both ends that satisfy `p`. -/
def trimBoth (p : Char → Bool) (cs : List Char) : List Char :=
  ((cs.dropWhile p).reverse.dropWhile p).reverse

/-- Drops the blanks at both ends. -/
def strip (text : String) : String :=
  String.ofList (trimBoth isBlankChar text.toList)

end Text
end CodeAtlas
