import CodeAtlas.Text.Digit
import CodeAtlas.Toml.Span

/-!
# Texts in quotes

A text stands in single or double quotes, one or three at each end.  In double quotes a backslash
marks an escape; characters by number are put in first, and what they give is read for escapes
again.
-/

namespace CodeAtlas
namespace Toml

/-! ## Escapes -/

/-- The character of a simple escape. -/
def simpleEscape? (c : Char) : Option Char :=
  match c with
  | '0' => some (Char.ofNat 0)
  | 'b' => some (Char.ofNat 0x08)
  | 'f' => some (Char.ofNat 0x0C)
  | 'n' => some '\n'
  | 'r' => some '\r'
  | 't' => some '\t'
  | '"' => some '"'
  | _ => none

/-- Whether a letter behind a backslash announces a character by number. -/
def announcesNumber (c : Char) : Bool := c == 'u' || c == 'U'

/-- Replaces the simple escapes of a text.  Characters by number and a backslash at the end stay
as they are. -/
def unescape? : List Char → Option (List Char)
  | [] => some []
  | ['\\'] => some ['\\']
  | '\\' :: c :: rest =>
    if c = '\\' then (unescape? rest).map ('\\' :: ·)
    else if announcesNumber c then (unescape? rest).map fun cs => '\\' :: c :: cs
    else
      match simpleEscape? c with
      | some char => (unescape? rest).map (char :: ·)
      | none => none
  | c :: rest => (unescape? rest).map (c :: ·)

/-- Whether the pieces behind the backslashes of a text may stand there.  `escaped` says that an
odd number of empty pieces, that is of further backslashes, stands in front. -/
def escapesAllowed (escaped : Bool) : List (List Char) → Bool
  | [] => true
  | [] :: pieces => escapesAllowed (!escaped) pieces
  | (c :: _) :: pieces =>
    (escaped || announcesNumber c || (simpleEscape? c).isSome) && escapesAllowed false pieces

/-! ## Characters by number -/

/-- The character whose number the digits in front of a piece spell, and the rest of the piece.  A
piece shorter than `width` is taken as a whole. -/
def numberedChar? (width : Nat) (piece : List Char) : Option (Char × List Char) := do
  let digits := piece.take width
  let number ← digits.foldlM (fun n c => (Text.hexValue? c).map (n * 16 + ·)) 0
  if digits.isEmpty || !number.isValidChar then none
  else some (Char.ofNat number, piece.drop width)

/-- Puts characters in the place of their numbers.  `done` is the text so far, backwards, and the
pieces are what stands behind each mark.  A mark whose backslash is itself escaped is none; that
is looked at only in front of the first mark and behind such ones. -/
def putNumbered (mark : Char) (width : Nat) (escaped : Bool) (done : List Char) :
    List (List Char) → Option (List Char)
  | [] => some done.reverse
  | piece :: pieces =>
    if escaped then
      putNumbered mark width (oddBackslashes piece.reverse)
        (piece.reverse ++ mark :: '\\' :: done) pieces
    else do
      let (char, rest) ← numberedChar? width piece
      putNumbered mark width false (rest.reverse ++ char :: done) pieces

/-- Replaces the characters of a text that are given by `width` digits behind a mark. -/
def numbered? (mark : Char) (width : Nat) (cs : List Char) : Option (List Char) :=
  match pairSegments '\\' mark cs with
  | [] => some cs
  | first :: pieces =>
    putNumbered mark width (oddBackslashes first.reverse) first.reverse pieces

/-! ## Quotes -/

/-- Whether nothing follows the quote that closes a text.  The pieces are what stands between the
quotes behind the opening ones; `count` is how many empty pieces have been seen of a long text
since the last other one. -/
def closesOnce (long closed : Bool) (count : Nat) : List (List Char) → Bool
  | [] => true
  | [] :: pieces =>
    if long then closesOnce long closed (count + 1) pieces else closesOnce long true count pieces
  | piece :: pieces =>
    if oddBackslashes piece.reverse then closesOnce long closed count pieces
    else if closed then false
    else if !long || 1 < count then closesOnce long true count pieces
    else closesOnce long false 0 pieces

/-- Whether nothing follows the text in quotes that stands in front. -/
def isOneText (quote : Char) (cs : List Char) : Bool :=
  match Text.segments quote (cs.drop 1) with
  | [] :: [] :: pieces => closesOnce true false 0 pieces
  | pieces => closesOnce false false 0 pieces

/-- What stands between the quotes of a text. -/
def betweenQuotes (quote : Char) (cs : List Char) : List Char :=
  if (cs.drop 1).take 2 == [quote, quote] then inner ((cs.drop 2).take (cs.length - 4))
  else inner cs

/-- Replaces the escapes of a text in double quotes, the quotes included. -/
def unescapeAll? (cs : List Char) : Option (List Char) :=
  if escapesAllowed false ((Text.segments '\\' cs).drop 1) then do
    let cs ← numbered? 'u' 4 cs
    let cs ← numbered? 'U' 8 cs
    unescape? cs
  else none

/-- The text that quotes enclose. -/
def text? (cs : List Char) : Option (List Char) :=
  match cs with
  | [] => none
  | quote :: _ =>
    if !isOneText quote cs then none
    else if quote = '"' then (unescapeAll? cs).map (betweenQuotes quote)
    else some (betweenQuotes quote cs)

end Toml
end CodeAtlas
