import CodeAtlas.Text.Blank
import CodeAtlas.Text.Segments
import CodeAtlas.Toml.Layout

/-!
# Spans of a line

A line is cut at its quotes into spans, of which the first is outside quotes, the second inside,
and so on.  A separator counts only where it first stands outside quotes.
-/

namespace CodeAtlas
namespace Toml

/-! ## Cutting -/

/-- A text without the blanks at both ends. -/
def trim (cs : List Char) : List Char := Text.trimBoth Text.isBlankChar cs

/-- A text without its first and its last character. -/
def inner (cs : List Char) : List Char := (cs.drop 1).dropLast

/-- Puts a character in front of the first of several texts. -/
def consFirst (c : Char) : List (List Char) → List (List Char)
  | [] => [[c]]
  | first :: others => (c :: first) :: others

/-- The parts of a text between the places where two characters stand one behind the other. -/
def pairSegments (a b : Char) : List Char → List (List Char)
  | [] => [[]]
  | [c] => [[c]]
  | c :: d :: rest =>
    if c = a ∧ d = b then [] :: pairSegments a b rest
    else consFirst c (pairSegments a b (d :: rest))

/-! ## Spans -/

/-- Adds pieces that stand between double quotes to spans cut at single quotes, until the last
span is outside single quotes.  The pieces that are left over come second. -/
def closeSingle (spans : List (List Char)) :
    List (List Char) → List (List Char) × List (List Char)
  | [] => (spans, [])
  | piece :: pieces =>
    if spans.length % 2 = 0 then
      let last := spans.getLastD [] ++ '"' :: piece
      closeSingle (spans.dropLast ++ Text.segments '\'' last) pieces
    else (spans, piece :: pieces)

/-- The spans of pieces that stand between double quotes.  Only the first piece is cut at single
quotes. -/
def spansOfPieces : List (List Char) → List (List Char)
  | [] => []
  | piece :: pieces => Text.segments '\'' piece ++ pieces

/-- The spans of a line. -/
def spans (line : List Char) : List (List Char) :=
  match Text.segments '"' line with
  | first :: second :: pieces =>
    if first.contains '\'' then
      let (closed, pieces) := closeSingle (Text.segments '\'' first) (second :: pieces)
      closed ++ spansOfPieces pieces
    else spansOfPieces (first :: second :: pieces)
  | pieces => spansOfPieces pieces

/-- How many separators stand in front of the first span that is outside quotes and holds one.
`split` cuts a span at its separators. -/
def separatorsBefore (split : List Char → List (List Char)) (quoted : Bool) :
    List (List Char) → Nat
  | [] => 0
  | span :: spans =>
    let count := (split span).length - 1
    if !quoted && count != 0 then 0 else count + separatorsBefore split (!quoted) spans

end Toml
end CodeAtlas
