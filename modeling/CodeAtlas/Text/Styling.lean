/-!
# Control sequences of terminals

A control sequence is an escape, an opening bracket, any number of digits, semicolons and question
marks, and a letter.  Plain output does not hold any.
-/

namespace CodeAtlas
namespace Text

/-- The character that begins a control sequence. -/
def escape : Char := Char.ofNat 0x1B

/-- Whether a character may stand between the bracket and the letter of a control sequence. -/
def isParameter (c : Char) : Bool := c == ';' || c == '?' || c.isDigit

/-- Drops the control sequences of a text.  `held` is the beginning of what may be one, the last
character first. -/
def dropSequences (held : List Char) : List Char → List Char
  | [] => held.reverse
  | c :: rest =>
    let goesOn :=
      match held with
      | [] => c == escape
      | [_] => c == '['
      | _ => isParameter c
    if goesOn then dropSequences (c :: held) rest
    else if 1 < held.length && c.isAlpha then dropSequences [] rest
    else if c == escape then held.reverse ++ dropSequences [c] rest
    else held.reverse ++ c :: dropSequences [] rest

/-- A text without control sequences. -/
def withoutStyling (text : String) : String :=
  String.ofList (dropSequences [] text.toList)

end Text
end CodeAtlas
