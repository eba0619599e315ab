import CodeAtlas.Text.Casing

/-!
# Lower-casing

The full lower-case mapping of Unicode: character by character, except that a capital sigma at
the end of a word becomes a final sigma and that U+0130 becomes two characters.
-/

namespace CodeAtlas
namespace Text

/-! ## Single characters -/

/-- The code point that a run maps `n` to, if the run holds `n`. -/
def LowerRun.image? (run : LowerRun) (n : Nat) : Option Nat :=
  if run.first ≤ n ∧ n ≤ run.last ∧ (n - run.first) % run.step = 0 then
    some (Int.toNat (n + run.shift))
  else
    none

/-- The simple lower-case form of a character. -/
def lowerChar (c : Char) : Char :=
  if c.toNat < 0x80 then c.toLower
  else
    match lowerRuns.findSome? (·.image? c.toNat) with
    | some n => Char.ofNat n
    | none => c

/-- Whether a character has the property Cased. -/
def isCased (c : Char) : Bool := casedRanges.contains c

/-- Whether a character has the property Case_Ignorable. -/
def isCaseIgnorable (c : Char) : Bool := caseIgnorableRanges.contains c

/-! ## Texts -/

/-- Whether the first character that is not case-ignorable exists and is cased. -/
def startsCased (cs : List Char) : Bool :=
  match cs.dropWhile isCaseIgnorable with
  | [] => false
  | c :: _ => isCased c

/-- The lower-case form of `c` between the characters `before` it, nearest first, and those
`after` it.  A capital sigma is final when a cased character precedes it and none follows. -/
def lowerAt (before : List Char) (c : Char) (after : List Char) : List Char :=
  if c = 'Σ' then
    if startsCased before && !startsCased after then ['ς'] else ['σ']
  else if c = 'İ' then ['i', '̇']
  else [lowerChar c]

/-- Lower-cases the rest of a text whose earlier characters, nearest first, are `before`. -/
def lowerFrom (before : List Char) : List Char → List Char
  | [] => []
  | c :: after => lowerAt before c after ++ lowerFrom (c :: before) after

/-- The lower-case form of a text. -/
def lower (text : String) : String :=
  String.ofList (lowerFrom [] text.toList)

end Text
end CodeAtlas
