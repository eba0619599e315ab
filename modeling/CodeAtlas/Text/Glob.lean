/-!
# Glob patterns

A pattern is read into atoms: a star stands for any characters, a question mark for one, a
bracket for one character in or out of a set, and any other character for itself.  A pattern
matches a text as a whole.
-/

namespace CodeAtlas
namespace Text
namespace Glob

/-! ## Atoms -/

/-- A member of a bracket: one character, or all characters between two. -/
inductive Item where
  | one (c : Char)
  | range (low high : Char)
  deriving DecidableEq

/-- Whether an item holds a character. -/
def Item.contains : Item → Char → Bool
  | .one d, c => c == d
  | .range low high, c => low ≤ c && c ≤ high

/-- What one piece of a pattern stands for. -/
inductive Atom where
  /-- Any characters, also none. -/
  | star
  /-- One character, whatever it is. -/
  | any
  /-- One given character. -/
  | exactly (c : Char)
  /-- One character that is in the set, or, when negated, one that is not. -/
  | set (negated : Bool) (items : List Item)
  deriving DecidableEq

/-! ## Brackets -/

/-- The text between the brackets of a set whose opening bracket has been read, and the pattern
after the closing one.  A closing bracket in first place, also after an exclamation mark, is an
ordinary member. -/
def bracket? (pattern : List Char) : Option (List Char × List Char) :=
  let (mark, afterMark) :=
    match pattern with
    | '!' :: rest => (['!'], rest)
    | _ => ([], pattern)
  let (first, rest) :=
    match afterMark with
    | ']' :: rest => ([']'], rest)
    | _ => ([], afterMark)
  match rest.dropWhile (· != ']') with
  | _ :: after => some (mark ++ first ++ rest.takeWhile (· != ']'), after)
  | [] => none

/-- Cuts the text of a bracket at the hyphens that make ranges.  A hyphen makes a range when at
least `skip` characters stand before it since the last cut; the next one needs two. -/
def chunksFrom (skip : Nat) (current : List Char) : List Char → List (List Char)
  | [] => [current.reverse]
  | c :: rest =>
    if c = '-' ∧ skip = 0 then current.reverse :: chunksFrom 2 [] rest
    else chunksFrom (skip - 1) (c :: current) rest

/-- The text of a bracket cut at its ranges: the last character of each chunk and the first of
the next are the ends of a range.  A hyphen at the end belongs to the chunk before it. -/
def chunks (text : List Char) : List (List Char) :=
  let skip := if text.head? = some '!' then 2 else 1
  let cut := chunksFrom skip [] text
  match cut.reverse with
  | [] :: last :: others => ((last ++ ['-']) :: others).reverse
  | _ => cut

/-- Adds a chunk before chunks that hold no empty range.  When the range across the cut is empty
its two ends vanish and the chunks become one. -/
def mergeChunk (chunk : List Char) : List (List Char) → List (List Char)
  | [] => [chunk]
  | next :: others =>
    match chunk.getLast?, next with
    | some low, high :: tail =>
      if high < low then (chunk.dropLast ++ tail) :: others else chunk :: next :: others
    | _, _ => chunk :: next :: others

/-- Joins chunks that hold no empty range into characters and marks (`none`) of a range. -/
def joinChunks : List (List Char) → List (Option Char)
  | [] => []
  | [chunk] => chunk.map some
  | chunk :: others => chunk.map some ++ none :: joinChunks others

/-- Reads the members of a set.  A range mark without a character before it is a hyphen. -/
def items : List (Option Char) → List Item
  | some low :: none :: some high :: rest => .range low high :: items rest
  | some c :: rest => .one c :: items rest
  | none :: rest => .one '-' :: items rest
  | [] => []

/-- The atom that the text of a bracket stands for. -/
def setOf (text : List Char) : Atom :=
  match joinChunks ((chunks text).foldr mergeChunk []) with
  | [some '!'] => .any
  | some '!' :: rest => .set true (items rest)
  | rest => .set false (items rest)

/-! ## Reading and matching -/

/-- Reads a pattern into atoms, given at least as much fuel as the pattern has characters.  A
bracket that is never closed is an ordinary character. -/
def readFrom : Nat → List Char → List Atom
  | 0, _ => []
  | _ + 1, [] => []
  | fuel + 1, '*' :: rest => .star :: readFrom fuel rest
  | fuel + 1, '?' :: rest => .any :: readFrom fuel rest
  | fuel + 1, '[' :: rest =>
    match bracket? rest with
    | some (text, after) => setOf text :: readFrom fuel after
    | none => .exactly '[' :: readFrom fuel rest
  | fuel + 1, c :: rest => .exactly c :: readFrom fuel rest

/-- The atoms of a pattern. -/
def read (pattern : List Char) : List Atom := readFrom pattern.length pattern

/-- Whether an atom other than a star stands for the character. -/
def Atom.accepts : Atom → Char → Bool
  | .star, _ => false
  | .any, _ => true
  | .exactly d, c => c == d
  | .set negated items, c => items.any (·.contains c) != negated

/-- Whether the atoms, in order, stand for the whole text. -/
def run : List Atom → List Char → Bool
  | [], cs => cs.isEmpty
  | .star :: atoms, cs => starRun (run atoms) cs
  | atom :: atoms, c :: cs => atom.accepts c && run atoms cs
  | _ :: _, [] => false
where
  /-- Whether `rest` accepts some suffix of the text. -/
  starRun (rest : List Char → Bool) : List Char → Bool
    | [] => rest []
    | c :: cs => rest (c :: cs) || starRun rest cs

/-! ## Matching by rows

Trying every place for every star takes time that grows with each star.  A row holds the answers
for all suffixes of the text, so that each atom is looked at once for each character. -/

/-- Whether some answer from here on is true, for each place of a row. -/
def starRow : List Bool → List Bool
  | [] => []
  | answer :: answers =>
    let rest := starRow answers
    (answer || rest.headD false) :: rest

/-- The row of an atom that stands for one character, from the row behind it. -/
def charRow (accepts : Char → Bool) : List Char → List Bool → List Bool
  | [], _ => [false]
  | c :: cs, answers =>
    (accepts c && (answers.drop 1).headD false) :: charRow accepts cs (answers.drop 1)

/-- The row of no atoms: they stand for the empty suffix only. -/
def emptyRow : List Char → List Bool
  | [] => [true]
  | _ :: cs => false :: emptyRow cs

/-- Whether the atoms stand for each suffix of the text, the longest first. -/
def row : List Atom → List Char → List Bool
  | [], cs => emptyRow cs
  | .star :: atoms, cs => starRow (row atoms cs)
  | atom :: atoms, cs => charRow atom.accepts cs (row atoms cs)

/-- The answers of a matcher for each suffix of a text, the longest first. -/
def answers (accepts : List Char → Bool) : List Char → List Bool
  | [] => [accepts []]
  | c :: cs => accepts (c :: cs) :: answers accepts cs

/-- The first answer is the one for the whole text. -/
theorem headD_answers (accepts : List Char → Bool) (cs : List Char) :
    (answers accepts cs).headD false = accepts cs := by
  cases cs <;> rfl

/-- The row of no atoms holds their answers. -/
theorem emptyRow_eq (cs : List Char) : emptyRow cs = answers (run []) cs := by
  induction cs with
  | nil => rfl
  | cons c cs ih => simp [emptyRow, answers, run, ih]

/-- A star answers for a suffix what its rest answers for some suffix of that. -/
theorem starRow_answers (rest : List Char → Bool) (cs : List Char) :
    starRow (answers rest cs) = answers (run.starRun rest) cs := by
  induction cs with
  | nil => simp [answers, starRow, run.starRun]
  | cons c cs ih =>
      have hhead := headD_answers (run.starRun rest) cs
      rw [answers, starRow, ih, hhead]
      rfl

/-- An atom for one character answers for a suffix what its rest answers for the next one. -/
theorem charRow_answers (atom : Atom) (h : atom ≠ .star) (atoms : List Atom) (cs : List Char) :
    charRow atom.accepts cs (answers (run atoms) cs) = answers (run (atom :: atoms)) cs := by
  induction cs with
  | nil => cases atom <;> simp_all [charRow, answers, run]
  | cons c cs ih =>
      have hhead := headD_answers (run atoms) cs
      have htail : (answers (run atoms) (c :: cs)).drop 1 = answers (run atoms) cs := rfl
      rw [charRow, htail, ih, hhead]
      cases atom <;> simp_all [answers, run]

/-- A row holds the answers for all suffixes. -/
theorem row_eq_answers (atoms : List Atom) (cs : List Char) :
    row atoms cs = answers (run atoms) cs := by
  induction atoms with
  | nil => exact emptyRow_eq cs
  | cons atom atoms ih =>
      by_cases h : atom = .star
      · subst h
        rw [row, ih, starRow_answers]
        rfl
      · have hrow : row (atom :: atoms) cs = charRow atom.accepts cs (row atoms cs) := by
          cases atom with
          | star => exact absurd rfl h
          | any => rfl
          | exactly c => rfl
          | set negated items => rfl
        rw [hrow, ih, charRow_answers atom h]

end Glob

/-- Whether a glob pattern matches a text. -/
def globMatches (pattern text : List Char) : Bool :=
  (Glob.row (Glob.read pattern) text).headD false

/-- A pattern matches a text when its atoms, in order, stand for it. -/
theorem globMatches_eq_run (pattern text : List Char) :
    globMatches pattern text = Glob.run (Glob.read pattern) text := by
  rw [globMatches, Glob.row_eq_answers, Glob.headD_answers]

/-- Whether a text holds one of the characters that make it a glob pattern. -/
def isGlob (text : List Char) : Bool :=
  text.any fun c => c == '*' || c == '?' || c == '['

end Text
end CodeAtlas
