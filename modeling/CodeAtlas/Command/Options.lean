/-!
# Words of a command line

A command line is a list of words.  Words that begin with a dash are options; the others are
arguments.  A long option is written {lit}`--name`, with its value after an equals sign or in the
next word.  Several letters may share one dash, and what follows the letter of an option with a
value is that value.  After the word {lit}`--` everything is an argument.

Main definitions:

- {lit}`Scan.word`: the options of one word, and the option that still waits for a value;
- {lit}`Scan.words`: the options and arguments of a list of words.
-/

namespace CodeAtlas
namespace Command

/-- Why a command line cannot be carried out as it stands. -/
inductive Misuse where
  | unknownOption (option : String)
  | valueMissing (option : String)
  | valueUnexpected (option : String)
  | argumentMissing (argument : String)
  | argumentUnexpected (argument : String)
  | commandMissing
  | unknownCommand (command : String)
  | unknownKind (label : String)
  | notDirectory (path : String)
  | notFile (path : String)
  deriving DecidableEq

/-- The text of a misuse. -/
def Misuse.message : Misuse → String
  | .unknownOption option => s!"No such option: {option}"
  | .valueMissing option => s!"Option '--{option}' requires an argument."
  | .valueUnexpected option => s!"Option '--{option}' does not take a value."
  | .argumentMissing argument => s!"Missing argument '{argument}'."
  | .argumentUnexpected argument => s!"Got unexpected extra argument ({argument})"
  | .commandMissing => "Missing command."
  | .unknownCommand command => s!"No such command '{command}'."
  | .unknownKind label => s!"Unknown kind '{label}'."
  | .notDirectory path => s!"Directory '{path}' does not exist."
  | .notFile path => s!"File '{path}' does not exist."

/-- An option: its long name, the letter that abbreviates it, and whether it has a value. -/
structure OptionForm where
  name : String
  letter : Option Char
  takesValue : Bool

/-- An option as given on a command line. -/
structure Given where
  name : String
  value : Option String
  deriving DecidableEq

/-- The options and arguments of a command line. -/
structure Scan where
  options : List Given
  arguments : List String
  deriving DecidableEq

namespace Scan

/-- The value of an option; of several the last counts. -/
def value? (scan : Scan) (name : String) : Option String :=
  (scan.options.reverse.find? (·.name == name)).bind Given.value

/-- Whether an option is given. -/
def has (scan : Scan) (name : String) : Bool :=
  scan.options.any (·.name == name)

/-- The options that letters behind one dash stand for, and the one that waits for the next
word. -/
def letters (forms : List OptionForm) : List Char → Except Misuse (List Given × Option String)
  | [] => .ok ([], none)
  | letter :: rest =>
    match forms.find? (·.letter == some letter) with
    | none => .error (.unknownOption (String.ofList ['-', letter]))
    | some form =>
      if !form.takesValue then do
        let (others, waiting) ← letters forms rest
        return (⟨form.name, none⟩ :: others, waiting)
      else if rest.isEmpty then .ok ([], some form.name)
      else .ok ([⟨form.name, some (String.ofList rest)⟩], none)

/-- The option that a long name stands for, with the value written beside it. -/
def long (forms : List OptionForm) (text : List Char) :
    Except Misuse (List Given × Option String) :=
  let name := String.ofList (text.takeWhile (· != '='))
  let value := (text.dropWhile (· != '=')).tail?.map String.ofList
  match forms.find? (·.name == name) with
  | none => .error (.unknownOption s!"--{name}")
  | some form =>
    match form.takesValue, value with
    | true, some value => .ok ([⟨form.name, some value⟩], none)
    | true, none => .ok ([], some form.name)
    | false, some _ => .error (.valueUnexpected form.name)
    | false, none => .ok ([⟨form.name, none⟩], none)

/-- The options of a word that begins with a dash. -/
def word (forms : List OptionForm) : List Char → Except Misuse (List Given × Option String)
  | '-' :: '-' :: text => long forms text
  | '-' :: text => letters forms text
  | _ => .ok ([], none)

/-- Whether a word gives options: it begins with a dash and is not the dash alone. -/
def isOption (text : String) : Bool :=
  text.toList.head? == some '-' && text != "-"

/-- The scan with more options in front. -/
def giving (options : List Given) (scan : Scan) : Scan :=
  { scan with options := options ++ scan.options }

/-- The scan with an argument in front. -/
def taking (argument : String) (scan : Scan) : Scan :=
  { scan with arguments := argument :: scan.arguments }

/-- The options and arguments of a list of words.  Unless options may stand behind arguments, the
first argument ends the options. -/
def words (forms : List OptionForm) (interspersed : Bool) : List String → Except Misuse Scan
  | [] => .ok ⟨[], []⟩
  | text :: rest =>
    if text == "--" then .ok ⟨[], rest⟩
    else if isOption text then
      match word forms text.toList with
      | .error misuse => .error misuse
      | .ok (options, none) => (words forms interspersed rest).map (giving options)
      | .ok (options, some name) =>
        match rest with
        | [] => .error (.valueMissing name)
        | value :: rest =>
          (words forms interspersed rest).map (giving (options ++ [⟨name, some value⟩]))
    else if interspersed then (words forms interspersed rest).map (taking text)
    else .ok ⟨[], text :: rest⟩

end Scan
end Command
end CodeAtlas
