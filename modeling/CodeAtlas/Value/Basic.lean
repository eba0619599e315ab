import CodeAtlas.Number.Binary64
import CodeAtlas.Value.Moment

/-!
# Dynamic values

Settings files and JSON documents hold values whose shape is known only when they are read.  A
table keeps its entries in order of first insertion, with one entry to a key.
-/

namespace CodeAtlas

/-- A value of a document. -/
inductive Value where
  | null
  | bool (b : Bool)
  | int (n : Int)
  | real (x : Number.Binary64)
  | text (s : String)
  | list (items : List Value)
  | table (entries : List (String × Value))
  | moment (m : Moment)

/-- The entries of a table. -/
abbrev Table := List (String × Value)

/-! ## Entries by key -/

/-- Gives `key` a value: an entry with that key keeps its place, a new one comes last. -/
def putEntry {κ α : Type} [BEq κ] (key : κ) (value : α) : List (κ × α) → List (κ × α)
  | [] => [(key, value)]
  | entry :: entries =>
    if entry.1 == key then (key, value) :: entries else entry :: putEntry key value entries

/-- What `putEntry` does to look-ups. -/
@[simp]
theorem lookup_putEntry {κ α : Type} [BEq κ] [LawfulBEq κ] (key other : κ) (value : α)
    (entries : List (κ × α)) :
    (putEntry key value entries).lookup other =
      if other == key then some value else entries.lookup other := by
  induction entries with
  | nil => cases h : other == key <;> simp [putEntry, List.lookup_cons, h]
  | cons entry entries ih =>
      obtain ⟨first, old⟩ := entry
      unfold putEntry
      by_cases hkey : first = key
      · subst hkey
        cases h : other == first <;> simp [List.lookup_cons, h]
      · have hne : (first == key) = false := by simpa using hkey
        cases h : other == first with
        | true =>
            have hother : other = first := by simpa using h
            subst hother
            simp [hne]
        | false => simp [hne, List.lookup_cons, h, ih]

namespace Value

/-- The value under a key of a table. -/
def get? (key : String) : Value → Option Value
  | .table entries => entries.lookup key
  | _ => none

/-- The text that a value is, if it is one. -/
def asText? : Value → Option String
  | .text s => some s
  | _ => none

/-- Whether a value counts as true: everything does but null, false, zero and what is empty. -/
def truthy : Value → Bool
  | .null => false
  | .bool b => b
  | .int n => n != 0
  | .real x => !x.isZero
  | .text s => !s.isEmpty
  | .list items => !items.isEmpty
  | .table entries => !entries.isEmpty
  | .moment _ => true

end Value
end CodeAtlas
