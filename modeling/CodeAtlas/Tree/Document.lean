import CodeAtlas.Tree.Rows
import CodeAtlas.Value.Basic

/-!
# Trees as documents

A tree is written down as the list of its rows.  A row is the list of its depth, type, flags,
start and end, and of the field of its node where it has one.  The flags are a sum: 1 for named,
2 for an error, 4 for missing, 8 for an error below.
-/

namespace CodeAtlas
namespace Tree

/-- Whether a sum of flags has the flag of the given weight. -/
def hasFlag (weight flags : Nat) : Bool := flags / weight % 2 == 1

/-- The row that a value stands for. -/
def Row.ofValue? : Value → Option Row
  | .list (.int depth :: .text type :: .int flags :: .int start :: .int stop :: rest) =>
    some
      { depth := depth.toNat
        type
        named := hasFlag 1 flags.toNat
        error := hasFlag 2 flags.toNat
        missing := hasFlag 4 flags.toNat
        hasError := hasFlag 8 flags.toNat
        start := start.toNat
        stop := stop.toNat
        field := rest.head?.bind Value.asText? }
  | _ => none

/-- The tree that a value stands for. -/
def Node.ofValue? : Value → Option Node
  | .list rows => (rows.mapM Row.ofValue?).bind Node.ofRows?
  | _ => none

end Tree
end CodeAtlas
