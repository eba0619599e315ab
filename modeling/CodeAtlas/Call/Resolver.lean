import CodeAtlas.Entity

/-!
# Resolving calls

A call names what it calls.  An entity of the caller's own file wins: first one in a scope that
encloses the caller, innermost first, and for a call on the receiver one of the caller's class.
Otherwise the only entity of that name in the whole codebase is called, and where there is no
single one the call stays unresolved.
-/

namespace CodeAtlas
namespace Call

/-- What a call leads to. -/
inductive Target where
  | resolved (entity : EntityRef)
  | unresolved (name : String)
  deriving DecidableEq

namespace Target

/-- The name of what is called. -/
def name : Target → String
  | .resolved entity => entity.name
  | .unresolved name => name

/-- Whether the call leads to an entity. -/
def isResolved : Target → Bool
  | .resolved _ => true
  | .unresolved _ => false

/-- The entity that the call leads to. -/
def entity? : Target → Option EntityRef
  | .resolved entity => some entity
  | .unresolved _ => none

end Target

/-- The entities that calls may lead to, with their kinds, in the order of the codebase. -/
structure Resolver where
  entities : List (EntityRef × EntityKind)

namespace Resolver

/-- The first entity of a file with a given name. -/
def inFile? (resolver : Resolver) (file name : String) : Option EntityRef :=
  (resolver.entities.find? fun entity => entity.1.file == file && entity.1.name == name).map (·.1)

/-- Whether a name is that of something callable in a file. -/
def isScope (resolver : Resolver) (file name : String) : Bool :=
  resolver.entities.any fun entity =>
    entity.2.isCallable && entity.1.file == file && entity.1.name == name

/-- The entities with a given name. -/
def named (resolver : Resolver) (name : String) : List EntityRef :=
  (resolver.entities.filter (·.1.name == name)).map (·.1)

/-- The dotted names that a dotted name starts with, the whole name first. -/
def enclosingNames (name : String) : List String :=
  let parts := Text.segments '.' name.toList
  ((List.range parts.length).map fun dropped =>
    String.ofList (['.'].intercalate (parts.take (parts.length - dropped))))

/-- What follows the receiver in a call on it with a single dot. -/
def onReceiver? (raw : String) : Option String :=
  let cs := raw.toList
  if "this.".toList.isPrefixOf cs && cs.count '.' == 1 then some (String.ofList (cs.drop 5))
  else none

/-- The names that a call may mean in the caller's own file, in the order they are tried. -/
def localNames (resolver : Resolver) (caller : EntityRef) (className : Option String)
    (raw : String) : List String :=
  match onReceiver? raw with
  | some member =>
    match className with
    | some scope => if scope.isEmpty then [] else [QualifiedName.within scope member]
    | none => []
  | none =>
    if QualifiedName.isDotted raw then [raw]
    else
      let scopes := (enclosingNames caller.name).filter (resolver.isScope caller.file)
      scopes.map (QualifiedName.within · raw) ++ [raw]

/-- The entity of the caller's own file that a call means. -/
def localTarget? (resolver : Resolver) (caller : EntityRef) (className : Option String)
    (raw : String) : Option EntityRef :=
  (resolver.localNames caller className raw).findSome? (resolver.inFile? caller.file)

/-- What a call leads to. -/
def resolve (resolver : Resolver) (caller : EntityRef) (className : Option String)
    (raw : String) : Target :=
  match resolver.localTarget? caller className raw with
  | some entity => .resolved entity
  | none =>
    match resolver.named raw with
    | [entity] => .resolved entity
    | _ => .unresolved raw

end Resolver
end Call
end CodeAtlas
