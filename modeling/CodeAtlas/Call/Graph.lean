import CodeAtlas.Call.Resolver
import CodeAtlas.Call.Site
import CodeAtlas.Error
import CodeAtlas.Text.Blank
import Std.Data.HashMap

/-!
# The call graph

The calls of a codebase as edges, with an index for each question: by what is called, by what is
called or the member it ends in, and by the caller.
-/

namespace CodeAtlas
namespace Call

/-! ## Edges -/

/-- A call from one entity. -/
structure Edge where
  caller : EntityRef
  callee : Target
  /-- The callee as written. -/
  raw : String
  location : Location
  deriving DecidableEq

namespace Edge

/-- The names of what is called: as resolved and as written, without repeats. -/
def calleeNames (edge : Edge) : List String :=
  [edge.callee.name, edge.raw].eraseDups

/-- The last segments of the dotted names of what is called, without repeats. -/
def memberNames (edge : Edge) : List String :=
  ((edge.calleeNames.filter QualifiedName.isDotted).map QualifiedName.last).eraseDups

/-- The names under which a call is found when members count. -/
def allNames (edge : Edge) : List String :=
  (edge.calleeNames ++ edge.memberNames).eraseDups

end Edge

/-- The calls of declarations, each with the reference it is known by. -/
def edgesOf (source : Tree.Source) (resolver : Resolver) (ref : EntityRef)
    (declaration : Declaration) : List Edge :=
  (sites source declaration).map fun site =>
    { caller := ref
      callee := resolver.resolve ref declaration.className? site.name
      raw := site.name
      location := ⟨ref.file, site.point.line, site.point.column⟩ }

/-! ## Indexes -/

/-- Edges by name, those of one name in the order of the graph. -/
abbrev Index := Std.HashMap String (Array Edge)

namespace Index

/-- Adds an edge under a name. -/
def add (edge : Edge) (index : Index) (name : String) : Index :=
  index.insert name ((index.getD name #[]).push edge)

/-- The index of edges under the names that `names` gives each. -/
def build (names : Edge → List String) (edges : List Edge) : Index :=
  edges.foldl (fun index edge => (names edge).foldl (add edge) index) ∅

/-- The edges under a name. -/
def find (index : Index) (name : String) : List Edge := (index.getD name #[]).toList

/-- Adding an edge under a name puts it last there and changes nothing elsewhere. -/
theorem find_add (edge : Edge) (index : Index) (name other : String) :
    (add edge index name).find other =
      if name = other then index.find other ++ [edge] else index.find other := by
  unfold find add
  rw [Std.HashMap.getD_insert]
  by_cases h : name = other
  · subst h
    simp
  · simp [h]

/-- Adding an edge under several names puts it last under each of them. -/
theorem find_foldl_add (edge : Edge) (names : List String) (index : Index) (other : String)
    (distinct : names.Nodup) :
    (names.foldl (add edge) index).find other =
      if other ∈ names then index.find other ++ [edge] else index.find other := by
  induction names generalizing index with
  | nil => simp
  | cons name names ih =>
      have hname := (List.nodup_cons.1 distinct).1
      have hnames := (List.nodup_cons.1 distinct).2
      rw [List.foldl_cons, ih _ hnames, find_add]
      by_cases h : name = other
      · subst h
        simp [hname]
      · have h' : ¬ other = name := fun e => h e.symm
        simp [h, h']

/-- An index holds under a name the edges that have it, in order. -/
theorem find_build (names : Edge → List String) (edges : List Edge) (name : String)
    (distinct : ∀ edge, (names edge).Nodup) :
    (build names edges).find name = edges.filter fun edge => (names edge).contains name := by
  have extended (index : Index) :
      (edges.foldl (fun index edge => (names edge).foldl (add edge) index) index).find name =
        index.find name ++ edges.filter fun edge => (names edge).contains name := by
    induction edges generalizing index with
    | nil => simp
    | cons edge edges ih =>
        rw [List.foldl_cons, ih, find_foldl_add _ _ _ _ (distinct edge)]
        by_cases h : name ∈ names edge
        · simp [h]
        · simp [h]
  have start := extended ∅
  simpa [build, find] using start

end Index

/-! ## Graphs -/

/-- A call graph with its indexes. -/
structure Graph where
  edges : List Edge
  byCallee : Index
  byMember : Index
  byCaller : Index

namespace Graph

/-- The first way in which an edge leaves the known entities. -/
def violation? (known : List EntityRef) (edge : Edge) : Option Violation :=
  if !known.contains edge.caller then some (.callerOutside edge.caller)
  else
    match edge.callee with
    | .resolved entity => if known.contains entity then none else some (.calleeOutside entity)
    | .unresolved _ => none

/-- The graph of edges between known entities. -/
def build (edges : List Edge) (known : List EntityRef) : Except Failure Graph :=
  match edges.findSome? (violation? known) with
  | some violation => .error (.violated violation)
  | none =>
    .ok
      { edges
        byCallee := Index.build Edge.calleeNames edges
        byMember := Index.build Edge.allNames edges
        byCaller := Index.build (fun edge => [edge.caller.name]) edges }

/-- The calls of something by name, from one file where it is given.  When members count, a name
also means the last segment of a dotted callee. -/
def callers (graph : Graph) (name : String) (file : Option String) (members : Bool) :
    Except Failure (List Edge) :=
  if Text.isBlank name then .error (.invalid .functionNameRequired)
  else
    let found := if members then graph.byMember.find name else graph.byCallee.find name
    match file with
    | none => .ok found
    | some file => .ok (found.filter (·.caller.file == file))

/-- The calls made by entities with a given name. -/
def callees (graph : Graph) (name : String) : Except Failure (List Edge) :=
  if Text.isBlank name then .error (.invalid .functionNameRequired)
  else .ok (graph.byCaller.find name)

/-- The number of calls that lead to no entity. -/
def unresolvedCount (graph : Graph) : Nat :=
  graph.edges.countP (!·.callee.isResolved)

end Graph
end Call
end CodeAtlas
