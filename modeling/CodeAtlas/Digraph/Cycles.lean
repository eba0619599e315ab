import CodeAtlas.Digraph.Components
import CodeAtlas.Warning
import Std.Data.HashSet

/-!
# Elementary cycles

Each elementary cycle is listed once, from its vertex that comes first in the list of vertices.
From each start the search follows the paths through the vertices of the start's component that do
not come before it; a path that meets the start again is a cycle.

A positive limit stops the search as soon as that many cycles are found.

Main definitions:

- {lit}`PathSearch.step`: one step along the paths from a start.
- {lit}`MarkedSearch.step`: the same step, with the vertices of the path in a set as well.
- {lit}`CycleSearch.cyclesFrom`: the cycles from one start.
- {lit}`cycles`: the cycles from all starts, in order.
-/

namespace CodeAtlas
namespace Digraph

variable {α : Type} [DecidableEq α]

/-! ## Configurations -/

/-- A configuration of the search from one start. -/
structure PathSearch (α : Type) where
  /-- The path walked so far, latest vertex first. -/
  path : List α
  /-- The frames of the search, innermost first. -/
  work : List (Frame α)
  /-- The cycles found so far, from this start and earlier ones, latest first. -/
  found : List (List α)
  /-- The limit has been reached. -/
  stopped : Bool

namespace PathSearch

/-- The search from a start, where `next` gives the vertices that may follow another. -/
def begin (next : α → List α) (start : α) (found : List (List α)) : PathSearch α :=
  { path := [start], work := [⟨start, next start⟩], found, stopped := false }

/-- Takes down the path as a cycle, and stops when the limit is reached.  A limit of zero is
none. -/
def record (limit : Int) (search : PathSearch α) : PathSearch α :=
  let found := search.path.reverse :: search.found
  { search with found, stopped := limit != 0 && limit ≤ found.length }

/-- Goes on to a vertex. -/
def extend (next : α → List α) (v : α) (search : PathSearch α) : PathSearch α :=
  { search with path := v :: search.path, work := ⟨v, next v⟩ :: search.work }

/-- Looks at one successor, or leaves a vertex that has none left. -/
def step (next : α → List α) (start : α) (limit : Int) (search : PathSearch α) : PathSearch α :=
  match search.work with
  | [] => search
  | ⟨_, []⟩ :: below => { search with path := search.path.tail, work := below }
  | ⟨v, w :: rest⟩ :: below =>
    let search := { search with work := ⟨v, rest⟩ :: below }
    if w = start then search.record limit
    else if w ∈ search.path then search
    else search.extend next w

/-- Takes steps until no frame is left or the limit is reached, but no more than the given
number. -/
def run (next : α → List α) (start : α) (limit : Int) : Nat → PathSearch α → PathSearch α
  | 0, search => search
  | fuel + 1, search =>
    if search.work.isEmpty || search.stopped then search
    else run next start limit fuel (search.step next start limit)

/-- A number of steps that suffices below a frame while a given number of vertices is free. -/
def stepBound (degree : Nat) : Nat → Nat
  | 0 => degree + 1
  | free + 1 => degree * (1 + stepBound degree free) + 1

end PathSearch

/-! ## Marked vertices

The vertices of the path are kept in a set as well, so that the path need not be walked to see
whether a vertex is on it. -/

variable [Hashable α]

/-- A search with the set of the vertices on its path. -/
structure MarkedSearch (α : Type) [DecidableEq α] [Hashable α] where
  search : PathSearch α
  marks : Std.HashSet α

namespace MarkedSearch

/-- The search from a start, with the start marked. -/
def begin (next : α → List α) (start : α) (found : List (List α)) : MarkedSearch α :=
  { search := .begin next start found, marks := Std.HashSet.emptyWithCapacity.insert start }

/-- Looks at one successor, or leaves a vertex that has none left. -/
def step (next : α → List α) (start : α) (limit : Int) : MarkedSearch α → MarkedSearch α
  | ⟨search, marks⟩ =>
    match search.work with
    | [] => ⟨search, marks⟩
    | ⟨_, []⟩ :: below =>
      match search.path with
      | [] => ⟨{ search with work := below }, marks⟩
      | v :: path => ⟨{ search with path, work := below }, marks.erase v⟩
    | ⟨v, w :: rest⟩ :: below =>
      let search := { search with work := ⟨v, rest⟩ :: below }
      if w = start then ⟨search.record limit, marks⟩
      else if marks.contains w then ⟨search, marks⟩
      else ⟨search.extend next w, marks.insert w⟩

/-- Takes steps until no frame is left or the limit is reached, but no more than the given
number. -/
def run (next : α → List α) (start : α) (limit : Int) : Nat → MarkedSearch α → MarkedSearch α
  | 0, marked => marked
  | fuel + 1, marked =>
    if marked.search.work.isEmpty || marked.search.stopped then marked
    else run next start limit fuel (marked.step next start limit)

/-- The marks are the vertices of the path, none of which repeats. -/
def Agrees (marked : MarkedSearch α) : Prop :=
  marked.search.path.Nodup ∧ ∀ w, w ∈ marked.marks ↔ w ∈ marked.search.path

/-- At the start the marks agree with the path. -/
theorem begin_agrees (next : α → List α) (start : α) (found : List (List α)) :
    (begin next start found).Agrees := by
  refine ⟨by simp [begin, PathSearch.begin], fun w => ?_⟩
  have hmem : w ∈ (begin next start found).marks ↔ start = w := by simp [begin]
  have hpath : w ∈ (begin next start found).search.path ↔ w = start := by
    simp [begin, PathSearch.begin]
  rw [hmem, hpath]
  exact eq_comm

/-- While the marks agree with the path, a step does what it does without marks. -/
theorem step_search {marked : MarkedSearch α} (h : marked.Agrees) (next : α → List α) (start : α)
    (limit : Int) :
    (marked.step next start limit).search = marked.search.step next start limit := by
  obtain ⟨⟨path, work, found, stopped⟩, marks⟩ := marked
  have hmarks : ∀ w, marks.contains w = true ↔ w ∈ path := h.2
  unfold step PathSearch.step
  match work with
  | [] => rfl
  | ⟨_, []⟩ :: below => cases path <;> rfl
  | ⟨v, w :: rest⟩ :: below =>
      by_cases hstart : w = start
      · simp [hstart]
      · by_cases hw : w ∈ path
        · simp [hstart, hw, (hmarks w).2 hw]
        · have hno : marks.contains w = false := by
            simpa using fun hc => hw ((hmarks w).1 hc)
          simp [hstart, hw, hno]

/-- A step keeps marks and path in agreement. -/
theorem step_agrees {marked : MarkedSearch α} (h : marked.Agrees) (next : α → List α) (start : α)
    (limit : Int) : (marked.step next start limit).Agrees := by
  obtain ⟨⟨path, work, found, stopped⟩, marks⟩ := marked
  obtain ⟨hnodup, hmarks⟩ := h
  unfold step
  match work with
  | [] => exact ⟨hnodup, hmarks⟩
  | ⟨_, []⟩ :: below =>
      cases path with
      | nil => exact ⟨hnodup, hmarks⟩
      | cons v path =>
          have hv := List.nodup_cons.1 hnodup
          refine ⟨hv.2, fun w => ?_⟩
          have hw := hmarks w
          simp only [List.mem_cons] at hw
          simp only [Std.HashSet.mem_erase, beq_eq_false_iff_ne, ne_eq, hw]
          constructor
          · rintro ⟨hne, rfl | hmem⟩
            · exact absurd rfl hne
            · exact hmem
          · intro hmem
            exact ⟨fun heq => hv.1 (heq ▸ hmem), Or.inr hmem⟩
  | ⟨v, w :: rest⟩ :: below =>
      by_cases hstart : w = start
      · simpa [hstart, PathSearch.record, Agrees] using ⟨hnodup, hmarks⟩
      · by_cases hw : marks.contains w = true
        · simpa [hstart, hw, Agrees] using ⟨hnodup, hmarks⟩
        · have hpath : w ∉ path := fun hmem => hw ((hmarks w).2 hmem)
          dsimp only
          rw [if_neg hstart, if_neg hw]
          refine ⟨List.nodup_cons.2 ⟨hpath, hnodup⟩, fun x => ?_⟩
          have hx := hmarks x
          simp only [PathSearch.extend, Std.HashSet.mem_insert, beq_iff_eq, List.mem_cons, hx]
          constructor
          · rintro (rfl | hmem)
            · exact Or.inl rfl
            · exact Or.inr hmem
          · rintro (rfl | hmem)
            · exact Or.inl rfl
            · exact Or.inr hmem

/-- A run with marks finds what a run without them finds. -/
theorem run_search {marked : MarkedSearch α} (h : marked.Agrees) (next : α → List α) (start : α)
    (limit : Int) (fuel : Nat) :
    (marked.run next start limit fuel).search = marked.search.run next start limit fuel := by
  induction fuel generalizing marked with
  | zero => rfl
  | succ fuel ih =>
      unfold run PathSearch.run
      split
      · rfl
      · rw [ih (step_agrees h next start limit), step_search h]

end MarkedSearch

/-! ## One start -/

/-- What stays the same over the starts of a search for cycles. -/
structure CycleSearch (α : Type) where
  vertices : List α
  /-- Whether a vertex is one of the vertices. -/
  isListed : α → Bool
  successors : α → List α
  /-- The largest number of successors. -/
  degree : Nat
  components : List (List α)
  limit : Int

/-- A vertex of a component that is missing from the list of vertices, so that it has no place in
their order. -/
structure UnlistedVertex (α : Type) where
  vertex : α

namespace CycleSearch

/-- The search for the cycles of a graph. -/
def ofGraph (vertices : List α) (graph : Adjacency α) (limit : Int) : CycleSearch α :=
  let listed := Std.HashSet.ofList vertices
  let table := graph.table
  { vertices
    isListed := listed.contains
    successors := fun v => table.getD v []
    degree := graph.maxDegree
    components := Digraph.components vertices graph
    limit }

/-- The vertices from the last occurrence of a start on, latest first. -/
def notBefore (vertices : List α) (start : α) : List α :=
  vertices.reverse.takeWhile (· != start) ++ [start]

/-- The members of a component that a cycle from a start may go through. -/
def allowedFrom (vertices members : List α) (start : α) : List α :=
  members.filter (Std.HashSet.ofList (notBefore vertices start)).contains

/-- The successors of a vertex that are in a set. -/
def successorsIn (successors : α → List α) (allowed : Std.HashSet α) (v : α) : List α :=
  (successors v).filter allowed.contains

/-- The component that holds a vertex. -/
def componentOf (components : List (List α)) (v : α) : List α :=
  (components.find? fun component => component.contains v).getD []

/-- Whether a vertex can be on a cycle: its component has another vertex, or it follows itself. -/
def mayCycle (search : CycleSearch α) (members : List α) (start : α) : Bool :=
  members.length != 1 || (search.successors start).contains start

/-- Adds the cycles from one start to those found so far, latest first. -/
def cyclesFrom (search : CycleSearch α) (found : List (List α)) (start : α) :
    Except (UnlistedVertex α) (PathSearch α) :=
  let members := componentOf search.components start
  if search.mayCycle members start then
    match members.find? (!search.isListed ·) with
    | some vertex => .error ⟨vertex⟩
    | none =>
      let allowed := allowedFrom search.vertices members start
      let next := successorsIn search.successors (Std.HashSet.ofList allowed)
      .ok ((MarkedSearch.begin next start found).run next start search.limit
        (PathSearch.stepBound search.degree allowed.length)).search
  else .ok { path := [], work := [], found, stopped := false }

/-- A graph is searched along its own arcs. -/
theorem ofGraph_successors (vertices : List α) (graph : Adjacency α) (limit : Int) :
    (ofGraph vertices graph limit).successors = graph.successors :=
  funext graph.table_getD

/-- The listed vertices are those of the list. -/
theorem ofGraph_isListed (vertices : List α) (graph : Adjacency α) (limit : Int) (v : α) :
    (ofGraph vertices graph limit).isListed v = vertices.contains v := by
  simp [ofGraph]

/-- A member is allowed when it comes no earlier than the start. -/
theorem mem_allowedFrom (vertices members : List α) (start v : α) :
    v ∈ allowedFrom vertices members start ↔ v ∈ members ∧ v ∈ notBefore vertices start := by
  simp [allowedFrom]

/-- The successors in a set of listed vertices are those among them. -/
theorem successorsIn_ofList (successors : α → List α) (allowed : List α) (v : α) :
    successorsIn successors (Std.HashSet.ofList allowed) v =
      (successors v).filter (allowed.contains ·) := by
  unfold successorsIn
  congr 1
  funext w
  exact Std.HashSet.contains_ofList

end CycleSearch

/-! ## All starts -/

/-- The cycles of a graph, and whether the limit cut the search short. -/
structure CycleReport (α : Type) where
  cycles : List (List α)
  stopped : Bool

/-- What a search with a limit reports: that it stopped there. -/
def CycleReport.warnings (report : CycleReport α) (limit : Int) : List Warning :=
  if report.stopped then [.cyclesStopped limit] else []

/-- Adds the cycles from several starts to those found so far, latest first. -/
def CycleSearch.cyclesFromAll (search : CycleSearch α) :
    List (List α) → List α → Except (UnlistedVertex α) (CycleReport α)
  | found, [] => .ok ⟨found.reverse, false⟩
  | found, start :: starts =>
    match search.cyclesFrom found start with
    | .error unlisted => .error unlisted
    | .ok paths =>
      if paths.stopped then .ok ⟨paths.found.reverse, true⟩
      else search.cyclesFromAll paths.found starts

/-- The elementary cycles of a graph, in the order of their starts and then of the search.  Fails
when the component of a start that may be on a cycle holds a vertex that is not listed. -/
def cycles (vertices : List α) (graph : Adjacency α) (limit : Int) :
    Except (UnlistedVertex α) (CycleReport α) :=
  (CycleSearch.ofGraph vertices graph limit).cyclesFromAll [] vertices

end Digraph
end CodeAtlas
