import CodeAtlas.Proofs.FirstErrors
import CodeAtlas.Proofs.NestedFunctions
import CodeAtlas.Proofs.SearchRounds

/-!
# Walks with a stack

A tree can be searched by a loop over a stack.  A round pops a node, notes it if it is looked for,
and pushes what is to be searched below it, the last node first.  Such a loop ends, since a round
takes a node off the stack and puts at most its children there.  The walks of trees, the search for
functions inside a body and the search for the first error are given by recursion over the tree;
each of them finds what its loop finds, in the same order.

Main results:

- Theorem {lit}`StackWalk.exists_execution`: what a round keeps holds at the end of the loop.
- Theorems {lit}`StackWalk.listed_step` and {lit}`StackWalk.hit?_step`: what a round does not
  change.
- Theorem {lit}`StackWalk.execution_flatMap`: a loop that empties the stack lists what the recursion
  lists.
- Theorem {lit}`StackWalk.execution_findSome?`: a loop that stops at the first hit finds the one of
  the recursion.
- Theorems {lit}`Node.walkSkipping_execution`, {lit}`Declaration.nestedFunctions_execution` and
  {lit}`Node.firstError?_execution`: the three searches of a tree.
-/

namespace CodeAtlas
namespace Tree

open CodeAtlas.Digraph (Execution)

/-! ## Loops over a stack -/

/-- What a loop does with the nodes that it pops: which it notes, and which it pushes, out of the
children. -/
structure Visit where
  notes : Node → List Node
  pushes : Node → List Node
  pushes_sublist : ∀ node, (pushes node).Sublist node.children

/-- Where a loop stands: the stack, whose top is last, and what has been noted. -/
structure StackWalk where
  stack : List Node
  noted : List Node

namespace StackWalk

/-- There is something to pop. -/
def Unfinished (walk : StackWalk) : Prop := walk.stack ≠ []

/-- There is something to pop, and nothing has been noted. -/
def Searching (walk : StackWalk) : Prop := walk.stack ≠ [] ∧ walk.noted = []

/-- A round of the loop.  Fails if there is nothing to pop. -/
def step? (visit : Visit) (walk : StackWalk) : Option StackWalk :=
  walk.stack.getLast?.map fun node =>
    { stack := walk.stack.dropLast ++ (visit.pushes node).reverse
      noted := walk.noted ++ visit.notes node }

/-- The number of nodes on the stack and below it. -/
def left (walk : StackWalk) : Nat := (walk.stack.flatMap Node.walk).length

section Rounds

variable (visit : Visit) (rest : List Node) (node : Node) (noted : List Node)

@[simp]
theorem step?_concat :
    step? visit ⟨rest ++ [node], noted⟩ =
      some ⟨rest ++ (visit.pushes node).reverse, noted ++ visit.notes node⟩ := by
  simp [step?]

/-- A round takes at least the popped node away. -/
theorem left_step_lt :
    left ⟨rest ++ (visit.pushes node).reverse, noted ++ visit.notes node⟩ <
      left ⟨rest ++ [node], noted⟩ := by
  have hpushed : ((visit.pushes node).reverse.flatMap Node.walk).length ≤
      (node.children.flatMap Node.walk).length := by
    have hperm := (List.reverse_perm (visit.pushes node)).flatMap_right Node.walk
    rw [hperm.length_eq]
    exact ((visit.pushes_sublist node).flatMap Node.walk).length_le
  simp only [left, List.flatMap_append, List.length_append, List.flatMap_singleton,
    Node.walk_eq node, List.length_cons]
  omega

end Rounds

/-- A loop that goes on only while there is something to pop has an execution, and what its rounds
keep holds at the end. -/
theorem exists_execution (visit : Visit) (goesOn inv : StackWalk → Prop)
    (hpops : ∀ walk, goesOn walk → walk.Unfinished)
    (hkeeps : ∀ rest node noted, goesOn ⟨rest ++ [node], noted⟩ → inv ⟨rest ++ [node], noted⟩ →
      inv ⟨rest ++ (visit.pushes node).reverse, noted ++ visit.notes node⟩)
    {walk : StackWalk} (hwalk : inv walk) :
    ∃ rounds last, Execution goesOn (step? visit) walk rounds last ∧ inv last := by
  have hround (walk : StackWalk) (hinv : inv walk) (hgo : goesOn walk) :
      ∃ next, step? visit walk = some next ∧ inv next ∧ left next < left walk := by
    rcases walk with ⟨stack, noted⟩
    rcases List.eq_nil_or_concat stack with hempty | ⟨rest, node, rfl⟩
    · exact absurd hempty (hpops _ hgo)
    · rw [List.concat_eq_append] at *
      exact ⟨_, step?_concat visit rest node noted, hkeeps rest node noted hgo hinv,
        left_step_lt visit rest node noted⟩
  obtain ⟨rounds, last, hexecution, -, hall⟩ := Execution.exists_of_measure left hround hwalk
  exact ⟨rounds, last, hexecution, hall last List.mem_cons_self⟩

/-- What a loop lists in the end, if the nodes list what they are said to: what has been noted, and
what the nodes on the stack list, the top first. -/
def listed (list : Node → List Node) (walk : StackWalk) : List Node :=
  walk.noted ++ walk.stack.reverse.flatMap list

/-- A round does not change what is listed, where a node lists what is noted of it and then what the
nodes that are pushed list. -/
theorem listed_step {visit : Visit} {list : Node → List Node}
    (hlist : ∀ node, list node = visit.notes node ++ (visit.pushes node).flatMap list)
    (rest : List Node) (node : Node) (noted : List Node) :
    listed list ⟨rest ++ (visit.pushes node).reverse, noted ++ visit.notes node⟩ =
      listed list ⟨rest ++ [node], noted⟩ := by
  simp [listed, hlist node]

/-- A loop that empties the stack lists what the nodes on it list. -/
theorem execution_flatMap {visit : Visit} {list : Node → List Node}
    (hlist : ∀ node, list node = visit.notes node ++ (visit.pushes node).flatMap list)
    (stack : List Node) :
    ∃ rounds, Execution Unfinished (step? visit) ⟨stack, []⟩ rounds
      ⟨[], stack.reverse.flatMap list⟩ := by
  obtain ⟨rounds, ⟨left, noted⟩, hexecution, hlast⟩ :=
    exists_execution visit Unfinished (fun walk => listed list walk = listed list ⟨stack, []⟩)
      (fun _ hgo => hgo) (fun rest node noted _ => (listed_step hlist rest node noted).trans) rfl
  have hempty : left = [] := not_not.1 hexecution.not_goesOn
  have hnoted : noted = stack.reverse.flatMap list := by
    simpa [listed, hempty] using hlast
  rw [hempty, hnoted] at hexecution
  exact ⟨rounds, hexecution⟩

/-- What a loop finds in the end, if the nodes have the hits that they are said to: what was noted
first, or the first hit of the nodes on the stack, from the top on. -/
def hit? (find : Node → Option Node) (walk : StackWalk) : Option Node :=
  walk.noted.head?.or (walk.stack.reverse.findSome? find)

/-- As long as nothing is noted, a round does not change what is found, where the hit of a node is
what is noted of it, or else the first hit of those that are pushed. -/
theorem hit?_step {visit : Visit} {find : Node → Option Node}
    (hfind : ∀ node, find node = (visit.notes node).head?.or ((visit.pushes node).findSome? find))
    (rest : List Node) (node : Node) :
    hit? find ⟨rest ++ (visit.pushes node).reverse, visit.notes node⟩ =
      hit? find ⟨rest ++ [node], []⟩ := by
  have hpopped : (node :: rest.reverse).findSome? find =
      (find node).or (rest.reverse.findSome? find) := by
    rw [List.findSome?_cons]
    cases find node <;> rfl
  simp [hit?, hpopped, hfind node, List.findSome?_append, Option.or_assoc]

/-- A loop that stops when something is noted finds the first hit of the nodes on the stack. -/
theorem execution_findSome? {visit : Visit} {find : Node → Option Node}
    (hfind : ∀ node, find node = (visit.notes node).head?.or ((visit.pushes node).findSome? find))
    (stack : List Node) :
    ∃ rounds last, Execution Searching (step? visit) ⟨stack, []⟩ rounds last ∧
      last.noted.head? = stack.reverse.findSome? find := by
  obtain ⟨rounds, ⟨left, noted⟩, hexecution, hlast⟩ :=
    exists_execution visit Searching (fun walk => hit? find walk = hit? find ⟨stack, []⟩)
      (fun _ hgo => hgo.1)
      (fun rest node noted hgo hinv => by
        obtain rfl : noted = [] := hgo.2
        exact (hit?_step hfind rest node).trans hinv) rfl
  refine ⟨rounds, _, hexecution, ?_⟩
  change noted.head? = hit? find ⟨stack, []⟩
  rw [← hlast, hit?]
  cases noted with
  | nil =>
      have hempty : left = [] := by
        by_contra hne
        exact hexecution.not_goesOn ⟨hne, rfl⟩
      rw [hempty]
      rfl
  | cons node noted => rfl

end StackWalk

/-! ## Searches of a tree -/

/-- Notes every node but those that are skipped with what is below them. -/
def Visit.skipping (skip : Node → Bool) : Visit where
  notes node := if skip node then [] else [node]
  pushes node := if skip node then [] else node.children
  pushes_sublist node := by
    split
    · exact List.nil_sublist _
    · exact List.Sublist.refl _

/-- Notes the errors, and looks for them below the nodes that report one. -/
def Visit.errors : Visit where
  notes node := if node.isError then [node] else []
  pushes node :=
    if node.isError then []
    else node.children.filter fun child => child.label.hasError || child.isError
  pushes_sublist node := by
    split
    · exact List.nil_sublist _
    · exact List.filter_sublist

/-- Notes the functions, and looks for them below the other nodes up to the ends of the scope. -/
def Visit.functions : Visit where
  notes node := if Declaration.isNestedFunction node then [node] else []
  pushes node :=
    if Declaration.isNestedFunction node || node.isOneOf Declaration.scopeBoundaries then []
    else node.children
  pushes_sublist node := by
    split
    · exact List.nil_sublist _
    · exact List.Sublist.refl _

namespace Node

/-- The walk of a node is what a loop from the node on notes. -/
theorem walkSkipping_execution (skip : Node → Bool) (root : Node) :
    ∃ rounds, Execution StackWalk.Unfinished (StackWalk.step? (.skipping skip)) ⟨[root], []⟩ rounds
      ⟨[], root.walkSkipping skip⟩ := by
  have hlist (node : Node) : node.walkSkipping skip =
      (Visit.skipping skip).notes node ++
        ((Visit.skipping skip).pushes node).flatMap (walkSkipping skip) := by
    cases node with
    | mk label children =>
        rw [walkSkipping, walkAllSkipping_eq]
        simp only [Visit.skipping]
        split <;> rfl
  simpa using StackWalk.execution_flatMap hlist [root]

/-- Among several nodes, the first error is that of the first which reports and has one. -/
theorem findErrorIn?_eq_findSome? (nodes : List Node) :
    findErrorIn? nodes =
      (nodes.filter fun node => node.label.hasError || node.isError).findSome? findError? := by
  induction nodes with
  | nil => rw [findErrorIn?, List.filter_nil, List.findSome?_nil]
  | cons node nodes ih =>
      rw [findErrorIn?, List.filter_cons, ih]
      split
      · rw [List.findSome?_cons]
        cases node.findError? <;> rfl
      · rfl

/-- The first error of a tree that reports one is what a loop from the root on notes first; where it
notes nothing, it is the root. -/
theorem firstError?_execution (root : Node) :
    ∃ rounds last, Execution StackWalk.Searching
      (StackWalk.step? .errors) ⟨[root], []⟩ rounds last ∧
      root.firstError? =
        if root.label.hasError then some (last.noted.head?.getD root) else none := by
  have hfind (node : Node) : node.findError? =
      (Visit.errors.notes node).head?.or ((Visit.errors.pushes node).findSome? findError?) := by
    cases node with
    | mk label children =>
        rw [findError?, findErrorIn?_eq_findSome?]
        simp only [Visit.errors]
        split <;> rfl
  obtain ⟨rounds, last, hexecution, hlast⟩ := StackWalk.execution_findSome? hfind [root]
  refine ⟨rounds, last, hexecution, ?_⟩
  rw [firstError?, hlast]
  simp

end Node
end Tree

namespace Declaration

open CodeAtlas.Tree
open CodeAtlas.Digraph (Execution)

/-- The nodes of a body are what a loop from the body on notes. -/
theorem walkBody_execution (declaration : Declaration) {body : Node}
    (hbody : declaration.body = some body) :
    ∃ rounds, Execution StackWalk.Unfinished
      (StackWalk.step? (.skipping fun node => declaration.excluded.any node.same)) ⟨[body], []⟩
      rounds ⟨[], declaration.walkBody⟩ := by
  rw [walkBody, hbody]
  exact body.walkSkipping_execution _

/-- The functions inside a body are what a loop over the children of the body notes. -/
theorem nestedFunctions_execution (body : Node) :
    ∃ rounds, Execution StackWalk.Unfinished (StackWalk.step? .functions)
      ⟨body.children.reverse, []⟩ rounds ⟨[], nestedFunctions body.children⟩ := by
  have hlist (node : Node) : nestedFunctionsAt node =
      Visit.functions.notes node ++
        (Visit.functions.pushes node).flatMap nestedFunctionsAt := by
    rw [nestedFunctionsAt_eq]
    simp only [Visit.functions]
    cases isNestedFunction node <;> cases node.isOneOf scopeBoundaries <;> simp
  simpa [nestedFunctions_eq_flatMap] using
    StackWalk.execution_flatMap hlist body.children.reverse

end Declaration
end CodeAtlas
