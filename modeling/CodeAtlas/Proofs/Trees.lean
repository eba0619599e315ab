import CodeAtlas.Tree.Rows
import Mathlib.Data.List.Flatten
import Mathlib.Data.List.Nodup
import Mathlib.Data.List.Pairwise
import Mathlib.Data.List.TakeDrop

/-!
# Subtrees and walks

The walk of a node lists its subtree.  In a numbered tree, where no number comes twice, nodes are
told apart by their numbers, nodes beside each other have nothing in common, and a walk that skips
nodes leaves out exactly their subtrees.

Main results:

- Theorem {lit}`Node.walk_sublist_of_mem`: the walk of a node is part of that of each node above.
- Theorem {lit}`Node.mem_walkSkipping_iff`: what a walk that skips nodes visits.
- Theorem {lit}`Node.numbered_of_ofRows`: a tree that is read from rows is numbered.
-/

namespace CodeAtlas
namespace Tree
namespace Node

/-! ## Induction over trees -/

/-- To prove something of all trees, prove it of a node whose children have it. -/
@[elab_as_elim]
theorem induct {motive : Node → Prop}
    (mk : ∀ label children, (∀ child ∈ children, motive child) → motive (.mk label children)) :
    ∀ node, motive node
  | .mk label children => mk label children fun child _ => induct mk child

/-! ## Walks -/

/-- A walk that skips nothing visits a node and then its children. -/
theorem walk_mk (label : Label) (children : List Node) :
    walk (.mk label children) = .mk label children :: children.flatMap walk := by
  rw [walk, walkSkipping, walkAllSkipping_eq]
  rfl

theorem walk_eq (node : Node) : node.walk = node :: node.children.flatMap walk := by
  cases node with
  | mk label children => exact walk_mk label children

@[simp]
theorem mem_walk_self (node : Node) : node ∈ node.walk := by
  rw [walk_eq]
  exact List.mem_cons_self

/-- A node, and others that stand beside each other in its subtree: their walks come one after the
other in its walk. -/
def Holds (region : Node) (nodes : List Node) : Prop :=
  (nodes.flatMap walk).Sublist region.walk

theorem holds_children (node : Node) : node.Holds node.children := by
  rw [Holds, walk_eq]
  exact List.sublist_cons_self _ _

theorem Holds.sublist {region : Node} {nodes chosen : List Node} (h : region.Holds nodes)
    (hchosen : chosen.Sublist nodes) : region.Holds chosen :=
  (hchosen.flatMap walk).trans h

theorem holds_namedChildren (node : Node) : node.Holds node.namedChildren :=
  node.holds_children.sublist List.filter_sublist

/-- The walk of a node that is held is part of the walk. -/
theorem Holds.walk_sublist {region : Node} {nodes : List Node} (h : region.Holds nodes)
    {node : Node} (hnode : node ∈ nodes) : node.walk.Sublist region.walk := by
  have hsingle := h.sublist (List.singleton_sublist.2 hnode)
  simpa [Holds] using hsingle

theorem Holds.mem {region : Node} {nodes : List Node} (h : region.Holds nodes) {node : Node}
    (hnode : node ∈ nodes) : node ∈ region.walk :=
  (h.walk_sublist hnode).subset node.mem_walk_self

/-- The walk of a node is part of the walk of each node above. -/
theorem walk_sublist_of_mem {node region : Node} (h : node ∈ region.walk) :
    node.walk.Sublist region.walk := by
  induction region using induct with
  | mk label children ih =>
      rw [walk_mk] at h
      rcases List.mem_cons.1 h with rfl | h
      · exact List.Sublist.refl _
      · obtain ⟨child, hchild, hnode⟩ := List.mem_flatMap.1 h
        have hbelow := (holds_children (.mk label children)).walk_sublist hchild
        exact (ih child hchild hnode).trans hbelow

theorem mem_walk_trans {inner node region : Node} (hinner : inner ∈ node.walk)
    (hnode : node ∈ region.walk) : inner ∈ region.walk :=
  (walk_sublist_of_mem hnode).subset hinner

/-- A child that fills a field is below the node. -/
theorem mem_walk_of_field {node child : Node} {name : String} (h : node.field? name = some child) :
    child ∈ node.walk :=
  node.holds_children.mem (List.mem_of_find?_eq_some h)

/-- Two subtrees have no node in common. -/
def Apart (a b : Node) : Prop := ∀ node ∈ a.walk, node ∉ b.walk

instance : Std.Symm Apart where
  symm _ _ h node hb ha := h node ha hb

/-! ## Numbered trees -/

/-- A tree is numbered when no two of its nodes have the same number. -/
def Numbered (root : Node) : Prop := (root.walk.map fun node => node.label.number).Nodup

namespace Numbered

variable {root : Node}

/-- A subtree of a numbered tree is numbered. -/
theorem of_mem (h : root.Numbered) {node : Node} (hnode : node ∈ root.walk) : node.Numbered :=
  h.sublist ((walk_sublist_of_mem hnode).map _)

/-- Nodes of a numbered tree with the same number are the same. -/
theorem eq_of_same (h : root.Numbered) {a b : Node} (ha : a ∈ root.walk) (hb : b ∈ root.walk)
    (hsame : a.same b = true) : a = b :=
  List.inj_on_of_nodup_map h ha hb (by simpa [same] using hsame)

/-- In a numbered tree, nodes beside each other have no node in common. -/
theorem apart (h : root.Numbered) {nodes : List Node} (hnodes : root.Holds nodes) :
    nodes.Pairwise Apart := by
  have hnodup : (nodes.flatMap walk).Nodup := (h.of_map _).sublist hnodes
  exact (List.nodup_flatMap.1 hnodup).2

/-- In a numbered tree, nodes beside each other that have a node in common are the same. -/
theorem eq_of_mem_walk (h : root.Numbered) {nodes : List Node} (hnodes : root.Holds nodes)
    {a b node : Node} (ha : a ∈ nodes) (hb : b ∈ nodes) (hnodeA : node ∈ a.walk)
    (hnodeB : node ∈ b.walk) : a = b := by
  by_contra hne
  exact (h.apart hnodes).forall ha hb hne node hnodeA hnodeB

/-- No node of a numbered tree is below itself. -/
theorem not_mem_walk_child (h : root.Numbered) {child : Node} (hchild : child ∈ root.children) :
    root ∉ child.walk := by
  intro hmem
  have hnodup : root.walk.Nodup := h.of_map _
  rw [walk_eq, List.nodup_cons] at hnodup
  exact hnodup.1 (List.mem_flatMap.2 ⟨child, hchild, hmem⟩)

end Numbered

/-! ## Walks that skip nodes -/

theorem mem_walkSkipping_mk (skip : Node → Bool) (label : Label) (children : List Node)
    (node : Node) :
    node ∈ walkSkipping skip (.mk label children) ↔
      skip (.mk label children) = false ∧
        (node = .mk label children ∨ ∃ child ∈ children, node ∈ child.walkSkipping skip) := by
  rw [walkSkipping, walkAllSkipping_eq]
  cases skip (.mk label children) <;> simp

/-- A walk that skips nodes is part of the walk. -/
theorem walkSkipping_sublist (skip : Node → Bool) (root : Node) :
    (root.walkSkipping skip).Sublist root.walk := by
  induction root using induct with
  | mk label children ih =>
      rw [walkSkipping, walkAllSkipping_eq, walk_mk]
      by_cases hskip : skip (.mk label children) = true
      · simp [hskip]
      · rw [if_neg hskip]
        exact (List.Sublist.flatMap_right children ih).cons_cons _

theorem mem_walk_of_mem_walkSkipping {skip : Node → Bool} {root node : Node}
    (h : node ∈ root.walkSkipping skip) : node ∈ root.walk :=
  (walkSkipping_sublist skip root).subset h

/-- A walk of a numbered tree that skips nodes leaves out exactly their subtrees. -/
theorem mem_walkSkipping_iff (skip : Node → Bool) {root : Node} (h : root.Numbered) (node : Node) :
    node ∈ root.walkSkipping skip ↔
      node ∈ root.walk ∧ ∀ skipped ∈ root.walk, skip skipped = true → node ∉ skipped.walk := by
  induction root using induct with
  | mk label children ih =>
      have hchildren := holds_children (.mk label children)
      have hnumbered : ∀ child ∈ children, child.Numbered := fun child hchild =>
        h.of_mem (hchildren.mem hchild)
      rw [mem_walkSkipping_mk]
      constructor
      · rintro ⟨hroot, rfl | ⟨child, hchild, hnode⟩⟩
        · refine ⟨mem_walk_self _, ?_⟩
          intro skipped hskipped hskip hbelow
          rw [walk_mk] at hskipped
          rcases List.mem_cons.1 hskipped with rfl | hskipped
          · rw [hroot] at hskip
            cases hskip
          · obtain ⟨child, hchild, hskipped⟩ := List.mem_flatMap.1 hskipped
            exact h.not_mem_walk_child hchild (mem_walk_trans hbelow hskipped)
        · obtain ⟨hwalk, hothers⟩ := (ih child hchild (hnumbered child hchild)).1 hnode
          refine ⟨mem_walk_trans hwalk (hchildren.mem hchild), ?_⟩
          intro skipped hskipped hskip hbelow
          rw [walk_mk] at hskipped
          rcases List.mem_cons.1 hskipped with rfl | hskipped
          · rw [hroot] at hskip
            cases hskip
          · obtain ⟨other, hother, hskipped⟩ := List.mem_flatMap.1 hskipped
            -- the skipped node has a node in common with the child, so it is below the same child
            obtain rfl := h.eq_of_mem_walk hchildren hchild hother hwalk
              (mem_walk_trans hbelow hskipped)
            exact hothers skipped hskipped hskip hbelow
      · rintro ⟨hwalk, hothers⟩
        have hroot : skip (.mk label children) = false := by
          rw [← Bool.not_eq_true]
          exact fun hskip => hothers _ (mem_walk_self _) hskip hwalk
        refine ⟨hroot, ?_⟩
        rw [walk_mk] at hwalk
        rcases List.mem_cons.1 hwalk with heq | hwalk
        · exact .inl heq
        · obtain ⟨child, hchild, hnode⟩ := List.mem_flatMap.1 hwalk
          refine .inr ⟨child, hchild, (ih child hchild (hnumbered child hchild)).2 ⟨hnode, ?_⟩⟩
          intro skipped hskipped
          exact hothers skipped (mem_walk_trans hskipped (hchildren.mem hchild))

/-! ## Trees from rows -/

/-- The numbers of trees, in preorder. -/
def numbersOf (trees : List (Nat × Node)) : List Nat :=
  trees.flatMap fun tree => tree.2.walk.map fun node => node.label.number

/-- A row comes before the numbers that follow it, whichever of the trees it adopts. -/
theorem numbersOf_adopt (row : Row) (number : Nat) (following : List (Nat × Node)) :
    numbersOf (row.adopt number following) = number :: numbersOf following := by
  obtain ⟨below, beside, hspan, hsplit⟩ : ∃ below beside,
      following.span (fun tree => row.depth < tree.1) = (below, beside) ∧
        below ++ beside = following :=
    ⟨_, _, List.span_eq_takeWhile_dropWhile .., List.takeWhile_append_dropWhile⟩
  have hadopt : row.adopt number following =
      (row.depth, .mk (row.label number) (below.map (·.2))) :: beside := by
    rw [Row.adopt, hspan]
  rw [hadopt, ← hsplit]
  simp only [numbersOf, List.flatMap_cons, walk_mk, List.map_cons, List.flatMap_map,
    List.map_flatMap, List.flatMap_append, List.cons_append]
  rfl

/-- The trees of rows are numbered one after the other. -/
theorem numbersOf_forestFrom (number : Nat) (rows : List Row) :
    numbersOf (forestFrom number rows) = List.range' number rows.length := by
  induction rows generalizing number with
  | nil => rfl
  | cons row rows ih => rw [forestFrom, numbersOf_adopt, ih, List.length_cons, List.range'_succ]

/-- A tree that is read from rows is numbered. -/
theorem numbered_of_ofRows {rows : List Row} {root : Node} (h : ofRows? rows = some root) :
    root.Numbered := by
  obtain ⟨tree, hhead, rfl⟩ := Option.map_eq_some_iff.1 h
  obtain ⟨rest, hforest⟩ := List.head?_eq_some_iff.1 hhead
  have hnodup : (numbersOf (forestFrom 0 rows)).Nodup := by
    rw [numbersOf_forestFrom]
    exact List.nodup_range'
  rw [hforest, numbersOf, List.flatMap_cons] at hnodup
  exact (List.nodup_append.1 hnodup).1

end Node

/-- The row of a named node without errors. -/
def Row.plain (depth : Nat) (type : String) (start stop : Nat) (field : Option String) : Row :=
  ⟨depth, type, true, false, false, false, start, stop, field⟩

end Tree
end CodeAtlas
