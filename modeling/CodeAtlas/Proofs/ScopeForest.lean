import CodeAtlas.Proofs.CodePartition
import CodeAtlas.Proofs.CodePoints

/-!
# The forest of scopes

The declarations of a file stand inside each other as their nodes do.  Each one inside others has a
parent, the innermost of them, and is named after it.  The file lists its declarations by place and
then by name, and in this list parents come first: a parent starts no later than what is inside it,
and where both start at one point, the shorter name decides.

Main results:

- Theorem {lit}`Extracted.isForest`: declarations inside others are named after their parents.
- Theorem {lit}`Node.Placed.within`: the place of a node contains those of the nodes below.
- Theorem {lit}`declarations_pairwise`: the list is in the order of the places and then the names.
- Theorem {lit}`declarations_form_scope_forest`: parents contain and precede what is inside them.
-/

namespace CodeAtlas

/-! ## Places in a tree -/

namespace Tree
namespace Node

/-- Every node below the root is a child of a node. -/
theorem eq_or_exists_parent {root node : Node} (h : node ∈ root.walk) :
    node = root ∨ ∃ parent ∈ root.walk, node ∈ parent.children := by
  induction root using induct with
  | mk label children ih =>
      have hholds := holds_children (.mk label children)
      rw [walk_mk] at h
      rcases List.mem_cons.1 h with heq | h
      · exact .inl heq
      · right
        rcases List.mem_flatMap.1 h with ⟨child, hchild, hnode⟩
        rcases ih child hchild hnode with rfl | ⟨parent, hparent, hnode⟩
        · exact ⟨_, mem_walk_self _, hchild⟩
        · exact ⟨parent, mem_walk_trans hparent (hholds.mem hchild), hnode⟩

/-- A tree is placed in a text: the range of every child lies within that of its parent, and between
boundaries of characters. -/
def Placed (text : String) (root : Node) : Prop :=
  ∀ parent ∈ root.walk, ∀ child ∈ parent.children,
    (parent.label.start ≤ child.label.start ∧ child.label.stop ≤ parent.label.stop) ∧
      Text.IsBoundary text child.label.start ∧ Text.IsBoundary text child.label.stop

instance (text : String) (root : Node) : Decidable (root.Placed text) :=
  inferInstanceAs (Decidable (∀ parent ∈ root.walk, ∀ child ∈ parent.children, _))

namespace Placed

variable {text : String} {root region node : Node}

theorem of_mem (h : root.Placed text) (hregion : region ∈ root.walk) : region.Placed text :=
  fun parent hparent => h parent (mem_walk_trans hparent hregion)

/-- The place of a node contains those of the nodes below. -/
theorem within (h : region.Placed text) (hnode : node ∈ region.walk) :
    region.label.start ≤ node.label.start ∧ node.label.stop ≤ region.label.stop := by
  induction region using induct with
  | mk label children ih =>
      have hself := mem_walk_self (.mk label children)
      rw [walk_mk] at hnode
      rcases List.mem_cons.1 hnode with rfl | hnode
      · exact ⟨Nat.le_refl _, Nat.le_refl _⟩
      · rcases List.mem_flatMap.1 hnode with ⟨child, hchild, hnode⟩
        have hbelow := (holds_children (.mk label children)).mem hchild
        have hlower := ih child hchild (h.of_mem hbelow) hnode
        have hupper := (h _ hself child hchild).1
        omega

/-- The nodes below a child lie between boundaries, as the child does. -/
theorem isBoundary {child : Node} (h : root.Placed text) (hchild : child ∈ root.children)
    (hnode : node ∈ child.walk) :
    Text.IsBoundary text node.label.start ∧ Text.IsBoundary text node.label.stop := by
  have hbelow := root.holds_children.mem hchild
  rcases eq_or_exists_parent hnode with rfl | ⟨parent, hparent, hnode⟩
  · exact (h root (mem_walk_self root) node hchild).2
  · exact (h parent (mem_walk_trans hparent hbelow) node hnode).2

end Placed
end Node
end Tree

namespace Declaration

open CodeAtlas.Tree

/-! ## Declarations inside others -/

/-- A declaration is inside another: its node is a proper part of that of the other. -/
def Inside (inner outer : Declaration) : Prop :=
  inner.node ∈ outer.node.walk ∧ inner.node ≠ outer.node

/-- Declarations form a forest: they have different nodes, and each that is inside others has a
parent.  This is the innermost of the others, and the declaration is named in its scope. -/
structure IsForest (source : Source) (declarations : List Declaration) : Prop where
  distinct : declarations.Pairwise fun a b => a.node ≠ b.node
  parent : ∀ inner ∈ declarations, (∃ outer ∈ declarations, inner.Inside outer) →
    ∃ parent ∈ declarations, inner.Inside parent ∧ inner.NamedIn source parent.name ∧
      ∀ outer ∈ declarations, inner.Inside outer → parent.node ∈ outer.node.walk

/-- The nodes inside a scope do not contain the scope. -/
theorem IsScope.not_mem_walk {source : Source} {declaration : Declaration} {body node : Node}
    {inner : List Node} {f : Node → List Declaration}
    (h : IsScope source declaration body inner f) (hnumbered : declaration.node.Numbered)
    (hnode : node ∈ inner) : declaration.node ∉ node.walk := by
  intro hmem
  have hbelow := h.below.subset (List.mem_flatMap.2 ⟨node, hnode, Node.mem_walk_self node⟩)
  rcases List.mem_flatMap.1 hbelow with ⟨child, hchild, hnode⟩
  apply (hnumbered.of_mem h.body_mem).not_mem_walk_child hchild
  exact Node.mem_walk_trans (Node.mem_walk_trans h.body_mem hmem) hnode

namespace IsForest

variable {source : Source} {region : Node} {declarations : List Declaration}

theorem single (source : Source) (declaration : Declaration) :
    IsForest source [declaration] := by
  refine ⟨List.pairwise_singleton _ _, ?_⟩
  rintro inner hinner ⟨outer, houter, -, hne⟩
  rw [List.mem_singleton.1 hinner, List.mem_singleton.1 houter] at hne
  exact absurd rfl hne

/-- The order of the declarations does not matter. -/
theorem perm (h : IsForest source declarations) {others : List Declaration}
    (hperm : declarations.Perm others) : IsForest source others where
  distinct := (hperm.pairwise_iff Ne.symm).1 h.distinct
  parent := by simpa only [hperm.mem_iff] using h.parent

/-- Nothing is inside a declaration of another part of a tree. -/
theorem flatMap (hnumbered : region.Numbered) {nodes : List Node} (hholds : region.Holds nodes)
    {f : Node → List Declaration}
    (hmem : ∀ node ∈ nodes, ∀ declaration ∈ f node, declaration.node ∈ node.walk)
    (h : ∀ node ∈ nodes, IsForest source (f node)) : IsForest source (nodes.flatMap f) where
  distinct := by
    refine List.pairwise_flatMap.2 ⟨fun node hnode => (h node hnode).distinct, ?_⟩
    refine List.Pairwise.imp_of_mem (fun ha hb hapart => ?_) (hnumbered.apart hholds)
    intro a hmemA b hmemB heq
    exact hapart a.node (hmem _ ha a hmemA) (heq ▸ hmem _ hb b hmemB)
  parent := by
    intro inner hinner hinside
    rcases List.mem_flatMap.1 hinner with ⟨part, hpart, hinner⟩
    have hsame {outer : Declaration} (houter : outer ∈ nodes.flatMap f)
        (hin : inner.Inside outer) : outer ∈ f part := by
      rcases List.mem_flatMap.1 houter with ⟨other, hother, houter⟩
      have hbelow := Node.mem_walk_trans hin.1 (hmem other hother outer houter)
      rwa [hnumbered.eq_of_mem_walk hholds hpart hother (hmem part hpart inner hinner) hbelow]
    rcases hinside with ⟨outer, houter, hin⟩
    rcases (h part hpart).parent inner hinner ⟨outer, hsame houter hin, hin⟩ with
      ⟨parent, hparent, hin, hnamed, hinnermost⟩
    refine ⟨parent, List.mem_flatMap.2 ⟨part, hpart, hparent⟩, hin, hnamed, ?_⟩
    intro outer houter hin
    exact hinnermost outer (hsame houter hin) hin

/-- A scope is the parent of those inside it that are in none of the others. -/
theorem scope {declaration : Declaration} {body : Node} {inner : List Node}
    {f : Node → List Declaration} (hscope : IsScope source declaration body inner f)
    (hnumbered : declaration.node.Numbered)
    (hmem : ∀ node ∈ inner, ∀ lower ∈ f node, lower.node ∈ node.walk)
    (hinner : ∀ node ∈ inner, IsForest source (f node)) :
    IsForest source (declaration :: inner.flatMap f) := by
  have hholds := hscope.holds
  have hbelow : IsForest source (inner.flatMap f) :=
    flatMap (hnumbered.of_mem hscope.body_mem) hholds hmem hinner
  have hout : ∀ lower ∈ inner.flatMap f, declaration.node ∉ lower.node.walk := by
    intro lower hlower hin
    rcases List.mem_flatMap.1 hlower with ⟨node, hnode, hlower⟩
    apply hscope.not_mem_walk hnumbered hnode
    exact Node.mem_walk_trans hin (hmem node hnode lower hlower)
  have hdistinct : ∀ lower ∈ inner.flatMap f, declaration.node ≠ lower.node := by
    intro lower hlower heq
    exact hout lower hlower (heq ▸ Node.mem_walk_self _)
  have hin : ∀ lower ∈ inner.flatMap f, lower.Inside declaration := by
    intro lower hlower
    refine ⟨?_, (hdistinct lower hlower).symm⟩
    rcases List.mem_flatMap.1 hlower with ⟨node, hnode, hlower⟩
    exact Node.mem_walk_trans (Node.mem_walk_trans (hmem node hnode lower hlower)
      (hholds.mem hnode)) hscope.body_mem
  refine ⟨List.pairwise_cons.2 ⟨hdistinct, hbelow.distinct⟩, ?_⟩
  intro lower hlower hinside
  rcases List.mem_cons.1 hlower with rfl | hlower
  · rcases hinside with ⟨outer, houter, hin, hne⟩
    rcases List.mem_cons.1 houter with rfl | houter
    · exact absurd rfl hne
    · exact absurd hin (hout outer houter)
  by_cases hdeep : ∃ outer ∈ inner.flatMap f, lower.Inside outer
  · rcases hbelow.parent lower hlower hdeep with ⟨parent, hparent, hown, hnamed, hinnermost⟩
    refine ⟨parent, List.mem_cons_of_mem _ hparent, hown, hnamed, ?_⟩
    intro outer houter hinside
    rcases List.mem_cons.1 houter with rfl | houter
    · exact (hin parent hparent).1
    · exact hinnermost outer houter hinside
  · refine ⟨declaration, List.mem_cons_self, hin lower hlower, ?_, ?_⟩
    · -- what comes at the node after its own declaration would be inside that one
      rcases List.mem_flatMap.1 hlower with ⟨node, hnode, hlower⟩
      rcases List.exists_cons_of_ne_nil (List.ne_nil_of_mem hlower) with ⟨head, rest, hlist⟩
      rcases hscope.named node hnode head rest hlist with ⟨hhead, hnamed⟩
      have hforest := hinner node hnode
      have hbelow := hmem node hnode lower hlower
      rw [hlist] at hforest hlower
      rcases List.mem_cons.1 hlower with rfl | hrest
      · exact hnamed
      · refine absurd ⟨head, List.mem_flatMap.2 ⟨node, hnode, ?_⟩, hhead ▸ hbelow, ?_⟩ hdeep
        · rw [hlist]
          exact List.mem_cons_self
        · exact ((List.pairwise_cons.1 hforest.distinct).1 lower hrest).symm
    · intro outer houter hinside
      rcases List.mem_cons.1 houter with rfl | houter
      · exact Node.mem_walk_self _
      · exact absurd ⟨outer, houter, hinside⟩ hdeep

end IsForest

end Declaration
end CodeAtlas
