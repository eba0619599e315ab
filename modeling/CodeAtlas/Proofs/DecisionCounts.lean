import CodeAtlas.Proofs.NestedFunctions
import Mathlib.Algebra.GroupWithZero.Nat

/-!
# Counting decisions

The complexity of a function is one more than the number of decisions that it walks.  What it does
not walk are the subtrees of the nodes that it excludes.  These stand beside each other below the
body, so that the walk and the excluded subtrees together list every node of the body once, and
the decisions of the body are counted once, here or there.

Main results:

- Theorem {lit}`walk_perm_walkBody`: a body consists of what is walked and of what is excluded.
- Theorem {lit}`complexity_add_excluded_decisions`: the complexity of a function and the decisions
  that it leaves to others add up to those of its body.
-/

namespace CodeAtlas

/-- The number of decisions in a subtree. -/
def decisionsIn (node : Tree.Node) : Nat := node.walk.countP isDecision

namespace Declaration

open CodeAtlas.Tree

section Excluded

variable {declaration : Declaration} {body : Node}

theorem walkBody_sublist (hbody : declaration.body = some body) :
    declaration.walkBody.Sublist body.walk := by
  rw [walkBody, hbody]
  exact Node.walkSkipping_sublist _ body

/-- A body consists of what its declaration walks and of the subtrees that it excludes, if these
stand beside each other. -/
theorem walk_perm_walkBody (hbody : declaration.body = some body) (hnumbered : body.Numbered)
    (hholds : body.Holds declaration.excluded) :
    body.walk.Perm (declaration.walkBody ++ declaration.excluded.flatMap Node.walk) := by
  have hnodup : body.walk.Nodup := hnumbered.of_map _
  have hwalks := mem_walkBody_iff hbody hnumbered fun other hother => hholds.mem hother
  have hboth : (declaration.walkBody ++ declaration.excluded.flatMap Node.walk).Nodup := by
    apply List.Nodup.append
    · exact hnodup.sublist (walkBody_sublist hbody)
    · exact hnodup.sublist hholds
    · intro node hwalked hleft
      rcases List.mem_flatMap.1 hleft with ⟨other, hother, hnode⟩
      exact ((hwalks node).1 hwalked).2 other hother hnode
  -- neither list repeats a node, so it is enough that they have the same members
  apply (List.perm_ext_iff_of_nodup hnodup hboth).2
  intro node
  constructor
  · intro hnode
    by_cases hleft : node ∈ declaration.excluded.flatMap Node.walk
    · exact List.mem_append_right _ hleft
    · apply List.mem_append_left
      apply (hwalks node).2
      exact ⟨hnode, fun other hother hin => hleft (List.mem_flatMap.2 ⟨other, hother, hin⟩)⟩
  · intro hnode
    rcases List.mem_append.1 hnode with hwalked | hleft
    · exact (walkBody_sublist hbody).subset hwalked
    · exact hholds.subset hleft

/-- What is counted of a body is counted in the walk or in one of the excluded subtrees. -/
theorem countP_walkBody_add_excluded (hbody : declaration.body = some body)
    (hnumbered : body.Numbered) (hholds : body.Holds declaration.excluded) (p : Node → Bool) :
    declaration.walkBody.countP p + (declaration.excluded.map fun node => node.walk.countP p).sum =
      body.walk.countP p := by
  rw [(walk_perm_walkBody hbody hnumbered hholds).countP_eq, List.countP_append,
    List.countP_flatMap]
  rfl

end Excluded

section Functions

variable {tree : SourceTree} {declaration : Declaration} {body : Node}

/-- The nodes that a function excludes stand beside each other, below the children of its body. -/
theorem excluded_sublist (hmem : declaration ∈ tree.declarations)
    (hkind : declaration.kind.isCallable = true) (hbody : declaration.body = some body) :
    (declaration.excluded.flatMap Node.walk).Sublist (body.children.flatMap Node.walk) := by
  rw [(excluded_of_callable hmem hkind hbody).1]
  exact (List.filter_sublist.flatMap Node.walk).trans (nestedFunctions_sublist body.children)

/-- The complexity of a function and the decisions in the subtrees that it excludes are together
one more than the decisions of its body.  The excluded nodes are below the body and none of them is
below another, so that nothing is left out twice. -/
theorem complexity_add_excluded_decisions (hnumbered : tree.root.Numbered)
    (hmem : declaration ∈ tree.declarations) (hkind : declaration.kind.isCallable = true)
    (hbody : declaration.body = some body) :
    (∃ complexity, declaration.complexity? = some complexity ∧
      complexity + (declaration.excluded.map decisionsIn).sum = 1 + decisionsIn body) ∧
    declaration.excluded.Pairwise (fun a b => a ∉ b.walk ∧ b ∉ a.walk) ∧
    ∀ node ∈ declaration.excluded, node ∈ body.walk ∧ node.same body = false := by
  have hbelow := excluded_sublist hmem hkind hbody
  have hholds : body.Holds declaration.excluded := hbelow.trans body.holds_children
  have hnumbered := numbered_body hnumbered hmem hbody
  refine ⟨⟨_, by rw [complexity?, if_pos hkind], ?_⟩, ?_, ?_⟩
  · have hcount : declaration.walkBody.countP isDecision +
        (declaration.excluded.map decisionsIn).sum = decisionsIn body :=
      countP_walkBody_add_excluded hbody hnumbered hholds isDecision
    omega
  · apply (hnumbered.apart hholds).imp
    intro a b hapart
    exact ⟨hapart a (Node.mem_walk_self a), fun hb => hapart b hb (Node.mem_walk_self b)⟩
  · intro node hnode
    have hin : node ∈ body.walk := hholds.mem hnode
    refine ⟨hin, ?_⟩
    -- a node that is the body would be below a child of the body
    rw [← Bool.not_eq_true]
    intro hsame
    have heq := hnumbered.eq_of_same hin (Node.mem_walk_self body) hsame
    have hdeep : node ∈ body.children.flatMap Node.walk :=
      hbelow.subset (List.mem_flatMap.2 ⟨node, hnode, Node.mem_walk_self node⟩)
    rcases List.mem_flatMap.1 hdeep with ⟨child, hchild, hnode⟩
    exact hnumbered.not_mem_walk_child hchild (heq ▸ hnode)

end Functions

/-- The rows of a function with two functions inside it that agree in type and place, each with a
decision.  Only the first of them has a name.  The names are the two bytes of the source. -/
def twinRows : List Row :=
  [.plain 0 "program" 0 2 none,
    .plain 1 "function_declaration" 0 2 none,
    .plain 2 "identifier" 0 1 (some "name"),
    .plain 2 "statement_block" 1 2 (some "body"),
    .plain 3 "function_declaration" 1 2 none,
    .plain 4 "identifier" 1 2 (some "name"),
    .plain 4 "statement_block" 2 2 (some "body"),
    .plain 5 "if_statement" 2 2 none,
    .plain 3 "function_declaration" 1 2 none,
    .plain 4 "statement_block" 2 2 (some "body"),
    .plain 5 "if_statement" 2 2 none]

/-- In {name}`twinRows`, the outer function excludes one of the two functions and counts the
decision of the other. -/
theorem complexity_add_excluded_decisions_twins :
    ∃ root, Node.ofRows? twinRows = some root ∧ root.Numbered ∧
      let tree : SourceTree := ⟨"a.ts", .typescript, ⟨[102, 103]⟩, root⟩
      ∃ declaration ∈ tree.declarations, declaration.kind.isCallable = true ∧
        ∃ body, declaration.body = some body ∧ declaration.excluded.length = 1 ∧
          decisionsIn body = 2 ∧ declaration.complexity? = some 2 ∧
          (declaration.excluded.map decisionsIn).sum = 1 := by
  obtain ⟨root, hroot, hfound⟩ : ∃ root, Node.ofRows? twinRows = some root ∧
      (root.namedChildren.flatMap (ofStatement ⟨[102, 103]⟩)).any (fun declaration =>
        declaration.kind.isCallable && declaration.body.any fun body =>
          decisionsIn body == 2 && declaration.excluded.length == 1
            && declaration.complexity? == some 2) = true :=
    ⟨_, rfl, by decide +kernel⟩
  have hnumbered := Node.numbered_of_ofRows hroot
  rcases List.any_eq_true.1 hfound with ⟨declaration, hmem, htest⟩
  rcases Bool.and_eq_true_iff.1 htest with ⟨hkind, htest⟩
  rcases (Option.any_eq_true _ _).1 htest with ⟨body, hbody, htest⟩
  simp only [Bool.and_eq_true, beq_iff_eq] at htest
  rcases htest with ⟨⟨hdecisions, hlength⟩, hcomplexity⟩
  have hmem : declaration ∈ (SourceTree.mk "a.ts" .typescript ⟨[102, 103]⟩ root).declarations :=
    (declarations_perm _).mem_iff.2 hmem
  refine ⟨root, hroot, hnumbered, declaration, hmem, hkind, body, hbody, hlength, hdecisions,
    hcomplexity, ?_⟩
  rcases (complexity_add_excluded_decisions hnumbered hmem hkind hbody).1 with ⟨_, hsome, hsum⟩
  rw [hcomplexity, Option.some.injEq] at hsome
  omega

end Declaration
end CodeAtlas
