import CodeAtlas.Proofs.Extraction

/-!
# How declarations divide up the code

Each declaration walks its body without the nodes that are declarations of their own.  The nodes
that a function leaves out are found by one search, the declarations inside it by another, and the
members of a class by a third; all of them keep to the same boundaries.  So no node is walked
twice, and a node of a body that is walked by none lies in the head of a declaration below.

Main results:

- Theorem {lit}`Divides.scope`: a declaration joins those of the nodes that it leaves out.
- Theorem {lit}`Extracted.divides`: whatever is extracted from a region divides up its code.
- Theorem {lit}`declarations_partition_code`: the declarations of a file divide up its code.
-/

namespace CodeAtlas
namespace Declaration

open CodeAtlas.Tree

/-! ## Dividing up code -/

/-- A declaration leaves a node out: the node is part of it, but not of its body. -/
def Omits (declaration : Declaration) (node : Node) : Prop :=
  node ∈ declaration.node.walk ∧ ∀ body, declaration.body = some body → node ∉ body.walk

/-- Declarations divide up the code of a region: each is part of it and has its body inside, no
node is walked by two of them, and what one of them does not walk of its own body is walked by one
below, or is left out by one below. -/
structure Divides (region : Node) (declarations : List Declaration) : Prop where
  node_mem : ∀ declaration ∈ declarations, declaration.node ∈ region.walk
  body_mem : ∀ declaration ∈ declarations, ∀ body, declaration.body = some body →
    body ∈ declaration.node.walk
  apart : declarations.Pairwise fun a b => ∀ node ∈ a.walkBody, node ∉ b.walkBody
  covered : ∀ declaration ∈ declarations, ∀ body, declaration.body = some body →
    ∀ node ∈ body.walk, node ∈ declaration.walkBody ∨
      ∃ lower ∈ declarations, lower.node ∈ body.walk ∧ (node ∈ lower.walkBody ∨ lower.Omits node)

/-- What a declaration walks, if it excludes only nodes of its body. -/
theorem mem_walkBody_iff {declaration : Declaration} {body : Node}
    (hbody : declaration.body = some body) (hnumbered : body.Numbered)
    (hexcluded : ∀ other ∈ declaration.excluded, other ∈ body.walk) (node : Node) :
    node ∈ declaration.walkBody ↔
      node ∈ body.walk ∧ ∀ other ∈ declaration.excluded, node ∉ other.walk := by
  rw [walkBody, hbody, Node.mem_walkSkipping_iff _ hnumbered]
  refine and_congr_right fun _ => ⟨?_, ?_⟩
  · intro h other hother
    refine h other (hexcluded other hother) ?_
    exact List.any_eq_true.2 ⟨other, hother, by simp [Node.same]⟩
  · intro h skipped hskipped hskip
    obtain ⟨other, hother, hsame⟩ := List.any_eq_true.1 hskip
    obtain rfl := hnumbered.eq_of_same hskipped (hexcluded other hother) hsame
    exact h skipped hother

/-- What a declaration walks is part of its body. -/
theorem exists_body_of_mem_walkBody {declaration : Declaration} {node : Node}
    (h : node ∈ declaration.walkBody) :
    ∃ body, declaration.body = some body ∧ node ∈ body.walk := by
  unfold walkBody at h
  split at h
  · simp at h
  next body hbody => exact ⟨body, hbody, Node.mem_walk_of_mem_walkSkipping h⟩

namespace Divides

variable {region : Node} {declarations : List Declaration}

theorem nil (region : Node) : Divides region [] where
  node_mem := by simp
  body_mem := by simp
  apart := .nil
  covered := by simp

/-- What is walked is part of the region. -/
theorem walkBody_mem (h : Divides region declarations) {declaration : Declaration}
    (hmem : declaration ∈ declarations) {node : Node} (hnode : node ∈ declaration.walkBody) :
    node ∈ region.walk := by
  obtain ⟨body, hbody, hwalk⟩ := exists_body_of_mem_walkBody hnode
  exact Node.mem_walk_trans (Node.mem_walk_trans hwalk (h.body_mem declaration hmem body hbody))
    (h.node_mem declaration hmem)

/-- The order of the declarations does not matter. -/
theorem perm (h : Divides region declarations) {others : List Declaration}
    (hperm : declarations.Perm others) : Divides region others where
  node_mem declaration hmem := h.node_mem declaration (hperm.mem_iff.2 hmem)
  body_mem declaration hmem := h.body_mem declaration (hperm.mem_iff.2 hmem)
  apart := (hperm.pairwise_iff fun hab node hb ha => hab node ha hb).1 h.apart
  covered declaration hmem body hbody node hnode := by
    have hcovered := h.covered declaration (hperm.mem_iff.2 hmem) body hbody node hnode
    simpa only [hperm.mem_iff] using hcovered

/-- Nodes beside each other that are divided up make a region that is. -/
theorem flatMap (hnumbered : region.Numbered) {nodes : List Node} (hholds : region.Holds nodes)
    {f : Node → List Declaration} (h : ∀ node ∈ nodes, Divides node (f node)) :
    Divides region (nodes.flatMap f) where
  node_mem := by
    intro declaration hmem
    obtain ⟨node, hnode, hmem⟩ := List.mem_flatMap.1 hmem
    exact Node.mem_walk_trans ((h node hnode).node_mem declaration hmem) (hholds.mem hnode)
  body_mem := by
    intro declaration hmem
    obtain ⟨node, hnode, hmem⟩ := List.mem_flatMap.1 hmem
    exact (h node hnode).body_mem declaration hmem
  apart := by
    refine List.pairwise_flatMap.2 ⟨fun node hnode => (h node hnode).apart, ?_⟩
    refine List.Pairwise.imp_of_mem (fun ha hb hapart => ?_) (hnumbered.apart hholds)
    intro a hmemA b hmemB node hnodeA hnodeB
    exact hapart node ((h _ ha).walkBody_mem hmemA hnodeA) ((h _ hb).walkBody_mem hmemB hnodeB)
  covered := by
    intro declaration hmem body hbody node hnode
    obtain ⟨part, hpart, hmem⟩ := List.mem_flatMap.1 hmem
    rcases (h part hpart).covered declaration hmem body hbody node hnode with hown | hlower
    · exact .inl hown
    · obtain ⟨lower, hlower, hbelow⟩ := hlower
      exact .inr ⟨lower, List.mem_flatMap.2 ⟨part, hpart, hlower⟩, hbelow⟩

/-- Every node of a declaration is walked by it or by one below, or left out by it or by one
below. -/
theorem accounted (h : Divides region declarations) {declaration : Declaration}
    (hmem : declaration ∈ declarations) {node : Node} (hnode : node ∈ declaration.node.walk) :
    ∃ lower ∈ declarations, lower.node ∈ declaration.node.walk ∧
      (node ∈ lower.walkBody ∨ lower.Omits node) := by
  by_cases homits : declaration.Omits node
  · exact ⟨declaration, hmem, Node.mem_walk_self _, .inr homits⟩
  · obtain ⟨body, hbody, hin⟩ : ∃ body, declaration.body = some body ∧ node ∈ body.walk := by
      by_contra hnone
      exact homits ⟨hnode, fun body hbody hin => hnone ⟨body, hbody, hin⟩⟩
    rcases h.covered declaration hmem body hbody node hin with hown | hlower
    · exact ⟨declaration, hmem, Node.mem_walk_self _, .inl hown⟩
    · obtain ⟨lower, hlower, hplace, hwalked⟩ := hlower
      exact ⟨lower, hlower,
        Node.mem_walk_trans hplace (h.body_mem declaration hmem body hbody), hwalked⟩

/-- A declaration joins those inside its scope: the nodes that it excludes are divided up by
declarations of their own, and the others have none that walks anything. -/
theorem scope {source : Source} {declaration : Declaration} {body : Node} {inner : List Node}
    {f : Node → List Declaration} (hscope : IsScope source declaration body inner f)
    (hnumbered : declaration.node.Numbered) (hinner : ∀ node ∈ inner, Divides node (f node)) :
    Divides declaration.node (declaration :: inner.flatMap f) := by
  have hholds := hscope.holds
  have hbodyNumbered : body.Numbered := hnumbered.of_mem hscope.body_mem
  have hbelow : Divides body (inner.flatMap f) := flatMap hbodyNumbered hholds hinner
  have hwalk := mem_walkBody_iff hscope.body_eq hbodyNumbered fun other hother =>
    hholds.mem (hscope.declared other hother).1
  refine ⟨?_, ?_, ?_, ?_⟩
  · intro other hother
    rcases List.mem_cons.1 hother with rfl | hother
    · exact Node.mem_walk_self _
    · exact Node.mem_walk_trans (hbelow.node_mem other hother) hscope.body_mem
  · intro other hother otherBody hotherBody
    rcases List.mem_cons.1 hother with rfl | hother
    · rw [hscope.body_eq] at hotherBody
      cases hotherBody
      exact hscope.body_mem
    · exact hbelow.body_mem other hother otherBody hotherBody
  · refine List.pairwise_cons.2 ⟨?_, hbelow.apart⟩
    intro lower hlower node hown hother
    obtain ⟨part, hpart, hlower⟩ := List.mem_flatMap.1 hlower
    by_cases hexcluded : part ∈ declaration.excluded
    · have hin := (hinner part hpart).walkBody_mem hlower hother
      exact ((hwalk node).1 hown).2 part hexcluded hin
    · obtain ⟨lowerBody, hlowerBody, -⟩ := exists_body_of_mem_walkBody hother
      rw [hscope.idle part hpart hexcluded lower hlower] at hlowerBody
      cases hlowerBody
  · intro other hother otherBody hotherBody node hnode
    rcases List.mem_cons.1 hother with rfl | hother
    · rw [hscope.body_eq] at hotherBody
      cases hotherBody
      by_cases hown : node ∈ other.walkBody
      · exact .inl hown
      · right
        obtain ⟨part, hexcluded, hin⟩ : ∃ part ∈ other.excluded, node ∈ part.walk := by
          by_contra hnone
          refine hown ((hwalk node).2 ⟨hnode, fun part hexcluded hin => ?_⟩)
          exact hnone ⟨part, hexcluded, hin⟩
        obtain ⟨hpart, hdeclared⟩ := hscope.declared part hexcluded
        obtain ⟨head, rest, hlist⟩ := List.exists_cons_of_ne_nil hdeclared
        obtain ⟨rfl, -⟩ := hscope.named part hpart head rest hlist
        have hhead : head ∈ f head.node := by
          rw [hlist]
          exact List.mem_cons_self
        obtain ⟨lowest, hlowest, hplace, hwalked⟩ := (hinner head.node hpart).accounted hhead hin
        exact ⟨lowest, List.mem_cons_of_mem _ (List.mem_flatMap.2 ⟨head.node, hpart, hlowest⟩),
          Node.mem_walk_trans hplace (hholds.mem hpart), hwalked⟩
    · rcases hbelow.covered other hother otherBody hotherBody node hnode with hown | hlower
      · exact .inl hown
      · obtain ⟨lower, hlower, hplace⟩ := hlower
        exact .inr ⟨lower, List.mem_cons_of_mem _ hlower, hplace⟩

/-- A declaration that excludes nothing walks all of its body. -/
theorem single {declaration : Declaration} (hnumbered : declaration.node.Numbered)
    (hmem : ∀ body, declaration.body = some body → body ∈ declaration.node.walk)
    (hexcluded : declaration.excluded = []) : Divides declaration.node [declaration] := by
  refine ⟨by simp, by simpa using hmem, List.pairwise_singleton _ _, ?_⟩
  intro other hother body hbody node hnode
  obtain rfl := List.mem_singleton.1 hother
  left
  rw [mem_walkBody_iff hbody (hnumbered.of_mem (hmem body hbody)) (by simp [hexcluded])]
  exact ⟨hnode, by simp [hexcluded]⟩

end Divides

/-! ## Dividing up files -/

/-- Whatever is extracted from a region divides up its code. -/
theorem Extracted.divides {source : Source} {region : Node} {declarations : List Declaration}
    (h : Extracted source region declarations) (hnumbered : region.Numbered) :
    Divides region declarations := by
  induction h with
  | nothing region => exact Divides.nil region
  | leaf hnode _ hbody hexcluded _ =>
      subst hnode
      exact Divides.single hnumbered hbody hexcluded
  | scope hnode hscope _ ih =>
      subst hnode
      refine Divides.scope hscope hnumbered fun node hmem => ih node hmem ?_
      exact (hnumbered.of_mem hscope.body_mem).of_mem (hscope.holds.mem hmem)
  | beside hholds _ ih =>
      exact Divides.flatMap hnumbered hholds fun node hmem =>
        ih node hmem (hnumbered.of_mem (hholds.mem hmem))

/-- The declarations of a file divide up its code. -/
theorem declarations_divide (tree : SourceTree) (hnumbered : tree.root.Numbered) :
    Divides tree.root tree.declarations := by
  obtain ⟨found, hfound, hperm⟩ := exists_extracted tree
  exact (hfound.divides hnumbered).perm hperm

/-- No node is walked by two declarations of a file.  A node of the body of a declaration is walked
by exactly one among this declaration and those below it, or it is part of one below but not of its
body. -/
theorem declarations_partition_code (tree : SourceTree) (hnumbered : tree.root.Numbered) :
    (tree.declarations.Pairwise fun a b => ∀ node ∈ a.walkBody, node ∉ b.walkBody) ∧
    ∀ (i : Fin tree.declarations.length) (body : Node),
      (tree.declarations.get i).body = some body → ∀ node ∈ body.walk,
        (∃! j : Fin tree.declarations.length,
          (j = i ∨ (tree.declarations.get j).node ∈ body.walk) ∧
            node ∈ (tree.declarations.get j).walkBody) ∨
        ∃ lower ∈ tree.declarations, lower.node ∈ body.walk ∧ node ∈ lower.node.walk ∧
          ∀ lowerBody, lower.body = some lowerBody → node ∉ lowerBody.walk := by
  have hdivides := declarations_divide tree hnumbered
  refine ⟨hdivides.apart, ?_⟩
  intro i body hbody node hnode
  -- whoever walks the node is the only one, so it is enough to find one who does
  have hunique (j k : Fin tree.declarations.length)
      (hj : node ∈ (tree.declarations.get j).walkBody)
      (hk : node ∈ (tree.declarations.get k).walkBody) : j = k := by
    rcases Nat.lt_trichotomy j k with hlt | heq | hgt
    · exact absurd hk (List.pairwise_iff_get.1 hdivides.apart j k hlt node hj)
    · exact Fin.ext heq
    · exact absurd hj (List.pairwise_iff_get.1 hdivides.apart k j hgt node hk)
  rcases hdivides.covered _ (List.get_mem _ i) body hbody node hnode with hown | hlower
  · exact .inl ⟨i, ⟨.inl rfl, hown⟩, fun j hj => hunique j i hj.2 hown⟩
  · obtain ⟨lower, hlower, hplace, hwalked | homits⟩ := hlower
    · obtain ⟨j, rfl⟩ := List.get_of_mem hlower
      exact .inl ⟨j, ⟨.inr hplace, hwalked⟩, fun k hk => hunique k j hk.2 hwalked⟩
    · exact .inr ⟨lower, hlower, hplace, homits⟩

/-- The rows of a function with a named function inside it that makes a call.  The names are the two
bytes of the source. -/
def nestedRows : List Row :=
  let row (depth : Nat) (type : String) (start stop : Nat) (field : Option String) : Row :=
    ⟨depth, type, true, false, false, false, start, stop, field⟩
  [row 0 "program" 0 2 none,
    row 1 "function_declaration" 0 2 none,
    row 2 "identifier" 0 1 (some "name"),
    row 2 "statement_block" 1 2 (some "body"),
    row 3 "function_declaration" 1 2 none,
    row 4 "identifier" 1 2 (some "name"),
    row 4 "statement_block" 2 2 (some "body"),
    row 5 "call_expression" 2 2 none]

/-- The two functions of {name}`nestedRows` are declarations, and share the code between them. -/
theorem declarations_partition_code_nested :
    ∃ root, Node.ofRows? nestedRows = some root ∧ root.Numbered ∧
      let tree : SourceTree := ⟨"a.ts", .typescript, ⟨[102, 103]⟩, root⟩
      tree.declarations.length = 2 ∧
        (tree.declarations.Pairwise fun a b => ∀ node ∈ a.walkBody, node ∉ b.walkBody) := by
  obtain ⟨root, hroot, hlength⟩ : ∃ root, Node.ofRows? nestedRows = some root ∧
      (root.namedChildren.flatMap (ofStatement ⟨[102, 103]⟩)).length = 2 :=
    ⟨_, rfl, by decide +kernel⟩
  have hnumbered := Node.numbered_of_ofRows hroot
  exact ⟨root, hroot, hnumbered, (declarations_perm _).length_eq.trans hlength,
    (declarations_partition_code _ hnumbered).1⟩

end Declaration
end CodeAtlas
