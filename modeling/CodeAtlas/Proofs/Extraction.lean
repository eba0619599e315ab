import CodeAtlas.Declaration.Extract
import CodeAtlas.Proofs.Trees

/-!
# How declarations come about

A declaration has nothing declared inside it, or it is a scope: some nodes below its body declare
something in turn, and begin with a declaration of their own that is named in the scope.  Functions
and classes are the scopes, and everything that is found in a file is put together from them and
from nodes that stand beside each other.  What holds of all declarations of a file is proved by
induction on the way they come about.

Main results:

- Theorem {lit}`functionsIn_eq`: the functions inside a scope are those that the search finds.
- Theorem {lit}`function_extracted` and {lit}`classLike_extracted`: functions and classes are
  scopes.
- Theorem {lit}`exists_extracted`: how the declarations of a file come about.
- Theorem {lit}`parts_of_mem_declarations`: declarations and their bodies are parts of the tree.
-/

namespace CodeAtlas
namespace Declaration

open CodeAtlas.Tree

/-! ## Functions inside a scope -/

/-- The declarations of a function inside a scope, if it has a name. -/
def ofNested (source : Source) (scope : String) (node : Node) : List Declaration :=
  match properName? source node with
  | none => []
  | some name => function source (QualifiedName.within scope name) .function node node

theorem nestedFunctions_eq_flatMap (nodes : List Node) :
    nestedFunctions nodes = nodes.flatMap nestedFunctionsAt := by
  induction nodes with
  | nil => rw [nestedFunctions, List.flatMap_nil]
  | cons node nodes ih => rw [nestedFunctions, List.flatMap_cons, ih]

theorem functionsIn_eq_flatMap (source : Source) (scope : String) (nodes : List Node) :
    functionsIn source scope nodes = nodes.flatMap (functionsAt source scope) := by
  induction nodes with
  | nil => rw [functionsIn, List.flatMap_nil]
  | cons node nodes ih => rw [functionsIn, List.flatMap_cons, ih]

/-- From one node on, the declarations are those of the functions that the search finds. -/
theorem functionsAt_eq (source : Source) (scope : String) (node : Node) :
    functionsAt source scope node = (nestedFunctionsAt node).flatMap (ofNested source scope) := by
  induction node using Node.induct with
  | mk label children ih =>
      rw [functionsAt, nestedFunctionsAt]
      by_cases hnested : isNestedFunction (.mk label children) = true
      · rw [if_pos hnested, if_pos hnested, List.flatMap_singleton, ofNested]
        rfl
      · rw [if_neg hnested, if_neg hnested]
        split
        · rfl
        · rw [functionsIn_eq_flatMap, nestedFunctions_eq_flatMap, List.flatMap_assoc]
          exact List.flatMap_congr ih

/-- The declarations of the functions inside a scope are those of the functions that the search
finds. -/
theorem functionsIn_eq (source : Source) (scope : String) (nodes : List Node) :
    functionsIn source scope nodes = (nestedFunctions nodes).flatMap (ofNested source scope) := by
  rw [functionsIn_eq_flatMap, nestedFunctions_eq_flatMap, List.flatMap_assoc]
  exact List.flatMap_congr fun node _ => functionsAt_eq source scope node

/-- The body of a function is its first child in that field. -/
theorem functionsInBody_eq (source : Source) (scope : String) (function : Node) :
    functionsInBody source scope function.children =
      ((function.field? "body").map fun body =>
        functionsIn source scope body.children).getD [] := by
  unfold Node.field?
  induction function.children with
  | nil => rw [functionsInBody, List.find?_nil, Option.map_none, Option.getD_none]
  | cons child children ih =>
      obtain ⟨label, grandchildren⟩ := child
      rw [functionsInBody, List.find?_cons]
      by_cases hfield : label.field = some "body"
      · have hfound : ((Node.mk label grandchildren).label.field == some "body") = true :=
          beq_iff_eq.2 hfield
        rw [if_pos hfield, hfound]
        rfl
      · have hother : ((Node.mk label grandchildren).label.field == some "body") = false :=
          beq_eq_false_iff_ne.2 hfield
        rw [if_neg hfield, hother, ih]

/-- The functions that the search finds stand beside each other. -/
theorem nestedFunctionsAt_sublist (node : Node) :
    ((nestedFunctionsAt node).flatMap Node.walk).Sublist node.walk := by
  induction node using Node.induct with
  | mk label children ih =>
      rw [nestedFunctionsAt]
      split
      · rw [List.flatMap_singleton]
      · split
        · exact List.nil_sublist _
        · rw [nestedFunctions_eq_flatMap, List.flatMap_assoc, Node.walk_mk]
          exact (List.Sublist.flatMap_right children ih).cons _

theorem nestedFunctions_sublist (nodes : List Node) :
    ((nestedFunctions nodes).flatMap Node.walk).Sublist (nodes.flatMap Node.walk) := by
  rw [nestedFunctions_eq_flatMap, List.flatMap_assoc]
  exact List.Sublist.flatMap_right nodes fun node _ => nestedFunctionsAt_sublist node

/-- The functions in a body are smaller than a function with that body. -/
theorem walk_length_lt_of_nested {function body node : Node}
    (hbody : function.field? "body" = some body) (hnode : node ∈ nestedFunctions body.children) :
    node.walk.length < function.walk.length := by
  have hnested : node.walk.Sublist (body.children.flatMap Node.walk) :=
    (List.sublist_flatten_of_mem (List.mem_map_of_mem hnode)).trans (nestedFunctions_sublist _)
  have hin := Node.walk_sublist_of_mem (Node.mem_walk_of_field hbody)
  calc
    node.walk.length ≤ (body.children.flatMap Node.walk).length := hnested.length_le
    _ < body.walk.length := by
      rw [body.walk_eq]
      exact Nat.lt_succ_self _
    _ ≤ function.walk.length := hin.length_le

/-! ## Names in a scope -/

/-- The node that holds the name of what a node declares. -/
def nameNode? (node : Node) : Option Node := (node.field? "name").or (node.field? "property")

/-- A declaration is named in a scope: after the name of the scope comes the text of its own name
node. -/
def NamedIn (source : Source) (scope : String) (declaration : Declaration) : Prop :=
  ∃ nameNode, nameNode? declaration.node = some nameNode ∧
    declaration.name = QualifiedName.within scope (source.text nameNode)

theorem exists_nameNode_of_memberName {source : Source} {member : Node} {name : String}
    (h : memberName? source member = some name) :
    ∃ nameNode, nameNode? member = some nameNode ∧ name = source.text nameNode := by
  obtain ⟨nameNode, hnode, htext⟩ := Option.map_eq_some_iff.1 (Option.filter_eq_some_iff.1 h).1
  exact ⟨nameNode, hnode, htext.symm⟩

theorem exists_nameNode_of_properName {source : Source} {node : Node} {name : String}
    (h : properName? source node = some name) :
    ∃ nameNode, nameNode? node = some nameNode ∧ name = source.text nameNode := by
  obtain ⟨nameNode, hfield, htext⟩ := Option.map_eq_some_iff.1 (Option.filter_eq_some_iff.1 h).1
  exact ⟨nameNode, by rw [nameNode?, hfield, Option.some_or], htext.symm⟩

/-! ## Scopes -/

/-- A declaration is a scope of the declarations that begin at some nodes below its body.  The nodes
stand beside each other, and at each of them comes first a declaration of the node itself, named in
the scope.  A node that declares nothing is not excluded from the body, and one that is not excluded
declares nothing with a body.  The scope of a function is that of the functions inside it. -/
structure IsScope (source : Source) (declaration : Declaration) (body : Node) (inner : List Node)
    (f : Node → List Declaration) : Prop where
  kind_mem : declaration.kind ∈ EntityKind.all
  body_eq : declaration.body = some body
  body_mem : body ∈ declaration.node.walk
  below : (inner.flatMap Node.walk).Sublist (body.children.flatMap Node.walk)
  named : ∀ node ∈ inner, ∀ head rest, f node = head :: rest →
    head.node = node ∧ head.NamedIn source declaration.name
  declared : ∀ node ∈ declaration.excluded, node ∈ inner ∧ f node ≠ []
  idle : ∀ node ∈ inner, node ∉ declaration.excluded → ∀ lower ∈ f node, lower.body = none
  callable : declaration.kind.isCallable = true → ∃ function,
    declaration = ofFunction source declaration.name declaration.kind declaration.node function ∧
      functionsInBody source declaration.name function.children = inner.flatMap f

/-- The nodes inside a scope are held by its body. -/
theorem IsScope.holds {source : Source} {declaration : Declaration} {body : Node}
    {inner : List Node} {f : Node → List Declaration}
    (h : IsScope source declaration body inner f) : body.Holds inner :=
  h.below.trans body.holds_children

/-- How the declarations of a region come about: there are none, there is a single one with nothing
inside it, there is a scope with those inside it, or they are those of nodes beside each other. -/
inductive Extracted (source : Source) : Node → List Declaration → Prop where
  | nothing (region : Node) : Extracted source region []
  | leaf {region : Node} {declaration : Declaration} (hnode : declaration.node = region)
      (hkind : declaration.kind ∈ EntityKind.all)
      (hbody : ∀ body, declaration.body = some body → body ∈ region.walk)
      (hexcluded : declaration.excluded = [])
      (hcallable : declaration.kind.isCallable = true → declaration.body = none) :
      Extracted source region [declaration]
  | scope {region : Node} {declaration : Declaration} {body : Node} {inner : List Node}
      {f : Node → List Declaration} (hnode : declaration.node = region)
      (hscope : IsScope source declaration body inner f)
      (hinner : ∀ node ∈ inner, Extracted source node (f node)) :
      Extracted source region (declaration :: inner.flatMap f)
  | beside {region : Node} {nodes : List Node} {f : Node → List Declaration}
      (hholds : region.Holds nodes) (hnodes : ∀ node ∈ nodes, Extracted source node (f node)) :
      Extracted source region (nodes.flatMap f)

/-! ## Functions -/

/-- What is declared at a function inside a scope begins with the function. -/
theorem head_of_ofNested {source : Source} {scope : String} {nested : Node} {head : Declaration}
    {rest : List Declaration} (h : ofNested source scope nested = head :: rest) :
    head.node = nested ∧ head.NamedIn source scope := by
  unfold ofNested at h
  split at h
  · cases h
  next name hname =>
    obtain ⟨nameNode, hnode, rfl⟩ := exists_nameNode_of_properName hname
    cases h
    exact ⟨rfl, nameNode, hnode, rfl⟩

/-- A function inside a scope declares something exactly if it has a name. -/
theorem ofNested_eq_nil_iff {source : Source} {scope : String} {nested : Node} :
    ofNested source scope nested = [] ↔ properName? source nested = none := by
  unfold ofNested
  split <;> simp [*, Declaration.function]

/-- The declarations of the functions inside a function with a body. -/
theorem functionsInBody_of_field {source : Source} {scope : String} {function body : Node}
    (hbody : function.field? "body" = some body) :
    functionsInBody source scope function.children =
      (nestedFunctions body.children).flatMap (ofNested source scope) := by
  rw [functionsInBody_eq, hbody, Option.map_some, Option.getD_some, functionsIn_eq]

/-- A function with a body is the scope of the functions that the search finds in it. -/
theorem ofFunction_isScope (source : Source) (name : String) {kind : EntityKind}
    (hkind : kind ∈ EntityKind.all) {node function body : Node} (hmem : function ∈ node.walk)
    (hbody : function.field? "body" = some body) :
    IsScope source (ofFunction source name kind node function) body
      (nestedFunctions body.children) (ofNested source name) := by
  have hexcluded (nested : Node) : nested ∈ (ofFunction source name kind node function).excluded ↔
      nested ∈ nestedFunctions body.children ∧ ofNested source name nested ≠ [] := by
    simp [ofFunction, hbody, ofNested_eq_nil_iff, Option.isSome_iff_ne_none]
  refine ⟨hkind, hbody, Node.mem_walk_trans (Node.mem_walk_of_field hbody) hmem,
    nestedFunctions_sublist _, fun _ _ _ _ => head_of_ofNested, fun nested => (hexcluded nested).1,
    ?_, fun _ => ⟨function, rfl, functionsInBody_of_field hbody⟩⟩
  intro nested hnested hnot lower hlower
  exact absurd ((hexcluded nested).2 ⟨hnested, List.ne_nil_of_mem hlower⟩) hnot

/-- A function comes with the named functions inside it. -/
theorem function_extracted (source : Source) (name : String) {kind : EntityKind}
    (hkind : kind ∈ EntityKind.all) {node function : Node} (hmem : function ∈ node.walk) :
    Extracted source node (Declaration.function source name kind node function) := by
  -- the functions found inside are not children, so the induction is on the size of the subtree
  induction hsize : function.walk.length using Nat.strongRecOn
    generalizing name kind node function with
  | ind size ih =>
      rw [Declaration.function]
      cases hbody : function.field? "body" with
      | none =>
          have hnone : functionsInBody source name function.children = [] := by
            rw [functionsInBody_eq, hbody, Option.map_none, Option.getD_none]
          rw [hnone]
          exact .leaf rfl hkind
            (by simp [ofFunction, hbody]) (by simp [ofFunction, hbody]) (fun _ => hbody)
      | some body =>
          rw [functionsInBody_of_field hbody]
          refine .scope rfl (ofFunction_isScope source name hkind hmem hbody) ?_
          intro nested hnested
          unfold ofNested
          split
          · exact .nothing nested
          · refine ih _ ?_ _ (by decide) (Node.mem_walk_self nested) rfl
            rw [← hsize]
            exact walk_length_lt_of_nested hbody hnested

/-! ## Classes -/

/-- A field that holds a function has it below. -/
theorem mem_walk_of_fieldFunction {member value : Node} (h : fieldFunction? member = some value) :
    value ∈ member.walk := by
  unfold fieldFunction? at h
  split at h
  · exact Node.mem_walk_of_field (Option.filter_eq_some_iff.1 h).1
  · cases h

/-- How the declarations of a member of a class come about. -/
theorem ofMember_extracted (source : Source) (scope : String) (member : Node) :
    Extracted source member (ofMember source scope member) := by
  unfold ofMember
  split
  · exact .nothing member
  · dsimp only
    split
    · exact function_extracted source _ (by decide) (Node.mem_walk_self member)
    · split
      · exact .leaf rfl (by simp [EntityKind.all]) (by simp) rfl (fun _ => rfl)
      · split
        next value hvalue =>
          exact function_extracted source _ (by decide) (mem_walk_of_fieldFunction hvalue)
        · exact .nothing member

/-- What is declared at a member begins with the member. -/
theorem head_of_ofMember {source : Source} {scope : String} {member : Node} {head : Declaration}
    {rest : List Declaration} (h : ofMember source scope member = head :: rest) :
    head.node = member ∧ head.NamedIn source scope := by
  unfold ofMember at h
  split at h
  · cases h
  next name hname =>
    obtain ⟨nameNode, hnode, rfl⟩ := exists_nameNode_of_memberName hname
    dsimp only at h
    split_ifs at h
    · cases h
      exact ⟨rfl, nameNode, hnode, rfl⟩
    · cases h
      exact ⟨rfl, nameNode, hnode, rfl⟩
    · split at h
      · cases h
        exact ⟨rfl, nameNode, hnode, rfl⟩
      · cases h

/-- A member with code of its own is a declaration. -/
theorem ofMember_ne_nil_of_isCodeMember {source : Source} {scope : String} {member : Node}
    (h : isCodeMember source member = true) : ofMember source scope member ≠ [] := by
  obtain ⟨hkind, hnamed⟩ := Bool.and_eq_true_iff.1 h
  obtain ⟨name, hname⟩ := Option.isSome_iff_exists.1 hnamed
  simp only [ofMember, hname]
  by_cases hmethod : member.type = "method_definition"
  · rw [if_pos hmethod]
    exact List.cons_ne_nil _ _
  · have hfield : (fieldFunction? member).isSome := by simpa [hmethod] using hkind
    obtain ⟨value, hvalue⟩ := Option.isSome_iff_exists.1 hfield
    have habstract : member.type ≠ "abstract_method_signature" := by
      intro htype
      simp [fieldFunction?, Node.isOneOf, htype, fieldMembers] at hvalue
    rw [if_neg hmethod, if_neg habstract, hvalue]
    exact List.cons_ne_nil _ _

/-- Other members have nothing to walk. -/
theorem body_eq_none_of_not_isCodeMember {source : Source} {scope : String} {member : Node}
    (h : isCodeMember source member = false) {declaration : Declaration}
    (hmem : declaration ∈ ofMember source scope member) : declaration.body = none := by
  cases hname : memberName? source member with
  | none =>
      rw [ofMember, hname] at hmem
      cases hmem
  | some name =>
      have hkind : member.type ≠ "method_definition" ∧ fieldFunction? member = none := by
        simpa [isCodeMember, hname] using h
      simp only [ofMember, hname, if_neg hkind.1, hkind.2] at hmem
      split at hmem
      · rw [List.mem_singleton.1 hmem]
      · cases hmem

/-- A class with a body is the scope of its members. -/
theorem classLike_extracted (source : Source) (node : Node) :
    Extracted source node (classLike source node) := by
  unfold classLike
  dsimp only
  cases hbody : node.field? "body" with
  | none => exact .leaf rfl (by simp [EntityKind.all]) (by simp) rfl (fun _ => rfl)
  | some body =>
      refine .scope rfl ⟨by simp [EntityKind.all], rfl, Node.mem_walk_of_field hbody,
        List.filter_sublist.flatMap Node.walk, fun _ _ _ _ => head_of_ofMember, ?_, ?_,
        nofun⟩ fun member _ => ofMember_extracted source _ member
      · intro member hmember
        obtain ⟨hmember, hcode⟩ := List.mem_filter.1 hmember
        exact ⟨hmember, ofMember_ne_nil_of_isCodeMember hcode⟩
      · intro member hmember hnot lower hlower
        refine body_eq_none_of_not_isCodeMember (Bool.eq_false_iff.2 fun hcode => ?_) hlower
        exact hnot (List.mem_filter.2 ⟨hmember, hcode⟩)

/-! ## Statements -/

theorem variableLike_extracted (source : Source) (declarator : Node) :
    Extracted source declarator (variableLike source declarator) := by
  unfold variableLike
  split
  · exact .nothing declarator
  · split
    · exact .nothing declarator
    · dsimp only
      split
      next value hvalue =>
        exact function_extracted source _ (by decide)
          (Node.mem_walk_of_field (Option.filter_eq_some_iff.1 hvalue).1)
      · exact .leaf rfl (by simp [EntityKind.all]) (fun _ => Node.mem_walk_of_field) rfl nofun

theorem ofDeclared_extracted (source : Source) (isExported : Bool) (node : Node) :
    Extracted source node (ofDeclared source isExported node) := by
  unfold ofDeclared
  split
  · exact function_extracted source _ (by decide) (Node.mem_walk_self node)
  · split
    · exact classLike_extracted source node
    · split
      · split
        · exact .leaf rfl (by simp [EntityKind.all]) (by simp) rfl (fun _ => rfl)
        · exact .nothing node
      · split
        · exact .beside (node.holds_namedChildren.sublist List.filter_sublist)
            fun declarator _ => variableLike_extracted source declarator
        · exact .nothing node

theorem ofStatement_extracted (source : Source) (statement : Node) :
    Extracted source statement (ofStatement source statement) := by
  unfold ofStatement
  split
  · split
    next inner hinner =>
      have hmem : inner ∈ statement.walk := by
        rcases Option.or_eq_some_iff.1 hinner with hfield | ⟨-, hfield⟩
        · exact Node.mem_walk_of_field hfield
        · exact Node.mem_walk_of_field hfield
      have hholds : statement.Holds [inner] := by
        rw [Node.Holds, List.flatMap_singleton]
        exact Node.walk_sublist_of_mem hmem
      have hbeside := Extracted.beside hholds
        fun node _ => ofDeclared_extracted source true node
      rwa [List.flatMap_singleton] at hbeside
    · exact .nothing statement
  · exact ofDeclared_extracted source false statement

/-- The declarations of a file are those of its statements, in another order. -/
theorem declarations_perm (tree : SourceTree) :
    tree.declarations.Perm (tree.root.namedChildren.flatMap (ofStatement tree.source)) := by
  have hsorted := (List.mergeSort_perm ((tree.root.namedChildren.flatMap
    (ofStatement tree.source)).map fun declaration =>
      (tree.source.startPoint declaration.node, declaration)) precedes).map Prod.snd
  simpa [SourceTree.declarations, Function.comp_def] using hsorted

/-- How the declarations of a file come about. -/
theorem exists_extracted (tree : SourceTree) :
    ∃ found, Extracted tree.source tree.root found ∧ found.Perm tree.declarations := by
  have hbeside := Extracted.beside tree.root.holds_namedChildren
    fun statement _ => ofStatement_extracted tree.source statement
  exact ⟨_, hbeside, (declarations_perm tree).symm⟩

/-- Declarations are parts of the region that they are extracted from, and so are their bodies. -/
theorem Extracted.parts_mem {source : Source} {region : Node} {declarations : List Declaration}
    (h : Extracted source region declarations) :
    ∀ declaration ∈ declarations, declaration.node ∈ region.walk ∧
      ∀ body, declaration.body = some body → body ∈ declaration.node.walk := by
  induction h with
  | nothing _ => exact fun _ hmem => absurd hmem List.not_mem_nil
  | leaf hnode _ hbody _ _ =>
      subst hnode
      intro declaration hmem
      rw [List.mem_singleton.1 hmem]
      exact ⟨Node.mem_walk_self _, hbody⟩
  | scope hnode hscope _ ih =>
      subst hnode
      intro declaration hmem
      rcases List.mem_cons.1 hmem with rfl | hmem
      · refine ⟨Node.mem_walk_self _, ?_⟩
        intro body hbody
        rw [hscope.body_eq] at hbody
        exact Option.some.inj hbody ▸ hscope.body_mem
      · rcases List.mem_flatMap.1 hmem with ⟨node, hnode, hmem⟩
        have hparts := ih node hnode declaration hmem
        exact ⟨Node.mem_walk_trans (Node.mem_walk_trans hparts.1 (hscope.holds.mem hnode))
          hscope.body_mem, hparts.2⟩
  | beside hholds _ ih =>
      intro declaration hmem
      rcases List.mem_flatMap.1 hmem with ⟨node, hnode, hmem⟩
      have hparts := ih node hnode declaration hmem
      exact ⟨Node.mem_walk_trans hparts.1 (hholds.mem hnode), hparts.2⟩

/-- A declaration of a file is part of a child of the root, and its body is part of it. -/
theorem parts_of_mem_declarations {tree : SourceTree} {declaration : Declaration}
    (hmem : declaration ∈ tree.declarations) :
    (∃ statement ∈ tree.root.children, declaration.node ∈ statement.walk) ∧
      ∀ body, declaration.body = some body → body ∈ declaration.node.walk := by
  rcases List.mem_flatMap.1 ((declarations_perm tree).mem_iff.1 hmem) with
    ⟨statement, hstatement, hmem⟩
  have hparts := (ofStatement_extracted tree.source statement).parts_mem declaration hmem
  exact ⟨⟨statement, (List.mem_filter.1 hstatement).1, hparts.1⟩, hparts.2⟩

end Declaration
end CodeAtlas
