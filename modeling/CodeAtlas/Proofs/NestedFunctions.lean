import CodeAtlas.Complexity
import CodeAtlas.Proofs.CodePartition

/-!
# Functions inside functions

A named function inside another is a declaration of its own, and the outer function does not walk
it.  The search for such functions begins at the children of the body and goes no further at a
function that is declared or that carries a name.  So it misses the body itself, where that is a
function, and what stands below a function whose name is missing.  Nothing else is missed.

Main results:

- Theorem {lit}`mem_nestedFunctionsAt_of_way`: the search finds the first function on a way down.
- Theorem {lit}`declarations_nest`: every function is listed with the functions inside it.
- Theorem {lit}`walks_named_function_iff`: the named functions that the function around them walks.
-/

namespace CodeAtlas

/-! ## Ways down a tree -/

namespace Tree
namespace Node

/-- The nodes on the way down from a node to one of its subtree, both included. -/
inductive Way : Node → List Node → Node → Prop where
  | here (node : Node) : Way node [node] node
  | down {node child target : Node} {way : List Node} (hchild : child ∈ node.children)
      (hway : Way child way target) : Way node (node :: way) target

namespace Way

variable {node target between : Node} {way : List Node}

/-- A way ends at its target. -/
theorem target_mem (h : Way node way target) : target ∈ way := by
  induction h with
  | here node => exact List.mem_singleton.2 rfl
  | down _ _ ih => exact List.mem_cons_of_mem _ ih

/-- A way leads into the subtree. -/
theorem mem_walk (h : Way node way target) : target ∈ node.walk := by
  induction h with
  | here node => exact mem_walk_self node
  | @down node child _ _ hchild _ ih => exact mem_walk_trans ih (node.holds_children.mem hchild)

/-- The target is in the subtree of every node on the way. -/
theorem mem_walk_of_mem (h : Way node way target) (hbetween : between ∈ way) :
    target ∈ between.walk := by
  induction h with
  | here node =>
      rw [List.mem_singleton.1 hbetween]
      exact mem_walk_self node
  | @down node child target way hchild hway ih =>
      rcases List.mem_cons.1 hbetween with rfl | hbetween
      · exact (Way.down hchild hway).mem_walk
      · exact ih hbetween

end Way
end Node
end Tree

namespace Declaration

open CodeAtlas.Tree

/-! ## The search on a way -/

/-- Whether a node is a function with a name that is not empty. -/
def isNamedFunction (source : Source) (node : Node) : Bool :=
  (node.isOneOf functionStatements || node.isOneOf functionValues)
    && (properName? source node).isSome

/-- The search goes no further at a function with a name. -/
theorem isNestedFunction_of_isNamedFunction {source : Source} {node : Node}
    (h : isNamedFunction source node = true) : isNestedFunction node = true := by
  obtain ⟨hfunction, hname⟩ := Bool.and_eq_true_iff.1 h
  obtain ⟨name, hname⟩ := Option.isSome_iff_exists.1 hname
  have hfield : (node.field? "name").isSome := by
    cases hfield : node.field? "name" with
    | none => simp [properName?, hfield] at hname
    | some _ => rfl
  simpa [isNestedFunction, hfield] using hfunction

theorem nestedFunctionsAt_eq (node : Node) :
    nestedFunctionsAt node =
      if isNestedFunction node then [node]
      else if node.isOneOf scopeBoundaries then []
      else node.children.flatMap nestedFunctionsAt := by
  cases node with
  | mk label children =>
      rw [nestedFunctionsAt, nestedFunctions_eq_flatMap]
      rfl

/-- On a way that crosses no boundary, the search finds the first function. -/
theorem mem_nestedFunctionsAt_of_way {node target outer : Node} {way : List Node}
    (hway : Node.Way node way target)
    (hscope : ∀ between ∈ way, between.isOneOf scopeBoundaries = false)
    (hfirst : way.find? isNestedFunction = some outer) : outer ∈ nestedFunctionsAt node := by
  induction hway with
  | here node =>
      have hnested : isNestedFunction outer = true := List.find?_some hfirst
      obtain rfl := List.mem_singleton.1 (List.mem_of_find?_eq_some hfirst)
      simp [nestedFunctionsAt_eq, hnested]
  | @down node child target way hchild hway ih =>
      rw [nestedFunctionsAt_eq]
      rw [List.find?_cons] at hfirst
      cases hnested : isNestedFunction node with
      | true =>
          simp only [hnested, Option.some.injEq] at hfirst
          simp [hfirst]
      | false =>
          simp only [hnested] at hfirst
          have hbelow := ih (fun between hbetween => hscope between (by simp [hbetween])) hfirst
          simp only [hscope node (by simp), Bool.false_eq_true, if_false]
          exact List.mem_flatMap.2 ⟨child, hchild, hbelow⟩

/-! ## Functions with the functions inside them -/

/-- Every function among the declarations stands there with the functions inside it. -/
def Nests (source : Source) (declarations : List Declaration) : Prop :=
  ∀ declaration ∈ declarations, declaration.kind.isCallable = true → declaration.body.isSome →
    ∃ function,
      declaration = ofFunction source declaration.name declaration.kind declaration.node function ∧
      functionsInBody source declaration.name function.children ⊆ declarations

namespace Nests

variable {source : Source} {declarations : List Declaration}

theorem nil (source : Source) : Nests source [] := by
  intro declaration hmem
  cases hmem

theorem perm (h : Nests source declarations) {others : List Declaration}
    (hperm : declarations.Perm others) : Nests source others := by
  intro declaration hmem hkind hbody
  obtain ⟨function, heq, hinner⟩ := h declaration (hperm.mem_iff.2 hmem) hkind hbody
  exact ⟨function, heq, fun lower hlower => hperm.mem_iff.1 (hinner hlower)⟩

theorem flatMap {nodes : List Node} {f : Node → List Declaration}
    (h : ∀ node ∈ nodes, Nests source (f node)) : Nests source (nodes.flatMap f) := by
  intro declaration hmem hkind hbody
  obtain ⟨node, hnode, hmem⟩ := List.mem_flatMap.1 hmem
  obtain ⟨function, heq, hinner⟩ := h node hnode declaration hmem hkind hbody
  exact ⟨function, heq, fun lower hlower => List.mem_flatMap.2 ⟨node, hnode, hinner hlower⟩⟩

/-- A declaration joins others if those inside it are among them. -/
theorem cons {declaration : Declaration} (h : Nests source declarations)
    (hown : declaration.kind.isCallable = true → declaration.body.isSome → ∃ function,
      declaration = ofFunction source declaration.name declaration.kind declaration.node function ∧
        functionsInBody source declaration.name function.children ⊆ declarations) :
    Nests source (declaration :: declarations) := by
  intro other hmem hkind hbody
  rcases List.mem_cons.1 hmem with rfl | hmem
  · obtain ⟨function, heq, hinner⟩ := hown hkind hbody
    exact ⟨function, heq, fun lower hlower => List.mem_cons_of_mem _ (hinner hlower)⟩
  · obtain ⟨function, heq, hinner⟩ := h other hmem hkind hbody
    exact ⟨function, heq, fun lower hlower => List.mem_cons_of_mem _ (hinner hlower)⟩

end Nests

/-- Whatever is extracted, every function is listed with the functions inside it. -/
theorem Extracted.nests {source : Source} {region : Node} {declarations : List Declaration}
    (h : Extracted source region declarations) : Nests source declarations := by
  induction h with
  | nothing _ => exact Nests.nil source
  | leaf _ _ _ _ hcallable =>
      refine (Nests.nil source).cons fun hkind hbody => ?_
      rw [hcallable hkind] at hbody
      cases hbody
  | scope _ hscope _ ih =>
      refine (Nests.flatMap ih).cons fun hkind _ => ?_
      obtain ⟨function, heq, hinner⟩ := hscope.callable hkind
      exact ⟨function, heq, hinner ▸ List.Subset.refl _⟩
  | beside _ _ ih => exact Nests.flatMap ih

/-- Every function of a file is listed with the functions inside it. -/
theorem declarations_nest (tree : SourceTree) : Nests tree.source tree.declarations := by
  obtain ⟨found, hfound, hperm⟩ := exists_extracted tree
  exact hfound.nests.perm hperm

/-! ## What a function walks -/

section Walks

variable {tree : SourceTree} {declaration : Declaration} {body : Node}

/-- What a function leaves out, and what is declared in its place. -/
theorem excluded_of_callable (hmem : declaration ∈ tree.declarations)
    (hkind : declaration.kind.isCallable = true) (hbody : declaration.body = some body) :
    declaration.excluded =
        (nestedFunctions body.children).filter (fun node => (properName? tree.source node).isSome) ∧
      ∀ nested ∈ nestedFunctions body.children,
        ofNested tree.source declaration.name nested ⊆ tree.declarations := by
  obtain ⟨function, heq, hinner⟩ :=
    declarations_nest tree declaration hmem hkind (by rw [hbody]; rfl)
  have hfield : function.field? "body" = some body := by
    rw [heq] at hbody
    exact hbody
  constructor
  · rw [heq]
    simp [ofFunction, hfield]
  · intro nested hnested lower hlower
    apply hinner
    rw [functionsInBody_of_field hfield]
    exact List.mem_flatMap.2 ⟨nested, hnested, hlower⟩

theorem holds_nestedFunctions (body : Node) : body.Holds (nestedFunctions body.children) :=
  (nestedFunctions_sublist _).trans body.holds_children

theorem numbered_body (hnumbered : tree.root.Numbered) (hmem : declaration ∈ tree.declarations)
    (hbody : declaration.body = some body) : body.Numbered := by
  have hdivides := declarations_divide tree hnumbered
  exact hnumbered.of_mem (Node.mem_walk_trans (hdivides.body_mem declaration hmem body hbody)
    (hdivides.node_mem declaration hmem))

/-- A function walks what is in none of the named functions that the search finds in its body. -/
theorem mem_walkBody_callable_iff (hnumbered : tree.root.Numbered)
    (hmem : declaration ∈ tree.declarations) (hkind : declaration.kind.isCallable = true)
    (hbody : declaration.body = some body) (node : Node) :
    node ∈ declaration.walkBody ↔
      node ∈ body.walk ∧ ∀ nested ∈ nestedFunctions body.children,
        (properName? tree.source nested).isSome → node ∉ nested.walk := by
  obtain ⟨hexcluded, -⟩ := excluded_of_callable hmem hkind hbody
  rw [mem_walkBody_iff hbody (numbered_body hnumbered hmem hbody)]
  · simp [hexcluded]
  · intro other hother
    rw [hexcluded] at hother
    exact (holds_nestedFunctions body).mem (List.mem_filter.1 hother).1

/-- The search looks below the body only, so that a function walks its body, whatever that is. -/
theorem body_mem_walkBody (hnumbered : tree.root.Numbered)
    (hmem : declaration ∈ tree.declarations) (hkind : declaration.kind.isCallable = true)
    (hbody : declaration.body = some body) : body ∈ declaration.walkBody := by
  refine (mem_walkBody_callable_iff hnumbered hmem hkind hbody body).2 ⟨Node.mem_walk_self body, ?_⟩
  intro nested hnested _ hin
  rw [nestedFunctions_eq_flatMap] at hnested
  obtain ⟨child, hchild, hnested⟩ := List.mem_flatMap.1 hnested
  have hbelow : nested ∈ child.walk := Node.Holds.mem (nestedFunctionsAt_sublist child) hnested
  exact (numbered_body hnumbered hmem hbody).not_mem_walk_child hchild
    (Node.mem_walk_trans hin hbelow)

/-- Of a function that the search finds, everything is walked if it has no name, and nothing if it
has one. -/
theorem mem_walkBody_of_found (hnumbered : tree.root.Numbered)
    (hmem : declaration ∈ tree.declarations) (hkind : declaration.kind.isCallable = true)
    (hbody : declaration.body = some body) {outer node : Node}
    (hfound : outer ∈ nestedFunctions body.children) (hnode : node ∈ outer.walk) :
    node ∈ declaration.walkBody ↔ properName? tree.source outer = none := by
  have hholds := holds_nestedFunctions body
  rw [mem_walkBody_callable_iff hnumbered hmem hkind hbody]
  constructor
  · rintro ⟨-, hothers⟩
    rw [← Option.not_isSome_iff_eq_none]
    exact fun hproper => hothers outer hfound hproper hnode
  · intro hunnamed
    refine ⟨Node.mem_walk_trans hnode (hholds.mem hfound), ?_⟩
    -- another function with the node in it would overlap this one
    intro nested hnested hproper hin
    obtain rfl :=
      (numbered_body hnumbered hmem hbody).eq_of_mem_walk hholds hnested hfound hin hnode
    rw [hunnamed] at hproper
    cases hproper

/-- A function walks a named function inside it, reached without crossing a boundary, in two cases
only: the named function is the body itself, or the first function on the way to it has no name.
In all other cases that first function is a declaration of its own, and nothing of it is walked. -/
theorem walks_named_function_iff (hnumbered : tree.root.Numbered)
    (hmem : declaration ∈ tree.declarations) (hkind : declaration.kind.isCallable = true)
    (hbody : declaration.body = some body) {function : Node} {way : List Node}
    (hway : Node.Way body way function)
    (hscope : ∀ node ∈ way.tail, node.isOneOf scopeBoundaries = false)
    (hnamed : isNamedFunction tree.source function = true) :
    (function ∈ declaration.walkBody ↔
      function = body ∨ ∃ outer, way.tail.find? isNestedFunction = some outer ∧
        properName? tree.source outer = none) ∧
    (function ∉ declaration.walkBody →
      ∃ outer name, way.tail.find? isNestedFunction = some outer ∧
        properName? tree.source outer = some name ∧
        (∃ lower ∈ tree.declarations, lower.node = outer ∧ lower.kind = .function ∧
          lower.name = QualifiedName.within declaration.name name) ∧
        ∀ node ∈ outer.walk, node ∉ declaration.walkBody) := by
  cases hway with
  | here =>
      have hown := body_mem_walkBody hnumbered hmem hkind hbody
      exact ⟨⟨fun _ => .inl rfl, fun _ => hown⟩, fun hnot => absurd hown hnot⟩
  | @down _ child _ way hchild hway =>
      rw [List.tail_cons] at hscope ⊢
      have hne : function ≠ body := by
        rintro rfl
        exact (numbered_body hnumbered hmem hbody).not_mem_walk_child hchild hway.mem_walk
      -- the named function ends the search at the latest
      have hsome : (way.find? isNestedFunction).isSome := by
        rw [List.find?_isSome]
        exact ⟨function, hway.target_mem, isNestedFunction_of_isNamedFunction hnamed⟩
      obtain ⟨outer, hfirst⟩ := Option.isSome_iff_exists.1 hsome
      have hfound : outer ∈ nestedFunctions body.children := by
        rw [nestedFunctions_eq_flatMap]
        exact List.mem_flatMap.2 ⟨child, hchild, mem_nestedFunctionsAt_of_way hway hscope hfirst⟩
      have hin : function ∈ outer.walk := hway.mem_walk_of_mem (List.mem_of_find?_eq_some hfirst)
      have hwalks (node : Node) (hnode : node ∈ outer.walk) :=
        mem_walkBody_of_found hnumbered hmem hkind hbody hfound hnode
      rw [hwalks function hin]
      refine ⟨by simp [hne, hfirst], fun hnot => ?_⟩
      obtain ⟨name, hname⟩ := Option.ne_none_iff_exists'.1 hnot
      have hlower : ofFunction tree.source (QualifiedName.within declaration.name name) .function
          outer outer ∈ ofNested tree.source declaration.name outer := by
        rw [ofNested, hname]
        exact List.mem_cons_self
      obtain ⟨-, hlisted⟩ := excluded_of_callable hmem hkind hbody
      exact ⟨outer, name, hfirst, hname, ⟨_, hlisted outer hfound hlower, rfl, rfl, rfl⟩,
        fun node hnode hwalked => hnot ((hwalks node hnode).1 hwalked)⟩

end Walks

/-- In {name}`nestedRows`, the inner function is a declaration of its own, and the outer one does
not walk it. -/
theorem walks_named_function_iff_nested :
    ∃ root, Node.ofRows? nestedRows = some root ∧ root.Numbered ∧
      let tree : SourceTree := ⟨"a.ts", .typescript, ⟨[102, 103]⟩, root⟩
      ∃ declaration ∈ tree.declarations, declaration.kind.isCallable = true ∧
        ∃ body function, declaration.body = some body ∧ Node.Way body [body, function] function ∧
          function.isOneOf scopeBoundaries = false ∧
          isNamedFunction tree.source function = true ∧ function ∉ declaration.walkBody ∧
          ∃ lower ∈ tree.declarations, lower.node = function := by
  obtain ⟨root, hroot, hfound⟩ : ∃ root, Node.ofRows? nestedRows = some root ∧
      (root.namedChildren.flatMap (ofStatement ⟨[102, 103]⟩)).any (fun declaration =>
        declaration.kind.isCallable && declaration.body.any fun body =>
          body.children.any fun function => isNamedFunction ⟨[102, 103]⟩ function
            && !function.isOneOf scopeBoundaries && function.type != body.type) = true :=
    ⟨_, rfl, by decide +kernel⟩
  have hnumbered := Node.numbered_of_ofRows hroot
  obtain ⟨declaration, hmem, htest⟩ := List.any_eq_true.1 hfound
  obtain ⟨hkind, htest⟩ := Bool.and_eq_true_iff.1 htest
  obtain ⟨body, hbody, htest⟩ := (Option.any_eq_true _ _).1 htest
  obtain ⟨function, hchild, htest⟩ := List.any_eq_true.1 htest
  simp only [Bool.and_eq_true, Bool.not_eq_true', bne_iff_ne] at htest
  obtain ⟨⟨hnamed, hscope⟩, htype⟩ := htest
  have hmem : declaration ∈ (SourceTree.mk "a.ts" .typescript ⟨[102, 103]⟩ root).declarations :=
    (declarations_perm _).mem_iff.2 hmem
  have hway : Node.Way body [body, function] function := .down hchild (.here function)
  obtain ⟨hiff, hapart⟩ := walks_named_function_iff hnumbered hmem hkind hbody hway
    (by simpa using hscope) hnamed
  have hnot : function ∉ declaration.walkBody := by
    rw [hiff]
    rintro (rfl | ⟨outer, hfirst, hunnamed⟩)
    · exact htype rfl
    · obtain rfl := List.mem_singleton.1 (List.mem_of_find?_eq_some hfirst)
      simp [isNamedFunction, hunnamed] at hnamed
  obtain ⟨outer, -, hfirst, -, ⟨lower, hlower, hplace, -⟩, -⟩ := hapart hnot
  obtain rfl := List.mem_singleton.1 (List.mem_of_find?_eq_some hfirst)
  exact ⟨root, hroot, hnumbered, declaration, hmem, hkind, body, outer, hbody, hway, hscope, hnamed,
    hnot, lower, hlower, hplace⟩

/-- The rows of a variable that holds an arrow function.  Its body is a function with a name and a
decision of its own.  The names are the two bytes of the source. -/
def conciseRows : List Row :=
  [.plain 0 "program" 0 2 none,
    .plain 1 "lexical_declaration" 0 2 none,
    .plain 2 "variable_declarator" 0 2 none,
    .plain 3 "identifier" 0 1 (some "name"),
    .plain 3 "arrow_function" 1 2 (some "value"),
    .plain 4 "function_expression" 1 2 (some "body"),
    .plain 5 "identifier" 1 2 (some "name"),
    .plain 5 "statement_block" 2 2 (some "body"),
    .plain 6 "if_statement" 2 2 none]

/-- The named function of {name}`conciseRows` is no declaration of its own: the variable is the only
one, walks the function and counts its decision. -/
theorem concise_body_walked :
    ∃ root, Node.ofRows? conciseRows = some root ∧ root.Numbered ∧
      let tree : SourceTree := ⟨"a.ts", .typescript, ⟨[102, 103]⟩, root⟩
      ∃ declaration function, tree.declarations = [declaration] ∧ declaration.kind = .function ∧
        declaration.node.same function = false ∧ declaration.body = some function ∧
        Node.Way function [function] function ∧ function.isOneOf scopeBoundaries = false ∧
        isNamedFunction tree.source function = true ∧ function ∈ declaration.walkBody ∧
        declaration.complexity? = some 2 := by
  obtain ⟨root, hroot, hlength, hfound⟩ : ∃ root, Node.ofRows? conciseRows = some root ∧
      (root.namedChildren.flatMap (ofStatement ⟨[102, 103]⟩)).length = 1 ∧
      (root.namedChildren.flatMap (ofStatement ⟨[102, 103]⟩)).all (fun declaration =>
        declaration.kind == .function && declaration.complexity? == some 2
          && declaration.body.any fun function => !declaration.node.same function
            && !function.isOneOf scopeBoundaries && isNamedFunction ⟨[102, 103]⟩ function) = true :=
    ⟨_, rfl, by decide +kernel, by decide +kernel⟩
  have hnumbered := Node.numbered_of_ofRows hroot
  let tree : SourceTree := ⟨"a.ts", .typescript, ⟨[102, 103]⟩, root⟩
  obtain ⟨declaration, hsingle⟩ := List.length_eq_one_iff.1
    ((declarations_perm tree).length_eq.trans hlength)
  have hmem : declaration ∈ tree.declarations := by simp [hsingle]
  have htest := List.all_eq_true.1 hfound declaration ((declarations_perm tree).mem_iff.1 hmem)
  simp only [Bool.and_eq_true, beq_iff_eq] at htest
  obtain ⟨⟨hkind, hcomplexity⟩, htest⟩ := htest
  obtain ⟨function, hbody, htest⟩ := (Option.any_eq_true _ _).1 htest
  simp only [Bool.and_eq_true, Bool.not_eq_true'] at htest
  obtain ⟨⟨hplace, hscope⟩, hnamed⟩ := htest
  have hown := body_mem_walkBody hnumbered hmem (by rw [hkind]; rfl) hbody
  exact ⟨root, hroot, hnumbered, declaration, function, hsingle, hkind, hplace, hbody,
    .here function, hscope, hnamed, hown, hcomplexity⟩

end Declaration
end CodeAtlas
