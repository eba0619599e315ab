import CodeAtlas.Proofs.Extraction
import CodeAtlas.Proofs.Integrity
import CodeAtlas.Report

/-!
# The simple name of an entity

A declaration inside a scope is named by the scope, a dot and the text of its own name node, and the
simple name of an entity is what follows the last dot.  So the simple name is the text of the name
node unless that text has a dot itself: a member of a class may be named by a string, a number or an
expression, and any of these may hold one.

Main results:

- Theorem {lit}`QualifiedName.last_within`: a scope does not matter for the last segment of a name.
- Theorem {lit}`Declaration.declarations_called`: what the declarations of a file are called.
- Theorem {lit}`FileAnalysis.simple_name_is_own_name_iff`: the entities whose simple name is the text
  of their name node.
-/

namespace CodeAtlas

/-! ## Segments -/

/-- What comes before a separator does not matter for the last segment. -/
theorem Text.lastSegment_append_separator (separator : Char) (before after : List Char) :
    lastSegment separator (before ++ separator :: after) = lastSegment separator after := by
  by_cases hmem : separator ∈ after
  · obtain ⟨middle, hafter, hlast⟩ := (lastSegment_eq_iff separator after _).1 ⟨hmem, rfl⟩
    have hwhole : before ++ separator :: after =
        (before ++ separator :: middle) ++ separator :: lastSegment separator after := by
      rw [List.append_assoc, List.cons_append, ← hafter]
    rw [hwhole, lastSegment_append_cons _ hlast]
  · rw [lastSegment_append_cons before hmem, lastSegment_of_not_mem hmem]

namespace QualifiedName

/-- A scope does not matter for the last segment of a name. -/
theorem last_within (scope name : String) : last (within scope name) = last name := by
  have hchars : (within scope name).toList = scope.toList ++ '.' :: name.toList := by
    simp [within, String.toList_append]
  rw [last, hchars, Text.lastSegment_append_separator, last]

/-- A name is its own last segment exactly if it has no dot. -/
theorem last_eq_self_iff (name : String) : last name = name ↔ '.' ∉ name.toList := by
  constructor
  · intro h
    have hnot := Text.not_mem_lastSegment '.' name.toList
    rwa [← String.toList_ofList (l := Text.lastSegment '.' name.toList), ← last, h] at hnot
  · intro h
    rw [last, Text.lastSegment_of_not_mem h, String.ofList_toList]

end QualifiedName

namespace Declaration

open CodeAtlas.Tree

/-! ## What a declaration is called -/

/-- The node that names a declaration.  Only a member of a class may have it as a property. -/
def ownName? (declaration : Declaration) : Option Node :=
  if declaration.kind = .method then nameNode? declaration.node
  else declaration.node.field? "name"

/-- What a declaration is called: the text of its name node after the scope it stands in, this text
alone where it stands in none, or, where that is missing or empty, the name of all declarations
without one.  A variable may have an empty name. -/
inductive Called (source : Source) (declaration : Declaration) : Prop where
  | inScope {scope : String} {nameNode : Node} (hown : declaration.ownName? = some nameNode)
      (hne : source.text nameNode ≠ "")
      (hname : declaration.name = QualifiedName.within scope (source.text nameNode))
  | alone {nameNode : Node} (hown : declaration.ownName? = some nameNode)
      (hne : source.text nameNode = "" → declaration.node.type = "variable_declarator")
      (hname : declaration.name = source.text nameNode)
  | anonymous (hown : ∀ nameNode, declaration.ownName? = some nameNode →
        source.text nameNode = "")
      (htype : declaration.node.type ≠ "variable_declarator")
      (hname : declaration.name = anonymousName)

/-- A name that is not empty is the text of a name node. -/
theorem text_filter_eq_some_iff (source : Source) (found : Option Node) (name : String) :
    (found.map source.text).filter (!·.isEmpty) = some name ↔
      ∃ nameNode, found = some nameNode ∧ source.text nameNode = name ∧ name ≠ "" := by
  rw [Option.filter_eq_some_iff, Option.map_eq_some_iff, Bool.not_eq_true',
    ← String.isEmpty_eq_false_iff]
  constructor
  · rintro ⟨⟨nameNode, hfound, htext⟩, hne⟩
    exact ⟨nameNode, hfound, htext, hne⟩
  · rintro ⟨nameNode, hfound, htext, hne⟩
    exact ⟨⟨nameNode, hfound, htext⟩, hne⟩

/-- A function or a class that stands in no scope is called by its name, if it has one. -/
theorem called_of_properName {source : Source} {declaration : Declaration}
    (hkind : declaration.kind ≠ .method) (htype : declaration.node.type ≠ "variable_declarator")
    (hname : declaration.name = (properName? source declaration.node).getD anonymousName) :
    Called source declaration := by
  have hown : declaration.ownName? = declaration.node.field? "name" := if_neg hkind
  cases hproper : properName? source declaration.node with
  | none =>
      refine .anonymous ?_ htype (by rw [hname, hproper, Option.getD_none])
      intro nameNode hnode
      by_contra hne
      have hsome := (text_filter_eq_some_iff source _ _).2 ⟨nameNode, hown ▸ hnode, rfl, hne⟩
      rw [properName?, hsome] at hproper
      cases hproper
  | some name =>
      obtain ⟨nameNode, hnode, rfl, hne⟩ := (text_filter_eq_some_iff source _ _).1 hproper
      exact .alone (hown.trans hnode) (fun hempty => absurd hempty hne)
        (by rw [hname, hproper, Option.getD_some])

/-- A function inside a scope is called by its name after the scope. -/
theorem called_of_nested {source : Source} {nested : Node} {name : String} (scope : String)
    (h : properName? source nested = some name) :
    Called source
      (ofFunction source (QualifiedName.within scope name) .function nested nested) := by
  obtain ⟨nameNode, hnode, rfl, hne⟩ := (text_filter_eq_some_iff source _ _).1 h
  exact .inScope hnode hne rfl

/-- The functions inside a function are called by their names after their scopes. -/
theorem called_of_mem_functionsInBody {source : Source} {scope : String} {function : Node}
    {declaration : Declaration}
    (h : declaration ∈ functionsInBody source scope function.children) :
    Called source declaration := by
  -- as the search for functions, the induction is on the size of the subtree
  induction hsize : function.walk.length using Nat.strongRecOn generalizing scope function with
  | ind size ih =>
      cases hbody : function.field? "body" with
      | none =>
          rw [functionsInBody_eq, hbody] at h
          cases h
      | some body =>
          rw [functionsInBody_of_field hbody] at h
          obtain ⟨nested, hnested, h⟩ := List.mem_flatMap.1 h
          unfold ofNested at h
          split at h
          · cases h
          next name hname =>
            rcases List.mem_cons.1 h with rfl | h
            · exact called_of_nested scope hname
            · exact ih _ (hsize ▸ walk_length_lt_of_nested hbody hnested) h rfl

/-- A function comes with functions that are called after it. -/
theorem called_of_mem_function {source : Source} {name : String} {kind : EntityKind}
    {node function : Node} (hown : Called source (ofFunction source name kind node function)) :
    ∀ declaration ∈ Declaration.function source name kind node function,
      Called source declaration := by
  intro declaration hmem
  rcases List.mem_cons.1 hmem with rfl | hmem
  · exact hown
  · exact called_of_mem_functionsInBody hmem

/-- A member of a class is called by its name after the class. -/
theorem called_of_mem_ofMember {source : Source} {scope : String} {member : Node} :
    ∀ declaration ∈ ofMember source scope member, Called source declaration := by
  unfold ofMember
  split
  · simp
  next name hname =>
    obtain ⟨nameNode, hnode, rfl, hne⟩ := (text_filter_eq_some_iff source _ _).1 hname
    dsimp only
    split
    · exact called_of_mem_function (.inScope hnode hne rfl)
    · split
      · simp only [List.mem_singleton, forall_eq]
        exact .inScope hnode hne rfl
      · split
        · exact called_of_mem_function (.inScope hnode hne rfl)
        · simp

theorem called_of_mem_classLike {source : Source} {node : Node}
    (htype : node.type ≠ "variable_declarator") :
    ∀ declaration ∈ classLike source node, Called source declaration := by
  intro declaration hmem
  rcases List.mem_cons.1 hmem with rfl | hmem
  · exact called_of_properName (by simp) htype rfl
  · obtain ⟨member, -, hmem⟩ := List.mem_flatMap.1 hmem
    exact called_of_mem_ofMember declaration hmem

/-- A variable is called by its name, and so is the function that it holds. -/
theorem called_of_mem_variableLike {source : Source} {declarator : Node}
    (htype : declarator.type = "variable_declarator") :
    ∀ declaration ∈ variableLike source declarator, Called source declaration := by
  unfold variableLike
  split
  · simp
  next nameNode hnode =>
    split
    · simp
    · dsimp only
      split
      · exact called_of_mem_function (.alone hnode (fun _ => htype) rfl)
      · simp only [List.mem_singleton, forall_eq]
        exact .alone hnode (fun _ => htype) rfl

theorem called_of_mem_ofDeclared {source : Source} {isExported : Bool} {node : Node} :
    ∀ declaration ∈ ofDeclared source isExported node, Called source declaration := by
  unfold ofDeclared
  split
  next hfunction =>
    refine called_of_mem_function (called_of_properName (by simp [ofFunction]) ?_ rfl)
    intro (htype : node.type = "variable_declarator")
    simp [Node.isOneOf, htype, functionStatements, functionValues] at hfunction
  · split
    next hclass =>
      refine called_of_mem_classLike fun htype => ?_
      simp [Node.isOneOf, htype, classStatements] at hclass
    · split
      · split
        next name hname =>
          simp only [List.mem_singleton, forall_eq]
          obtain ⟨nameNode, hnode, rfl, hne⟩ := (text_filter_eq_some_iff source _ _).1 hname
          exact .alone hnode (fun hempty => absurd hempty hne) rfl
        · simp
      · split
        · intro declaration hmem
          obtain ⟨declarator, hdeclarator, hmem⟩ := List.mem_flatMap.1 hmem
          have htype := (List.mem_filter.1 hdeclarator).2
          exact called_of_mem_variableLike (beq_iff_eq.1 htype) declaration hmem
        · simp

/-- What the declarations of a file are called. -/
theorem declarations_called (tree : SourceTree) :
    ∀ declaration ∈ tree.declarations, Called tree.source declaration := by
  intro declaration hmem
  obtain ⟨statement, -, hmem⟩ := List.mem_flatMap.1 ((declarations_perm tree).mem_iff.1 hmem)
  unfold ofStatement at hmem
  split at hmem
  · split at hmem
    · exact called_of_mem_ofDeclared declaration hmem
    · cases hmem
  · exact called_of_mem_ofDeclared declaration hmem

/-! ## The last segment -/

/-- The last segment of a declaration's name, in terms of its name node. -/
theorem Called.last_eq {source : Source} {declaration : Declaration}
    (h : Called source declaration) {nameNode : Node}
    (hown : declaration.ownName? = some nameNode) :
    QualifiedName.last declaration.name = QualifiedName.last
      (if source.text nameNode = "" ∧ declaration.node.type ≠ "variable_declarator" then
        anonymousName else source.text nameNode) := by
  cases h with
  | inScope hnode hne hname =>
      obtain rfl : _ = nameNode := Option.some.inj (hnode.symm.trans hown)
      rw [if_neg fun hempty => hne hempty.1, hname, QualifiedName.last_within]
  | alone hnode hne hname =>
      obtain rfl : _ = nameNode := Option.some.inj (hnode.symm.trans hown)
      rw [if_neg fun hempty => hempty.2 (hne hempty.1), hname]
  | anonymous hempty htype hname =>
      rw [if_pos ⟨hempty nameNode hown, htype⟩, hname]

/-- It is the text of the name node exactly if this has no dot and, but for a variable, is not
empty. -/
theorem Called.last_eq_text_iff {source : Source} {declaration : Declaration}
    (h : Called source declaration) {nameNode : Node}
    (hown : declaration.ownName? = some nameNode) :
    QualifiedName.last declaration.name = source.text nameNode ↔
      '.' ∉ (source.text nameNode).toList ∧
        (source.text nameNode = "" → declaration.node.type = "variable_declarator") := by
  rw [h.last_eq hown]
  split
  next hempty =>
    have hlast : QualifiedName.last anonymousName ≠ "" := by decide +kernel
    simp [hempty, hlast]
  next hplain =>
    rw [QualifiedName.last_eq_self_iff, iff_self_and]
    intro _ hempty
    by_contra htype
    exact hplain ⟨hempty, htype⟩

end Declaration

/-! ## Texts of signatures -/

/-- Signatures under different names have different texts. -/
theorem Signature.render_inj (signature : Signature) {a b : String} :
    signature.render a = signature.render b ↔ a = b := by
  constructor
  · intro h
    have hchars := congrArg String.toList h
    unfold Signature.render at hchars
    cases hasync : signature.isAsync <;>
      simpa [hasync, String.toList_append, String.toList_inj] using hchars
  · rintro rfl
    rfl

/-- The text of an entity's signature in its document. -/
theorem Report.entity_signature_text {entity : Entity} {signature : Signature}
    (h : entity.signature = some signature) :
    ((Report.entity entity).get? "signature").bind (Value.get? "text") =
      some (.text (signature.render entity.simpleName)) := by
  have hfield : (Report.entity entity).get? "signature" =
      some (optional (Report.signature entity.simpleName) entity.signature) := rfl
  rw [hfield, h]
  rfl

/-! ## Entities -/

namespace FileAnalysis

open CodeAtlas.Tree

/-- What is declared in a file is called as its declarations are. -/
theorem called_of_mem_declared {tree : SourceTree} {entry : EntityRef × Declaration}
    (h : entry ∈ declared tree) : entry.2.Called tree.source := by
  obtain ⟨declaration, hmem, rfl⟩ := List.mem_map.1 ((distinctRefs_spec _ _).2 entry h).1
  exact Declaration.declarations_called tree declaration hmem

/-- Every reference that is new is that of an entry which remains. -/
theorem exists_mem_distinctRefs {seen : List EntityRef} {entries : List (EntityRef × Declaration)}
    {entry : EntityRef × Declaration} (hmem : entry ∈ entries) (hnew : entry.1 ∉ seen) :
    ∃ kept ∈ distinctRefs seen entries, kept.1 = entry.1 := by
  induction entries generalizing seen with
  | nil => cases hmem
  | cons first entries ih =>
      unfold distinctRefs
      split
      next hseen =>
        rcases List.mem_cons.1 hmem with rfl | hmem
        · exact absurd (List.contains_iff_mem.1 hseen) hnew
        · exact ih hmem hnew
      · by_cases heq : entry.1 = first.1
        · exact ⟨first, List.mem_cons_self, heq.symm⟩
        · rcases List.mem_cons.1 hmem with rfl | hmem
          · exact absurd rfl heq
          · obtain ⟨kept, hkept, href⟩ := ih hmem (List.not_mem_cons_of_ne_of_not_mem heq hnew)
            exact ⟨kept, List.mem_cons_of_mem _ hkept, href⟩

/-- Every name of a declaration is that of an entry. -/
theorem exists_mem_declared {tree : SourceTree} {declaration : Declaration}
    (h : declaration ∈ tree.declarations) :
    ∃ entry ∈ declared tree, entry.2 ∈ tree.declarations ∧ entry.2.name = declaration.name := by
  obtain ⟨entry, hentry, href⟩ :=
    exists_mem_distinctRefs (List.mem_map_of_mem h) List.not_mem_nil
  obtain ⟨kept, hkept, rfl⟩ := List.mem_map.1 ((distinctRefs_spec _ _).2 entry hentry).1
  exact ⟨_, hentry, hkept, congrArg EntityRef.name href⟩

/-- The simple name of an entity is the last segment of the text of its name node, and so it is this
text exactly where the text has no dot and, but for a variable, is not empty.  The same goes for the
text of its signature. -/
theorem simple_name_is_own_name_iff (settings : Settings) {tree : SourceTree}
    {entry : EntityRef × Declaration} (hentry : entry ∈ declared tree) {nameNode : Node}
    (hown : entry.2.ownName? = some nameNode) :
    let entity := entityOf settings tree.source entry
    let own := tree.source.text nameNode
    let isVariable := entry.2.node.type = "variable_declarator"
    (entity.simpleName = QualifiedName.last
        (if own = "" ∧ ¬isVariable then Declaration.anonymousName else own)) ∧
      (entity.simpleName = own ↔ '.' ∉ own.toList ∧ (own = "" → isVariable)) ∧
      ∀ signature, entity.signature = some signature →
        (((Report.entity entity).get? "signature").bind (Value.get? "text") =
            some (.text (signature.render own)) ↔
          '.' ∉ own.toList ∧ (own = "" → isVariable)) := by
  intro entity own isVariable
  have hcalled := called_of_mem_declared hentry
  have hiff : entity.simpleName = own ↔ '.' ∉ own.toList ∧ (own = "" → isVariable) :=
    hcalled.last_eq_text_iff hown
  refine ⟨hcalled.last_eq hown, hiff, ?_⟩
  intro signature hsignature
  rw [Report.entity_signature_text hsignature, Option.some_inj, Value.text.injEq,
    signature.render_inj, hiff]

/-- The rows of a class with a method that is named by a string and one with a private name. -/
def memberRows : List Row :=
  [.plain 0 "program" 0 8 none,
    .plain 1 "class_declaration" 0 8 none,
    .plain 2 "type_identifier" 0 1 (some "name"),
    .plain 2 "class_body" 1 8 (some "body"),
    .plain 3 "method_definition" 1 6 none,
    .plain 4 "string" 1 6 (some "name"),
    .plain 3 "method_definition" 6 8 none,
    .plain 4 "private_property_identifier" 6 8 (some "name")]

/-- The text of the class and its two members: {lit}`K`, {lit}`'a.b'` and {lit}`#p`. -/
def memberSource : Source := ⟨[75, 39, 97, 46, 98, 39, 35, 112]⟩

/-- A method of {name}`memberRows` is declared under its name in the class. -/
theorem exists_member (own : String) (hmember : own ∈ ["'a.b'", "#p"]) :
    ∃ root, Node.ofRows? memberRows = some root ∧
      ∃ entry ∈ declared ⟨"a.ts", .typescript, memberSource, root⟩, ∃ nameNode,
        entry.2.ownName? = some nameNode ∧ memberSource.text nameNode = own ∧
        entry.2.name = QualifiedName.within "K" own ∧
        entry.2.signature = some ⟨[], none, false⟩ := by
  obtain ⟨root, hroot, hcheck⟩ : ∃ root, Node.ofRows? memberRows = some root ∧
      ∀ own ∈ ["'a.b'", "#p"],
        let found := root.namedChildren.flatMap (Declaration.ofStatement memberSource)
        (∃ declaration ∈ found, declaration.name = QualifiedName.within "K" own) ∧
          ∀ declaration ∈ found, declaration.name = QualifiedName.within "K" own →
            declaration.signature = some ⟨[], none, false⟩ ∧
              declaration.ownName?.map memberSource.text = some own :=
    ⟨_, rfl, by decide +kernel⟩
  obtain ⟨⟨declaration, hfound, hname⟩, hall⟩ := hcheck own hmember
  let tree : SourceTree := ⟨"a.ts", .typescript, memberSource, root⟩
  have hperm := Declaration.declarations_perm tree
  obtain ⟨entry, hentry, hkept, hsame⟩ := exists_mem_declared (hperm.mem_iff.2 hfound)
  obtain ⟨hsignature, htext⟩ := hall entry.2 (hperm.mem_iff.1 hkept) (hsame.trans hname)
  obtain ⟨nameNode, hown, htext⟩ := Option.map_eq_some_iff.1 htext
  exact ⟨root, hroot, entry, hentry, nameNode, hown, htext, hsame.trans hname, hsignature⟩

/-- The method of {name}`memberRows` with a private name has it as its simple name. -/
theorem simple_name_is_own_name_private :
    ∃ root, Node.ofRows? memberRows = some root ∧
      ∃ entry ∈ declared ⟨"a.ts", .typescript, memberSource, root⟩, ∃ nameNode,
        entry.2.ownName? = some nameNode ∧ memberSource.text nameNode = "#p" ∧
        let entity := entityOf .default memberSource entry
        entity.name = "K.#p" ∧ entity.simpleName = "#p" ∧
          ((Report.entity entity).get? "signature").bind (Value.get? "text") =
            some (.text "#p()") := by
  obtain ⟨root, hroot, entry, hentry, nameNode, hown, htext, hname, hsignature⟩ :=
    exists_member "#p" (by decide)
  obtain ⟨-, hiff, hrender⟩ := simple_name_is_own_name_iff .default hentry hown
  have hplain : '.' ∉ (memberSource.text nameNode).toList ∧
      (memberSource.text nameNode = "" → entry.2.node.type = "variable_declarator") := by
    rw [htext]
    exact ⟨by decide, fun hempty => absurd hempty (by decide)⟩
  refine ⟨root, hroot, entry, hentry, nameNode, hown, htext, hname, ?_, ?_⟩
  · exact (hiff.2 hplain).trans htext
  · rw [(hrender _ hsignature).2 hplain, htext]
    rfl

/-- The method of {name}`memberRows` that is named by a string has only the end of it as its simple
name, and so has its signature. -/
theorem simple_name_cuts_string_name :
    ∃ root, Node.ofRows? memberRows = some root ∧
      ∃ entry ∈ declared ⟨"a.ts", .typescript, memberSource, root⟩, ∃ nameNode,
        entry.2.ownName? = some nameNode ∧ memberSource.text nameNode = "'a.b'" ∧
        ∀ settings, let entity := entityOf settings memberSource entry
          entity.name = "K.'a.b'" ∧ entity.simpleName = "b'" ∧
            ((Report.entity entity).get? "signature").bind (Value.get? "text") =
              some (.text "b'()") := by
  obtain ⟨root, hroot, entry, hentry, nameNode, hown, htext, hname, hsignature⟩ :=
    exists_member "'a.b'" (by decide)
  refine ⟨root, hroot, entry, hentry, nameNode, hown, htext, fun settings => ?_⟩
  have hsimple : (entityOf settings memberSource entry).simpleName = "b'" := by
    change QualifiedName.last entry.2.name = _
    rw [hname]
    decide +kernel
  refine ⟨hname, hsimple, ?_⟩
  rw [Report.entity_signature_text hsignature, hsimple]
  rfl

end FileAnalysis
end CodeAtlas
