import CodeAtlas.Proofs.CodePartition
import CodeAtlas.Proofs.Integrity

/-!
# Calls of methods

A method is called on a receiver, and the call goes by a dotted name: that of the receiver and then
that of the method.  A receiver that is no name and no member access, such as another call or a
literal, has no name to give.  A method that is called on it right away is then listed by its own
name alone, and found among the calls of a function of that name.  All other calls of methods have
dotted names and lead to dotted names, so that no question for a bare name finds them.

Main results:

- Theorem {lit}`NamedBy.chainSegments_eq`: the segments of a chain are the texts of what names it.
- Theorem {lit}`Resolver.resolve_name`: a call leads to what it is called, or to a dotted name.
- Theorem {lit}`Graph.mem_callers_iff`: the calls of something are found as by a scan.
- Theorem {lit}`method_call_found_bare_iff`: the calls of methods that are found by a bare name.
-/

namespace CodeAtlas

namespace QualifiedName

/-- A name inside a scope is dotted. -/
@[simp]
theorem isDotted_within (scope name : String) : isDotted (within scope name) = true := by
  simp [isDotted, within]

/-- A dotted name has two segments, or one that is dotted by itself. -/
theorem isDotted_intercalate (segments : List String) :
    isDotted (".".intercalate segments) = true ↔
      2 ≤ segments.length ∨ ∃ segment ∈ segments, isDotted segment = true := by
  match segments with
  | [] => simp [isDotted]
  | [segment] => simp
  | first :: second :: others => simp [isDotted]

end QualifiedName

namespace Call

open CodeAtlas.Tree
open CodeAtlas.QualifiedName

/-! ## Chains of member accesses -/

/-- The nodes that name a chain of member accesses, in order: its base, if that is a name by itself,
and the property of each access. -/
inductive NamedBy : Node → List Node → Prop where
  | base {node : Node} (hplain : node.isOneOf plainNames = true) : NamedBy node [node]
  | nameless {node : Node} (hplain : node.isOneOf plainNames = false)
      (haccess : node.type ≠ "member_expression") : NamedBy node []
  | detached {node : Node} (haccess : node.type = "member_expression")
      (hobject : node.field? "object" = none) : NamedBy node (node.field? "property").toList
  | access {node object : Node} {names : List Node} (haccess : node.type = "member_expression")
      (hobject : node.field? "object" = some object) (hnames : NamedBy object names) :
      NamedBy node (names ++ (node.field? "property").toList)

/-- The object of a member access is its first child in that field. -/
theorem objectSegments_eq (source : Source) (node : Node) :
    objectSegments source node.children =
      ((node.field? "object").map (chainSegments source)).getD [] := by
  unfold Node.field?
  induction node.children with
  | nil => rw [objectSegments, List.find?_nil, Option.map_none, Option.getD_none]
  | cons child children ih =>
      rw [objectSegments, List.find?_cons]
      by_cases hfield : child.label.field = some "object"
      · rw [if_pos hfield, beq_iff_eq.2 hfield]
        rfl
      · rw [if_neg hfield, beq_eq_false_iff_ne.2 hfield, ih]

/-- The segments of a chain, in terms of its fields. -/
theorem chainSegments_eq (source : Source) (node : Node) :
    chainSegments source node =
      if node.type = "member_expression" then
        ((node.field? "object").map (chainSegments source)).getD []
          ++ ((node.field? "property").map source.text).toList
      else if node.isOneOf plainNames then [source.text node]
      else [] := by
  rw [← objectSegments_eq]
  cases node with
  | mk label children =>
      rw [chainSegments]
      rfl

namespace NamedBy

/-- The segments of a chain are the texts of the nodes that name it. -/
theorem chainSegments_eq {node : Node} {names : List Node} (h : NamedBy node names)
    (source : Source) : chainSegments source node = names.map source.text := by
  induction h with
  | @base node hplain =>
      have haccess : node.type ≠ "member_expression" := by
        intro htype
        simp [Node.isOneOf, htype, plainNames] at hplain
      simp [Call.chainSegments_eq, haccess, hplain]
  | nameless hplain haccess => simp [Call.chainSegments_eq, haccess, hplain]
  | @detached node haccess hobject =>
      rw [Call.chainSegments_eq, if_pos haccess, hobject]
      cases node.field? "property" <;> rfl
  | @access node object names haccess hobject _ ih =>
      rw [Call.chainSegments_eq, if_pos haccess, hobject, Option.map_some, Option.getD_some, ih,
        List.map_append]
      cases node.field? "property" <;> rfl

end NamedBy

/-- Every chain is named by some nodes, or by none. -/
theorem exists_namedBy (node : Node) : ∃ names, NamedBy node names := by
  induction node using Node.induct with
  | mk label children ih =>
      by_cases haccess : (Node.mk label children).type = "member_expression"
      · cases hobject : (Node.mk label children).field? "object" with
        | none => exact ⟨_, .detached haccess hobject⟩
        | some object =>
            obtain ⟨names, hnames⟩ := ih object (List.mem_of_find?_eq_some hobject)
            exact ⟨_, .access haccess hobject hnames⟩
      · cases hplain : (Node.mk label children).isOneOf plainNames with
        | true => exact ⟨_, .base hplain⟩
        | false => exact ⟨_, .nameless hplain haccess⟩

/-- The call of a member goes by the texts of the nodes that name the member. -/
theorem site_name_of_member {source : Source} {call function : Node} {names : List Node}
    {site : Site} (hsite : site? source call = some site)
    (hfunction : call.field? "function" = some function)
    (hmember : function.type = "member_expression") (hnames : NamedBy function names) :
    site.name = ".".intercalate (names.map source.text) := by
  have hplain : plainNames.contains function.type = false := by
    rw [hmember]
    decide
  have hcallee : calleeName? source function =
      if (names.map source.text).isEmpty then none
      else some (".".intercalate (names.map source.text)) := by
    rw [← hnames.chainSegments_eq source]
    cases function with
    | mk label children =>
        rw [calleeName?]
        simp only [Node.type, Node.label] at hplain hmember
        rw [if_neg (by simpa using hplain), if_pos hmember]
  unfold site? at hsite
  split at hsite
  · obtain ⟨name, hname, rfl⟩ := Option.map_eq_some_iff.1 hsite
    obtain ⟨hname, -⟩ := Option.filter_eq_some_iff.1 hname
    rw [hfunction, Option.bind_some, hcallee] at hname
    split at hname
    · cases hname
    · exact (Option.some.inj hname).symm
  · cases hsite

/-! ## Where calls lead -/

namespace Resolver

/-- What is found in a file by a name has that name. -/
theorem inFile?_name {resolver : Resolver} {file name : String} {ref : EntityRef}
    (h : resolver.inFile? file name = some ref) : ref.name = name := by
  obtain ⟨entity, hfind, rfl⟩ := Option.map_eq_some_iff.1 h
  have htest := List.find?_some hfind
  simp only [Bool.and_eq_true, beq_iff_eq] at htest
  exact htest.2

/-- In its own file, a call means what it is called, or something in a scope. -/
theorem localNames_spec {resolver : Resolver} {caller : EntityRef} {className : Option String}
    {raw name : String} (h : name ∈ resolver.localNames caller className raw) :
    name = raw ∨ isDotted name = true := by
  unfold localNames at h
  split at h
  · split at h
    · split at h
      · cases h
      · rw [List.mem_singleton.1 h]
        exact .inr (isDotted_within _ _)
    · cases h
  · split at h
    · exact .inl (List.mem_singleton.1 h)
    · rcases List.mem_append.1 h with hscope | hraw
      · obtain ⟨scope, -, rfl⟩ := List.mem_map.1 hscope
        exact .inr (isDotted_within _ _)
      · exact .inl (List.mem_singleton.1 hraw)

/-- A call leads to what it is called, or to a dotted name. -/
theorem resolve_name (resolver : Resolver) (caller : EntityRef) (className : Option String)
    (raw : String) :
    (resolver.resolve caller className raw).name = raw ∨
      isDotted (resolver.resolve caller className raw).name = true := by
  unfold resolve
  split
  next entity hlocal =>
    obtain ⟨name, hname, hfile⟩ := List.exists_of_findSome?_eq_some hlocal
    rw [Target.name, inFile?_name hfile]
    exact localNames_spec hname
  · left
    split
    next entity hnamed =>
      have hmem : entity ∈ resolver.named raw := by simp [hnamed]
      obtain ⟨entry, hentry, rfl⟩ := List.mem_map.1 hmem
      simpa [Target.name] using (List.mem_filter.1 hentry).2
    · rfl

end Resolver

/-! ## Calls by name -/

/-- The names by which a call is found, with or without those of members. -/
def Edge.namesFor (members : Bool) (edge : Edge) : List String :=
  if members then edge.allNames else edge.calleeNames

namespace Graph

/-- A graph keeps its edges, and indexes them by their names. -/
theorem find_of_build {edges : List Edge} {known : List EntityRef} {graph : Graph}
    (h : build edges known = .ok graph) :
    graph.edges = edges ∧ ∀ (members : Bool) (name : String),
      (if members then graph.byMember.find name else graph.byCallee.find name) =
        edges.filter fun edge => (edge.namesFor members).contains name := by
  unfold build at h
  split at h
  · cases h
  · cases h
    refine ⟨rfl, fun members name => ?_⟩
    cases members with
    | true => exact Index.find_build _ _ _ fun edge => Dependency.nodup_eraseDups _
    | false => exact Index.find_build _ _ _ fun edge => Dependency.nodup_eraseDups _

/-- The calls of something are those among the edges that have its name, from the given file. -/
theorem mem_callers_iff {edges : List Edge} {known : List EntityRef} {graph : Graph}
    (hbuild : build edges known = .ok graph) {name : String} {file : Option String}
    {members : Bool} {found : List Edge} (hfound : graph.callers name file members = .ok found)
    (edge : Edge) :
    edge ∈ found ↔
      edge ∈ edges ∧ name ∈ edge.namesFor members ∧ ∀ path, file = some path →
        edge.caller.file = path := by
  obtain ⟨-, hindex⟩ := find_of_build hbuild
  unfold callers at hfound
  split at hfound
  · cases hfound
  · simp only [hindex] at hfound
    cases file with
    | none =>
        cases hfound
        simp
    | some path =>
        cases hfound
        simp [and_comm]

/-- A question for a name succeeds unless the name is blank. -/
theorem exists_callers_iff (graph : Graph) (name : String) (file : Option String)
    (members : Bool) :
    (∃ found, graph.callers name file members = .ok found) ↔ Text.isBlank name = false := by
  unfold callers
  cases Text.isBlank name with
  | true => simp
  | false => cases file <;> simp

end Graph

/-! ## Calls of methods -/

/-- The edge of a call site. -/
def Site.edge (resolver : Resolver) (caller : EntityRef) (className : Option String)
    (site : Site) : Edge :=
  { caller
    callee := resolver.resolve caller className site.name
    raw := site.name
    location := ⟨caller.file, site.point.line, site.point.column⟩ }

/-- The edges of a declaration are those of its call sites. -/
theorem edgesOf_eq_map (source : Source) (resolver : Resolver) (ref : EntityRef)
    (declaration : Declaration) :
    edgesOf source resolver ref declaration =
      (sites source declaration).map (Site.edge resolver ref declaration.className?) :=
  rfl

/-- A call that a declaration walks has an edge. -/
theorem edge_mem_edgesOf {source : Source} {declaration : Declaration} {call : Node} {site : Site}
    (hcall : call ∈ declaration.walkBody) (hsite : site? source call = some site)
    (resolver : Resolver) (ref : EntityRef) :
    site.edge resolver ref declaration.className? ∈ edgesOf source resolver ref declaration := by
  rw [edgesOf_eq_map]
  exact List.mem_map_of_mem (List.mem_filterMap.2 ⟨call, hcall, hsite⟩)

/-- A call is found by a bare name if it goes by one that is not blank. -/
theorem found_bare_iff {edges : List Edge} {known : List EntityRef} {graph : Graph}
    (hbuild : Graph.build edges known = .ok graph) (resolver : Resolver) (caller : EntityRef)
    (className : Option String) {site : Site} (hmem : site.edge resolver caller className ∈ edges) :
    (∃ name file found, isDotted name = false ∧ graph.callers name file false = .ok found ∧
        site.edge resolver caller className ∈ found) ↔
      isDotted site.name = false ∧ Text.isBlank site.name = false := by
  have hnames (name : String) :
      name ∈ (site.edge resolver caller className).namesFor false ↔
        name = (resolver.resolve caller className site.name).name ∨ name = site.name := by
    simp [Edge.namesFor, Edge.calleeNames, Site.edge]
  constructor
  · rintro ⟨name, file, found, hbare, hfound, hedge⟩
    -- a bare name can only be the one that the call goes by
    have hname : name = site.name := by
      obtain ⟨-, hname, -⟩ := (Graph.mem_callers_iff hbuild hfound _).1 hedge
      rcases (hnames name).1 hname with rfl | rfl
      · rcases resolver.resolve_name caller className site.name with heq | hdotted
        · exact heq
        · rw [hbare] at hdotted
          cases hdotted
      · rfl
    subst hname
    exact ⟨hbare, (graph.exists_callers_iff _ _ _).1 ⟨found, hfound⟩⟩
  · rintro ⟨hbare, hblank⟩
    obtain ⟨found, hfound⟩ := (graph.exists_callers_iff site.name none false).2 hblank
    refine ⟨site.name, none, found, hbare, hfound, ?_⟩
    exact (Graph.mem_callers_iff hbuild hfound _).2 ⟨hmem, (hnames _).2 (.inr rfl), by simp⟩

/-- The call of a method goes by a dotted name unless all that names it is a single text without a
dot, which is so where the receiver has no name.  It is found by a bare name in that case only. -/
theorem method_call_found_bare_iff (source : Source) (resolver : Resolver) (ref : EntityRef)
    {declaration : Declaration} {call function : Node} {site : Site} {edges : List Edge}
    {known : List EntityRef} {graph : Graph} (hcall : call ∈ declaration.walkBody)
    (hsite : site? source call = some site) (hfunction : call.field? "function" = some function)
    (hmember : function.type = "member_expression")
    (hedges : edgesOf source resolver ref declaration ⊆ edges)
    (hbuild : Graph.build edges known = .ok graph) :
    ∃ names, NamedBy function names ∧ site.name = ".".intercalate (names.map source.text) ∧
      (isDotted site.name = true ↔
        2 ≤ names.length ∨ ∃ node ∈ names, isDotted (source.text node) = true) ∧
      site.edge resolver ref declaration.className? ∈ graph.edges ∧
      ((∃ name file found, isDotted name = false ∧ graph.callers name file false = .ok found ∧
          site.edge resolver ref declaration.className? ∈ found) ↔
        isDotted site.name = false ∧ Text.isBlank site.name = false) := by
  obtain ⟨names, hnames⟩ := exists_namedBy function
  have hname := site_name_of_member hsite hfunction hmember hnames
  have hlisted := hedges (edge_mem_edgesOf hcall hsite resolver ref)
  refine ⟨names, hnames, hname, ?_, ?_, found_bare_iff hbuild resolver ref _ hlisted⟩
  · rw [hname, isDotted_intercalate]
    simp
  · rw [(Graph.find_of_build hbuild).1]
    exact hlisted

/-- The calls in a declaration of the codebase make a graph. -/
theorem exists_build_edgesOf (source : Source) (resolver : Resolver) (ref : EntityRef)
    (hknown : ref ∈ resolver.entities.map Prod.fst) (declaration : Declaration) :
    ∃ graph, Graph.build (edgesOf source resolver ref declaration)
      (resolver.entities.map Prod.fst) = .ok graph := by
  rw [edgesOf_eq_map]
  have hcallers : ∀ edge ∈ (sites source declaration).map
      (Site.edge resolver ref declaration.className?),
      edge.caller ∈ resolver.entities.map Prod.fst := by
    intro edge hedge
    obtain ⟨site, -, rfl⟩ := List.mem_map.1 hedge
    exact hknown
  have hcallees : ∀ edge ∈ (sites source declaration).map
      (Site.edge resolver ref declaration.className?),
      ∀ target, edge.callee = .resolved target → target ∈ resolver.entities.map Prod.fst := by
    intro edge hedge target htarget
    obtain ⟨site, -, rfl⟩ := List.mem_map.1 hedge
    exact Resolver.resolve_mem htarget
  obtain ⟨graph, hgraph, -⟩ := Graph.build_ok hcallers hcallees
  exact ⟨graph, hgraph⟩

/-- The rows of a function that calls a method.  The first and the last byte of the source are the
names of the function and of the method, and the byte between them is the receiver. -/
def methodRows (receiver : List Row) : List Row :=
  [.plain 0 "program" 0 3 none,
    .plain 1 "function_declaration" 0 3 none,
    .plain 2 "identifier" 0 1 (some "name"),
    .plain 2 "statement_block" 1 3 (some "body"),
    .plain 3 "call_expression" 1 3 none,
    .plain 4 "member_expression" 1 3 (some "function")]
    ++ receiver ++ [.plain 5 "property_identifier" 2 3 (some "property")]

/-- The source of {name}`methodRows`. -/
def methodSource : Source := ⟨[102, 97, 98]⟩

/-- The reference of the function of {name}`methodRows`. -/
def methodCaller : EntityRef := ⟨"a.ts", "f", 1⟩

/-- That function, and one in another file that has the name of the method. -/
def methodResolver : Resolver :=
  ⟨[(methodCaller, .function), (⟨"b.ts", "b", 1⟩, .function)]⟩

/-- Whether a declaration is a function that calls a member by a given name. -/
def callsMember (name : String) (declaration : Declaration) : Bool :=
  declaration.kind == .function && declaration.walkBody.any fun call =>
    (site? methodSource call).any (·.name == name)
      && (call.field? "function").any (·.type == "member_expression")

theorem exists_call_of_callsMember {name : String} {declaration : Declaration}
    (h : callsMember name declaration = true) :
    declaration.className? = none ∧ ∃ call ∈ declaration.walkBody, ∃ site function,
      site? methodSource call = some site ∧ site.name = name ∧
        call.field? "function" = some function ∧ function.type = "member_expression" := by
  obtain ⟨hkind, hcalls⟩ := Bool.and_eq_true_iff.1 h
  obtain ⟨call, hcall, htest⟩ := List.any_eq_true.1 hcalls
  obtain ⟨hsite, hfunction⟩ := Bool.and_eq_true_iff.1 htest
  obtain ⟨site, hsite, hname⟩ := (Option.any_eq_true _ _).1 hsite
  obtain ⟨function, hfunction, hmember⟩ := (Option.any_eq_true _ _).1 hfunction
  refine ⟨?_, call, hcall, site, function, hsite, beq_iff_eq.1 hname, hfunction,
    beq_iff_eq.1 hmember⟩
  rw [Declaration.className?, beq_iff_eq.1 hkind]
  rfl

/-- A method that is called on a name goes by a dotted name, and is not found by a bare one. -/
theorem method_call_found_bare_iff_named :
    ∃ root, Node.ofRows? (methodRows [.plain 5 "identifier" 1 2 (some "object")]) = some root ∧
      let tree : SourceTree := ⟨"a.ts", .typescript, methodSource, root⟩
      ∃ declaration ∈ tree.declarations, ∃ call ∈ declaration.walkBody,
        ∃ function site graph,
          call.field? "function" = some function ∧ function.type = "member_expression" ∧
          site? methodSource call = some site ∧ site.name = "a.b" ∧
          Graph.build (edgesOf methodSource methodResolver methodCaller declaration)
            (methodResolver.entities.map Prod.fst) = .ok graph ∧
          ∀ name file found, isDotted name = false → graph.callers name file false = .ok found →
            site.edge methodResolver methodCaller declaration.className? ∉ found := by
  obtain ⟨root, hroot, htest⟩ : ∃ root,
      Node.ofRows? (methodRows [.plain 5 "identifier" 1 2 (some "object")]) = some root ∧
        (root.namedChildren.flatMap (Declaration.ofStatement methodSource)).any
          (callsMember "a.b") = true :=
    ⟨_, rfl, by decide +kernel⟩
  obtain ⟨declaration, hmem, htest⟩ := List.any_eq_true.1 htest
  obtain ⟨-, call, hcall, site, function, hsite, hname, hfunction, hmember⟩ :=
    exists_call_of_callsMember htest
  obtain ⟨graph, hbuild⟩ := exists_build_edgesOf methodSource methodResolver methodCaller
    (by decide) declaration
  refine ⟨root, hroot, declaration, (Declaration.declarations_perm _).mem_iff.2 hmem, call, hcall,
    function, site, graph, hfunction, hmember, hsite, hname, hbuild, ?_⟩
  intro name file found hbare hfound hedge
  obtain ⟨-, -, -, -, -, hiff⟩ := method_call_found_bare_iff methodSource methodResolver
    methodCaller hcall hsite hfunction hmember (List.Subset.refl _) hbuild
  obtain ⟨hundotted, -⟩ := hiff.1 ⟨name, file, found, hbare, hfound, hedge⟩
  rw [hname] at hundotted
  revert hundotted
  decide

/-- A method that is called on the result of a call goes by its own name alone.  It is taken for a
call of the function of that name, and found as one. -/
theorem call_on_result_found_bare :
    ∃ root, Node.ofRows? (methodRows [.plain 5 "call_expression" 1 2 (some "object"),
        .plain 6 "identifier" 1 2 (some "function")]) = some root ∧
      let tree : SourceTree := ⟨"a.ts", .typescript, methodSource, root⟩
      ∃ declaration ∈ tree.declarations, ∃ call ∈ declaration.walkBody,
        ∃ function site graph found,
          call.field? "function" = some function ∧ function.type = "member_expression" ∧
          site? methodSource call = some site ∧ site.name = "b" ∧
          Graph.build (edgesOf methodSource methodResolver methodCaller declaration)
            (methodResolver.entities.map Prod.fst) = .ok graph ∧
          graph.callers "b" none false = .ok found ∧
          (site.edge methodResolver methodCaller declaration.className?).callee =
            .resolved ⟨"b.ts", "b", 1⟩ ∧
          site.edge methodResolver methodCaller declaration.className? ∈ found := by
  obtain ⟨root, hroot, htest⟩ : ∃ root,
      Node.ofRows? (methodRows [.plain 5 "call_expression" 1 2 (some "object"),
        .plain 6 "identifier" 1 2 (some "function")]) = some root ∧
        (root.namedChildren.flatMap (Declaration.ofStatement methodSource)).any
          (callsMember "b") = true :=
    ⟨_, rfl, by decide +kernel⟩
  obtain ⟨declaration, hmem, htest⟩ := List.any_eq_true.1 htest
  obtain ⟨hclass, call, hcall, site, function, hsite, hname, hfunction, hmember⟩ :=
    exists_call_of_callsMember htest
  obtain ⟨graph, hbuild⟩ := exists_build_edgesOf methodSource methodResolver methodCaller
    (by decide) declaration
  obtain ⟨found, hfound⟩ := (graph.exists_callers_iff "b" none false).2 (by decide)
  refine ⟨root, hroot, declaration, (Declaration.declarations_perm _).mem_iff.2 hmem, call, hcall,
    function, site, graph, found, hfunction, hmember, hsite, hname, hbuild, hfound, ?_, ?_⟩
  · have hresolve : methodResolver.resolve methodCaller none "b" = .resolved ⟨"b.ts", "b", 1⟩ := by
      decide +kernel
    rw [Site.edge, hclass, hname]
    exact hresolve
  · refine (Graph.mem_callers_iff hbuild hfound _).2
      ⟨edge_mem_edgesOf hcall hsite methodResolver methodCaller, ?_, by simp⟩
    simp [Edge.namesFor, Edge.calleeNames, Site.edge, hname]

end Call
end CodeAtlas
