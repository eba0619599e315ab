import CodeAtlas.Dependency.Drawing
import CodeAtlas.Proofs.FileOrder
import Mathlib.Data.List.Count

/-!
# External targets and files

A reference whose specifier means no file becomes an external edge, and its target is the specifier
as it is written.  Nothing keeps this text from being the path of a file.  Then the file has a
dependent that does not have it among its targets; otherwise external targets and files stay apart.

Main results:

- Theorem {lit}`Dependency.external_iff`: the edges that are external.
- Theorem {lit}`Dependency.Graph.exists_dependents`: the dependents of a node.
- Theorem {lit}`Dependency.Drawing.count_names`: a drawing shows a node once.
- Theorem {lit}`Dependency.Drawing.countP_declares`: its text declares a node as often as it shows
  the node.
- Theorem {lit}`dependencies_of_analyze`: the dependency graph of an analysis.
- Theorem {lit}`external_targets_apart`: in every analysis, external targets and files are apart
  but for specifiers that are spelled like the path of a file.
-/

namespace CodeAtlas
namespace Dependency

/-! ## Edges -/

/-- What the specifier of an edge means decides its target, and whether it is external. -/
theorem edgesOf_resolved {specifiers : Specifiers} {references : List (String × List Reference)}
    {edge : Edge} (h : edge ∈ edgesOf specifiers references) :
    edge.target = (specifiers.resolve? edge.source edge.specifier).getD edge.specifier ∧
      edge.external = (specifiers.resolve? edge.source edge.specifier).isNone := by
  obtain ⟨entry, -, hedge⟩ := List.mem_flatMap.1 h
  obtain ⟨reference, -, rfl⟩ := List.mem_map.1 hedge
  cases hresolve : specifiers.resolve? entry.1 reference.specifier with
  | none => simp [edgeOf, hresolve]
  | some target => simp [edgeOf, hresolve]

/-- An edge is external if it ends outside the codebase, or if its specifier means no file but is
spelled like the path of one. -/
theorem external_iff {paths : List String} {aliases : List (String × String)}
    {references : List (String × List Reference)} {edge : Edge}
    (h : edge ∈ edgesOf (.ofFiles paths aliases) references) :
    edge.external = true ↔ edge.target ∉ paths ∨
      edge.specifier ∈ paths ∧
        (Specifiers.ofFiles paths aliases).resolve? edge.source edge.specifier = none := by
  obtain ⟨htarget, hexternal⟩ := edgesOf_resolved h
  rw [hexternal, Option.isNone_iff_eq_none]
  constructor
  · intro hnone
    rw [hnone, Option.getD_none] at htarget
    by_cases hspelled : edge.specifier ∈ paths
    · exact .inr ⟨hspelled, hnone⟩
    · exact .inl (htarget ▸ hspelled)
  · rintro (houtside | ⟨-, hnone⟩)
    · by_contra hsome
      refine houtside (edgesOf_target h ?_)
      rw [hexternal]
      exact Option.isNone_eq_false_iff.2 (Option.isSome_iff_ne_none.2 hsome)
    · exact hnone

/-! ## Dependents -/

namespace Graph

/-- A file refers to a target outside the codebase: some external edge leads from the one to the
other. -/
def RefersOutside (graph : Graph) (file target : String) : Prop :=
  ∃ edge ∈ graph.edges, edge.source = file ∧ edge.target = target ∧ edge.external = true

/-- An edge is a dependency or a reference outside the codebase. -/
theorem exists_edge_iff (graph : Graph) (file target : String) :
    (∃ edge ∈ graph.edges, edge.source = file ∧ edge.target = target) ↔
      graph.DependsOn file target ∨ graph.RefersOutside file target := by
  constructor
  · rintro ⟨edge, hedge, hsource, htarget⟩
    cases hexternal : edge.external with
    | false => exact .inl ⟨edge, hedge, hsource, htarget, hexternal⟩
    | true => exact .inr ⟨edge, hedge, hsource, htarget, hexternal⟩
  · rintro (⟨edge, hedge, hsource, htarget, -⟩ | ⟨edge, hedge, hsource, htarget, -⟩)
    · exact ⟨edge, hedge, hsource, htarget⟩
    · exact ⟨edge, hedge, hsource, htarget⟩

/-- The dependents of a node are the files with the node among their targets, and the files that
refer to its name as to something outside. -/
theorem exists_dependents (graph : Graph) {node : String} (hnode : node ∈ graph.nodes)
    (hblank : Text.isBlank node = false) :
    ∃ found, graph.dependents node = .ok found ∧ found.Nodup ∧
      ∀ file, file ∈ found ↔
        node ∈ graph.adjacency.successors file ∨ graph.RefersOutside file node := by
  have hknown : graph.unknown? node = none := by simp [unknown?, isKnown, hblank, hnode]
  refine ⟨_, by rw [dependents, hknown], nodup_eraseDups _, ?_⟩
  intro file
  rw [successors_adjacency, mem_targets_iff, ← exists_edge_iff, List.mem_eraseDups, List.mem_map]
  constructor
  · rintro ⟨edge, hedge, hsource⟩
    obtain ⟨hmem, htarget⟩ := List.mem_filter.1 hedge
    exact ⟨edge, hmem, hsource, by simpa using htarget⟩
  · rintro ⟨edge, hmem, hsource, htarget⟩
    exact ⟨edge, List.mem_filter.2 ⟨hmem, by simpa using htarget⟩, hsource⟩

end Graph

/-! ## Drawings -/

namespace Drawing

/-- The names that a drawing declares. -/
def names (drawing : Drawing) : List String := drawing.nodes.map Prod.fst

/-- The external targets are those that some file refers to. -/
theorem mem_externalTargets_iff (graph : Graph) (target : String) :
    target ∈ externalTargets graph ↔ ∃ file, graph.RefersOutside file target := by
  rw [externalTargets, (List.mergeSort_perm _ _).mem_iff, List.mem_eraseDups, List.mem_map]
  constructor
  · rintro ⟨edge, hedge, htarget⟩
    obtain ⟨hmem, hexternal⟩ := List.mem_filter.1 hedge
    exact ⟨edge.source, edge, hmem, rfl, htarget, hexternal⟩
  · rintro ⟨-, edge, hmem, -, htarget, hexternal⟩
    exact ⟨edge, List.mem_filter.2 ⟨hmem, hexternal⟩, htarget⟩

theorem nodup_externalTargets (graph : Graph) : (externalTargets graph).Nodup :=
  (List.mergeSort_perm _ _).nodup_iff.2 (nodup_eraseDups _)

/-- With external targets, everything that an edge touches may be drawn. -/
theorem mem_candidateNodes_iff (graph : Graph) (node : String) :
    node ∈ candidateNodes graph true ↔
      node ∈ graph.nodes ∨ ∃ file, graph.RefersOutside file node := by
  rw [candidateNodes, if_pos rfl, List.mem_append, mem_externalTargets_iff]

theorem names_ofGraph (graph : Graph) (focus : String) (withExternal : Bool) :
    (ofGraph graph focus withExternal).names = (select graph focus withExternal).1 := by
  simp [names, ofGraph, Function.comp_def]

/-- What is drawn are the nodes and edges that pass some tests, and the ends of an edge pass if the
edge does. -/
theorem exists_select_eq (graph : Graph) (focus : String) (withExternal : Bool) :
    ∃ (shown : String → Bool) (drawn : Edge → Bool),
      select graph focus withExternal =
          ((candidateNodes graph withExternal).filter shown,
            (candidateEdges graph withExternal).filter drawn) ∧
        ∀ edge ∈ candidateEdges graph withExternal, drawn edge = true →
          shown edge.source = true ∧ shown edge.target = true := by
  unfold select
  dsimp only
  split
  · exact ⟨fun _ => true, fun _ => true, by simp, by simp⟩
  · refine ⟨_, _, rfl, ?_⟩
    intro edge hedge hdrawn
    -- a node passes if a drawn edge touches it, and this edge is one
    refine ⟨Bool.or_eq_true_iff.2 (.inr (List.any_eq_true.2 ⟨edge, ?_, by simp⟩)),
      Bool.or_eq_true_iff.2 (.inr (List.any_eq_true.2 ⟨edge, ?_, by simp⟩))⟩
    · exact List.mem_filter.2 ⟨hedge, hdrawn⟩
    · exact List.mem_filter.2 ⟨hedge, hdrawn⟩

/-- A drawing with external targets declares a node once, unless it is both a file and an external
target. -/
theorem count_names (graph : Graph) (hnodes : graph.nodes.Nodup) {focus node : String}
    (hdrawn : node ∈ (ofGraph graph focus true).names)
    (hapart : node ∈ graph.nodes → ∀ file, ¬graph.RefersOutside file node) :
    (ofGraph graph focus true).names.count node = 1 := by
  obtain ⟨shown, drawn, hselect, -⟩ := exists_select_eq graph focus true
  rw [names_ofGraph, hselect] at hdrawn ⊢
  obtain ⟨hcandidate, hshown⟩ := List.mem_filter.1 hdrawn
  rw [List.count_filter hshown, candidateNodes, if_pos rfl, List.count_append]
  by_cases hfile : node ∈ graph.nodes
  · have houtside : node ∉ externalTargets graph := by
      rw [mem_externalTargets_iff]
      rintro ⟨file, hrefers⟩
      exact hapart hfile file hrefers
    rw [List.count_eq_one_of_mem hnodes hfile, List.count_eq_zero.2 houtside]
  · have hexternal : node ∈ externalTargets graph := by
      rw [mem_externalTargets_iff]
      exact ((mem_candidateNodes_iff graph node).1 hcandidate).resolve_left hfile
    rw [List.count_eq_zero.2 hfile,
      List.count_eq_one_of_mem (nodup_externalTargets graph) hexternal]

/-- Without a focus, every node that may be drawn is. -/
theorem names_unfocused (graph : Graph) (withExternal : Bool) :
    (ofGraph graph "" withExternal).names = candidateNodes graph withExternal := by
  rw [names_ofGraph]
  simp [select]

theorem mem_candidateEdges_iff (graph : Graph) (withExternal : Bool) (edge : Edge) :
    edge ∈ candidateEdges graph withExternal ↔
      edge ∈ graph.edges ∧ (edge.external = true → withExternal = true) := by
  rw [candidateEdges, List.mem_filter]
  cases edge.external with
  | false => simp
  | true => simp

/-- Of an edge that may be drawn, both ends may be. -/
theorem ends_mem_candidateNodes {graph : Graph} {withExternal : Bool}
    (htargets : ∀ edge ∈ graph.edges, edge.external = false → edge.target ∈ graph.nodes)
    {edge : Edge} (h : edge ∈ candidateEdges graph withExternal) :
    edge.source ∈ candidateNodes graph withExternal ∧
      edge.target ∈ candidateNodes graph withExternal := by
  obtain ⟨hedge, hwanted⟩ := (mem_candidateEdges_iff graph withExternal edge).1 h
  refine ⟨List.mem_append_left _ (graph.source_mem edge hedge), ?_⟩
  cases hexternal : edge.external with
  | false => exact List.mem_append_left _ (htargets edge hedge hexternal)
  | true =>
      rw [hwanted hexternal, mem_candidateNodes_iff]
      exact .inr ⟨edge.source, edge, hedge, rfl, rfl, hexternal⟩

/-- A drawing declares both ends of each of its edges. -/
theorem ends_mem_names (graph : Graph) {focus : String} {withExternal : Bool}
    (htargets : ∀ edge ∈ graph.edges, edge.external = false → edge.target ∈ graph.nodes)
    {edge : Edge} (hedge : edge ∈ (ofGraph graph focus withExternal).edges) :
    edge.source ∈ (ofGraph graph focus withExternal).names ∧
      edge.target ∈ (ofGraph graph focus withExternal).names := by
  obtain ⟨shown, drawn, hselect, hends⟩ := exists_select_eq graph focus withExternal
  change edge ∈ (select graph focus withExternal).2 at hedge
  rw [hselect] at hedge
  obtain ⟨hcandidate, hdrawn⟩ := List.mem_filter.1 hedge
  obtain ⟨hsource, htarget⟩ := hends edge hcandidate hdrawn
  obtain ⟨hsource', htarget'⟩ := ends_mem_candidateNodes htargets hcandidate
  rw [names_ofGraph, hselect]
  exact ⟨List.mem_filter.2 ⟨hsource', hsource⟩, List.mem_filter.2 ⟨htarget', htarget⟩⟩

/-! ## Declarations in the text -/

/-- The statements in the text of a drawing: one for each node and one for each edge. -/
def statements (drawing : Drawing) : List String :=
  drawing.nodes.map nodeLine ++ drawing.edges.map edgeLine

/-- Whether a statement declares a node: the name in quotes comes first, and then its label. -/
def declares (node statement : String) : Bool :=
  ("  " ++ quoted node ++ " [label=").toList.isPrefixOf statement.toList

theorem escapeChar_cases (c : Char) :
    escapeChar c = ['\\', c] ∨ escapeChar c = [c] ∧ c ≠ '\\' ∧ c ≠ '"' := by
  unfold escapeChar
  split
  · exact .inl rfl
  next h => exact .inr ⟨rfl, not_or.1 h⟩

/-- Escaped characters can be told apart, from one another and from the closing quote. -/
theorem escapeChar_append_inj {c d : Char} {rest rest' : List Char}
    (h : escapeChar c ++ rest = escapeChar d ++ rest') : c = d ∧ rest = rest' := by
  rcases escapeChar_cases c with hc | ⟨hc, hslash, -⟩ <;>
    rcases escapeChar_cases d with hd | ⟨hd, hslash', -⟩ <;>
    simp only [hc, hd, List.cons_append, List.nil_append, List.cons.injEq] at h
  · exact h.2
  · exact absurd h.1.symm hslash'
  · exact absurd h.1 hslash
  · exact h

theorem quote_ne_escapeChar_append (c : Char) (rest rest' : List Char) :
    '"' :: rest ≠ escapeChar c ++ rest' := by
  intro h
  rcases escapeChar_cases c with hc | ⟨hc, -, hquote⟩ <;>
    simp only [hc, List.cons_append, List.cons.injEq] at h
  · exact absurd h.1 (by decide)
  · exact absurd h.1.symm hquote

/-- A text in quotes ends at the first quote that is not escaped, so that it can be read back. -/
theorem escaped_append_inj {xs ys rest rest' : List Char}
    (h : xs.flatMap escapeChar ++ '"' :: rest = ys.flatMap escapeChar ++ '"' :: rest') :
    xs = ys ∧ rest = rest' := by
  induction xs generalizing ys with
  | nil =>
      cases ys with
      | nil => simpa using h
      | cons d ys =>
          rw [List.flatMap_cons, List.append_assoc] at h
          exact absurd h (quote_ne_escapeChar_append d _ _)
  | cons c xs ih =>
      rw [List.flatMap_cons, List.append_assoc] at h
      cases ys with
      | nil => exact absurd h.symm (quote_ne_escapeChar_append c _ _)
      | cons d ys =>
          rw [List.flatMap_cons, List.append_assoc] at h
          obtain ⟨rfl, htail⟩ := escapeChar_append_inj h
          obtain ⟨rfl, hrest⟩ := ih htail
          exact ⟨rfl, hrest⟩

theorem quoted_append_inj {a b : String} {rest rest' : List Char}
    (h : (quoted a).toList ++ rest = (quoted b).toList ++ rest') : a = b ∧ rest = rest' := by
  simp only [quoted, String.toList_ofList, List.cons_append, List.append_assoc, List.nil_append,
    List.cons.injEq, true_and] at h
  obtain ⟨hchars, hrest⟩ := escaped_append_inj h
  exact ⟨String.toList_injective hchars, hrest⟩

/-- The line of a node declares this node only. -/
theorem declares_nodeLine (node : String) (drawn : String × Mark) :
    declares node (nodeLine drawn) = (drawn.1 == node) := by
  rw [Bool.eq_iff_iff, declares, List.isPrefixOf_iff_prefix, beq_iff_eq]
  constructor
  · rintro ⟨rest, h⟩
    simp only [nodeLine, String.toList_append, List.append_assoc, List.append_cancel_left_eq] at h
    exact (quoted_append_inj h).1.symm
  · rintro rfl
    exact ⟨(quoted drawn.1 ++ drawn.2.attributes ++ "];\n").toList, by
      simp [nodeLine, String.toList_append]⟩

/-- The line of an edge declares no node. -/
theorem declares_edgeLine (node : String) (edge : Edge) :
    declares node (edgeLine edge) = false := by
  rw [Bool.eq_false_iff, declares, Ne, List.isPrefixOf_iff_prefix]
  rintro ⟨rest, h⟩
  simp only [edgeLine, String.toList_append, List.append_assoc, List.append_cancel_left_eq] at h
  have harrow := (quoted_append_inj h).2
  simp at harrow

/-- A node is declared as often as it is drawn. -/
theorem countP_declares (drawing : Drawing) (node : String) :
    drawing.statements.countP (declares node) = drawing.names.count node := by
  rw [statements, List.countP_append, List.countP_map, List.countP_map, names, List.count,
    List.countP_map]
  have hedges : drawing.edges.countP (declares node ∘ edgeLine) = 0 :=
    List.countP_eq_zero.2 fun edge _ => by simp [declares_edgeLine]
  rw [hedges, Nat.add_zero]
  exact List.countP_congr fun drawn _ => by simp [declares_nodeLine]

theorem render_eq (drawing : Drawing) :
    drawing.render = "digraph Dependencies \x7b\n  rankdir=LR;\n"
      ++ String.join drawing.statements ++ "\x7d\n" := by
  unfold render statements
  simp only [String.join_append, String.append_assoc]

end Drawing
end Dependency

/-! ## Analyses -/

/-- The dependency graph of an analysis: its nodes are the distinct paths of the files, none of them
blank, and its edges are those of references in them. -/
theorem dependencies_of_analyze {settings : Settings} {grammars : Grammars} {request : Value}
    {analysis : Analysis} (h : analyze settings grammars request = .ok analysis) :
    let graph := analysis.snapshot.dependencies
    analysis.snapshot.files.map SourceFile.path = graph.nodes ∧ graph.nodes.Nodup ∧
      (∀ node ∈ graph.nodes, Text.isBlank node = false) ∧
      ∃ references, graph.edges =
        Dependency.edgesOf (.ofFiles graph.nodes settings.pathAliases) references := by
  intro graph
  obtain ⟨files, hlists, hlinks⟩ := links_of_analyze h
  have hpaths : graph.nodes = files.map InputFile.path := by
    rw [hlinks.nodes_eq, Analysis.pathsOf, List.map_map]
    exact List.map_congr_left fun file _ => by
      rw [Function.comp_apply, FileAnalysis.analyze_file]
  have hedges := hlinks.edges_eq
  rw [Analysis.dependenciesOf, ← hlinks.nodes_eq] at hedges
  refine ⟨?_, hpaths ▸ hlists.paths_nodup, ?_, _, hedges⟩
  · rw [hlinks.files_eq, hlinks.nodes_eq, List.map_map]
    rfl
  · intro node hnode
    rw [hpaths] at hnode
    obtain ⟨file, hfile, rfl⟩ := List.mem_map.1 hnode
    exact hlists.path_not_blank hfile

/-- In the dependency graph of an analysis, an edge is external if its specifier means no file, and
it then ends at the specifier.  So it is external if it ends outside the analysed files, and besides
only if its specifier is spelled like the path of a file that it does not mean.

The dependents of a file are the files with the file among their targets, and those with an external
edge that is spelled like its path.  The text of a drawing with external targets declares both ends
of every edge, and it declares a node once unless the node is both a file and an external target. -/
theorem external_targets_apart {settings : Settings} {grammars : Grammars} {request : Value}
    {analysis : Analysis} (h : analyze settings grammars request = .ok analysis) :
    let graph := analysis.snapshot.dependencies
    let specifiers := Dependency.Specifiers.ofFiles graph.nodes settings.pathAliases
    analysis.snapshot.files.map SourceFile.path = graph.nodes ∧
      (∀ edge ∈ graph.edges,
        edge.target = (specifiers.resolve? edge.source edge.specifier).getD edge.specifier ∧
        edge.external = (specifiers.resolve? edge.source edge.specifier).isNone ∧
        (edge.external = true ↔ edge.target ∉ graph.nodes ∨
          edge.specifier ∈ graph.nodes ∧
            specifiers.resolve? edge.source edge.specifier = none)) ∧
      (∀ file ∈ graph.nodes, ∃ found, graph.dependents file = .ok found ∧ found.Nodup ∧
        (∀ other, other ∈ found ↔
          file ∈ graph.adjacency.successors other ∨ graph.RefersOutside other file) ∧
        ((∀ edge ∈ graph.edges, edge.external = true → edge.target ≠ file) →
          ∀ other, other ∈ found ↔ file ∈ graph.adjacency.successors other)) ∧
      (∀ node, node ∈ (Dependency.Drawing.ofGraph graph "" true).names ↔
        node ∈ graph.nodes ∨ ∃ other, graph.RefersOutside other node) ∧
      ∀ focus,
        let drawing := Dependency.Drawing.ofGraph graph focus true
        graph.dot focus true = "digraph Dependencies \x7b\n  rankdir=LR;\n"
            ++ String.join drawing.statements ++ "\x7d\n" ∧
          (∀ edge ∈ drawing.edges, edge.source ∈ drawing.names ∧ edge.target ∈ drawing.names) ∧
          ∀ node ∈ drawing.names,
            (node ∈ graph.nodes → ∀ other, ¬graph.RefersOutside other node) →
            drawing.statements.countP (Dependency.Drawing.declares node) = 1 := by
  intro graph specifiers
  obtain ⟨hfiles, hnodup, hblank, references, hedges⟩ := dependencies_of_analyze h
  have htargets : ∀ edge ∈ graph.edges, edge.external = false → edge.target ∈ graph.nodes :=
    fun edge hedge hinternal => Dependency.edgesOf_target (hedges ▸ hedge) hinternal
  refine ⟨hfiles, ?_, ?_, ?_, ?_⟩
  · intro edge hedge
    rw [hedges] at hedge
    obtain ⟨htarget, hexternal⟩ := Dependency.edgesOf_resolved hedge
    exact ⟨htarget, hexternal, Dependency.external_iff hedge⟩
  · intro file hfile
    obtain ⟨found, hfound, hdistinct, hmem⟩ := graph.exists_dependents hfile (hblank file hfile)
    refine ⟨found, hfound, hdistinct, hmem, ?_⟩
    intro hapart other
    rw [hmem, or_iff_left]
    rintro ⟨edge, hedge, -, htarget, hexternal⟩
    exact hapart edge hedge hexternal htarget
  · intro node
    rw [Dependency.Drawing.names_unfocused, Dependency.Drawing.mem_candidateNodes_iff]
  · intro focus drawing
    refine ⟨drawing.render_eq,
      fun edge hedge => Dependency.Drawing.ends_mem_names graph htargets hedge, ?_⟩
    intro node hnode hapart
    rw [Dependency.Drawing.countP_declares]
    exact Dependency.Drawing.count_names graph hnodup hnode hapart

/-- Two files with one import each have an analysis, whose graph is known once the imports are. -/
theorem exists_graph_of_imports (text text' : String) (edges : List Dependency.Edge)
    (hedges : Analysis.dependenciesOf .default
      ([⟨"a.ts", text⟩, ⟨"b.ts", text'⟩].map (FileAnalysis.analyze .default importGrammars)) =
        edges)
    (hsources : ∀ edge ∈ edges, edge.source ∈ ["a.ts", "b.ts"]) :
    ∃ analysis,
      analyze .default importGrammars (.list [fileItem "a.ts" text, fileItem "b.ts" text']) =
          .ok analysis ∧
        analysis.snapshot.dependencies = ⟨["a.ts", "b.ts"], edges, 0, hsources⟩ := by
  have haccepted : InputFile.validate (.list [fileItem "a.ts" text, fileItem "b.ts" text']) =
      .ok [⟨"a.ts", text⟩, ⟨"b.ts", text'⟩] := rfl
  obtain ⟨analysis, hanalysis, -, hlinks⟩ :=
    exists_links_of_accepted .default importGrammars haccepted
  refine ⟨analysis, hanalysis, ?_⟩
  rw [Dependency.Graph.mk.injEq, hlinks.edges_eq, hlinks.maxCycles_eq, hlinks.nodes_eq]
  exact ⟨by simp [Analysis.pathsOf, FileAnalysis.analyze_file], hedges, rfl⟩

/-- A file imports another, and that one a module.  The dependents of the second file are those that
have it among their targets, and the drawing declares each of the three once. -/
theorem external_targets_apart_module :
    ∃ analysis,
      analyze .default importGrammars
          (.list [fileItem "a.ts" "import './b'", fileItem "b.ts" "import 'fs'"]) = .ok analysis ∧
        let graph := analysis.snapshot.dependencies
        let drawing := Dependency.Drawing.ofGraph graph "" true
        graph.RefersOutside "b.ts" "fs" ∧ "fs" ∉ graph.nodes ∧
          (∃ found, graph.dependents "b.ts" = .ok found ∧
            ∀ other, other ∈ found ↔ "b.ts" ∈ graph.adjacency.successors other) ∧
          ∀ node ∈ ["a.ts", "b.ts", "fs"],
            drawing.statements.countP (Dependency.Drawing.declares node) = 1 := by
  obtain ⟨analysis, hanalysis, hgraph⟩ := exists_graph_of_imports "import './b'" "import 'fs'"
    [⟨"a.ts", "b.ts", .importing, "./b", false⟩, ⟨"b.ts", "fs", .importing, "fs", true⟩]
    (by decide +kernel) (by decide)
  obtain ⟨-, -, hdependents, hnames, hdrawing⟩ := external_targets_apart hanalysis
  refine ⟨analysis, hanalysis, ?_⟩
  intro graph drawing
  have houtside : ∀ file target,
      graph.RefersOutside file target ↔ "b.ts" = file ∧ "fs" = target := by
    simp [Dependency.Graph.RefersOutside, graph, hgraph]
  refine ⟨(houtside _ _).2 ⟨rfl, rfl⟩, by simp [graph, hgraph], ?_, ?_⟩
  · obtain ⟨found, hfound, -, -, hexact⟩ := hdependents "b.ts" (by simp [hgraph])
    exact ⟨found, hfound, hexact (by simp [hgraph])⟩
  · intro node hnode
    refine (hdrawing "").2.2 node ((hnames node).2 ?_) ?_
    · by_cases hmodule : node = "fs"
      · exact .inr ⟨"b.ts", (houtside _ _).2 ⟨rfl, hmodule.symm⟩⟩
      · exact .inl (by simpa [hgraph, hmodule] using hnode)
    · intro hfile other hrefers
      obtain ⟨-, rfl⟩ := (houtside _ _).1 hrefers
      simp [hgraph] at hfile

/-- A file imports another by its path, which is not a relative specifier: the edge is external, and
yet it ends at a file.  This file has a dependent without being a target of it, and the drawing
declares it twice. -/
theorem import_spelled_like_file :
    ∃ analysis,
      analyze .default importGrammars
          (.list [fileItem "a.ts" "import 'b.ts'", fileItem "b.ts" "import 'fs'"]) = .ok analysis ∧
        let graph := analysis.snapshot.dependencies
        (∃ edge ∈ graph.edges, edge.external = true ∧ edge.target ∈ graph.nodes) ∧
          "b.ts" ∈ graph.nodes ∧ graph.dependents "b.ts" = .ok ["a.ts"] ∧
          "b.ts" ∉ graph.adjacency.successors "a.ts" ∧
          (Dependency.Drawing.ofGraph graph "" true).statements.countP
            (Dependency.Drawing.declares "b.ts") = 2 := by
  obtain ⟨analysis, hanalysis, hgraph⟩ := exists_graph_of_imports "import 'b.ts'" "import 'fs'"
    [⟨"a.ts", "b.ts", .importing, "b.ts", true⟩, ⟨"b.ts", "fs", .importing, "fs", true⟩]
    (by decide +kernel) (by decide)
  refine ⟨analysis, hanalysis, ?_⟩
  simp only [hgraph]
  refine ⟨by decide +kernel, by decide, rfl, by decide +kernel, ?_⟩
  rw [Dependency.Drawing.countP_declares, Dependency.Drawing.names_unfocused,
    Dependency.Drawing.candidateNodes, if_pos rfl, Dependency.Drawing.externalTargets,
    List.count_append, (List.mergeSort_perm _ _).count_eq]
  decide +kernel

end CodeAtlas
