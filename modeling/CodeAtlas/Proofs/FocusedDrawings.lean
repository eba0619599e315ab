import CodeAtlas.Proofs.ExternalTargets
import Mathlib.Data.List.Infix

/-!
# Drawings with a focus

A drawing shows the files of a graph, its external targets where they are wanted, and the edges
between them.  With a focus that some of these nodes contain, it shows what is next to them: the
edges that touch such a node, and the nodes that contain the focus or that one of these edges
touches.  Every edge of a drawing has both its ends in it.

Main results:

- Theorem {lit}`Dependency.Drawing.externalTargets_sorted`: the external targets are in order.
- Theorems {lit}`Dependency.Drawing.focused_edges` and {lit}`Dependency.Drawing.focused_names`: what
  is drawn with a focus that some node contains.
- Theorem {lit}`Dependency.Drawing.unfocused_eq`: what is drawn otherwise.
- Theorem {lit}`drawing_closed_and_exact`: the drawings of an analysis.
-/

namespace CodeAtlas
namespace Dependency
namespace Drawing

/-! ## What may be drawn -/

/-- The external targets are in order, each of them once. -/
theorem externalTargets_sorted (graph : Graph) : (externalTargets graph).Pairwise (· < ·) := by
  have hsorted : (externalTargets graph).Pairwise fun a b => (!decide (b < a)) = true := by
    apply List.pairwise_mergeSort
    · intro a b c hab hbc
      simp only [Bool.not_eq_true', decide_eq_false_iff_not, String.not_lt] at hab hbc ⊢
      exact String.le_trans hab hbc
    · intro a b
      simp only [Bool.or_eq_true, Bool.not_eq_true', decide_eq_false_iff_not, String.not_lt]
      exact String.le_total a b
  refine (hsorted.and (nodup_externalTargets graph)).imp ?_
  rintro a b ⟨hle, hne⟩
  simp only [Bool.not_eq_true', decide_eq_false_iff_not, String.not_lt] at hle
  rw [← String.not_le]
  intro hge
  exact hne (String.le_antisymm hle hge)

/-- The nodes that may be drawn are the files, followed by the external targets where these are
wanted. -/
theorem exists_candidateNodes_eq (graph : Graph) (withExternal : Bool) :
    ∃ outside, candidateNodes graph withExternal = graph.nodes ++ outside ∧
      outside.Pairwise (· < ·) ∧
      ∀ target, target ∈ outside ↔ withExternal = true ∧
        ∃ edge ∈ graph.edges, edge.external = true ∧ edge.target = target := by
  cases withExternal with
  | false => exact ⟨[], rfl, List.Pairwise.nil, by simp⟩
  | true =>
      refine ⟨externalTargets graph, rfl, externalTargets_sorted graph, fun target => ?_⟩
      rw [mem_externalTargets_iff]
      constructor
      · rintro ⟨-, edge, hedge, -, htarget, hexternal⟩
        exact ⟨rfl, edge, hedge, hexternal, htarget⟩
      · rintro ⟨-, edge, hedge, hexternal, htarget⟩
        exact ⟨edge.source, edge, hedge, rfl, htarget, hexternal⟩

/-! ## What is drawn -/

theorem inFocus_iff (focus node : String) :
    inFocus focus node = true ↔ focus.toList <:+: node.toList :=
  Text.hasPart_iff focus.toList node.toList

/-- Some node that may be drawn contains the focus, which is not empty. -/
def Focuses (graph : Graph) (focus : String) (withExternal : Bool) : Prop :=
  focus ≠ "" ∧ ∃ node ∈ candidateNodes graph withExternal, focus.toList <:+: node.toList

theorem focuses_iff (graph : Graph) (focus : String) (withExternal : Bool) :
    Focuses graph focus withExternal ↔
      (focus.isEmpty || ((candidateNodes graph withExternal).filter (inFocus focus)).isEmpty)
        = false := by
  have hnodes : ((candidateNodes graph withExternal).filter (inFocus focus)).isEmpty = false ↔
      ∃ node ∈ candidateNodes graph withExternal, focus.toList <:+: node.toList := by
    simp only [List.isEmpty_eq_false_iff_exists_mem, List.mem_filter, inFocus_iff]
  rw [Bool.or_eq_false_iff, hnodes, Focuses, ← String.isEmpty_eq_false_iff]

/-- Without a node that contains the focus, everything is drawn that may be. -/
theorem unfocused_eq {graph : Graph} {focus : String} {withExternal : Bool}
    (h : ¬Focuses graph focus withExternal) :
    (ofGraph graph focus withExternal).names = candidateNodes graph withExternal ∧
      (ofGraph graph focus withExternal).edges = candidateEdges graph withExternal := by
  rw [focuses_iff, Bool.not_eq_false] at h
  have hselect : select graph focus withExternal =
      (candidateNodes graph withExternal, candidateEdges graph withExternal) := by
    rw [select, if_pos h]
  rw [names_ofGraph, hselect]
  exact ⟨rfl, congrArg Prod.snd hselect⟩

/-- With nodes that contain the focus, the edges are drawn that touch one of them. -/
theorem focused_edges {graph : Graph} {focus : String} {withExternal : Bool}
    (htargets : ∀ edge ∈ graph.edges, edge.external = false → edge.target ∈ graph.nodes)
    (h : Focuses graph focus withExternal) :
    (ofGraph graph focus withExternal).edges =
      (candidateEdges graph withExternal).filter fun edge =>
        focus.toList <:+: edge.source.toList ∨ focus.toList <:+: edge.target.toList := by
  rw [focuses_iff, ← Bool.not_eq_true] at h
  change (select graph focus withExternal).2 = _
  rw [select, if_neg h]
  apply List.filter_congr
  intro edge hedge
  -- an end that contains the focus is in focus, since it may be drawn
  obtain ⟨hsource, htarget⟩ := ends_mem_candidateNodes htargets hedge
  rw [Bool.eq_iff_iff]
  simp [hsource, htarget, inFocus_iff]

/-- With nodes that contain the focus, these are drawn and those that a drawn edge touches. -/
theorem focused_names {graph : Graph} {focus : String} {withExternal : Bool}
    (h : Focuses graph focus withExternal) :
    (ofGraph graph focus withExternal).names =
      (candidateNodes graph withExternal).filter fun node =>
        focus.toList <:+: node.toList ∨
          ∃ edge ∈ (ofGraph graph focus withExternal).edges,
            edge.source = node ∨ edge.target = node := by
  rw [focuses_iff, ← Bool.not_eq_true] at h
  have hselect := select.eq_1 graph focus withExternal
  rw [if_neg h] at hselect
  have hedges : (ofGraph graph focus withExternal).edges = _ := congrArg Prod.snd hselect
  rw [names_ofGraph, hselect]
  apply List.filter_congr
  intro node hnode
  rw [Bool.eq_iff_iff, decide_eq_true_eq, hedges]
  simp [hnode, inFocus_iff, and_assoc]

end Drawing
end Dependency

/-! ## The drawings of an analysis -/

/-- The text that draws the dependencies of an analysis has a statement for each drawn node and each
drawn edge.  What may be drawn are the analysed files, followed by the external targets in order
where these are wanted, and the edges, the external ones only where they are wanted.  If one of these
nodes contains the focus and it is not empty, the edges are drawn that have an end which contains it,
and the nodes that contain it or are an end of a drawn edge; otherwise everything is drawn that may
be.  Nothing changes its place, and both ends of every drawn edge are drawn. -/
theorem drawing_closed_and_exact {settings : Settings} {grammars : Grammars} {request : Value}
    {analysis : Analysis} (h : analyze settings grammars request = .ok analysis) (focus : String)
    (withExternal : Bool) :
    let graph := analysis.snapshot.dependencies
    let drawing := Dependency.Drawing.ofGraph graph focus withExternal
    graph.dot focus withExternal = "digraph Dependencies \x7b\n  rankdir=LR;\n"
        ++ String.join drawing.statements ++ "\x7d\n" ∧
      ∃ nodes edges,
        (∃ outside, nodes = analysis.snapshot.files.map SourceFile.path ++ outside ∧
          outside.Pairwise (· < ·) ∧
          ∀ target, target ∈ outside ↔ withExternal = true ∧
            ∃ edge ∈ graph.edges, edge.external = true ∧ edge.target = target) ∧
        edges = graph.edges.filter (fun edge => withExternal || !edge.external) ∧
        (∀ edge ∈ drawing.edges,
          edge.source ∈ drawing.names ∧ edge.target ∈ drawing.names) ∧
        (focus ≠ "" ∧ (∃ node ∈ nodes, focus.toList <:+: node.toList) →
          drawing.edges = edges.filter (fun edge =>
            focus.toList <:+: edge.source.toList ∨ focus.toList <:+: edge.target.toList) ∧
          drawing.names = nodes.filter (fun node => focus.toList <:+: node.toList ∨
            ∃ edge ∈ drawing.edges, edge.source = node ∨ edge.target = node)) ∧
        (¬(focus ≠ "" ∧ ∃ node ∈ nodes, focus.toList <:+: node.toList) →
          drawing.edges = edges ∧ drawing.names = nodes) := by
  intro graph drawing
  obtain ⟨hfiles, -, -, references, hedges⟩ := dependencies_of_analyze h
  have htargets : ∀ edge ∈ graph.edges, edge.external = false → edge.target ∈ graph.nodes :=
    fun edge hedge hinternal => Dependency.edgesOf_target (hedges ▸ hedge) hinternal
  refine ⟨drawing.render_eq, Dependency.Drawing.candidateNodes graph withExternal,
    Dependency.Drawing.candidateEdges graph withExternal, ?_, rfl,
    fun edge hedge => Dependency.Drawing.ends_mem_names graph htargets hedge, ?_, ?_⟩
  · rw [hfiles]
    exact Dependency.Drawing.exists_candidateNodes_eq graph withExternal
  · intro hfocuses
    exact ⟨Dependency.Drawing.focused_edges htargets hfocuses,
      Dependency.Drawing.focused_names hfocuses⟩
  · intro hnot
    exact (Dependency.Drawing.unfocused_eq hnot).symm

/-- A file imports another, and that one a module.  With a focus on the module, the drawing shows it
and the second file with the edge between them, and leaves the first file out. -/
theorem drawing_closed_and_exact_module :
    ∃ analysis,
      analyze .default importGrammars
          (.list [fileItem "a.ts" "import './b'", fileItem "b.ts" "import 'fs'"]) = .ok analysis ∧
        let drawing := Dependency.Drawing.ofGraph analysis.snapshot.dependencies "fs" true
        drawing.edges = [⟨"b.ts", "fs", .importing, "fs", true⟩] ∧
          "b.ts" ∈ drawing.names ∧ "fs" ∈ drawing.names ∧ "a.ts" ∉ drawing.names := by
  obtain ⟨analysis, hanalysis, hgraph⟩ := exists_graph_of_imports "import './b'" "import 'fs'"
    [⟨"a.ts", "b.ts", .importing, "./b", false⟩, ⟨"b.ts", "fs", .importing, "fs", true⟩]
    (by decide +kernel) (by decide)
  refine ⟨analysis, hanalysis, ?_⟩
  intro drawing
  obtain ⟨-, nodes, edges, ⟨outside, hnodes, -, houtside⟩, hcandidates, hends, hfocused, -⟩ :=
    drawing_closed_and_exact hanalysis "fs" true
  have hmodule : "fs" ∈ nodes := by
    rw [hnodes]
    refine List.mem_append_right _ ((houtside "fs").2 ⟨rfl, ?_⟩)
    simp [hgraph]
  obtain ⟨hedges, hnames⟩ := hfocused ⟨by decide, "fs", hmodule, List.infix_refl _⟩
  have hdrawn : drawing.edges = [⟨"b.ts", "fs", .importing, "fs", true⟩] := by
    rw [hedges, hcandidates, hgraph]
    decide +kernel
  obtain ⟨hsource, htarget⟩ := hends _ (hdrawn ▸ List.mem_singleton.2 rfl)
  refine ⟨hdrawn, hsource, htarget, ?_⟩
  rw [hnames, List.mem_filter, decide_eq_true_eq]
  rintro ⟨-, hcontains | ⟨edge, hedge, hend⟩⟩
  · exact absurd hcontains (by decide)
  · rw [hdrawn] at hedge
    rw [List.mem_singleton.1 hedge] at hend
    exact absurd hend (by decide)

end CodeAtlas
