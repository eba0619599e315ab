import CodeAtlas.Proofs.Conservation
import CodeAtlas.Proofs.ScopeForest

/-!
# Places of calls

In a tree whose siblings stand side by side, a walk meets the nodes in the order of the text.  So
the calls in a declaration come in the order of the text, and so do the references of a file.  Calls
lie between the start and the end of the declaration that makes them, since they are found below its
body, which is a part of its node.

Main results:

- Theorem {lit}`Arranged.walk_pairwise`: a walk goes through a text from start to end.
- Theorem {lit}`Declaration.site_within`: a call lies in the declaration that makes it.
- Theorem {lit}`FileAnalysis.analyze_inOrder`: what is found in a file is in order.
- Theorem {lit}`calls_lie_in_callers_in_order`: what is found in all files is in order.
-/

namespace CodeAtlas

/-! ## Order of places -/

/-- A line and a column are not after others: places are ordered by line and then by column. -/
def NotAfter (a b : Int × Int) : Prop := a.1 < b.1 ∨ a.1 = b.1 ∧ a.2 ≤ b.2

/-- The line and the column of a location. -/
def Location.place (location : Location) : Int × Int := (location.line, location.column)

/-- The line and the column at which a range starts. -/
def SourceRange.first (range : SourceRange) : Int × Int := (range.startLine, range.startColumn)

/-- The line and the column at which a range ends. -/
def SourceRange.last (range : SourceRange) : Int × Int := (range.endLine, range.endColumn)

theorem Point.notAfter {p q : Point} (h : p.le q = true) :
    NotAfter (p.line, p.column) (q.line, q.column) := by
  simp only [le, Bool.or_eq_true, Bool.and_eq_true, decide_eq_true_eq, beq_iff_eq] at h
  unfold NotAfter
  dsimp only
  omega

/-! ## Walks through a text -/

namespace Tree
namespace Node

/-- A tree is arranged in a text: it is placed there, no child ends before it starts, and of two
siblings the first ends where the second starts, or before. -/
structure Arranged (text : String) (root : Node) : Prop where
  placed : root.Placed text
  upright : ∀ parent ∈ root.walk, ∀ child ∈ parent.children, child.label.start ≤ child.label.stop
  apart : ∀ parent ∈ root.walk,
    parent.children.Pairwise fun left right => left.label.stop ≤ right.label.start

instance (text : String) (root : Node) : Decidable (root.Arranged text) :=
  decidable_of_iff (root.Placed text ∧
      (∀ parent ∈ root.walk, ∀ child ∈ parent.children, child.label.start ≤ child.label.stop) ∧
      ∀ parent ∈ root.walk,
        parent.children.Pairwise fun left right => left.label.stop ≤ right.label.start)
    ⟨fun h => ⟨h.1, h.2.1, h.2.2⟩, fun h => ⟨h.placed, h.upright, h.apart⟩⟩

namespace Arranged

variable {text : String} {root region node : Node}

theorem of_mem (h : root.Arranged text) (hregion : region ∈ root.walk) : region.Arranged text where
  placed := h.placed.of_mem hregion
  upright := fun parent hparent => h.upright parent (mem_walk_trans hparent hregion)
  apart := fun parent hparent => h.apart parent (mem_walk_trans hparent hregion)

/-- No node below a child ends before it starts. -/
theorem start_le_stop {child : Node} (h : root.Arranged text) (hchild : child ∈ root.children)
    (hnode : node ∈ child.walk) : node.label.start ≤ node.label.stop := by
  have hbelow := root.holds_children.mem hchild
  rcases eq_or_exists_parent hnode with rfl | ⟨parent, hparent, hnode⟩
  · exact h.upright root (mem_walk_self root) node hchild
  · exact h.upright parent (mem_walk_trans hparent hbelow) node hnode

/-- A walk goes through the text from start to end. -/
theorem walk_pairwise (h : root.Arranged text) :
    root.walk.Pairwise fun a b => a.label.start ≤ b.label.start := by
  induction root using induct with
  | mk label children ih =>
      have hself := mem_walk_self (.mk label children)
      have hholds := holds_children (.mk label children)
      rw [walk_mk, List.pairwise_cons, List.pairwise_flatMap]
      refine ⟨?_, ?_, ?_⟩
      · intro node hnode
        refine (h.placed.within ?_).1
        rw [walk_mk]
        exact List.mem_cons_of_mem _ hnode
      · exact fun child hchild => ih child hchild (h.of_mem (hholds.mem hchild))
      · -- of two siblings, the first contains its nodes and ends before all nodes of the second
        refine (h.apart _ hself).imp_of_mem ?_
        intro left right hleft hright hapart a ha b hb
        have hupright := h.start_le_stop hleft ha
        have hend := ((h.placed.of_mem (hholds.mem hleft)).within ha).2
        have hstart := ((h.placed.of_mem (hholds.mem hright)).within hb).1
        omega

end Arranged
end Node

namespace Source

/-- Lines do not go back where offsets do not. -/
theorem point_line_le (source : Source) {a b : Nat} (h : a ≤ b) :
    (source.point a).line ≤ (source.point b).line := by
  have htake : (source.bytes.take a).Sublist (source.bytes.take b) := List.take_sublist_take_left h
  have hcount := htake.count_le 0x0A
  simp only [point_eq]
  omega

end Source
end Tree

/-! ## References and call sites -/

/-- A call site is where its node starts. -/
theorem Call.point_of_site? {source : Tree.Source} {node : Tree.Node} {site : Call.Site}
    (h : site? source node = some site) : site.point = source.startPoint node := by
  unfold site? at h
  split at h
  · rcases Option.map_eq_some_iff.1 h with ⟨name, -, rfl⟩
    rfl
  · cases h

/-- A reference is on the line where its node starts. -/
theorem Reference.line_of_ofNode? {source : Tree.Source} {node : Tree.Node} {reference : Reference}
    (h : ofNode? source node = some reference) : reference.line = lineOf source node := by
  unfold ofNode? at h
  split_ifs at h
  · rcases Option.map_eq_some_iff.1 h with ⟨specifier, -, rfl⟩
    rfl
  · rcases Option.bind_eq_some_iff.1 h with ⟨module, -, h⟩
    rcases Option.map_eq_some_iff.1 h with ⟨specifier, -, rfl⟩
    dsimp only
    split <;> rfl
  · simp only [ofCall?, Option.bind_eq_bind, Option.bind_eq_some_iff] at h
    rcases h with ⟨_, -, _, -, _, -, _, -, _, -, hreference⟩
    cases hreference
    rfl

/-- The references of a file are in the order of their lines. -/
theorem SourceTree.references_pairwise {tree : SourceTree} {text : String}
    (h : tree.root.Arranged text) : tree.references.Pairwise fun a b => a.line ≤ b.line := by
  refine List.pairwise_filterMap.2 (h.walk_pairwise.imp ?_)
  intro a b hstart first hfirst second hsecond
  rw [Reference.line_of_ofNode? hfirst, Reference.line_of_ofNode? hsecond]
  exact Int.ofNat_le.2 (tree.source.point_line_le hstart)

/-! ## Declarations -/

namespace Declaration

open CodeAtlas.Tree

/-- What is walked in the body of a declaration is part of the declaration, in preorder. -/
theorem walkBody_sublist_node {declaration : Declaration}
    (hbody : ∀ body, declaration.body = some body → body ∈ declaration.node.walk) :
    declaration.walkBody.Sublist declaration.node.walk := by
  unfold walkBody
  split
  · exact List.nil_sublist _
  next body heq =>
    exact (Node.walkSkipping_sublist _ body).trans (Node.walk_sublist_of_mem (hbody body heq))

section Places

variable {tree : SourceTree} {text : String} {declaration : Declaration}

/-- The nodes of a declaration lie between boundaries of characters. -/
theorem isBoundary_of_mem (h : tree.root.Arranged text) (hmem : declaration ∈ tree.declarations)
    {node : Node} (hnode : node ∈ declaration.node.walk) :
    Text.IsBoundary text node.label.start ∧ Text.IsBoundary text node.label.stop := by
  rcases (parts_of_mem_declarations hmem).1 with ⟨statement, hstatement, hdeclared⟩
  exact h.placed.isBoundary hstatement (Node.mem_walk_trans hnode hdeclared)

/-- A declaration does not end before it starts. -/
theorem startPoint_le_endPoint (hsource : tree.source = .ofText text) (h : tree.root.Arranged text)
    (hmem : declaration ∈ tree.declarations) :
    (tree.source.startPoint declaration.node).le
      (tree.source.endPoint declaration.node) = true := by
  rcases (parts_of_mem_declarations hmem).1 with ⟨statement, hstatement, hnode⟩
  have hboundary := isBoundary_of_mem h hmem (Node.mem_walk_self declaration.node)
  rw [hsource]
  exact Source.point_le text hboundary.1 hboundary.2 (h.start_le_stop hstatement hnode)

/-- A call site lies between the start and the end of its declaration. -/
theorem site_within (hsource : tree.source = .ofText text) (h : tree.root.Arranged text)
    (hmem : declaration ∈ tree.declarations) {site : Call.Site}
    (hsite : site ∈ Call.sites tree.source declaration) :
    (tree.source.startPoint declaration.node).le site.point = true ∧
      site.point.le (tree.source.endPoint declaration.node) = true := by
  rcases parts_of_mem_declarations hmem with ⟨⟨statement, hstatement, hnode⟩, hbody⟩
  rcases List.mem_filterMap.1 hsite with ⟨node, hwalk, hsite⟩
  have hpoint := Call.point_of_site? hsite
  have hin := (walkBody_sublist_node hbody).subset hwalk
  have hboundary := isBoundary_of_mem h hmem hin
  have hself := isBoundary_of_mem h hmem (Node.mem_walk_self declaration.node)
  have hregion := Node.mem_walk_trans hnode (tree.root.holds_children.mem hstatement)
  have hwithin := (h.placed.of_mem hregion).within hin
  have hupright := h.start_le_stop hstatement (Node.mem_walk_trans hin hnode)
  rw [hpoint, hsource]
  constructor
  · exact Source.point_le text hself.1 hboundary.1 hwithin.1
  · exact Source.point_le text hboundary.1 hself.2 (hupright.trans hwithin.2)

/-- The call sites of a declaration are in the order of the text. -/
theorem sites_pairwise (hsource : tree.source = .ofText text) (h : tree.root.Arranged text)
    (hmem : declaration ∈ tree.declarations) :
    (Call.sites tree.source declaration).Pairwise fun a b => a.point.le b.point = true := by
  rcases parts_of_mem_declarations hmem with ⟨⟨statement, hstatement, hnode⟩, hbody⟩
  have hregion := Node.mem_walk_trans hnode (tree.root.holds_children.mem hstatement)
  have hwalk := walkBody_sublist_node hbody
  have hordered := (h.of_mem hregion).walk_pairwise.sublist hwalk
  refine List.pairwise_filterMap.2 (hordered.imp_of_mem ?_)
  intro a b ha hb hstart first hfirst second hsecond
  rw [Call.point_of_site? hfirst, Call.point_of_site? hsecond, hsource]
  exact Source.point_le text (isBoundary_of_mem h hmem (hwalk.subset ha)).1
    (isBoundary_of_mem h hmem (hwalk.subset hb)).1 hstart

end Places
end Declaration

/-! ## Files -/

/-- A range is one of at least one line, and does not end before it starts. -/
def SourceRange.Upright (range : SourceRange) : Prop :=
  NotAfter range.first range.last ∧ 1 ≤ range.lineCount

/-- A range holds a location: it is neither before the start nor after the end. -/
def SourceRange.Spans (range : SourceRange) (location : Location) : Prop :=
  NotAfter range.first location.place ∧ NotAfter location.place range.last

theorem SourceRange.upright_between {start stop : Point} (h : start.le stop = true) :
    (between start stop).Upright := by
  have hplaces := Point.notAfter h
  refine ⟨hplaces, ?_⟩
  unfold NotAfter at hplaces
  simp only [lineCount, between]
  omega

namespace FileAnalysis

/-- What is found in a file is in order: no entity ends before it starts, the calls of a declaration
lie in its entity and come in the order of the text, and so do the references. -/
structure InOrder (analysis : FileAnalysis) : Prop where
  upright : ∀ entity ∈ analysis.result.entities, entity.range.Upright
  spans : ∀ entry ∈ analysis.declarations,
    ∃ entity ∈ analysis.result.entities, entity.ref = entry.1 ∧
      ∀ resolver, ∀ edge ∈ Call.edgesOf analysis.source resolver entry.1 entry.2,
        entity.range.Spans edge.location
  calls : ∀ entry ∈ analysis.declarations, ∀ resolver,
    (Call.edgesOf analysis.source resolver entry.1 entry.2).Pairwise fun a b =>
      NotAfter a.location.place b.location.place
  references : analysis.result.references.Pairwise fun a b => a.line ≤ b.line

theorem mem_declarations_of_mem_declared {tree : SourceTree} {entry : EntityRef × Declaration}
    (h : entry ∈ declared tree) : entry.2 ∈ tree.declarations := by
  rcases List.mem_map.1 ((distinctRefs_spec _ _).2 entry h).1 with ⟨declaration, hmem, rfl⟩
  exact hmem

theorem ofTree_inOrder (settings : Settings) (file : InputFile) {tree : SourceTree} {text : String}
    (hsource : tree.source = .ofText text) (h : tree.root.Arranged text) :
    (ofTree settings file tree).InOrder where
  upright := by
    intro entity hentity
    rcases List.mem_map.1 hentity with ⟨entry, hentry, rfl⟩
    exact SourceRange.upright_between (Declaration.startPoint_le_endPoint hsource h
      (mem_declarations_of_mem_declared hentry))
  spans := by
    intro entry hentry
    have hmem := mem_declarations_of_mem_declared hentry
    refine ⟨entityOf settings tree.source entry, List.mem_map_of_mem hentry, ?_, ?_⟩
    · have href := ref_of_mem_declared hentry
      have hfile : entry.1.file = tree.path := by rw [href]
      simp only [entityOf, Entity.ref, hfile]
      exact href.symm
    · intro resolver edge hedge
      rcases List.mem_map.1 hedge with ⟨site, hsite, rfl⟩
      rcases Declaration.site_within hsource h hmem hsite with ⟨hstart, hstop⟩
      exact ⟨Point.notAfter hstart, Point.notAfter hstop⟩
  calls := by
    intro entry hentry resolver
    have hmem := mem_declarations_of_mem_declared hentry
    exact List.pairwise_map.2 ((Declaration.sites_pairwise hsource h hmem).imp Point.notAfter)
  references := SourceTree.references_pairwise h

theorem ofFailure_inOrder (file : InputFile) (failure : ParseFailure) :
    (ofFailure file failure).InOrder where
  upright := by simp [ofFailure]
  spans := by simp [ofFailure]
  calls := by simp [ofFailure]
  references := List.Pairwise.nil

/-- What is found in a file with an arranged tree is in order. -/
theorem analyze_inOrder (settings : Settings) {grammars : Grammars} {file : InputFile}
    (h : ∀ root, grammars.tree? file = some root → root.Arranged file.content) :
    (analyze settings grammars file).InOrder := by
  rw [analyze_eq]
  cases htree : grammars.tree? file with
  | none => exact ofFailure_inOrder file _
  | some root =>
      dsimp only [ofRoot]
      split
      · exact ofFailure_inOrder file _
      · exact ofTree_inOrder settings file rfl (h root htree)

end FileAnalysis

/-! ## All files -/

namespace Analysis

variable {files : List FileAnalysis}

/-- A call is listed among those of a declaration, which makes it. -/
theorem exists_entry_of_mem {resolver : Call.Resolver} {edge : Call.Edge}
    (h : edge ∈ files.flatMap (·.callEdges resolver)) :
    ∃ file ∈ files, ∃ entry ∈ file.declarations,
      edge ∈ Call.edgesOf file.source resolver entry.1 entry.2 := by
  rcases List.mem_flatMap.1 h with ⟨file, hfile, hedge⟩
  rcases List.mem_flatMap.1 hedge with ⟨entry, hentry, hedge⟩
  exact ⟨file, hfile, entry, hentry, hedge⟩

theorem caller_of_mem_edgesOf {source : Tree.Source} {resolver : Call.Resolver} {ref : EntityRef}
    {declaration : Declaration} {edge : Call.Edge}
    (h : edge ∈ Call.edgesOf source resolver ref declaration) :
    edge.caller = ref ∧ edge.location.file = ref.file := by
  rcases List.mem_map.1 h with ⟨site, -, rfl⟩
  exact ⟨rfl, rfl⟩

/-- The calls of one caller come in the order of the text. -/
theorem calls_pairwise (resolver : Call.Resolver) (hsound : ∀ file ∈ files, file.Sound)
    (hpaths : (pathsOf files).Nodup) (horder : ∀ file ∈ files, file.InOrder) :
    (files.flatMap (·.callEdges resolver)).Pairwise fun a b =>
      a.caller = b.caller → NotAfter a.location.place b.location.place := by
  rw [List.pairwise_flatMap]
  constructor
  · intro file hfile
    have hrefs : file.declarations.Pairwise fun a b => a.1 ≠ b.1 :=
      List.pairwise_map.1 (hsound file hfile).refs_nodup
    rw [FileAnalysis.callEdges, List.pairwise_flatMap]
    constructor
    · intro entry hentry
      refine ((horder file hfile).calls entry hentry resolver).imp ?_
      exact fun hplaces _ => hplaces
    · -- two declarations of a file are known by different references
      refine hrefs.imp ?_
      intro a b hne first hfirst second hsecond hcaller
      rw [(caller_of_mem_edgesOf hfirst).1, (caller_of_mem_edgesOf hsecond).1] at hcaller
      exact absurd hcaller hne
  · -- and those of two files by references into different files
    have hfiles : files.Pairwise fun a b => a.file.path ≠ b.file.path := List.pairwise_map.1 hpaths
    refine hfiles.imp_of_mem ?_
    intro a b ha hb hne first hfirst second hsecond hcaller
    rcases List.mem_flatMap.1 hfirst with ⟨entry, hentry, hfirst⟩
    rcases List.mem_flatMap.1 hsecond with ⟨other, hother, hsecond⟩
    rw [(caller_of_mem_edgesOf hfirst).1, (caller_of_mem_edgesOf hsecond).1] at hcaller
    apply absurd _ hne
    rw [← (hsound a ha).ref_file entry hentry, ← (hsound b hb).ref_file other hother, hcaller]

section Links

variable {settings : Settings} {snapshot : Snapshot}

/-- A call is located in its caller. -/
theorem Links.call_spans (hlinks : Links settings files snapshot)
    (hsound : ∀ file ∈ files, file.Sound) (hpaths : (pathsOf files).Nodup)
    (horder : ∀ file ∈ files, file.InOrder) {edge : Call.Edge}
    (hedge : edge ∈ snapshot.calls.edges) :
    edge.location.file = edge.caller.file ∧
      ∃ entity, snapshot.resolve? edge.caller = some entity ∧
        entity.file = edge.location.file ∧ entity.range.Spans edge.location := by
  rw [hlinks.calls_eq] at hedge
  rcases exists_entry_of_mem hedge with ⟨file, hfile, entry, hentry, hedge⟩
  rcases caller_of_mem_edgesOf hedge with ⟨hcaller, hlocated⟩
  rcases (horder file hfile).spans entry hentry with ⟨entity, hentity, href, hspans⟩
  have hmem : entity ∈ snapshot.entities := by
    rw [hlinks.entities_eq]
    exact List.mem_flatMap.2 ⟨file, hfile, hentity⟩
  have hown : entity.file = entry.1.file := congrArg EntityRef.file href
  rw [hcaller, hlocated]
  refine ⟨rfl, entity, ?_, hown, hspans _ edge hedge⟩
  rw [← href]
  exact Snapshot.resolve?_ref (hlinks.coherent hsound hpaths).refs_nodup hmem

/-- The calls that a snapshot lists for a caller come in the order of the text. -/
theorem Links.calls_of_caller_pairwise (hlinks : Links settings files snapshot)
    (hsound : ∀ file ∈ files, file.Sound) (hpaths : (pathsOf files).Nodup)
    (horder : ∀ file ∈ files, file.InOrder) (caller : EntityRef) :
    (snapshot.calls.edges.filter (·.caller == caller)).Pairwise fun a b =>
      NotAfter a.location.place b.location.place := by
  have hcalls := calls_pairwise (resolverOf files) hsound hpaths horder
  rw [← hlinks.calls_eq] at hcalls
  refine (hcalls.sublist List.filter_sublist).imp_of_mem ?_
  intro a b ha hb hordered
  apply hordered
  rw [beq_iff_eq.1 (List.mem_filter.1 ha).2, beq_iff_eq.1 (List.mem_filter.1 hb).2]

end Links
end Analysis

/-- The places in an analysis are in order, if the trees of its files are arranged.

Every call is located in the file of its caller, between the start and the end of the entity that
the caller stands for.  The calls of each caller come in the order of the text, and the references
of each file in the order of their lines.  No entity ends before it starts, and each takes at least
one line. -/
theorem calls_lie_in_callers_in_order (settings : Settings) (grammars : Grammars) {request : Value}
    {files : List InputFile} (haccepted : InputFile.validate request = .ok files)
    (harranged : ∀ file ∈ files, ∀ root, grammars.tree? file = some root →
      root.Arranged file.content) :
    ∃ analysis, analyze settings grammars request = .ok analysis ∧
      (∀ edge ∈ analysis.snapshot.calls.edges, edge.location.file = edge.caller.file ∧
        ∃ entity, analysis.snapshot.resolve? edge.caller = some entity ∧
          entity.file = edge.location.file ∧ entity.range.Spans edge.location) ∧
      (∀ caller, (analysis.snapshot.calls.edges.filter (·.caller == caller)).Pairwise fun a b =>
        NotAfter a.location.place b.location.place) ∧
      (∀ file ∈ analysis.snapshot.files, file.references.Pairwise fun a b => a.line ≤ b.line) ∧
      ∀ entity ∈ analysis.snapshot.entities, entity.range.Upright := by
  have hsound := FileAnalysis.sound_of_mem settings grammars files
  have hlists := (InputFile.validate_eq_ok_iff _ _).1 haccepted
  have hpaths : (Analysis.pathsOf (files.map (FileAnalysis.analyze settings grammars))).Nodup := by
    simpa [Analysis.pathsOf, Function.comp_def] using hlists.paths_nodup
  have horder : ∀ file ∈ files.map (FileAnalysis.analyze settings grammars), file.InOrder := by
    rw [List.forall_mem_map]
    exact fun file hfile => FileAnalysis.analyze_inOrder settings (harranged file hfile)
  rcases exists_links_of_accepted settings grammars haccepted with
    ⟨analysis, hanalysis, -, hlinks⟩
  refine ⟨analysis, hanalysis, fun edge => hlinks.call_spans hsound hpaths horder,
    hlinks.calls_of_caller_pairwise hsound hpaths horder, ?_, ?_⟩
  · intro file hfile
    rw [hlinks.files_eq] at hfile
    rcases List.mem_map.1 hfile with ⟨analysed, hanalysed, rfl⟩
    exact (horder analysed hanalysed).references
  · intro entity hentity
    rw [hlinks.entities_eq] at hentity
    rcases List.mem_flatMap.1 hentity with ⟨file, hfile, hentity⟩
    exact (horder file hfile).upright entity hentity

/-- A grammar that reads every text as a function, named by its first two bytes, that makes two
calls in its last three. -/
def twoCallGrammars : Grammars where
  grammar? _ := some fun text =>
    (Tree.Node.ofRows? [.plain 0 "program" 0 6 none, .plain 1 "function_declaration" 0 6 none,
      .plain 2 "identifier" 0 2 (some "name"), .plain 2 "statement_block" 3 6 (some "body"),
      .plain 3 "call_expression" 3 4 none, .plain 4 "identifier" 3 4 (some "function"),
      .plain 3 "call_expression" 5 6 none, .plain 4 "identifier" 5 6 (some "function")]).getD
        (Grammars.unreadable text)

/-- Two calls on the second line of a function whose name is a character of two bytes. -/
theorem calls_lie_in_callers_in_order_two_calls :
    let file : InputFile := ⟨"a.ts", "é\nf g"⟩
    InputFile.validate (.list [fileItem "a.ts" "é\nf g"]) = .ok [file] ∧
      (∀ root, twoCallGrammars.tree? file = some root → root.Arranged file.content) ∧
      ∃ analysis,
        analyze .default twoCallGrammars (.list [fileItem "a.ts" "é\nf g"]) = .ok analysis ∧
          analysis.snapshot.calls.edges.map (fun edge => (edge.raw, edge.location.place)) =
            [("f", (2, 0)), ("g", (2, 2))] ∧
          ∀ edge ∈ analysis.snapshot.calls.edges,
            ∃ entity, analysis.snapshot.resolve? edge.caller = some entity ∧
              entity.range.Spans edge.location := by
  intro file
  have haccepted : InputFile.validate (.list [fileItem "a.ts" "é\nf g"]) = .ok [file] := rfl
  have harranged (root : Tree.Node) (hroot : twoCallGrammars.tree? file = some root) :
      root.Arranged file.content := by
    rw [← Option.some.inj hroot]
    decide +kernel
  rcases calls_lie_in_callers_in_order .default twoCallGrammars haccepted
    (by simpa using harranged) with ⟨analysis, hanalysis, hcalls, -⟩
  rcases exists_links_of_accepted .default twoCallGrammars haccepted with
    ⟨same, hsame, -, hlinks⟩
  cases hanalysis.symm.trans hsame
  refine ⟨haccepted, harranged, analysis, hanalysis, ?_, ?_⟩
  · rw [hlinks.calls_eq]
    decide +kernel
  · intro edge hedge
    rcases (hcalls edge hedge).2 with ⟨entity, hentity, -, hspans⟩
    exact ⟨entity, hentity, hspans⟩

end CodeAtlas
