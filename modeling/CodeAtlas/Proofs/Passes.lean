import CodeAtlas.Proofs.Integrity
import CodeAtlas.Proofs.Neighbours

/-!
# Passes over edges and files

The lists of neighbours can be filled in one pass over the edges, and the parts of a snapshot in one
pass over the files.  Each pass keeps tables and lists, to which an edge or a file adds what it
brings.  Here both passes are given as folds.  What they gather is what the graph and the analysis
select from all edges and all files.

Main results:

- Theorem {lit}`Dependency.getD_lookup_foldl_fill`: what a table holds after a pass over the edges.
- Theorem {lit}`Dependency.Graph.tables_spec`: the tables of a graph hold its answers.
- Theorem {lit}`Gathered.foldl_read`: what is gathered from the files.
- Theorem {lit}`analyzeFiles_eq_pass`: an analysis links what one pass over the files gathers.
-/

namespace CodeAtlas

/-! ## One pass over the edges -/

namespace Dependency

/-- Notes a name in the list of a file, unless it is there. -/
def note (file name : String) (table : List (String × List String)) : List (String × List String) :=
  let names := (table.lookup file).getD []
  putEntry file (if name ∈ names then names else names ++ [name]) table

/-- The tables that a pass over the edges fills. -/
structure Tables where
  adjacency : List (String × List String)
  dependents : List (String × List String)
  dependencies : List (String × List String)

/-- Notes an edge in the tables. -/
def Tables.add (tables : Tables) (edge : Edge) : Tables where
  adjacency :=
    if edge.external then tables.adjacency else note edge.source edge.target tables.adjacency
  dependents := note edge.target edge.source tables.dependents
  dependencies := note edge.source edge.target tables.dependencies

/-- The tables of a graph. -/
def Graph.tables (graph : Graph) : Tables :=
  graph.edges.foldl Tables.add ⟨graph.nodes.eraseDups.map fun node => (node, []), [], []⟩

/-- Notes in a table the name at one end of an edge that passes a test, under that at the other. -/
def fill (picks : Edge → Bool) (key name : Edge → String) (table : List (String × List String))
    (edge : Edge) : List (String × List String) :=
  if picks edge then note (key edge) (name edge) table else table

/-- The three tables are filled independently of each other. -/
theorem Tables.foldl_add (edges : List Edge) (tables : Tables) :
    edges.foldl add tables =
      ⟨edges.foldl (fill (!·.external) Edge.source Edge.target) tables.adjacency,
        edges.foldl (fill (fun _ => true) Edge.target Edge.source) tables.dependents,
        edges.foldl (fill (fun _ => true) Edge.source Edge.target) tables.dependencies⟩ := by
  induction edges generalizing tables with
  | nil => rfl
  | cons edge edges ih =>
      have hadjacency : (tables.add edge).adjacency =
          fill (!·.external) Edge.source Edge.target tables.adjacency edge := by
        by_cases hexternal : edge.external = true <;> simp [add, fill, hexternal]
      rw [List.foldl_cons, ih, hadjacency]
      rfl

section Fill

variable (picks : Edge → Bool) (key name : Edge → String)

/-- What a name that is noted for a file does to the lists of the files. -/
theorem lookup_note (file name other : String) (table : List (String × List String)) :
    (note file name table).lookup other =
      if other = file then
        some (if name ∈ (table.lookup file).getD [] then (table.lookup file).getD []
          else (table.lookup file).getD [] ++ [name])
      else table.lookup other := by
  simp [note]

/-- A file has a list after a pass if it had one before or an edge is noted for it. -/
theorem isSome_lookup_foldl_fill (edges : List Edge) (table : List (String × List String))
    (file : String) :
    ((edges.foldl (fill picks key name) table).lookup file).isSome =
      ((table.lookup file).isSome || edges.any fun edge => picks edge && key edge == file) := by
  induction edges generalizing table with
  | nil => simp
  | cons edge edges ih =>
      rw [List.foldl_cons, ih, List.any_cons, ← Bool.or_assoc]
      congr 1
      unfold fill
      by_cases hpicks : picks edge = true
      · by_cases hkey : file = key edge
        · simp [hpicks, lookup_note, hkey]
        · simp [hpicks, lookup_note, hkey, Ne.symm hkey]
      · simp [hpicks]

/-- A list that is empty before a pass holds after it what the edges that are noted for the file
mention. -/
theorem getD_lookup_foldl_fill {table : List (String × List String)} {file : String}
    (hempty : (table.lookup file).getD [] = []) (edges : List Edge) :
    ((edges.foldl (fill picks key name) table).lookup file).getD [] =
      mentions (fun edge => picks edge && key edge == file) name edges := by
  induction edges using List.reverseRecOn with
  | nil => exact hempty
  | append_singleton edges edge ih =>
      rw [List.foldl_append, List.foldl_cons, List.foldl_nil, fill, mentions_append]
      by_cases hpicks : picks edge = true
      · rw [if_pos hpicks, lookup_note]
        by_cases hkey : file = key edge
        · rw [if_pos hkey, Option.getD_some, ← hkey, ih]
          simp only [hpicks, hkey, beq_self_eq_true, Bool.and_self, true_and, ite_not]
        · rw [if_neg hkey, ih, if_neg]
          simp [Ne.symm hkey]
      · rw [if_neg hpicks, ih, if_neg]
        simp [hpicks]

end Fill

namespace Graph

variable (graph : Graph) (file : String)

theorem getD_lookup_dependents :
    (graph.tables.dependents.lookup file).getD [] =
      mentions (·.target == file) Edge.source graph.edges := by
  rw [tables, Tables.foldl_add, getD_lookup_foldl_fill _ _ _ rfl]
  rfl

theorem getD_lookup_dependencies :
    (graph.tables.dependencies.lookup file).getD [] =
      mentions (·.source == file) Edge.target graph.edges := by
  rw [tables, Tables.foldl_add, getD_lookup_foldl_fill _ _ _ rfl]
  rfl

/-- The pass gives every node its adjacent files, and no list to any other file. -/
theorem lookup_tables_adjacency :
    graph.tables.adjacency.lookup file = graph.adjacency.entries.lookup file := by
  have hbefore : (graph.nodes.eraseDups.map fun node => (node, ([] : List String))).lookup file =
      if file ∈ graph.nodes then some [] else none := by
    rw [lookup_map_node graph.nodes.eraseDups fun _ => []]
    simp only [List.mem_eraseDups]
  have hlist := getD_lookup_foldl_fill (!·.external) Edge.source Edge.target
    (show ((graph.nodes.eraseDups.map fun node => (node, [])).lookup file).getD [] = [] by
      rw [hbefore]
      split <;> rfl) graph.edges
  have hsome := isSome_lookup_foldl_fill (!·.external) Edge.source Edge.target graph.edges
    (graph.nodes.eraseDups.map fun node => (node, [])) file
  have htargets : mentions (fun edge => !edge.external && edge.source == file) Edge.target
      graph.edges = graph.targets file := by
    simp only [Bool.and_comm (!_)]
    rfl
  rw [tables, Tables.foldl_add, adjacency, lookup_map_node]
  simp only [List.mem_eraseDups]
  rw [hbefore] at hsome
  by_cases hnode : file ∈ graph.nodes
  · rw [if_pos hnode, Option.isSome_some, Bool.true_or, Option.isSome_iff_exists] at hsome
    rcases hsome with ⟨names, hnames⟩
    rw [hnames, Option.getD_some, htargets] at hlist
    rw [if_pos hnode, hnames, hlist]
  · -- an edge from the file would make it a node
    have hnone : (graph.edges.any fun edge => !edge.external && edge.source == file) = false := by
      rw [List.any_eq_false]
      intro edge hedge hpicks
      simp only [Bool.and_eq_true, beq_iff_eq] at hpicks
      exact hnode (hpicks.2 ▸ graph.source_mem edge hedge)
    rw [if_neg hnode, Option.isSome_none, hnone, Bool.or_false, Option.isSome_eq_false_iff,
      Option.isNone_iff_eq_none] at hsome
    rw [if_neg hnode, hsome]

/-- One pass over the edges fills the tables that questions about neighbours are answered from: the
dependents and the dependencies of a file are the lists under it, a file is known if it is a key of
the adjacency or of the dependents, and the adjacency is that of the graph. -/
theorem tables_spec :
    graph.adjacency.entries.lookup file = graph.tables.adjacency.lookup file ∧
    graph.isKnown file =
      ((graph.tables.adjacency.lookup file).isSome ||
        (graph.tables.dependents.lookup file).isSome) ∧
    graph.dependents file =
      (match graph.unknown? file with
      | some failure => .error failure
      | none => .ok ((graph.tables.dependents.lookup file).getD [])) ∧
    graph.dependencies file =
      (match graph.unknown? file with
      | some failure => .error failure
      | none => .ok ((graph.tables.dependencies.lookup file).getD [])) := by
  refine ⟨(graph.lookup_tables_adjacency file).symm, ?_, ?_, ?_⟩
  · have hdependents : (graph.tables.dependents.lookup file).isSome =
        graph.edges.any (·.target == file) := by
      rw [tables, Tables.foldl_add, isSome_lookup_foldl_fill]
      simp
    rw [hdependents, lookup_tables_adjacency, adjacency, lookup_map_node, isKnown]
    by_cases hnode : file ∈ graph.nodes <;> simp [hnode]
  · rw [getD_lookup_dependents]
    rfl
  · rw [getD_lookup_dependencies]
    rfl

end Graph
end Dependency

/-! ## One pass over the files -/

/-- What has been gathered from the files that have been read: the parts of the snapshot, the
declarations whose calls are to be linked, and what is reported. -/
structure Gathered where
  sources : List SourceFile
  entities : List Entity
  results : List FileResult
  fileIssues : List Issue
  linked : List (Tree.Source × EntityRef × Declaration)
  references : List (String × List Reference)
  warnings : List Warning

namespace Gathered

/-- Before the first file. -/
def empty : Gathered := ⟨[], [], [], [], [], [], []⟩

/-- Adds a file that could not be read. -/
def refuse (gathered : Gathered) (file : InputFile) (failure : ParseFailure) : Gathered :=
  { gathered with
    results := gathered.results ++
      [{ path := file.path, entities := [], issues := [failure.issue], references := []
         parseError := some failure.reason }]
    fileIssues := gathered.fileIssues ++ [failure.issue]
    references := putEntry file.path [] gathered.references
    sources := gathered.sources ++
      [{ path := file.path, text := file.content, language := Language.ofPath file.path
         entities := [], references := [], parseError := some failure.reason }]
    warnings := gathered.warnings ++ [.unreadable file.path failure.reason] }

/-- Adds a file that could be read. -/
def accept (settings : Settings) (gathered : Gathered) (file : InputFile) (tree : SourceTree) :
    Gathered :=
  let declarations := FileAnalysis.declared tree
  let entities := declarations.map (FileAnalysis.entityOf settings tree.source)
  { gathered with
    entities := gathered.entities ++ entities
    linked := gathered.linked ++ declarations.map fun entry => (tree.source, entry)
    results := gathered.results ++
      [{ path := file.path, entities, issues := entities.flatMap Entity.issues
         references := tree.references, parseError := none }]
    references := putEntry file.path tree.references gathered.references
    sources := gathered.sources ++
      [{ path := file.path, text := file.content, language := Language.ofPath file.path
         entities := entities.map Entity.ref, references := tree.references
         parseError := none }] }

/-- Reads the next file. -/
def read (settings : Settings) (grammars : Grammars) (gathered : Gathered) (file : InputFile) :
    Gathered :=
  if grammars.supports file.path then
    match grammars.parse settings.tolerantParsing file.path file.content with
    | .ok tree => gathered.accept settings file tree
    | .error failure => gathered.refuse file failure
  else gathered.refuse file (FileAnalysis.unsupported file.path)

/-- Links what has been gathered from files with the given paths. -/
def link (settings : Settings) (paths : List String) (gathered : Gathered) :
    Except Failure Analysis := do
  let resolver : Call.Resolver := ⟨gathered.entities.map fun entity => (entity.ref, entity.kind)⟩
  let calls ← Call.Graph.build
    (gathered.linked.flatMap fun entry => Call.edgesOf entry.1 resolver entry.2.1 entry.2.2)
    (gathered.entities.map Entity.ref)
  let specifiers := Dependency.Specifiers.ofFiles paths settings.pathAliases
  let dependencies ← Dependency.Graph.build paths
    (Dependency.edgesOf specifiers gathered.references) settings.maxCycles
  let snapshot ←
    Snapshot.build gathered.sources gathered.entities calls dependencies gathered.fileIssues
  return { snapshot, perFile := gathered.results, warnings := gathered.warnings }

/-- What files that have been read contribute. -/
def ofFiles (files : List FileAnalysis) : Gathered where
  sources := files.map (·.sourceFile)
  entities := files.flatMap (·.result.entities)
  results := files.map (·.result)
  fileIssues := files.flatMap (·.fileIssues)
  linked := files.flatMap fun file => file.declarations.map fun entry => (file.source, entry)
  references := files.map fun file => (file.file.path, file.result.references)
  warnings := files.flatMap (·.warnings)

variable (settings : Settings) (grammars : Grammars)

/-- A file with a new path contributes what an analysis of the file by itself finds. -/
theorem read_ofFiles {files : List FileAnalysis} {file : InputFile}
    (hnew : file.path ∉ files.map (·.file.path)) :
    (ofFiles files).read settings grammars file =
      ofFiles (files ++ [FileAnalysis.analyze settings grammars file]) := by
  have hput (references : List Reference) :
      putEntry file.path references (ofFiles files).references =
        (ofFiles files).references ++ [(file.path, references)] := by
    apply Snapshot.putEntry_new
    simpa [ofFiles] using hnew
  have hrefuse (failure : ParseFailure) : (ofFiles files).refuse file failure =
      ofFiles (files ++ [FileAnalysis.ofFailure file failure]) := by
    rw [refuse, hput]
    simp [ofFiles, FileAnalysis.ofFailure, FileAnalysis.sourceFile, FileAnalysis.fileIssues,
      FileAnalysis.warnings]
  have haccept (tree : SourceTree) : (ofFiles files).accept settings file tree =
      ofFiles (files ++ [FileAnalysis.ofTree settings file tree]) := by
    rw [accept, hput]
    simp [ofFiles, FileAnalysis.ofTree, FileAnalysis.sourceFile, FileAnalysis.fileIssues,
      FileAnalysis.warnings]
  rw [read, FileAnalysis.analyze]
  split
  · cases grammars.parse settings.tolerantParsing file.path file.content with
    | ok tree => exact haccept tree
    | error failure => exact hrefuse failure
  · exact hrefuse _

/-- Files with distinct paths contribute what an analysis of each of them finds. -/
theorem foldl_read {files : List InputFile} (hpaths : (files.map InputFile.path).Nodup) :
    files.foldl (read settings grammars) empty =
      ofFiles (files.map (FileAnalysis.analyze settings grammars)) := by
  induction files using List.reverseRecOn with
  | nil => rfl
  | append_singleton files file ih =>
      rw [List.map_append, List.nodup_append] at hpaths
      have hnew : file.path ∉
          (files.map (FileAnalysis.analyze settings grammars)).map (·.file.path) := by
        intro hmem
        refine hpaths.2.2 file.path ?_ file.path List.mem_cons_self rfl
        simpa [Function.comp_def] using hmem
      rw [List.foldl_append, ih hpaths.1, List.foldl_cons, List.foldl_nil,
        read_ofFiles settings grammars hnew, List.map_append, List.map_cons, List.map_nil]

/-- Linking what files contribute is linking the files. -/
theorem link_ofFiles (files : List FileAnalysis) :
    (ofFiles files).link settings (files.map (·.file.path)) = Analysis.link settings files := by
  simp only [link, ofFiles, Analysis.link, List.flatMap_assoc, List.flatMap_map]
  rfl

end Gathered

/-- Files with distinct paths are analysed by one pass, which reads them in order and gathers what
they contribute, and by linking what has been gathered. -/
theorem analyzeFiles_eq_pass (settings : Settings) (grammars : Grammars) {files : List InputFile}
    (hpaths : (files.map InputFile.path).Nodup) :
    analyzeFiles settings grammars files =
      (files.foldl (Gathered.read settings grammars) Gathered.empty).link settings
        (files.map InputFile.path) := by
  have hfiles : files.map InputFile.path =
      (files.map (FileAnalysis.analyze settings grammars)).map (·.file.path) := by
    simp [Function.comp_def]
  rw [analyzeFiles, Gathered.foldl_read settings grammars hpaths, hfiles, Gathered.link_ofFiles]

/-- The files of an accepted request are analysed by one pass. -/
theorem analyze_eq_pass (settings : Settings) (grammars : Grammars) {request : Value}
    {files : List InputFile} (h : InputFile.validate request = .ok files) :
    analyze settings grammars request =
      (files.foldl (Gathered.read settings grammars) Gathered.empty).link settings
        (files.map InputFile.path) := by
  have hlists := (InputFile.validate_eq_ok_iff request files).1 h
  rw [analyze, h, ← analyzeFiles_eq_pass settings grammars hlists.paths_nodup]

end CodeAtlas
