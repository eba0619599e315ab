import CodeAtlas.Proofs.Integrity
import CodeAtlas.Tree.Rows
import Mathlib.Data.List.Perm.Basic

/-!
# The order of the files

Several tables of an analysis go by order: the first entity of a name, the last file of a normal
form, the order of nodes in the search for cycles.  Where the normal forms of the paths are
distinct, each such choice is made inside one file or has a single candidate, so that files in
another order give the same results in another order.

Main results:

- Theorem {lit}`Call.Resolver.Agrees.resolve_eq`: calls lead to the same entities.
- Theorem {lit}`Dependency.Specifiers.resolve?_perm`: specifiers mean the same files.
- Theorem {lit}`Snapshot.Rearranges.summary_eq`: rearranged snapshots have the same summary.
- Theorem {lit}`analyze_perm`: an analysis does not depend on the order of the files.
-/

namespace CodeAtlas

/-! ## Calls -/

namespace Call
namespace Resolver

/-- Two resolvers know the same entities, and those of one file in the same order. -/
structure Agrees (resolver other : Resolver) : Prop where
  perm : resolver.entities.Perm other.entities
  file_eq : ∀ file, resolver.entities.filter (·.1.file == file) =
    other.entities.filter (·.1.file == file)

/-- A local look-up asks the entities of one file only. -/
theorem inFile?_eq (resolver : Resolver) (file name : String) :
    resolver.inFile? file name =
      ((resolver.entities.filter (·.1.file == file)).find? (·.1.name == name)).map (·.1) := by
  rw [inFile?, List.find?_filter]
  simp only [Bool.decide_and, Bool.decide_eq_true]

/-- Whether a name is a scope depends on the entities of one file only. -/
theorem isScope_eq (resolver : Resolver) (file name : String) :
    resolver.isScope file name =
      (resolver.entities.filter (·.1.file == file)).any fun entity =>
        entity.2.isCallable && entity.1.name == name := by
  rw [isScope, List.any_filter]
  congr 1
  funext entity
  cases entity.2.isCallable <;> simp

/-- What a call means in the caller's own file depends on the entities of that file only. -/
theorem localTarget?_congr {resolver other : Resolver} {caller : EntityRef}
    (h : resolver.entities.filter (·.1.file == caller.file) =
      other.entities.filter (·.1.file == caller.file))
    (className : Option String) (raw : String) :
    resolver.localTarget? caller className raw = other.localTarget? caller className raw := by
  have hfind : resolver.inFile? caller.file = other.inFile? caller.file := by
    funext name
    rw [inFile?_eq, inFile?_eq, h]
  have hscope : resolver.isScope caller.file = other.isScope caller.file := by
    funext name
    rw [isScope_eq, isScope_eq, h]
  simp only [localTarget?, localNames, hfind, hscope]

namespace Agrees

variable {resolver other : Resolver}

/-- An entity is the only one of its name for both resolvers or for neither. -/
theorem named_eq_singleton_iff (h : resolver.Agrees other) (name : String) (ref : EntityRef) :
    resolver.named name = [ref] ↔ other.named name = [ref] := by
  have hperm : (resolver.named name).Perm (other.named name) := (h.perm.filter _).map _
  constructor
  · intro heq
    exact (heq ▸ hperm).singleton_eq.symm
  · intro heq
    exact (heq ▸ hperm).eq_singleton

/-- A call leads to the same entity for both resolvers. -/
theorem resolve_eq (h : resolver.Agrees other) (caller : EntityRef) (className : Option String)
    (raw : String) :
    resolver.resolve caller className raw = other.resolve caller className raw := by
  unfold resolve
  rw [localTarget?_congr (h.file_eq caller.file)]
  split
  · rfl
  · split
    next ref href => rw [(h.named_eq_singleton_iff raw ref).1 href]
    next hnone =>
      split
      next ref href => exact absurd ((h.named_eq_singleton_iff raw ref).2 href) (hnone ref)
      · rfl

end Agrees
end Resolver
end Call

/-! ## Specifiers -/

namespace Dependency
namespace Specifiers

variable {paths paths' : List String} (aliases : List (String × String))

/-- A normal form leads to a file exactly if some file has it. -/
theorem file?_isSome_iff (normal : String) :
    ((ofFiles paths aliases).file? normal).isSome ↔
      ∃ path ∈ paths, Path.normalize path = normal := by
  rw [file?, List.lookup_isSome_iff]
  simp only [ofFiles, List.mem_reverse, List.mem_map, beq_iff_eq, exists_exists_and_eq_and]
  exact exists_congr fun path => and_congr_right fun _ => eq_comm

/-- With distinct normal forms, a normal form leads to the file that has it. -/
theorem file?_eq_some_iff (hnormal : (paths.map Path.normalize).Nodup) (normal path : String) :
    (ofFiles paths aliases).file? normal = some path ↔
      path ∈ paths ∧ Path.normalize path = normal := by
  constructor
  · exact file?_spec
  · rintro ⟨hpath, rfl⟩
    obtain ⟨found, hfound⟩ := Option.isSome_iff_exists.1
      ((file?_isSome_iff aliases (Path.normalize path)).2 ⟨path, hpath, rfl⟩)
    obtain ⟨hmem, heq⟩ := file?_spec hfound
    rw [hfound, List.inj_on_of_nodup_map hnormal hmem hpath heq]

/-- The order of files with distinct normal forms does not matter to specifiers. -/
theorem resolve?_perm (hperm : paths.Perm paths') (hnormal : (paths.map Path.normalize).Nodup)
    (importer specifier : String) :
    (ofFiles paths aliases).resolve? importer specifier =
      (ofFiles paths' aliases).resolve? importer specifier := by
  have hnormal' : (paths'.map Path.normalize).Nodup := (hperm.map _).nodup_iff.1 hnormal
  have hfile : (ofFiles paths aliases).file? = (ofFiles paths' aliases).file? := by
    funext normal
    ext path
    rw [file?_eq_some_iff aliases hnormal, file?_eq_some_iff aliases hnormal', hperm.mem_iff]
  simp only [resolve?, lookup?, hfile]
  rfl

end Specifiers

/-- Specifiers that mean the same files give the same edges. -/
theorem edgesOf_perm {specifiers specifiers' : Specifiers}
    {references references' : List (String × List Reference)}
    (hperm : references.Perm references')
    (hsame : ∀ importer specifier,
      specifiers.resolve? importer specifier = specifiers'.resolve? importer specifier) :
    (edgesOf specifiers references).Perm (edgesOf specifiers' references') := by
  have hedge : edgeOf specifiers = edgeOf specifiers' := by
    funext file reference
    rw [edgeOf, edgeOf, hsame]
  unfold edgesOf
  rw [hedge]
  exact hperm.flatMap_right _

end Dependency

/-! ## Snapshots -/

/-- The order of numbers does not matter to their average. -/
theorem average_perm {scores scores' : List Int} (h : scores.Perm scores') :
    average scores = average scores' := by
  have htotal : total scores = total scores' := h.foldr_eq' (fun _ _ _ _ _ => by omega) 0
  have hempty : scores.isEmpty = scores'.isEmpty := by
    rw [Bool.eq_iff_iff, List.isEmpty_iff_length_eq_zero, List.isEmpty_iff_length_eq_zero,
      h.length_eq]
  rw [average, average, htotal, h.length_eq, hempty]

namespace Snapshot

/-- A snapshot has the parts of another in any order, and in both no node comes twice. -/
structure Rearranges (snapshot other : Snapshot) : Prop where
  files : snapshot.files.Perm other.files
  entities : snapshot.entities.Perm other.entities
  calls : snapshot.calls.edges.Perm other.calls.edges
  dependencies : snapshot.dependencies.edges.Perm other.dependencies.edges
  fileIssues : snapshot.fileIssues.Perm other.fileIssues
  nodes_nodup : snapshot.dependencies.nodes.Nodup
  nodes_nodup' : other.dependencies.nodes.Nodup

namespace Rearranges

variable {snapshot other : Snapshot}

/-- The same cycles are found, up to rotation and order. -/
theorem rotations_perm (h : snapshot.Rearranges other) :
    (snapshot.dependencies.allCycles.map Cycle.ofList).Perm
      (other.dependencies.allCycles.map Cycle.ofList) :=
  Dependency.Graph.rotations_perm h.nodes_nodup h.nodes_nodup' h.dependencies

/-- Under the same limit, the same number of cycles is found. -/
theorem cycles_length_eq (h : snapshot.Rearranges other) {limit : Nat}
    (hlimit : snapshot.dependencies.maxCycles = limit)
    (hlimit' : other.dependencies.maxCycles = limit) :
    snapshot.dependencies.cycles.length = other.dependencies.cycles.length := by
  have hall : snapshot.dependencies.allCycles.length = other.dependencies.allCycles.length := by
    simpa using h.rotations_perm.length_eq
  rw [Dependency.Graph.cycles_eq _ hlimit, Dependency.Graph.cycles_eq _ hlimit']
  split
  · exact hall
  · rw [List.length_take, List.length_take, hall]

/-- Rearranged snapshots have the same summary. -/
theorem summary_eq (h : snapshot.Rearranges other) {limit : Nat}
    (hlimit : snapshot.dependencies.maxCycles = limit)
    (hlimit' : other.dependencies.maxCycles = limit) : snapshot.summary = other.summary := by
  have hissues : snapshot.issues.Perm other.issues :=
    h.fileIssues.append (h.entities.flatMap_right _)
  simp only [summary, Call.Graph.unresolvedCount, h.files.length_eq, h.entities.length_eq,
    h.entities.countP_eq, average_perm (h.entities.filterMap Entity.complexity),
    hissues.length_eq, hissues.countP_eq, h.dependencies.length_eq,
    h.cycles_length_eq hlimit hlimit', h.calls.length_eq, h.calls.countP_eq, h.files.countP_eq]

end Rearranges
end Snapshot

/-! ## Files -/

namespace Analysis

variable {files files' : List FileAnalysis}

/-- The entities of one path are those of the file with that path. -/
theorem filter_entitiesOf (hsound : ∀ file ∈ files, file.Sound) (path : String) :
    (entitiesOf files).filter (·.file == path) =
      (files.filter (·.file.path == path)).flatMap (·.result.entities) := by
  unfold entitiesOf
  induction files with
  | nil => rfl
  | cons file files ih =>
      have hown : ∀ entity ∈ file.result.entities, entity.file = file.file.path := by
        intro entity hentity
        have href : entity.ref ∈ file.declarations.map Prod.fst := by
          rw [← (hsound file (by simp)).refs_eq]
          exact List.mem_map.2 ⟨entity, hentity, rfl⟩
        obtain ⟨entry, hentry, heq⟩ := List.mem_map.1 href
        have hfile := (hsound file (by simp)).ref_file entry hentry
        rw [heq] at hfile
        exact hfile
      have hrest := ih fun other hother => hsound other (by simp [hother])
      rw [List.flatMap_cons, List.filter_append, hrest]
      by_cases hpath : file.file.path = path
      · have hall : file.result.entities.filter (·.file == path) = file.result.entities :=
          List.filter_eq_self.2 fun entity hentity => by simp [hown entity hentity, hpath]
        rw [hall, List.filter_cons_of_pos (by simpa using hpath), List.flatMap_cons]
      · have hnone : file.result.entities.filter (·.file == path) = [] :=
          List.filter_eq_nil_iff.2 fun entity hentity => by simp [hown entity hentity, hpath]
        rw [hnone, List.filter_cons_of_neg (by simpa using hpath), List.nil_append]

/-- Of files with distinct paths, at most one has a given path, wherever it stands. -/
theorem filter_path_perm (hperm : files.Perm files') (hpaths : (pathsOf files).Nodup)
    (path : String) :
    files.filter (·.file.path == path) = files'.filter (·.file.path == path) := by
  -- at most one file is left on each side, so that the order says nothing
  have hsingle (those : List FileAnalysis) (hnodup : (pathsOf those).Nodup) :
      (those.filter (·.file.path == path)).Pairwise fun _ _ => False := by
    have hpairwise : those.Pairwise fun a b => a.file.path ≠ b.file.path :=
      List.pairwise_map.1 hnodup
    refine List.Pairwise.imp_of_mem (fun ha hb hne => hne ?_) (hpairwise.filter _)
    have ha := (List.mem_filter.1 ha).2
    have hb := (List.mem_filter.1 hb).2
    exact (beq_iff_eq.1 ha).trans (beq_iff_eq.1 hb).symm
  have hpaths' : (pathsOf files').Nodup := (hperm.map _).nodup_iff.1 hpaths
  exact (hperm.filter _).eq_of_pairwise (fun _ _ _ _ h _ => h.elim) (hsingle files hpaths)
    (hsingle files' hpaths')

/-- Files in another order give resolvers that agree. -/
theorem resolverOf_agrees (hperm : files.Perm files') (hsound : ∀ file ∈ files, file.Sound)
    (hpaths : (pathsOf files).Nodup) : (resolverOf files).Agrees (resolverOf files') where
  perm := (hperm.flatMap_right _).map _
  file_eq := by
    intro path
    have hsound' : ∀ file ∈ files', file.Sound := fun file hfile =>
      hsound file (hperm.mem_iff.2 hfile)
    have hfilter (those : List FileAnalysis) :
        (resolverOf those).entities.filter (·.1.file == path) =
          ((entitiesOf those).filter (·.file == path)).map fun entity =>
            (entity.ref, entity.kind) := by
      rw [resolverOf, List.filter_map]
      rfl
    rw [hfilter, hfilter, filter_entitiesOf hsound, filter_entitiesOf hsound',
      filter_path_perm hperm hpaths]

/-- Files in another order, whose paths have distinct normal forms, are linked into a rearranged
snapshot. -/
theorem Links.rearranges {settings : Settings} {snapshot other : Snapshot}
    (hlinks : Links settings files snapshot) (hlinks' : Links settings files' other)
    (hperm : files.Perm files') (hsound : ∀ file ∈ files, file.Sound)
    (hnormal : ((pathsOf files).map Path.normalize).Nodup) : snapshot.Rearranges other := by
  have hpaths : (pathsOf files).Nodup := hnormal.of_map _
  have hpathsPerm : (pathsOf files).Perm (pathsOf files') := hperm.map _
  exact {
    files := by
      rw [hlinks.files_eq, hlinks'.files_eq]
      exact hperm.map _
    entities := by
      rw [hlinks.entities_eq, hlinks'.entities_eq]
      exact hperm.flatMap_right _
    calls := by
      have hcalls : FileAnalysis.callEdges (resolverOf files) =
          FileAnalysis.callEdges (resolverOf files') := by
        funext file
        simp only [FileAnalysis.callEdges, Call.edgesOf,
          (resolverOf_agrees hperm hsound hpaths).resolve_eq]
      rw [hlinks.calls_eq, hlinks'.calls_eq, hcalls]
      exact hperm.flatMap_right _
    dependencies := by
      rw [hlinks.edges_eq, hlinks'.edges_eq]
      exact Dependency.edgesOf_perm (hperm.map _)
        (Dependency.Specifiers.resolve?_perm settings.pathAliases hpathsPerm hnormal)
    fileIssues := by
      rw [hlinks.fileIssues_eq, hlinks'.fileIssues_eq]
      exact hperm.flatMap_right _
    nodes_nodup := hlinks.nodes_eq ▸ hpaths
    nodes_nodup' := hlinks'.nodes_eq ▸ hpathsPerm.nodup_iff.1 hpaths }

end Analysis

/-! ## Requests -/

/-- A request in another order lists the same files in another order. -/
theorem InputFile.Lists.perm {items items' : List Value} {files : List InputFile}
    (h : InputFile.Lists (.list items) files) (hperm : items.Perm items') :
    ∃ files', InputFile.Lists (.list items') files' ∧ files.Perm files' := by
  obtain ⟨_, heq, hdescribes, hnodup⟩ := h
  cases heq
  obtain ⟨files', hdescribes', hperm'⟩ := List.perm_comp_forall₂ hperm.symm hdescribes
  exact ⟨files', ⟨items', rfl, hdescribes', (hperm'.map _).nodup_iff.2 hnodup⟩, hperm'.symm⟩

/-- The files of a request whose paths have distinct normal forms can be given in any order: the
summary stays the same, calls and dependencies the same up to order, and, without a limit, the
circular dependencies the same up to rotation and order. -/
theorem analyze_perm (settings : Settings) (grammars : Grammars) {items items' : List Value}
    {files : List InputFile} (haccepted : InputFile.validate (.list items) = .ok files)
    (hnormal : (files.map fun file => Path.normalize file.path).Nodup)
    (hperm : items.Perm items') :
    ∃ first second, analyze settings grammars (.list items) = .ok first ∧
      analyze settings grammars (.list items') = .ok second ∧
      first.snapshot.summary = second.snapshot.summary ∧
      first.snapshot.calls.edges.Perm second.snapshot.calls.edges ∧
      first.snapshot.dependencies.edges.Perm second.snapshot.dependencies.edges ∧
      (settings.maxCycles = 0 →
        (first.snapshot.dependencies.cycles.map Cycle.ofList).Perm
          (second.snapshot.dependencies.cycles.map Cycle.ofList)) := by
  have hlists := (InputFile.validate_eq_ok_iff _ _).1 haccepted
  obtain ⟨files', hlists', hfiles⟩ := hlists.perm hperm
  have haccepted' := (InputFile.validate_eq_ok_iff _ _).2 hlists'
  obtain ⟨first, hfirst, hlinks, -⟩ := exists_analysis settings grammars hlists.paths_nodup
  obtain ⟨second, hsecond, hlinks', -⟩ := exists_analysis settings grammars hlists'.paths_nodup
  have hrearranges := hlinks.rearranges hlinks' (hfiles.map _)
    (FileAnalysis.sound_of_mem settings grammars files)
    (by simpa [Analysis.pathsOf, Function.comp_def] using hnormal)
  refine ⟨first, second, by rw [analyze, haccepted]; exact hfirst,
    by rw [analyze, haccepted']; exact hsecond,
    hrearranges.summary_eq hlinks.maxCycles_eq hlinks'.maxCycles_eq,
    hrearranges.calls, hrearranges.dependencies, ?_⟩
  intro hunlimited
  rw [Dependency.Graph.cycles_eq _ hlinks.maxCycles_eq,
    Dependency.Graph.cycles_eq _ hlinks'.maxCycles_eq, if_pos hunlimited, if_pos hunlimited]
  exact hrearranges.rotations_perm

/-- The item of a request for a file. -/
def fileItem (path content : String) : Value :=
  .table [("path", .text path), ("content", .text content)]

/-- A grammar that reads a text as one import, with the specifier from its eighth byte on. -/
def importGrammars : Grammars where
  grammar? _ := some fun text =>
    let row (depth : Nat) (type : String) (start : Nat) (field : Option String) : Tree.Row :=
      ⟨depth, type, true, false, false, false, start, text.utf8ByteSize, field⟩
    (Tree.Node.ofRows? [row 0 "program" 0 none, row 1 "import_statement" 0 none,
      row 2 "string" 7 (some "source")]).getD (Grammars.unreadable text)

/-- Two files that import each other, one of them with a path that is not in normal form, can be
swapped. -/
theorem analyze_perm_swapped :
    let item := fileItem "src/a.ts" "import './b'"
    let item' := fileItem "src/./b.ts" "import './a'"
    InputFile.validate (.list [item, item']) =
        .ok [⟨"src/a.ts", "import './b'"⟩, ⟨"src/./b.ts", "import './a'"⟩] ∧
      (["src/a.ts", "src/./b.ts"].map Path.normalize).Nodup ∧
      ∃ first second, analyze .default importGrammars (.list [item, item']) = .ok first ∧
        analyze .default importGrammars (.list [item', item]) = .ok second ∧
        first.snapshot.summary = second.snapshot.summary ∧
        (first.snapshot.dependencies.cycles.map Cycle.ofList).Perm
          (second.snapshot.dependencies.cycles.map Cycle.ofList) := by
  intro item item'
  have haccepted : InputFile.validate (.list [item, item']) =
      .ok [⟨"src/a.ts", "import './b'"⟩, ⟨"src/./b.ts", "import './a'"⟩] := rfl
  have hnormal : (["src/a.ts", "src/./b.ts"].map Path.normalize).Nodup := by decide
  obtain ⟨first, second, hfirst, hsecond, hsummary, -, -, hcycles⟩ :=
    analyze_perm .default importGrammars haccepted hnormal (.swap item' item [])
  exact ⟨haccepted, hnormal, first, second, hfirst, hsecond, hsummary, hcycles rfl⟩

end CodeAtlas
