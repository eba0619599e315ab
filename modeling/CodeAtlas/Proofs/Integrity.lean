import CodeAtlas.Analysis
import CodeAtlas.Proofs.CircularDependencies
import Mathlib.Data.List.Forall2

/-!
# The integrity of snapshots

The constructors of call graphs, dependency graphs and snapshots refuse parts that do not fit
together.  The parts that an analysis hands to them always fit, so that a request fails for one
reason only: it does not list files.

Main results:

- Theorem {lit}`InputFile.validate_eq_ok_iff`: the requests that are accepted, and their files.
- Theorem {lit}`FileAnalysis.analyze_sound`: what holds of a file by itself, whatever its tree.
- Theorem {lit}`Analysis.exists_links`: files with distinct paths are linked without a violation.
- Theorem {lit}`analyze_coherent_or_malformed`: an analysis is coherent unless the request is
  malformed.

Current gaps:

- Trees and the functions inside functions may be nested to any depth.  That the call stack of a
  machine ends somewhere, so that an analysis may run out of it, is left out.
-/

namespace CodeAtlas

/-- A sequence of computations succeeds when both do. -/
theorem bind_eq_ok_iff {ε α β : Type} (first : Except ε α) (next : α → Except ε β) (b : β) :
    (first >>= next) = .ok b ↔ ∃ a, first = .ok a ∧ next a = .ok b := by
  cases first with
  | error e => simp [Bind.bind, Except.bind]
  | ok a => simp [Bind.bind, Except.bind]

/-! ## Requests -/

namespace InputFile

/-- An item of a request describes a file: it is a table with the path, which is not blank, and the
content. -/
def Describes (item : Value) (file : InputFile) : Prop :=
  ∃ entries, item = .table entries ∧
    entries.lookup "path" = some (.text file.path) ∧
    (∃ c ∈ file.path.toList, Text.isBlankChar c = false) ∧
    entries.lookup "content" = some (.text file.content)

/-- A request lists files: its items describe them one by one, and no two have the same path. -/
def Lists (request : Value) (files : List InputFile) : Prop :=
  ∃ items, request = .list items ∧ List.Forall₂ Describes items files ∧
    (files.map InputFile.path).Nodup

theorem Lists.paths_nodup {request : Value} {files : List InputFile} (h : Lists request files) :
    (files.map InputFile.path).Nodup := by
  obtain ⟨-, -, -, hnodup⟩ := h
  exact hnodup

/-- A value has a text under a key when it is a table with an entry for it. -/
theorem text_under_iff (item : Value) (key text : String) :
    (item.get? key).bind Value.asText? = some text ↔
      ∃ entries, item = .table entries ∧ entries.lookup key = some (.text text) := by
  cases item with
  | table entries =>
      cases h : entries.lookup key with
      | none => simp [Value.get?, h]
      | some value => cases value <;> simp [Value.get?, Value.asText?, h]
  | _ => simp [Value.get?]

theorem isBlank_eq_false_iff (text : String) :
    Text.isBlank text = false ↔ ∃ c ∈ text.toList, Text.isBlankChar c = false := by
  simp [Text.isBlank]

/-- No path of a request is blank. -/
theorem Lists.path_not_blank {request : Value} {files : List InputFile} (h : Lists request files)
    {file : InputFile} (hfile : file ∈ files) : Text.isBlank file.path = false := by
  obtain ⟨items, -, hdescribes, -⟩ := h
  obtain ⟨i, hi, rfl⟩ := List.getElem_of_mem hfile
  obtain ⟨-, -, -, hchar, -⟩ := hdescribes.get (hdescribes.length_eq ▸ hi) hi
  exact (isBlank_eq_false_iff _).2 hchar

/-- An item is accepted as the file it describes. -/
theorem ofValue_eq_ok_iff (index : Nat) (item : Value) (file : InputFile) :
    ofValue index item = .ok file ↔ Describes item file := by
  constructor
  · intro h
    unfold ofValue at h
    split at h
    · cases h
    next path hpath =>
      split at h
      · cases h
      next hblank =>
        split at h
        · cases h
        next content hcontent =>
          cases h
          obtain ⟨entries, rfl, hlookup⟩ := (text_under_iff _ _ _).1 hpath
          obtain ⟨_, heq, hcontent⟩ := (text_under_iff _ _ _).1 hcontent
          cases heq
          have hchar := (isBlank_eq_false_iff path).1 (by simpa using hblank)
          exact ⟨entries, rfl, hlookup, hchar, hcontent⟩
  · rintro ⟨entries, rfl, hpath, hblank, hcontent⟩
    have hpath := (text_under_iff _ _ _).2 ⟨entries, rfl, hpath⟩
    have hcontent := (text_under_iff _ _ _).2 ⟨entries, rfl, hcontent⟩
    simp [ofValue, hpath, hcontent, (isBlank_eq_false_iff _).2 hblank]

/-- A first item is accepted as a file with a new path, and the others then with paths that are new
beside it. -/
theorem ofValuesFrom_cons_eq_ok_iff (index : Nat) (seen : List String) (item : Value)
    (items : List Value) (files : List InputFile) :
    ofValuesFrom index seen (item :: items) = .ok files ↔
      ∃ file rest, files = file :: rest ∧ ofValue index item = .ok file ∧
        file.path ∉ seen ∧ ofValuesFrom (index + 1) (file.path :: seen) items = .ok rest := by
  rw [ofValuesFrom, bind_eq_ok_iff]
  constructor
  · rintro ⟨file, hfile, h⟩
    split at h
    · cases h
    next hnew =>
      obtain ⟨rest, hrest, h⟩ := (bind_eq_ok_iff _ _ _).1 h
      cases h
      exact ⟨file, rest, rfl, hfile, by simpa using hnew, hrest⟩
  · rintro ⟨file, rest, rfl, hfile, hnew, hrest⟩
    refine ⟨file, hfile, ?_⟩
    rw [if_neg (by simpa using hnew), hrest]
    rfl

/-- Items are accepted as the files they describe, if those have distinct new paths. -/
theorem ofValuesFrom_eq_ok_iff (index : Nat) (seen : List String) (items : List Value)
    (files : List InputFile) :
    ofValuesFrom index seen items = .ok files ↔
      List.Forall₂ Describes items files ∧ (files.map InputFile.path).Nodup ∧
        ∀ file ∈ files, file.path ∉ seen := by
  induction items generalizing index seen files with
  | nil =>
      simp only [ofValuesFrom, Except.ok.injEq, List.forall₂_nil_left_iff]
      constructor
      · rintro rfl
        simp
      · rintro ⟨rfl, -, -⟩
        rfl
  | cons item items ih =>
      rw [ofValuesFrom_cons_eq_ok_iff]
      constructor
      · rintro ⟨file, rest, rfl, hfile, hnew, hrest⟩
        obtain ⟨hitems, hnodup, hothers⟩ := (ih _ _ _).1 hrest
        refine ⟨.cons ((ofValue_eq_ok_iff _ _ _).1 hfile) hitems, ?_, ?_⟩
        · rw [List.map_cons, List.nodup_cons]
          refine ⟨?_, hnodup⟩
          intro hmem
          obtain ⟨other, hother, heq⟩ := List.mem_map.1 hmem
          exact hothers other hother (by simp [heq])
        · intro other hother
          rcases List.mem_cons.1 hother with rfl | hother
          · exact hnew
          · exact fun hseen => hothers other hother (by simp [hseen])
      · rintro ⟨hdescribes, hnodup, hnew⟩
        obtain ⟨file, rest, hfile, hitems, rfl⟩ := List.forall₂_cons_left_iff.1 hdescribes
        rw [List.map_cons, List.nodup_cons] at hnodup
        refine ⟨file, rest, rfl, (ofValue_eq_ok_iff _ _ _).2 hfile, hnew file (by simp), ?_⟩
        refine (ih _ _ _).2 ⟨hitems, hnodup.2, ?_⟩
        intro other hother hseen
        rcases List.mem_cons.1 hseen with heq | hseen
        · exact hnodup.1 (List.mem_map.2 ⟨other, hother, heq⟩)
        · exact hnew other (by simp [hother]) hseen

/-- A request is accepted as the files it lists. -/
theorem validate_eq_ok_iff (request : Value) (files : List InputFile) :
    validate request = .ok files ↔ Lists request files := by
  cases request with
  | list items => simp [validate, Lists, ofValuesFrom_eq_ok_iff]
  | _ => simp [validate, Lists]

end InputFile

/-! ## One file -/

namespace FileAnalysis

/-- What holds of a file by itself: its entities are its declarations, known by distinct references
into the file. -/
structure Sound (analysis : FileAnalysis) : Prop where
  refs_eq : analysis.result.entities.map Entity.ref = analysis.declarations.map Prod.fst
  refs_nodup : (analysis.declarations.map Prod.fst).Nodup
  ref_file : ∀ entry ∈ analysis.declarations, entry.1.file = analysis.file.path

/-- The references that remain are distinct and new, and each stood there before. -/
theorem distinctRefs_spec (seen : List EntityRef) (entries : List (EntityRef × Declaration)) :
    ((distinctRefs seen entries).map Prod.fst).Nodup ∧
      ∀ entry ∈ distinctRefs seen entries, entry ∈ entries ∧ entry.1 ∉ seen := by
  induction entries generalizing seen with
  | nil => simp [distinctRefs]
  | cons entry entries ih =>
      unfold distinctRefs
      split
      · obtain ⟨hnodup, hmem⟩ := ih seen
        exact ⟨hnodup, fun other hother => ⟨by simp [(hmem other hother).1], (hmem other hother).2⟩⟩
      next hnew =>
        obtain ⟨hnodup, hmem⟩ := ih (entry.1 :: seen)
        refine ⟨?_, ?_⟩
        · rw [List.map_cons, List.nodup_cons]
          refine ⟨?_, hnodup⟩
          intro hagain
          obtain ⟨other, hother, heq⟩ := List.mem_map.1 hagain
          exact (hmem other hother).2 (by simp [heq])
        · intro other hother
          rcases List.mem_cons.1 hother with rfl | hother
          · exact ⟨by simp, by simpa using hnew⟩
          · obtain ⟨hold, hfresh⟩ := hmem other hother
            exact ⟨by simp [hold], fun hseen => hfresh (by simp [hseen])⟩

/-- A declaration of a tree is known by its file, its name and its line. -/
theorem ref_of_mem_declared {tree : SourceTree} {entry : EntityRef × Declaration}
    (h : entry ∈ declared tree) :
    entry.1 = ⟨tree.path, entry.2.name, (entry.2.range tree.source).startLine⟩ := by
  obtain ⟨declaration, -, rfl⟩ := List.mem_map.1 ((distinctRefs_spec _ _).2 entry h).1
  rfl

/-- A file is read under its own path. -/
theorem parse_path {grammars : Grammars} {tolerant : Bool} {path text : String} {tree : SourceTree}
    (h : grammars.parse tolerant path text = .ok tree) : tree.path = path := by
  simp only [Grammars.parse] at h
  split at h
  · cases h
  · split at h
    · cases h
    · cases h
      rfl

theorem ofTree_sound (settings : Settings) {file : InputFile} {tree : SourceTree}
    (h : tree.path = file.path) : (ofTree settings file tree).Sound where
  refs_eq := by
    change ((declared tree).map (entityOf settings tree.source)).map Entity.ref = _
    rw [List.map_map]
    refine List.map_congr_left fun entry hentry => ?_
    have href := ref_of_mem_declared hentry
    have hfile : entry.1.file = tree.path := by rw [href]
    simp only [Function.comp_apply, entityOf, Entity.ref, hfile]
    exact href.symm
  refs_nodup := (distinctRefs_spec _ _).1
  ref_file := by
    intro entry hentry
    rw [ref_of_mem_declared hentry]
    exact h

theorem ofFailure_sound (file : InputFile) (failure : ParseFailure) :
    (ofFailure file failure).Sound where
  refs_eq := rfl
  refs_nodup := .nil
  ref_file := by simp [ofFailure]

/-- Whatever the tree of a file, what is found in it is sound. -/
theorem analyze_sound (settings : Settings) (grammars : Grammars) (file : InputFile) :
    (analyze settings grammars file).Sound := by
  unfold analyze
  split
  · split
    next tree htree => exact ofTree_sound settings (parse_path htree)
    · exact ofFailure_sound file _
  · exact ofFailure_sound file _

theorem sound_of_mem (settings : Settings) (grammars : Grammars) (files : List InputFile) :
    ∀ file ∈ files.map (analyze settings grammars), file.Sound := by
  intro file hfile
  obtain ⟨input, -, rfl⟩ := List.mem_map.1 hfile
  exact analyze_sound settings grammars input

@[simp]
theorem analyze_file (settings : Settings) (grammars : Grammars) (file : InputFile) :
    (analyze settings grammars file).file = file := by
  unfold analyze
  split
  · split <;> rfl
  · rfl

end FileAnalysis

/-! ## Calls -/

namespace Call

/-- A local look-up finds an entity of the codebase. -/
theorem Resolver.inFile?_mem {resolver : Resolver} {file name : String} {ref : EntityRef}
    (h : resolver.inFile? file name = some ref) : ref ∈ resolver.entities.map Prod.fst := by
  obtain ⟨entity, hfind, rfl⟩ := Option.map_eq_some_iff.1 h
  exact List.mem_map.2 ⟨entity, List.mem_of_find?_eq_some hfind, rfl⟩

/-- A call leads to an entity of the codebase, or to none. -/
theorem Resolver.resolve_mem {resolver : Resolver} {caller : EntityRef} {className : Option String}
    {raw : String} {ref : EntityRef} (h : resolver.resolve caller className raw = .resolved ref) :
    ref ∈ resolver.entities.map Prod.fst := by
  unfold resolve at h
  split at h
  next entity hlocal =>
    cases h
    obtain ⟨name, -, hname⟩ := List.exists_of_findSome?_eq_some hlocal
    exact inFile?_mem hname
  · split at h
    next entity hnamed =>
      cases h
      have hmem : ref ∈ resolver.named raw := by simp [hnamed]
      obtain ⟨entry, hentry, rfl⟩ := List.mem_map.1 hmem
      exact List.mem_map.2 ⟨entry, (List.mem_filter.1 hentry).1, rfl⟩
    · cases h

/-- Edges between known entities make a call graph. -/
theorem Graph.build_ok {edges : List Edge} {known : List EntityRef}
    (hcaller : ∀ edge ∈ edges, edge.caller ∈ known)
    (hcallee : ∀ edge ∈ edges, ∀ ref, edge.callee = .resolved ref → ref ∈ known) :
    ∃ graph, build edges known = .ok graph ∧ graph.edges = edges := by
  have hnone : edges.findSome? (violation? known) = none := by
    rw [List.findSome?_eq_none_iff]
    intro edge hedge
    unfold violation?
    rw [if_neg (by simp [hcaller edge hedge])]
    split
    next ref href => simp [hcallee edge hedge ref href]
    · rfl
  unfold build
  rw [hnone]
  exact ⟨_, rfl, rfl⟩

end Call

/-! ## Dependencies -/

namespace Dependency

/-- What is found under a normal form is a file of that normal form. -/
theorem Specifiers.file?_spec {paths : List String} {aliases : List (String × String)}
    {normal path : String} (h : (ofFiles paths aliases).file? normal = some path) :
    path ∈ paths ∧ Path.normalize path = normal := by
  obtain ⟨before, after, heq, -⟩ := List.lookup_eq_some_iff.1 h
  have hmem : (normal, path) ∈ (ofFiles paths aliases).files := by
    rw [← List.mem_reverse, heq]
    simp
  obtain ⟨file, hfile, heq⟩ := List.mem_map.1 hmem
  cases heq
  exact ⟨hfile, rfl⟩

/-- A specifier means a file of the codebase, or none. -/
theorem Specifiers.resolve?_mem {paths : List String} {aliases : List (String × String)}
    {importer specifier target : String}
    (h : (ofFiles paths aliases).resolve? importer specifier = some target) : target ∈ paths := by
  obtain ⟨base, -, hbase⟩ := Option.bind_eq_some_iff.1 h
  obtain ⟨candidate, -, hfile⟩ := List.exists_of_findSome?_eq_some hbase
  exact (file?_spec hfile).1

/-- An edge starts at a file that is listed with its references. -/
theorem edgesOf_source {specifiers : Specifiers} {references : List (String × List Reference)}
    {edge : Edge} (h : edge ∈ edgesOf specifiers references) :
    edge.source ∈ references.map Prod.fst := by
  obtain ⟨entry, hentry, hedge⟩ := List.mem_flatMap.1 h
  obtain ⟨reference, -, rfl⟩ := List.mem_map.1 hedge
  have hsource : (edgeOf specifiers entry.1 reference).source = entry.1 := by
    unfold edgeOf
    split <;> rfl
  rw [hsource]
  exact List.mem_map.2 ⟨entry, hentry, rfl⟩

/-- An edge that is not external ends at a file of the codebase. -/
theorem edgesOf_target {paths : List String} {aliases : List (String × String)}
    {references : List (String × List Reference)} {edge : Edge}
    (h : edge ∈ edgesOf (.ofFiles paths aliases) references) (hinternal : edge.external = false) :
    edge.target ∈ paths := by
  obtain ⟨entry, -, hedge⟩ := List.mem_flatMap.1 h
  obtain ⟨reference, -, rfl⟩ := List.mem_map.1 hedge
  unfold edgeOf at hinternal ⊢
  split at hinternal
  next target htarget => exact Specifiers.resolve?_mem htarget
  · cases hinternal

end Dependency

/-! ## Snapshots -/

namespace Snapshot

/-- The parts of a snapshot fit together, and its circular dependencies can be listed. -/
structure Coherent (snapshot : Snapshot) : Prop where
  refs_nodup : (snapshot.entities.map Entity.ref).Nodup
  caller_mem : ∀ edge ∈ snapshot.calls.edges, edge.caller ∈ snapshot.entities.map Entity.ref
  callee_mem : ∀ edge ∈ snapshot.calls.edges, ∀ ref, edge.callee = .resolved ref →
    ref ∈ snapshot.entities.map Entity.ref
  target_mem : ∀ edge ∈ snapshot.dependencies.edges, edge.external = false →
    edge.target ∈ snapshot.files.map SourceFile.path
  listed : ∀ file ∈ snapshot.files, ∀ ref ∈ file.entities,
    ∃ entity, snapshot.resolve? ref = some entity ∧ entity.ref = ref ∧ entity.file = file.path
  cycles_listed : ∃ report, Digraph.cycles snapshot.dependencies.nodes
    snapshot.dependencies.adjacency snapshot.dependencies.maxCycles = .ok report

/-- An entry under a new key comes last. -/
theorem putEntry_new {κ α : Type} [BEq κ] [LawfulBEq κ] {key : κ} {value : α}
    {entries : List (κ × α)} (h : key ∉ entries.map Prod.fst) :
    putEntry key value entries = entries ++ [(key, value)] := by
  induction entries with
  | nil => rfl
  | cons entry entries ih =>
      rw [List.map_cons, List.mem_cons, not_or] at h
      have hne : (entry.1 == key) = false := by simpa using Ne.symm h.1
      simp [putEntry, hne, ih h.2]

/-- Files with distinct paths are kept as they are. -/
theorem distinctFiles_eq {files : List SourceFile} (h : (files.map SourceFile.path).Nodup) :
    distinctFiles files = files := by
  -- the fold puts each file last, as long as its path is new to the entries
  have hfold (entries : List (String × SourceFile))
      (hnodup : (entries.map Prod.fst ++ files.map SourceFile.path).Nodup) :
      files.foldl (fun entries file => putEntry file.path file entries) entries =
        entries ++ files.map fun file => (file.path, file) := by
    clear h
    induction files generalizing entries with
    | nil => simp
    | cons file files ih =>
        have hnew : file.path ∉ entries.map Prod.fst := by
          intro hmem
          exact (List.nodup_append.1 hnodup).2.2 _ hmem _ (by simp) rfl
        rw [List.foldl_cons, putEntry_new hnew, ih]
        · simp
        · simpa using hnodup
  unfold distinctFiles
  rw [hfold [] (by simpa using h)]
  simp [Function.comp_def]

/-- The reference of an entity leads to an entity with that reference. -/
theorem exists_entityWith {entities : List Entity} {ref : EntityRef}
    (h : ref ∈ entities.map Entity.ref) :
    ∃ entity, entityWith? entities ref = some entity ∧ entity.ref = ref := by
  obtain ⟨entity, hentity, rfl⟩ := List.mem_map.1 h
  have hsome : (entities.find? (·.ref == entity.ref)).isSome := by
    rw [List.find?_isSome]
    exact ⟨entity, hentity, by simp⟩
  obtain ⟨found, hfound⟩ := Option.isSome_iff_exists.1 hsome
  exact ⟨found, hfound, by simpa using List.find?_some hfound⟩

/-- Distinct entities, and files with distinct paths that list references into themselves, make a
snapshot. -/
theorem build_ok {files : List SourceFile} {entities : List Entity} (calls : Call.Graph)
    (dependencies : Dependency.Graph) (fileIssues : List Issue)
    (hpaths : (files.map SourceFile.path).Nodup) (hrefs : (entities.map Entity.ref).Nodup)
    (hlisted : ∀ file ∈ files, ∀ ref ∈ file.entities,
      ref ∈ entities.map Entity.ref ∧ ref.file = file.path) :
    build files entities calls dependencies fileIssues =
      .ok { files, entities, calls, dependencies, fileIssues } := by
  have hnone : files.findSome? (undeclared? entities) = none := by
    rw [List.findSome?_eq_none_iff]
    intro file hfile
    unfold undeclared?
    rw [List.find?_eq_none]
    intro ref href
    obtain ⟨hmem, heq⟩ := hlisted file hfile ref href
    obtain ⟨entity, hentity, rfl⟩ := exists_entityWith hmem
    have hown : entity.file = file.path := heq
    simp [hentity, hown]
  unfold build
  rw [distinctFiles_eq hpaths, if_neg (not_not_intro hrefs), hnone]

end Snapshot

/-! ## All files -/

namespace Analysis

/-- The entities of files, in order. -/
def entitiesOf (files : List FileAnalysis) : List Entity := files.flatMap (·.result.entities)

/-- What the calls in files are resolved against. -/
def resolverOf (files : List FileAnalysis) : Call.Resolver :=
  ⟨(entitiesOf files).map fun entity => (entity.ref, entity.kind)⟩

/-- The paths of files. -/
def pathsOf (files : List FileAnalysis) : List String := files.map (·.file.path)

/-- The dependencies of files. -/
def dependenciesOf (settings : Settings) (files : List FileAnalysis) : List Dependency.Edge :=
  Dependency.edgesOf (.ofFiles (pathsOf files) settings.pathAliases)
    (files.map fun file => (file.file.path, file.result.references))

/-- A snapshot that files are linked into. -/
structure Links (settings : Settings) (files : List FileAnalysis) (snapshot : Snapshot) :
    Prop where
  files_eq : snapshot.files = files.map (·.sourceFile)
  entities_eq : snapshot.entities = entitiesOf files
  calls_eq : snapshot.calls.edges = files.flatMap (·.callEdges (resolverOf files))
  nodes_eq : snapshot.dependencies.nodes = pathsOf files
  edges_eq : snapshot.dependencies.edges = dependenciesOf settings files
  maxCycles_eq : snapshot.dependencies.maxCycles = settings.maxCycles
  fileIssues_eq : snapshot.fileIssues = files.flatMap (·.fileIssues)

section Files

variable {files : List FileAnalysis}

/-- The references of the entities are those of the declarations. -/
theorem refs_entitiesOf (hsound : ∀ file ∈ files, file.Sound) :
    (entitiesOf files).map Entity.ref =
      files.flatMap fun file => file.declarations.map Prod.fst := by
  unfold entitiesOf
  rw [List.map_flatMap]
  exact List.flatMap_congr fun file hfile => (hsound file hfile).refs_eq

/-- Files with distinct paths have distinct entities. -/
theorem nodup_refs_entitiesOf (hsound : ∀ file ∈ files, file.Sound)
    (hpaths : (pathsOf files).Nodup) : ((entitiesOf files).map Entity.ref).Nodup := by
  rw [refs_entitiesOf hsound, List.nodup_flatMap]
  refine ⟨fun file hfile => (hsound file hfile).refs_nodup, ?_⟩
  have hpairwise : files.Pairwise fun a b => a.file.path ≠ b.file.path := List.pairwise_map.1 hpaths
  refine List.Pairwise.imp_of_mem (fun ha hb hne => ?_) hpairwise
  -- A reference into two files would give them the same path.
  intro ref hleft hright
  obtain ⟨entry, hentry, rfl⟩ := List.mem_map.1 hleft
  obtain ⟨other, hother, heq⟩ := List.mem_map.1 hright
  apply hne
  rw [← (hsound _ ha).ref_file entry hentry, ← (hsound _ hb).ref_file other hother, heq]

/-- A call is made by an entity. -/
theorem caller_mem (hsound : ∀ file ∈ files, file.Sound) {resolver : Call.Resolver}
    {edge : Call.Edge} (h : edge ∈ files.flatMap (·.callEdges resolver)) :
    edge.caller ∈ (entitiesOf files).map Entity.ref := by
  obtain ⟨file, hfile, hedge⟩ := List.mem_flatMap.1 h
  obtain ⟨entry, hentry, hsite⟩ := List.mem_flatMap.1 hedge
  obtain ⟨site, -, rfl⟩ := List.mem_map.1 hsite
  rw [refs_entitiesOf hsound]
  exact List.mem_flatMap.2 ⟨file, hfile, List.mem_map.2 ⟨entry, hentry, rfl⟩⟩

/-- A call that is resolved leads to an entity. -/
theorem callee_mem {edge : Call.Edge} {ref : EntityRef}
    (h : edge ∈ files.flatMap (·.callEdges (resolverOf files)))
    (href : edge.callee = .resolved ref) :
    ref ∈ (entitiesOf files).map Entity.ref := by
  obtain ⟨file, -, hedge⟩ := List.mem_flatMap.1 h
  obtain ⟨entry, -, hsite⟩ := List.mem_flatMap.1 hedge
  obtain ⟨site, -, rfl⟩ := List.mem_map.1 hsite
  have hmem := Call.Resolver.resolve_mem href
  simpa [resolverOf] using hmem

/-- A file lists entities of its own. -/
theorem listed_mem (hsound : ∀ file ∈ files, file.Sound) {file : FileAnalysis} {ref : EntityRef}
    (hfile : file ∈ files) (href : ref ∈ file.sourceFile.entities) :
    ref ∈ (entitiesOf files).map Entity.ref ∧ ref.file = file.sourceFile.path := by
  have hown : ref ∈ file.declarations.map Prod.fst := (hsound file hfile).refs_eq ▸ href
  refine ⟨?_, ?_⟩
  · rw [refs_entitiesOf hsound]
    exact List.mem_flatMap.2 ⟨file, hfile, hown⟩
  · obtain ⟨entry, hentry, rfl⟩ := List.mem_map.1 hown
    exact (hsound file hfile).ref_file entry hentry

theorem dependency_source_mem {settings : Settings} {edge : Dependency.Edge}
    (h : edge ∈ dependenciesOf settings files) : edge.source ∈ pathsOf files := by
  simpa [pathsOf, Function.comp_def] using Dependency.edgesOf_source h

/-- Sound files with distinct paths are linked without a violation. -/
theorem exists_links (settings : Settings) (hsound : ∀ file ∈ files, file.Sound)
    (hpaths : (pathsOf files).Nodup) :
    ∃ analysis, link settings files = .ok analysis ∧ Links settings files analysis.snapshot := by
  obtain ⟨calls, hcalls, hcallEdges⟩ :=
    Call.Graph.build_ok (fun _ hedge => caller_mem hsound hedge) fun _ hedge _ => callee_mem hedge
  obtain ⟨dependencies, hdependencies⟩ : ∃ graph, Dependency.Graph.build (pathsOf files)
      (dependenciesOf settings files) settings.maxCycles = .ok graph :=
    ⟨_, dif_pos fun _ => dependency_source_mem⟩
  obtain ⟨hnodes, hedges, hmaxCycles⟩ := Dependency.Graph.build_eq_ok hdependencies
  have hsnapshot : Snapshot.build (files.map (·.sourceFile)) (entitiesOf files) calls dependencies
      (files.flatMap (·.fileIssues)) = .ok ⟨files.map (·.sourceFile), entitiesOf files, calls,
        dependencies, files.flatMap (·.fileIssues)⟩ := by
    refine Snapshot.build_ok _ _ _ ?_ (nodup_refs_entitiesOf hsound hpaths) ?_
    · rw [List.map_map]
      exact hpaths
    · intro file hfile ref href
      obtain ⟨analysis, hanalysis, rfl⟩ := List.mem_map.1 hfile
      exact listed_mem hsound hanalysis href
  refine ⟨⟨_, _, _⟩, (bind_eq_ok_iff _ _ _).2 ⟨calls, hcalls, (bind_eq_ok_iff _ _ _).2
    ⟨dependencies, hdependencies, (bind_eq_ok_iff _ _ _).2 ⟨_, hsnapshot, rfl⟩⟩⟩, ?_⟩
  exact ⟨rfl, rfl, hcallEdges, hnodes, hedges, hmaxCycles, rfl⟩

/-- What files are linked into is coherent. -/
theorem Links.coherent {settings : Settings} {snapshot : Snapshot}
    (hlinks : Links settings files snapshot) (hsound : ∀ file ∈ files, file.Sound)
    (hpaths : (pathsOf files).Nodup) : snapshot.Coherent where
  refs_nodup := hlinks.entities_eq ▸ nodup_refs_entitiesOf hsound hpaths
  caller_mem := by
    intro edge hedge
    rw [hlinks.calls_eq] at hedge
    rw [hlinks.entities_eq]
    exact Analysis.caller_mem hsound hedge
  callee_mem := by
    intro edge hedge ref href
    rw [hlinks.calls_eq] at hedge
    rw [hlinks.entities_eq]
    exact Analysis.callee_mem hedge href
  target_mem := by
    intro edge hedge hinternal
    rw [hlinks.edges_eq] at hedge
    rw [hlinks.files_eq, List.map_map]
    exact Dependency.edgesOf_target hedge hinternal
  listed := by
    intro file hfile ref href
    rw [hlinks.files_eq] at hfile
    obtain ⟨analysis, hanalysis, rfl⟩ := List.mem_map.1 hfile
    obtain ⟨hmem, hown⟩ := listed_mem hsound hanalysis href
    obtain ⟨entity, hentity, rfl⟩ := Snapshot.exists_entityWith hmem
    exact ⟨entity, by rw [Snapshot.resolve?, hlinks.entities_eq, hentity], rfl, hown⟩
  cycles_listed := ⟨_, snapshot.dependencies.cycles_search hlinks.maxCycles_eq⟩

end Files
end Analysis

/-! ## Requests and their analyses -/

/-- Files with distinct paths are analysed and linked. -/
theorem exists_analysis (settings : Settings) (grammars : Grammars) {files : List InputFile}
    (hpaths : (files.map InputFile.path).Nodup) :
    ∃ analysis, analyzeFiles settings grammars files = .ok analysis ∧
      Analysis.Links settings (files.map (FileAnalysis.analyze settings grammars))
        analysis.snapshot ∧ analysis.snapshot.Coherent := by
  have hsound := FileAnalysis.sound_of_mem settings grammars files
  have hnodup : (Analysis.pathsOf (files.map (FileAnalysis.analyze settings grammars))).Nodup := by
    simpa [Analysis.pathsOf, Function.comp_def] using hpaths
  obtain ⟨analysis, hlink, hlinks⟩ := Analysis.exists_links settings hsound hnodup
  exact ⟨analysis, hlink, hlinks, hlinks.coherent hsound hnodup⟩

/-- The files of an accepted request are linked into the snapshot of its analysis. -/
theorem exists_links_of_accepted (settings : Settings) (grammars : Grammars) {request : Value}
    {files : List InputFile} (haccepted : InputFile.validate request = .ok files) :
    ∃ analysis, analyze settings grammars request = .ok analysis ∧
      Analysis.link settings (files.map (FileAnalysis.analyze settings grammars)) = .ok analysis ∧
      Analysis.Links settings (files.map (FileAnalysis.analyze settings grammars))
        analysis.snapshot := by
  have hpaths := ((InputFile.validate_eq_ok_iff _ _).1 haccepted).paths_nodup
  obtain ⟨analysis, hlink, hlinks, -⟩ := exists_analysis settings grammars hpaths
  exact ⟨analysis, by rw [analyze, haccepted]; exact hlink, hlink, hlinks⟩

/-- The snapshot of an analysis links the files that the request lists. -/
theorem links_of_analyze {settings : Settings} {grammars : Grammars} {request : Value}
    {analysis : Analysis} (h : analyze settings grammars request = .ok analysis) :
    ∃ files, InputFile.Lists request files ∧
      Analysis.Links settings (files.map (FileAnalysis.analyze settings grammars))
        analysis.snapshot := by
  cases hvalidate : InputFile.validate request with
  | error failure =>
      rw [analyze, hvalidate] at h
      cases h
  | ok files =>
      obtain ⟨linked, hlinked, -, hlinks⟩ := exists_links_of_accepted settings grammars hvalidate
      rw [h] at hlinked
      cases hlinked
      exact ⟨files, (InputFile.validate_eq_ok_iff request files).1 hvalidate, hlinks⟩

/-- Either a request lists files, and its analysis is a coherent snapshot of exactly these with all
their entities, or it lists none, and is refused as malformed.  There is no third outcome: no
violation, and no search for cycles that fails. -/
theorem analyze_coherent_or_malformed (settings : Settings) (grammars : Grammars)
    (request : Value) :
    (∃ files analysis, InputFile.Lists request files ∧
      analyze settings grammars request = .ok analysis ∧
      analysis.snapshot.files.map (fun file => (file.path, file.text)) =
        files.map (fun file => (file.path, file.content)) ∧
      analysis.snapshot.entities =
        files.flatMap (fun file => (FileAnalysis.analyze settings grammars file).result.entities) ∧
      analysis.snapshot.Coherent) ∨
    ((¬ ∃ files, InputFile.Lists request files) ∧
      ∃ cause, analyze settings grammars request = .error (.invalid cause)) := by
  -- the only way to fail is the validation: whatever it accepts is linked
  cases hvalidate : InputFile.validate request with
  | ok files =>
      left
      have hlists := (InputFile.validate_eq_ok_iff request files).1 hvalidate
      obtain ⟨analysis, hanalysis, hlinks, hcoherent⟩ :=
        exists_analysis settings grammars hlists.paths_nodup
      refine ⟨files, analysis, hlists, ?_, ?_, ?_, hcoherent⟩
      · rw [analyze, hvalidate]
        exact hanalysis
      · simp [hlinks.files_eq, FileAnalysis.sourceFile, Function.comp_def]
      · rw [hlinks.entities_eq, Analysis.entitiesOf, List.flatMap_map]
  | error cause =>
      right
      refine ⟨?_, cause, by rw [analyze, hvalidate]⟩
      rintro ⟨files, hlists⟩
      have hok := (InputFile.validate_eq_ok_iff request files).2 hlists
      rw [hok] at hvalidate
      cases hvalidate

end CodeAtlas
