import CodeAtlas.Proofs.Extraction
import CodeAtlas.Proofs.Isolation
import Mathlib.Algebra.BigOperators.Group.List.Basic
import Mathlib.Algebra.GroupWithZero.Nat

/-!
# Conservation of counts

An analysis gives its findings twice: as a list of results, one for each file, and as a snapshot
with its tables.  The summary counts what is in these tables, each number in a table of its own.
Both views hold the same entities, issues and references, and the numbers add up.

Main results:

- Theorem {lit}`SourceTree.kind_mem_all`: extraction finds entities of the kinds that are counted.
- Theorem {lit}`FileAnalysis.analyze_tallied`: what the issues of a file consist of.
- Theorem {lit}`Snapshot.resolve?_ref`: entities are found by their references.
- Theorem {lit}`analyze_consistent`: the two views of every analysis agree, and the counts of its
  summary are conserved.
-/

namespace CodeAtlas

/-! ## Kinds of declarations -/

namespace Declaration

open CodeAtlas.Tree

/-- Whatever is extracted is of the kinds that are counted. -/
theorem Extracted.kind_mem_all {source : Source} {region : Node} {declarations : List Declaration}
    (h : Extracted source region declarations) :
    ∀ declaration ∈ declarations, declaration.kind ∈ EntityKind.all := by
  induction h with
  | nothing _ => simp
  | leaf _ hkind _ _ _ => simpa using hkind
  | scope _ hscope _ ih =>
      intro declaration hmem
      rcases List.mem_cons.1 hmem with rfl | hmem
      · exact hscope.kind_mem
      · obtain ⟨node, hnode, hmem⟩ := List.mem_flatMap.1 hmem
        exact ih node hnode declaration hmem
  | beside _ _ ih =>
      intro declaration hmem
      obtain ⟨node, hnode, hmem⟩ := List.mem_flatMap.1 hmem
      exact ih node hnode declaration hmem

end Declaration

/-- Extraction finds entities of the kinds that are counted. -/
theorem SourceTree.kind_mem_all {tree : SourceTree} {declaration : Declaration}
    (h : declaration ∈ tree.declarations) : declaration.kind ∈ EntityKind.all := by
  obtain ⟨found, hfound, hperm⟩ := Declaration.exists_extracted tree
  exact hfound.kind_mem_all declaration (hperm.mem_iff.2 h)

/-! ## Issues of one file -/

/-- The rules of every analysis find no errors: those are left to files that cannot be read. -/
theorem severity_of_detect {settings : Settings} {subject : Subject} {issue : Issue}
    (h : issue ∈ (detect settings Rule.defaults subject).issues) :
    issue.severity = .info ∨ issue.severity = .warning := by
  have hrules : (detect settings Rule.defaults subject).issues =
      Rule.highComplexity settings subject ++ (Rule.tooManyParameters settings subject ++
        (Rule.longBody settings subject ++ [])) := rfl
  rw [hrules, List.append_nil, List.mem_append, List.mem_append] at h
  rcases h with h | h | h
  · right
    unfold Rule.highComplexity at h
    grind [Subject.issue]
  · left
    unfold Rule.tooManyParameters at h
    grind [Subject.issue]
  · left
    unfold Rule.longBody at h
    grind [Subject.issue]

namespace FileAnalysis

/-- What holds of a file by itself where things are counted: its issues are those about the file as
such and those of its entities, one of them is an error if the file could not be read and none
otherwise, and kinds and severities are those that the summary lists. -/
structure Tallied (analysis : FileAnalysis) : Prop where
  kind_mem : ∀ entity ∈ analysis.result.entities, entity.kind ∈ EntityKind.all
  issues_eq : analysis.result.issues =
    analysis.fileIssues ++ analysis.result.entities.flatMap Entity.issues
  severity_mem : ∀ issue ∈ analysis.result.issues, issue.severity ∈ Severity.all
  errors_eq : analysis.result.issues.countP (·.severity == .error) =
    if analysis.result.parseError.isSome then 1 else 0

theorem ofTree_tallied (settings : Settings) (file : InputFile) (tree : SourceTree) :
    (ofTree settings file tree).Tallied := by
  have hmild : ∀ issue ∈ (ofTree settings file tree).result.issues,
      issue.severity = .info ∨ issue.severity = .warning := by
    intro issue hissue
    obtain ⟨entity, hentity, hissue⟩ := List.mem_flatMap.1 hissue
    obtain ⟨entry, -, rfl⟩ := List.mem_map.1 hentity
    exact severity_of_detect hissue
  exact {
    kind_mem := by
      intro entity hentity
      obtain ⟨entry, hentry, rfl⟩ := List.mem_map.1 hentity
      obtain ⟨declaration, hmem, rfl⟩ := List.mem_map.1 ((distinctRefs_spec _ _).2 entry hentry).1
      exact SourceTree.kind_mem_all hmem
    issues_eq := rfl
    severity_mem := by
      intro issue hissue
      rcases hmild issue hissue with h | h <;> simp [h, Severity.all]
    errors_eq := by
      change List.countP _ _ = 0
      rw [List.countP_eq_zero]
      intro issue hissue
      rcases hmild issue hissue with h | h <;> simp [h] }

theorem ofFailure_tallied (file : InputFile) (failure : ParseFailure) :
    (ofFailure file failure).Tallied where
  kind_mem := by simp [ofFailure]
  issues_eq := rfl
  severity_mem := by simp [ofFailure, ParseFailure.issue, Severity.all]
  errors_eq := rfl

/-- Whatever the tree of a file, its findings can be counted. -/
theorem analyze_tallied (settings : Settings) (grammars : Grammars) (file : InputFile) :
    (analyze settings grammars file).Tallied := by
  unfold analyze
  split
  · split
    · exact ofTree_tallied settings file _
    · exact ofFailure_tallied file _
  · exact ofFailure_tallied file _

end FileAnalysis

/-! ## Counting and finding -/

theorem countP_eq_sum {α : Type} (p : α → Bool) (xs : List α) :
    xs.countP p = (xs.map fun x => if p x then 1 else 0).sum := by
  induction xs with
  | nil => rfl
  | cons x xs ih => rw [List.countP_cons, List.map_cons, List.sum_cons, ih, Nat.add_comm]

/-- If all keys are listed, without repeats, then the counts of the listed keys add up. -/
theorem sum_countP_key {α κ : Type} [DecidableEq κ] {keys : List κ} (hkeys : keys.Nodup)
    (key : α → κ) {xs : List α} (hlisted : ∀ x ∈ xs, key x ∈ keys) :
    (keys.map fun k => xs.countP (key · == k)).sum = xs.length := by
  induction xs with
  | nil => simp
  | cons x xs ih =>
      have hrest := ih fun other hother => hlisted other (List.mem_cons_of_mem x hother)
      -- the first element is counted under its own key and under no other
      have hone : (keys.map fun k => if key x == k then 1 else 0).sum = 1 := by
        rw [← countP_eq_sum, ← List.count_eq_one_of_mem hkeys (hlisted x List.mem_cons_self)]
        exact List.countP_congr fun k _ => by rw [beq_iff_eq, beq_iff_eq, eq_comm]
      simp only [List.countP_cons, List.sum_map_add, hrest, hone, List.length_cons]

/-- Where no key occurs twice, an element is found by its key. -/
theorem find?_key {α κ : Type} [DecidableEq κ] {key : α → κ} {xs : List α}
    (hkeys : (xs.map key).Nodup) {x : α} (hx : x ∈ xs) :
    xs.find? (key · == key x) = some x := by
  have hsome : (xs.find? (key · == key x)).isSome := List.find?_isSome.2 ⟨x, hx, by simp⟩
  obtain ⟨found, hfound⟩ := Option.isSome_iff_exists.1 hsome
  have hkey : key found = key x := by simpa using List.find?_some hfound
  rw [hfound, List.inj_on_of_nodup_map hkeys (List.mem_of_find?_eq_some hfound) hx hkey]

/-! ## Look-ups in a snapshot -/

namespace Snapshot

variable {snapshot : Snapshot}

/-- Entities are found by their references. -/
theorem resolve?_ref (hrefs : (snapshot.entities.map Entity.ref).Nodup) {entity : Entity}
    (h : entity ∈ snapshot.entities) : snapshot.resolve? entity.ref = some entity :=
  find?_key hrefs h

/-- A file that lists the references of entities of the snapshot lists these entities. -/
theorem entitiesIn_path (hrefs : (snapshot.entities.map Entity.ref).Nodup)
    (hpaths : (snapshot.files.map SourceFile.path).Nodup) {file : SourceFile}
    (hfile : file ∈ snapshot.files) {entities : List Entity} (hmem : entities ⊆ snapshot.entities)
    (hlisted : file.entities = entities.map Entity.ref) :
    snapshot.entitiesIn file.path = entities := by
  have hfound : snapshot.file? file.path = some file := find?_key hpaths hfile
  rw [entitiesIn, hfound]
  simp only [hlisted, List.filterMap_map]
  have hself : entities.filterMap (snapshot.resolve? ∘ Entity.ref) = entities.filterMap some :=
    List.filterMap_congr fun entity hentity => resolve?_ref hrefs (hmem hentity)
  rw [hself, List.filterMap_some]

/-- The empty pattern is part of every name. -/
theorem search_empty (snapshot : Snapshot) : snapshot.search "" none = .ok snapshot.entities := by
  have hmatches (name : String) : nameMatches "" name = true := by
    have hpart := (Text.hasPart_iff [] (Text.lower name).toList).2 List.nil_infix
    simpa [nameMatches, Text.lower, Text.lowerFrom, Text.isGlob] using hpart
  simp [search, hmatches]

end Snapshot

/-! ## Files that are linked -/

namespace Analysis

variable {settings : Settings} {files : List FileAnalysis} {snapshot : Snapshot}

/-- The issues of a snapshot are those of its files, in another order. -/
theorem Links.issues_perm (hlinks : Links settings files snapshot)
    (htallied : ∀ file ∈ files, file.Tallied) :
    snapshot.issues.Perm (files.flatMap (·.result.issues)) := by
  have hissues : files.flatMap (·.result.issues) =
      files.flatMap fun file => file.fileIssues ++ file.result.entities.flatMap Entity.issues :=
    List.flatMap_congr fun file hfile => (htallied file hfile).issues_eq
  rw [hissues, Snapshot.issues, hlinks.fileIssues_eq, hlinks.entities_eq, entitiesOf,
    List.flatMap_assoc]
  exact List.flatMap_append_perm files _ _

/-- Each file that could not be read has one error, and no other file has any. -/
theorem Links.errors_eq (hlinks : Links settings files snapshot)
    (htallied : ∀ file ∈ files, file.Tallied) :
    snapshot.issues.countP (·.severity == .error) =
      files.countP (·.result.parseError.isSome) := by
  rw [(hlinks.issues_perm htallied).countP_eq, List.countP_flatMap, countP_eq_sum]
  congr 1
  exact List.map_congr_left fun file hfile => (htallied file hfile).errors_eq

/-- There is a dependency for each reference. -/
theorem length_dependenciesOf (settings : Settings) (files : List FileAnalysis) :
    (dependenciesOf settings files).length =
      (files.map fun file => file.result.references.length).sum := by
  simp [dependenciesOf, Dependency.edgesOf, List.length_flatMap, Function.comp_def]

/-- What a file of a snapshot lists is what was found in it. -/
theorem Links.entitiesIn_eq (hlinks : Links settings files snapshot)
    (hsound : ∀ file ∈ files, file.Sound) (hpaths : (pathsOf files).Nodup) {file : FileAnalysis}
    (hfile : file ∈ files) : snapshot.entitiesIn file.file.path = file.result.entities := by
  have hdistinct : (snapshot.files.map SourceFile.path).Nodup := by
    rw [hlinks.files_eq, List.map_map]
    exact hpaths
  have hmem : file.sourceFile ∈ snapshot.files := by
    rw [hlinks.files_eq]
    exact List.mem_map_of_mem hfile
  have hown : file.result.entities ⊆ snapshot.entities := by
    rw [hlinks.entities_eq]
    exact fun entity hentity => List.mem_flatMap.2 ⟨file, hfile, hentity⟩
  have hrefs := (hlinks.coherent hsound hpaths).refs_nodup
  exact Snapshot.entitiesIn_path hrefs hdistinct hmem hown rfl

/-- The two views of an analysis agree, and the counts of its summary are conserved. -/
structure Consistent (analysis : Analysis) : Prop where
  /-- The results are those of the files, in order, each with the entities that the file lists. -/
  views_agree : analysis.perFile.map (fun result => (result.path, result.entities)) =
    analysis.snapshot.files.map fun file => (file.path, analysis.snapshot.entitiesIn file.path)
  entities_in_files : analysis.snapshot.entities =
    analysis.snapshot.files.flatMap fun file => analysis.snapshot.entitiesIn file.path
  entities_in_results : analysis.snapshot.entities = analysis.perFile.flatMap FileResult.entities
  search_empty : analysis.snapshot.search "" none = .ok analysis.snapshot.entities
  entities_total : analysis.snapshot.summary.totalEntities = analysis.snapshot.entities.length
  entities_by_kind : analysis.snapshot.summary.totalEntities =
    (analysis.snapshot.summary.entitiesByKind.map Prod.snd).sum
  issues_perm : analysis.snapshot.issues.Perm (analysis.perFile.flatMap FileResult.issues)
  issues_total : analysis.snapshot.summary.totalIssues = analysis.snapshot.issues.length
  issues_by_severity : analysis.snapshot.summary.totalIssues =
    (analysis.snapshot.summary.issuesBySeverity.map Prod.snd).sum
  failures_are_errors : analysis.snapshot.summary.parseFailures =
    analysis.snapshot.issues.countP (·.severity == .error)
  failures_in_results : analysis.snapshot.summary.parseFailures =
    analysis.perFile.countP (·.parseError.isSome)
  edges_are_references : analysis.snapshot.summary.totalDependencyEdges =
    (analysis.perFile.map (·.references.length)).sum
  resolve_ref : ∀ entity ∈ analysis.snapshot.entities,
    analysis.snapshot.resolve? entity.ref = some entity

/-- Files that are linked give an analysis that is consistent. -/
theorem Links.consistent {analysis : Analysis} (hlinks : Links settings files analysis.snapshot)
    (hresults : analysis.perFile = files.map (·.result)) (hsound : ∀ file ∈ files, file.Sound)
    (hpaths : (pathsOf files).Nodup) (htallied : ∀ file ∈ files, file.Tallied)
    (hnamed : ∀ file ∈ files, file.result.path = file.file.path) : analysis.Consistent := by
  have hentities : ∀ file ∈ files, analysis.snapshot.entitiesIn file.file.path =
      file.result.entities := fun file hfile => hlinks.entitiesIn_eq hsound hpaths hfile
  have hfailures : analysis.snapshot.summary.parseFailures =
      files.countP (·.result.parseError.isSome) := by
    change analysis.snapshot.files.countP _ = _
    rw [hlinks.files_eq, List.countP_map]
    rfl
  exact {
    views_agree := by
      rw [hresults, hlinks.files_eq, List.map_map, List.map_map]
      refine List.map_congr_left fun file hfile => ?_
      exact Prod.ext (hnamed file hfile) (hentities file hfile).symm
    entities_in_files := by
      rw [hlinks.entities_eq, hlinks.files_eq, List.flatMap_map]
      exact List.flatMap_congr fun file hfile => (hentities file hfile).symm
    entities_in_results := by
      rw [hlinks.entities_eq, hresults, List.flatMap_map]
      rfl
    search_empty := analysis.snapshot.search_empty
    entities_total := rfl
    entities_by_kind := by
      have hkinds : ∀ entity ∈ analysis.snapshot.entities, entity.kind ∈ EntityKind.all := by
        intro entity hentity
        rw [hlinks.entities_eq] at hentity
        obtain ⟨file, hfile, hentity⟩ := List.mem_flatMap.1 hentity
        exact (htallied file hfile).kind_mem entity hentity
      have hsum := sum_countP_key (by decide) Entity.kind hkinds
      simp only [Snapshot.summary, List.map_map]
      exact hsum.symm
    issues_perm := by
      rw [hresults, List.flatMap_map]
      exact hlinks.issues_perm htallied
    issues_total := rfl
    issues_by_severity := by
      have hseverities : ∀ issue ∈ analysis.snapshot.issues, issue.severity ∈ Severity.all := by
        intro issue hissue
        rw [(hlinks.issues_perm htallied).mem_iff] at hissue
        obtain ⟨file, hfile, hissue⟩ := List.mem_flatMap.1 hissue
        exact (htallied file hfile).severity_mem issue hissue
      have hsum := sum_countP_key (by decide) Issue.severity hseverities
      simp only [Snapshot.summary, List.map_map]
      exact hsum.symm
    failures_are_errors := hfailures.trans (hlinks.errors_eq htallied).symm
    failures_in_results := by
      rw [hfailures, hresults, List.countP_map]
      rfl
    edges_are_references := by
      change analysis.snapshot.dependencies.edges.length = _
      rw [hlinks.edges_eq, length_dependenciesOf, hresults, List.map_map]
      rfl
    resolve_ref := fun entity hentity =>
      Snapshot.resolve?_ref (hlinks.coherent hsound hpaths).refs_nodup hentity }

end Analysis

/-! ## Requests -/

@[simp]
theorem FileAnalysis.analyze_path (settings : Settings) (grammars : Grammars) (file : InputFile) :
    (analyze settings grammars file).result.path = file.path := by
  unfold analyze
  split
  · split <;> rfl
  · rfl

/-- The two views of every analysis agree, and the counts of its summary are conserved. -/
theorem analyze_consistent {settings : Settings} {grammars : Grammars} {request : Value}
    {analysis : Analysis} (h : analyze settings grammars request = .ok analysis) :
    analysis.Consistent := by
  obtain ⟨files, hlists, hlinks⟩ := links_of_analyze h
  obtain ⟨same, hsame, hresults⟩ :=
    perFile_of_accepted settings grammars ((InputFile.validate_eq_ok_iff request files).2 hlists)
  obtain rfl : analysis = same := Except.ok.inj (h.symm.trans hsame)
  refine hlinks.consistent (by rw [hresults, List.map_map]; rfl)
    (FileAnalysis.sound_of_mem settings grammars files) ?_ ?_ ?_
  · simpa [Analysis.pathsOf, Function.comp_def] using hlists.paths_nodup
  · simp only [List.forall_mem_map]
    exact fun file _ => FileAnalysis.analyze_tallied settings grammars file
  · simp

/-- Two files with a function each, the first of them in a language without a grammar, are analysed
where every function is too long.  There are two issues, one of them about the first file, and both
views hold the function of the second. -/
theorem analyze_consistent_unreadable :
    ∃ analysis,
      analyze { Settings.default with maxFunctionLines := 0 } functionGrammars
          (.list [fileItem "a.js" "f", fileItem "b.ts" "g"]) = .ok analysis ∧
        analysis.Consistent ∧
        analysis.snapshot.summary.totalEntities = 1 ∧
        analysis.snapshot.summary.totalIssues = 2 ∧
        analysis.snapshot.summary.parseFailures = 1 := by
  have haccepted : InputFile.validate (.list [fileItem "a.js" "f", fileItem "b.ts" "g"]) =
      .ok [⟨"a.js", "f"⟩, ⟨"b.ts", "g"⟩] := rfl
  obtain ⟨analysis, hanalysis, hresults⟩ := perFile_of_accepted
    { Settings.default with maxFunctionLines := 0 } functionGrammars haccepted
  have hconsistent := analyze_consistent hanalysis
  refine ⟨analysis, hanalysis, hconsistent, ?_, ?_, ?_⟩
  · rw [hconsistent.entities_total, hconsistent.entities_in_results, hresults]
    decide +kernel
  · rw [hconsistent.issues_total, hconsistent.issues_perm.length_eq, hresults]
    decide +kernel
  · rw [hconsistent.failures_in_results, hresults]
    decide +kernel

end CodeAtlas
