import CodeAtlas.Proofs.Conservation
import Mathlib.Data.List.Flatten

/-!
# Thresholds

The thresholds of the settings decide which issues the rules find, and nothing else.  Extraction,
references and both graphs do not see them, and a rule that passes an entity under strict thresholds
passes it under loose ones.  So looser thresholds leave an analysis as it is, except that some of
its issues are gone.  The words of an issue name its threshold, so that issues are compared by what
they are about.

Main results:

- Theorem {lit}`Rule.defaults_respect`: each rule of every analysis finds no more under looser
  thresholds.
- Theorem {lit}`findings_sublist_of_detect`: so do the rules together.
- Theorem {lit}`FileAnalysis.analyze_relaxes`: what looser thresholds change in a file.
- Theorem {lit}`analyze_relaxes_thresholds`: what they change in an analysis.
-/

namespace CodeAtlas

/-! ## Settings and findings -/

/-- Settings that differ from others in the thresholds of the rules only, none of which is
higher. -/
structure Settings.Tightens (strict loose : Settings) : Prop where
  maxComplexity_le : strict.maxComplexity ≤ loose.maxComplexity
  maxParameters_le : strict.maxParameters ≤ loose.maxParameters
  maxFunctionLines_le : strict.maxFunctionLines ≤ loose.maxFunctionLines
  maxClassLines_le : strict.maxClassLines ≤ loose.maxClassLines
  tolerantParsing_eq : loose.tolerantParsing = strict.tolerantParsing
  maxCycles_eq : loose.maxCycles = strict.maxCycles
  pathAliases_eq : loose.pathAliases = strict.pathAliases
  skipDirs_eq : loose.skipDirs = strict.skipDirs

/-- What an issue is about, without the words of its message: the rule, the severity, the place and
the entity. -/
def Issue.finding (issue : Issue) : String × Severity × Location × Option EntityRef :=
  (issue.rule, issue.severity, issue.location, issue.entity)

/-- An entity without its issues. -/
def Entity.withoutIssues (entity : Entity) : Entity := { entity with issues := [] }

@[simp]
theorem Entity.ref_withoutIssues (entity : Entity) : entity.withoutIssues.ref = entity.ref := rfl

@[simp]
theorem Entity.kind_withoutIssues (entity : Entity) : entity.withoutIssues.kind = entity.kind := rfl

/-- What is found in a file, without the issues. -/
def FileResult.withoutIssues (result : FileResult) : FileResult :=
  { result with entities := result.entities.map Entity.withoutIssues, issues := [] }

/-! ## Rules -/

variable {strict loose : Settings}

namespace Rule

/-- What a rule finds about an entity.  A rule that fails finds nothing. -/
def findings (rule : Rule) (settings : Settings) (subject : Subject) :
    List (String × Severity × Location × Option EntityRef) :=
  match rule.check settings subject with
  | .ok issues => issues.map Issue.finding
  | .error _ => []

/-- A rule that finds no more under looser thresholds, and nothing new. -/
def RespectsThresholds (rule : Rule) : Prop :=
  ∀ strict loose : Settings, strict.Tightens loose → ∀ subject,
    (rule.findings loose subject).Sublist (rule.findings strict subject)

/-- If an entity that passes under strict thresholds passes under loose ones, then the issue is
found under loose ones only if it is found under strict ones.  The messages may differ. -/
theorem sublist_of_passes {passesStrict passesLoose : Prop} [Decidable passesStrict]
    [Decidable passesLoose] (hpasses : passesStrict → passesLoose) (subject : Subject)
    (rule : String) (severity : Severity) (message message' : String) :
    ((if passesLoose then [] else [subject.issue rule severity message']).map
        Issue.finding).Sublist
      ((if passesStrict then [] else [subject.issue rule severity message]).map
        Issue.finding) := by
  have hfinding : ∀ words, (subject.issue rule severity words).finding =
      (rule, severity, subject.location, some subject.ref) := fun _ => rfl
  by_cases hstrict : passesStrict
  · rw [if_pos (hpasses hstrict)]
    exact List.nil_sublist _
  · rw [if_neg hstrict]
    by_cases hloose : passesLoose
    · rw [if_pos hloose]
      exact List.nil_sublist _
    · rw [if_neg hloose, List.map_singleton, List.map_singleton, hfinding, hfinding]

theorem highComplexity_sublist (hlimits : strict.Tightens loose) (subject : Subject) :
    ((highComplexity loose subject).map Issue.finding).Sublist
      ((highComplexity strict subject).map Issue.finding) := by
  unfold highComplexity
  cases subject.complexity with
  | none => exact List.nil_sublist _
  | some score =>
      refine sublist_of_passes (fun hle => ?_) subject _ _ _ _
      have hlimit := hlimits.maxComplexity_le
      omega

theorem tooManyParameters_sublist (hlimits : strict.Tightens loose) (subject : Subject) :
    ((tooManyParameters loose subject).map Issue.finding).Sublist
      ((tooManyParameters strict subject).map Issue.finding) := by
  unfold tooManyParameters
  cases subject.signature with
  | none => exact List.nil_sublist _
  | some signature =>
      refine sublist_of_passes (fun hle => ?_) subject _ _ _ _
      exact Nat.le_trans hle hlimits.maxParameters_le

/-- Whether the length of an entity is limited, and by which name, depends on its kind only. -/
theorem lengthLimit?_cases (hlimits : strict.Tightens loose) (kind : EntityKind) :
    (lengthLimit? strict kind = none ∧ lengthLimit? loose kind = none) ∨
    (∃ noun limit limit', lengthLimit? strict kind = some (noun, limit) ∧
      lengthLimit? loose kind = some (noun, limit') ∧ limit ≤ limit') := by
  unfold lengthLimit?
  by_cases hcallable : kind.isCallable = true
  · right
    rw [if_pos hcallable, if_pos hcallable]
    exact ⟨_, _, _, rfl, rfl, hlimits.maxFunctionLines_le⟩
  · rw [if_neg hcallable, if_neg hcallable]
    by_cases hclass : kind = .classDef
    · right
      rw [if_pos hclass, if_pos hclass]
      exact ⟨_, _, _, rfl, rfl, hlimits.maxClassLines_le⟩
    · left
      rw [if_neg hclass, if_neg hclass]
      exact ⟨rfl, rfl⟩

theorem longBody_sublist (hlimits : strict.Tightens loose) (subject : Subject) :
    ((longBody loose subject).map Issue.finding).Sublist
      ((longBody strict subject).map Issue.finding) := by
  unfold longBody
  rcases lengthLimit?_cases hlimits subject.kind with
    ⟨hstrict, hloose⟩ | ⟨noun, limit, limit', hstrict, hloose, hle⟩
  · rw [hstrict, hloose]
  · rw [hstrict, hloose]
    refine sublist_of_passes (fun hlines => ?_) subject _ _ _ _
    omega

/-- The rules of every analysis find no more under looser thresholds. -/
theorem defaults_respect : ∀ rule ∈ defaults, rule.RespectsThresholds := by
  intro rule hrule strict loose hlimits subject
  simp only [defaults, List.mem_cons, List.not_mem_nil, or_false] at hrule
  rcases hrule with rfl | rfl | rfl
  · exact highComplexity_sublist hlimits subject
  · exact tooManyParameters_sublist hlimits subject
  · exact longBody_sublist hlimits subject

end Rule

/-- What rules find together is what each of them finds, in order. -/
theorem findings_detect (settings : Settings) (rules : List Rule) (subject : Subject) :
    (detect settings rules subject).issues.map Issue.finding =
      rules.flatMap fun rule => rule.findings settings subject := by
  induction rules with
  | nil => rfl
  | cons rule rules ih =>
      rw [List.flatMap_cons, ← ih, detect, Rule.findings]
      cases rule.check settings subject with
      | ok issues => exact List.map_append
      | error cause => rfl

/-- Rules that find no more under looser thresholds do so together. -/
theorem findings_sublist_of_detect {rules : List Rule}
    (hrules : ∀ rule ∈ rules, rule.RespectsThresholds) (hlimits : strict.Tightens loose)
    (subject : Subject) :
    ((detect loose rules subject).issues.map Issue.finding).Sublist
      ((detect strict rules subject).issues.map Issue.finding) := by
  rw [findings_detect, findings_detect]
  exact List.Sublist.flatMap_right rules fun rule hrule => hrules rule hrule strict loose hlimits
    subject

/-! ## One file -/

namespace FileAnalysis

/-- Two readings of a file that differ in the issues of its entities only, of which the second has
no more and nothing new. -/
structure RelaxesTo (tight relaxed : FileAnalysis) : Prop where
  file_eq : relaxed.file = tight.file
  source_eq : relaxed.source = tight.source
  declarations_eq : relaxed.declarations = tight.declarations
  result_eq : relaxed.result.withoutIssues = tight.result.withoutIssues
  fileIssues_eq : relaxed.fileIssues = tight.fileIssues
  findings_sublist :
    ((relaxed.result.entities.flatMap Entity.issues).map Issue.finding).Sublist
      ((tight.result.entities.flatMap Entity.issues).map Issue.finding)

namespace RelaxesTo

variable {tight relaxed : FileAnalysis}

theorem refl (analysis : FileAnalysis) : analysis.RelaxesTo analysis :=
  ⟨rfl, rfl, rfl, rfl, rfl, List.Sublist.refl _⟩

theorem entities_eq (h : tight.RelaxesTo relaxed) :
    relaxed.result.entities.map Entity.withoutIssues =
      tight.result.entities.map Entity.withoutIssues :=
  congrArg FileResult.entities h.result_eq

theorem references_eq (h : tight.RelaxesTo relaxed) :
    relaxed.result.references = tight.result.references := by
  simpa only [FileResult.withoutIssues] using congrArg FileResult.references h.result_eq

theorem parseError_eq (h : tight.RelaxesTo relaxed) :
    relaxed.result.parseError = tight.result.parseError := by
  simpa only [FileResult.withoutIssues] using congrArg FileResult.parseError h.result_eq

/-- The file of the snapshot lists references to entities, which do not depend on issues. -/
theorem sourceFile_eq (h : tight.RelaxesTo relaxed) : relaxed.sourceFile = tight.sourceFile := by
  have hrefs : relaxed.result.entities.map Entity.ref = tight.result.entities.map Entity.ref := by
    simpa [Function.comp_def] using congrArg (List.map Entity.ref) h.entities_eq
  simp only [sourceFile, h.file_eq, hrefs, h.references_eq, h.parseError_eq]

theorem callEdges_eq (h : tight.RelaxesTo relaxed) (resolver : Call.Resolver) :
    relaxed.callEdges resolver = tight.callEdges resolver := by
  simp only [callEdges, h.declarations_eq, h.source_eq]

end RelaxesTo

/-- An entity is the same under all thresholds, apart from its issues. -/
theorem entityOf_withoutIssues (strict loose : Settings) (source : Tree.Source)
    (entry : EntityRef × Declaration) :
    (entityOf loose source entry).withoutIssues = (entityOf strict source entry).withoutIssues := by
  simp only [entityOf, Entity.withoutIssues]

/-- A file that could be read has no issues as such. -/
theorem fileIssues_ofTree (settings : Settings) (file : InputFile) (tree : SourceTree) :
    (ofTree settings file tree).fileIssues = [] :=
  rfl

theorem ofTree_relaxes (hlimits : strict.Tightens loose) (file : InputFile) (tree : SourceTree) :
    (ofTree strict file tree).RelaxesTo (ofTree loose file tree) where
  file_eq := rfl
  source_eq := rfl
  declarations_eq := rfl
  result_eq := by
    simp only [ofTree, FileResult.withoutIssues, List.map_map, Function.comp_def,
      entityOf_withoutIssues strict loose]
  fileIssues_eq := by rw [fileIssues_ofTree, fileIssues_ofTree]
  -- both readings go through the same declarations, each with the same subject for the rules
  findings_sublist := by
    simp only [ofTree, List.flatMap_map, List.map_flatMap]
    exact List.Sublist.flatMap_right _ fun entry _ =>
      findings_sublist_of_detect Rule.defaults_respect hlimits _

/-- Looser thresholds leave what is found in a file as it is, apart from the issues of its entities,
of which there are no more and no new ones. -/
theorem analyze_relaxes (hlimits : strict.Tightens loose) (grammars : Grammars) (file : InputFile) :
    (analyze strict grammars file).RelaxesTo (analyze loose grammars file) := by
  unfold analyze
  rw [hlimits.tolerantParsing_eq]
  split
  · split
    · exact ofTree_relaxes hlimits file _
    · exact .refl _
  · exact .refl _

end FileAnalysis

/-! ## All files -/

/-- A dependency graph is given by its nodes, edges and limit. -/
theorem Dependency.Graph.eq_of_parts {graph other : Dependency.Graph}
    (hnodes : graph.nodes = other.nodes) (hedges : graph.edges = other.edges)
    (hmaxCycles : graph.maxCycles = other.maxCycles) : graph = other := by
  cases graph
  cases other
  cases hnodes
  cases hedges
  cases hmaxCycles
  rfl

namespace Analysis

/-- Two analyses that differ in the issues of entities only, of which the second has no more and
nothing new. -/
structure RelaxesTo (tight relaxed : Analysis) : Prop where
  entities_eq : relaxed.snapshot.entities.map Entity.withoutIssues =
    tight.snapshot.entities.map Entity.withoutIssues
  /-- The files have the same references and parse errors. -/
  files_eq : relaxed.snapshot.files = tight.snapshot.files
  results_eq : relaxed.perFile.map FileResult.withoutIssues =
    tight.perFile.map FileResult.withoutIssues
  calls_eq : relaxed.snapshot.calls.edges = tight.snapshot.calls.edges
  dependencies_eq : relaxed.snapshot.dependencies = tight.snapshot.dependencies
  cycles_eq : relaxed.snapshot.dependencies.cycles = tight.snapshot.dependencies.cycles
  findings_sublist : (relaxed.snapshot.issues.map Issue.finding).Sublist
    (tight.snapshot.issues.map Issue.finding)

section Readings

variable {inputs : List InputFile} {tight relaxed : InputFile → FileAnalysis}

/-- The entities of files are the same, apart from their issues. -/
theorem entitiesOf_relaxes (h : ∀ input ∈ inputs, (tight input).RelaxesTo (relaxed input)) :
    (entitiesOf (inputs.map relaxed)).map Entity.withoutIssues =
      (entitiesOf (inputs.map tight)).map Entity.withoutIssues := by
  simp only [entitiesOf, List.flatMap_map, List.map_flatMap]
  exact List.flatMap_congr fun input hinput => (h input hinput).entities_eq

/-- Calls are resolved against the same entities, as issues do not matter to them. -/
theorem callEdges_relaxes (h : ∀ input ∈ inputs, (tight input).RelaxesTo (relaxed input)) :
    (inputs.map relaxed).flatMap (·.callEdges (resolverOf (inputs.map relaxed))) =
      (inputs.map tight).flatMap (·.callEdges (resolverOf (inputs.map tight))) := by
  have hresolver : resolverOf (inputs.map relaxed) = resolverOf (inputs.map tight) := by
    have hknown := congrArg (List.map fun entity => (entity.ref, entity.kind))
      (entitiesOf_relaxes h)
    simp only [List.map_map, Function.comp_def, Entity.ref_withoutIssues,
      Entity.kind_withoutIssues] at hknown
    rw [resolverOf, resolverOf, hknown]
  rw [hresolver, List.flatMap_map, List.flatMap_map]
  exact List.flatMap_congr fun input hinput => (h input hinput).callEdges_eq _

/-- The same references are resolved by the same aliases. -/
theorem dependenciesOf_relaxes (hlimits : strict.Tightens loose)
    (h : ∀ input ∈ inputs, (tight input).RelaxesTo (relaxed input)) :
    pathsOf (inputs.map relaxed) = pathsOf (inputs.map tight) ∧
      dependenciesOf loose (inputs.map relaxed) = dependenciesOf strict (inputs.map tight) := by
  have hpaths : pathsOf (inputs.map relaxed) = pathsOf (inputs.map tight) := by
    simp only [pathsOf, List.map_map]
    exact List.map_congr_left fun input hinput =>
      congrArg InputFile.path (h input hinput).file_eq
  have hreferences :
      (inputs.map relaxed).map (fun file => (file.file.path, file.result.references)) =
        (inputs.map tight).map fun file => (file.file.path, file.result.references) := by
    simp only [List.map_map]
    refine List.map_congr_left fun input hinput => ?_
    simp only [Function.comp_apply, (h input hinput).file_eq, (h input hinput).references_eq]
  refine ⟨hpaths, ?_⟩
  rw [dependenciesOf, dependenciesOf, hpaths, hreferences, hlimits.pathAliases_eq]

/-- The issues of entities are no more and no new ones. -/
theorem findings_relaxes (h : ∀ input ∈ inputs, (tight input).RelaxesTo (relaxed input)) :
    (((entitiesOf (inputs.map relaxed)).flatMap Entity.issues).map Issue.finding).Sublist
      (((entitiesOf (inputs.map tight)).flatMap Entity.issues).map Issue.finding) := by
  simp only [entitiesOf, List.flatMap_map, List.flatMap_assoc, List.map_flatMap]
  refine List.Sublist.flatMap_right inputs fun input hinput => ?_
  simpa only [List.map_flatMap] using (h input hinput).findings_sublist

/-- Where files are read alike apart from issues, they are linked alike apart from issues. -/
theorem Links.relaxes {first second : Analysis} (hlimits : strict.Tightens loose)
    (h : ∀ input ∈ inputs, (tight input).RelaxesTo (relaxed input))
    (hlinks : Links strict (inputs.map tight) first.snapshot)
    (hlinks' : Links loose (inputs.map relaxed) second.snapshot)
    (hresults : first.perFile = inputs.map fun input => (tight input).result)
    (hresults' : second.perFile = inputs.map fun input => (relaxed input).result) :
    first.RelaxesTo second := by
  obtain ⟨hpaths, hedges⟩ := dependenciesOf_relaxes hlimits h
  have hgraph : second.snapshot.dependencies = first.snapshot.dependencies := by
    refine Dependency.Graph.eq_of_parts ?_ ?_ ?_
    · rw [hlinks'.nodes_eq, hlinks.nodes_eq, hpaths]
    · rw [hlinks'.edges_eq, hlinks.edges_eq, hedges]
    · rw [hlinks'.maxCycles_eq, hlinks.maxCycles_eq, hlimits.maxCycles_eq]
  exact {
    entities_eq := by
      rw [hlinks'.entities_eq, hlinks.entities_eq]
      exact entitiesOf_relaxes h
    files_eq := by
      rw [hlinks'.files_eq, hlinks.files_eq, List.map_map, List.map_map]
      exact List.map_congr_left fun input hinput => (h input hinput).sourceFile_eq
    results_eq := by
      rw [hresults', hresults, List.map_map, List.map_map]
      exact List.map_congr_left fun input hinput => (h input hinput).result_eq
    calls_eq := by
      rw [hlinks'.calls_eq, hlinks.calls_eq]
      exact callEdges_relaxes h
    dependencies_eq := hgraph
    cycles_eq := congrArg Dependency.Graph.cycles hgraph
    findings_sublist := by
      have hfileIssues : second.snapshot.fileIssues = first.snapshot.fileIssues := by
        rw [hlinks'.fileIssues_eq, hlinks.fileIssues_eq, List.flatMap_map, List.flatMap_map]
        exact List.flatMap_congr fun input hinput => (h input hinput).fileIssues_eq
      rw [Snapshot.issues, Snapshot.issues, hfileIssues, hlinks'.entities_eq, hlinks.entities_eq,
        List.map_append, List.map_append]
      exact (List.Sublist.refl _).append (findings_relaxes h) }

end Readings
end Analysis

/-- Looser thresholds change nothing of the analysis of an accepted request but the issues of its
entities: some of them are gone, and the others stay in order and about the same. -/
theorem analyze_relaxes_thresholds (hlimits : strict.Tightens loose) (grammars : Grammars)
    {request : Value} {files : List InputFile}
    (haccepted : InputFile.validate request = .ok files) :
    ∃ tight relaxed, analyze strict grammars request = .ok tight ∧
      analyze loose grammars request = .ok relaxed ∧ tight.RelaxesTo relaxed := by
  obtain ⟨tight, htight, hlink, hlinks⟩ := exists_links_of_accepted strict grammars haccepted
  obtain ⟨relaxed, hrelaxed, hlink', hlinks'⟩ := exists_links_of_accepted loose grammars haccepted
  refine ⟨tight, relaxed, htight, hrelaxed, hlinks.relaxes hlimits ?_ hlinks' ?_ ?_⟩
  · exact fun input _ => FileAnalysis.analyze_relaxes hlimits grammars input
  · rw [Analysis.perFile_of_link hlink, List.map_map]
    rfl
  · rw [Analysis.perFile_of_link hlink', List.map_map]
    rfl

/-- Two files with a function each, the first of them in a language without a grammar.  Where no
function may have any line or complexity there are three issues.  Where ten lines are allowed one of
them is gone, and the analysis is the same otherwise. -/
theorem analyze_relaxes_thresholds_lines :
    let strict := { Settings.default with maxComplexity := 0, maxFunctionLines := 0 }
    let loose := { Settings.default with maxComplexity := 0, maxFunctionLines := 10 }
    let request := Value.list [fileItem "a.js" "f", fileItem "b.ts" "g"]
    strict.Tightens loose ∧
      InputFile.validate request = .ok [⟨"a.js", "f"⟩, ⟨"b.ts", "g"⟩] ∧
      ∃ tight relaxed, analyze strict functionGrammars request = .ok tight ∧
        analyze loose functionGrammars request = .ok relaxed ∧
        tight.snapshot.issues.map Issue.rule = ["parse-error", "high-complexity", "long-function"] ∧
        relaxed.snapshot.issues.map Issue.rule = ["parse-error", "high-complexity"] ∧
        tight.RelaxesTo relaxed := by
  intro strict loose request
  have hlimits : strict.Tightens loose :=
    ⟨by decide, by decide, by decide, by decide, rfl, rfl, rfl, rfl⟩
  have haccepted : InputFile.validate request = .ok [⟨"a.js", "f"⟩, ⟨"b.ts", "g"⟩] := rfl
  obtain ⟨tight, relaxed, htight, hrelaxed, hrelaxes⟩ :=
    analyze_relaxes_thresholds hlimits functionGrammars haccepted
  obtain ⟨tight', htight', -, hlinks⟩ := exists_links_of_accepted strict functionGrammars haccepted
  obtain ⟨relaxed', hrelaxed', -, hlinks'⟩ :=
    exists_links_of_accepted loose functionGrammars haccepted
  obtain rfl : tight = tight' := Except.ok.inj (htight.symm.trans htight')
  obtain rfl : relaxed = relaxed' := Except.ok.inj (hrelaxed.symm.trans hrelaxed')
  refine ⟨hlimits, haccepted, tight, relaxed, htight, hrelaxed, ?_, ?_, hrelaxes⟩
  · rw [Snapshot.issues, hlinks.fileIssues_eq, hlinks.entities_eq]
    decide +kernel
  · rw [Snapshot.issues, hlinks'.fileIssues_eq, hlinks'.entities_eq]
    decide +kernel

end CodeAtlas
