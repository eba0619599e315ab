import CodeAtlas.Proofs.FileOrder
import CodeAtlas.Proofs.Trees

/-!
# Files by themselves

What is found in a file depends on the file, its tree and the settings, and on no other file.  So
each file of a request can be taken out and analysed alone, and files beside it can come, go, move
or be unreadable.  Of the settings, the tolerance of errors matters only to a tree that reports one.

Main results:

- Theorem {lit}`FileAnalysis.analyze_eq`: a file is read through its tree only.
- Theorem {lit}`FileAnalysis.ofRoot_tolerant`: a tree without errors is read alike with and without
  tolerance.
- Theorem {lit}`perFile_of_accepted`: the results of an analysis are those of its files, one by one.
- Theorem {lit}`analyze_isolated`: what an analysis says of a file is what it says of it alone.
-/

namespace CodeAtlas

/-- The tree of a file, if there is a grammar for its language. -/
def Grammars.tree? (grammars : Grammars) (file : InputFile) : Option Tree.Node :=
  (grammars.grammar? (Language.ofPath file.path)).map fun grammar => grammar file.content

/-! ## One file -/

namespace FileAnalysis

/-- What is found in a file with a given tree. -/
def ofRoot (settings : Settings) (file : InputFile) (root : Tree.Node) : FileAnalysis :=
  let source := Tree.Source.ofText file.content
  match root.firstError?, settings.tolerantParsing with
  | some error, false => ofFailure file (syntaxFailure file.path source error)
  | _, _ => ofTree settings file ⟨file.path, Language.ofPath file.path, source, root⟩

/-- A file is read through its tree only. -/
theorem analyze_eq (settings : Settings) (grammars : Grammars) (file : InputFile) :
    analyze settings grammars file =
      match grammars.tree? file with
      | some root => ofRoot settings file root
      | none => ofFailure file (unsupported file.path) := by
  unfold analyze Grammars.tree? Grammars.supports Grammars.parse ofRoot
  cases hgrammar : grammars.grammar? (Language.ofPath file.path) with
  | none => rfl
  | some grammar =>
      simp only [Option.isSome_some, if_true, Option.map_some, hgrammar]
      cases (grammar file.content).firstError? with
      | none => rfl
      | some error => cases settings.tolerantParsing <;> rfl

/-- Whether errors are tolerated does not matter to what is found in a tree that is read. -/
theorem ofTree_tolerant (settings : Settings) (tolerant : Bool) (file : InputFile)
    (tree : SourceTree) :
    ofTree { settings with tolerantParsing := tolerant } file tree = ofTree settings file tree :=
  rfl

/-- A tree that reports no error is read alike with and without tolerance. -/
theorem ofRoot_tolerant (settings : Settings) (tolerant : Bool) (file : InputFile)
    {root : Tree.Node} (h : root.label.hasError = false) :
    ofRoot { settings with tolerantParsing := tolerant } file root = ofRoot settings file root := by
  have hclean : root.firstError? = none := by simp [Tree.Node.firstError?, h]
  simp only [ofRoot, hclean, ofTree_tolerant]

/-- Of the grammars, a file needs its own tree only. -/
theorem analyze_congr (settings : Settings) {grammars grammars' : Grammars} {file : InputFile}
    (h : grammars'.tree? file = grammars.tree? file) :
    analyze settings grammars' file = analyze settings grammars file := by
  rw [analyze_eq, analyze_eq, h]

/-- A file whose tree reports no error is read alike with and without tolerance. -/
theorem analyze_tolerant (settings : Settings) (tolerant : Bool) {grammars : Grammars}
    {file : InputFile} {root : Tree.Node} (hroot : grammars.tree? file = some root)
    (hclean : root.label.hasError = false) :
    analyze { settings with tolerantParsing := tolerant } grammars file =
      analyze settings grammars file := by
  rw [analyze_eq, analyze_eq, hroot]
  exact ofRoot_tolerant settings tolerant file hclean

end FileAnalysis

/-! ## Many files -/

/-- Linking files keeps what was found in each. -/
theorem Analysis.perFile_of_link {settings : Settings} {files : List FileAnalysis}
    {analysis : Analysis} (h : link settings files = .ok analysis) :
    analysis.perFile = files.map (·.result) := by
  obtain ⟨calls, -, h⟩ := (bind_eq_ok_iff _ _ _).1 h
  obtain ⟨dependencies, -, h⟩ := (bind_eq_ok_iff _ _ _).1 h
  obtain ⟨snapshot, -, h⟩ := (bind_eq_ok_iff _ _ _).1 h
  cases h
  rfl

/-- The results of a request are those of its files, one by one. -/
theorem perFile_of_accepted (settings : Settings) (grammars : Grammars) {request : Value}
    {files : List InputFile} (haccepted : InputFile.validate request = .ok files) :
    ∃ analysis, analyze settings grammars request = .ok analysis ∧
      analysis.perFile =
        files.map fun file => (FileAnalysis.analyze settings grammars file).result := by
  obtain ⟨analysis, hanalysis, hlink, -⟩ := exists_links_of_accepted settings grammars haccepted
  refine ⟨analysis, hanalysis, ?_⟩
  rw [Analysis.perFile_of_link hlink, List.map_map]
  rfl

/-- An item of an accepted request is a request for its file alone. -/
theorem InputFile.validate_single {items : List Value} {files : List InputFile}
    (haccepted : InputFile.validate (.list items) = .ok files) {i : Nat} {item : Value}
    (hitem : items[i]? = some item) :
    ∃ file, files[i]? = some file ∧ InputFile.validate (.list [item]) = .ok [file] := by
  obtain ⟨_, heq, hdescribes, -⟩ := (InputFile.validate_eq_ok_iff _ _).1 haccepted
  cases heq
  obtain ⟨hi, rfl⟩ := List.getElem?_eq_some_iff.1 hitem
  have hi' : i < files.length := hdescribes.length_eq ▸ hi
  refine ⟨files[i], List.getElem?_eq_getElem hi', ?_⟩
  refine (InputFile.validate_eq_ok_iff _ _).2 ⟨_, rfl, .cons ?_ .nil, by simp⟩
  exact hdescribes.get hi hi'

/-- What an analysis says of a file is what it says of the file alone, and what any other analysis
says of it under the same settings, if only the tree of the file is the same.  Where that tree
reports no error, it does not matter either whether errors are tolerated. -/
theorem analyze_isolated (settings : Settings) (grammars : Grammars) {items : List Value}
    {files : List InputFile} (haccepted : InputFile.validate (.list items) = .ok files) :
    ∃ batch, analyze settings grammars (.list items) = .ok batch ∧
      batch.perFile.length = items.length ∧
      ∀ (i : Nat) (item : Value), items[i]? = some item →
        ∃ file result alone, files[i]? = some file ∧ batch.perFile[i]? = some result ∧
          analyze settings grammars (.list [item]) = .ok alone ∧ alone.perFile = [result] ∧
          (∀ (grammars' : Grammars) (request : Value) (others : List InputFile) (j : Nat),
            InputFile.validate request = .ok others → others[j]? = some file →
            grammars'.tree? file = grammars.tree? file →
            ∃ other, analyze settings grammars' request = .ok other ∧
              other.perFile[j]? = some result) ∧
          (∀ root, grammars.tree? file = some root → root.label.hasError = false →
            ∀ tolerant, ∃ other,
              analyze { settings with tolerantParsing := tolerant } grammars (.list items) =
                  .ok other ∧
                other.perFile[i]? = some result) := by
  obtain ⟨batch, hbatch, hresults⟩ := perFile_of_accepted settings grammars haccepted
  obtain ⟨_, heq, hdescribes, -⟩ := (InputFile.validate_eq_ok_iff _ _).1 haccepted
  cases heq
  refine ⟨batch, hbatch, by rw [hresults, List.length_map, hdescribes.length_eq], ?_⟩
  intro i item hitem
  obtain ⟨file, hfile, hsingle⟩ := InputFile.validate_single haccepted hitem
  obtain ⟨alone, halone, haloneResults⟩ := perFile_of_accepted settings grammars hsingle
  refine ⟨file, (FileAnalysis.analyze settings grammars file).result, alone, hfile, ?_, halone,
    haloneResults, ?_, ?_⟩
  · rw [hresults, List.getElem?_map, hfile, Option.map_some]
  · intro grammars' request others j hothers hj htree
    obtain ⟨other, hother, hotherResults⟩ := perFile_of_accepted settings grammars' hothers
    refine ⟨other, hother, ?_⟩
    rw [hotherResults, List.getElem?_map, hj, Option.map_some,
      FileAnalysis.analyze_congr settings htree]
  · intro root hroot hclean tolerant
    obtain ⟨other, hother, hotherResults⟩ :=
      perFile_of_accepted { settings with tolerantParsing := tolerant } grammars haccepted
    refine ⟨other, hother, ?_⟩
    rw [hotherResults, List.getElem?_map, hfile, Option.map_some,
      FileAnalysis.analyze_tolerant settings tolerant hroot hclean]

/-- Grammars for TypeScript alone, which read every text as a function that is named by its first
byte. -/
def functionGrammars : Grammars where
  grammar?
    | .typescript => some fun text =>
      (Tree.Node.ofRows? [.plain 0 "program" 0 1 none, .plain 1 "function_declaration" 0 1 none,
        .plain 2 "identifier" 0 1 (some "name")]).getD (Grammars.unreadable text)
    | _ => none

/-- A file with a function stands before one in a language without a grammar.  It gives the same
result, with its function, alone, after the other file, and where errors are tolerated. -/
theorem analyze_isolated_beside_unreadable :
    let readable := fileItem "a.ts" "f"
    let unreadable := fileItem "b.js" "g"
    InputFile.validate (.list [readable, unreadable]) = .ok [⟨"a.ts", "f"⟩, ⟨"b.js", "g"⟩] ∧
      functionGrammars.tree? ⟨"b.js", "g"⟩ = none ∧
      ∃ batch alone moved tolerant result,
        analyze .default functionGrammars (.list [readable, unreadable]) = .ok batch ∧
        batch.perFile[0]? = some result ∧ result.entities.map Entity.name = ["f"] ∧
        analyze .default functionGrammars (.list [readable]) = .ok alone ∧
        alone.perFile = [result] ∧
        analyze .default functionGrammars (.list [unreadable, readable]) = .ok moved ∧
        moved.perFile[1]? = some result ∧
        analyze { Settings.default with tolerantParsing := true } functionGrammars
          (.list [readable, unreadable]) = .ok tolerant ∧
        tolerant.perFile[0]? = some result := by
  intro readable unreadable
  have haccepted : InputFile.validate (.list [readable, unreadable]) =
      .ok [⟨"a.ts", "f"⟩, ⟨"b.js", "g"⟩] := rfl
  have hmoved : InputFile.validate (.list [unreadable, readable]) =
      .ok [⟨"b.js", "g"⟩, ⟨"a.ts", "f"⟩] := rfl
  obtain ⟨batch, hbatch, -, hisolated⟩ := analyze_isolated .default functionGrammars haccepted
  obtain ⟨file, result, alone, hfile, hresult, halone, hsame, hothers, htolerant⟩ :=
    hisolated 0 readable rfl
  cases hfile
  obtain ⟨moved, hmoved, hmovedResult⟩ := hothers functionGrammars _ _ 1 hmoved rfl rfl
  obtain ⟨tolerant, htolerant, htolerantResult⟩ := htolerant _ rfl rfl true
  have hentities : result.entities.map Entity.name = ["f"] := by
    obtain ⟨same, hsame, hresults⟩ := perFile_of_accepted .default functionGrammars haccepted
    obtain rfl : batch = same := Except.ok.inj (hbatch.symm.trans hsame)
    rw [hresults] at hresult
    rw [← Option.some.inj hresult]
    decide +kernel
  exact ⟨haccepted, rfl, batch, alone, moved, tolerant, result, hbatch, hresult, hentities, halone,
    hsame, hmoved, hmovedResult, htolerant, htolerantResult⟩

end CodeAtlas
