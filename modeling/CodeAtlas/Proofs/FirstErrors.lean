import CodeAtlas.Parsing
import CodeAtlas.Proofs.Trees

/-!
# The first error of a tree

The search for the first error of a tree goes down only where a node is an error or reports one
below it.  So it finds the first error of the walk that skips all other nodes.  Where the marks of a
tree are right, a skipped node has no error below it, and the error that is found is the first of
the whole walk.  This is the error that a strict reading is refused for.

Main results:

- Theorem {lit}`Node.findError?_eq_find?`: the search finds the first error that is not skipped.
- Theorem {lit}`Node.find?_walkSkipping`: skipping subtrees without hits changes no search.
- Theorem {lit}`strict_reading_fails_at_first_error`: the error that a strict reading reports.
-/

namespace CodeAtlas
namespace Tree
namespace Node

/-! ## Searches in walks -/

/-- Where the parts of two lists answer a search alike, so do the lists. -/
theorem find?_flatMap_congr {p : Node → Bool} {f g : Node → List Node} {nodes : List Node}
    (h : ∀ node ∈ nodes, (f node).find? p = (g node).find? p) :
    (nodes.flatMap f).find? p = (nodes.flatMap g).find? p := by
  induction nodes with
  | nil => rfl
  | cons node nodes ih =>
      rw [List.flatMap_cons, List.flatMap_cons, List.find?_append, List.find?_append,
        h node List.mem_cons_self, ih fun other hother => h other (List.mem_cons_of_mem _ hother)]

/-- A search in a walk may skip the nodes below which there is nothing to find. -/
theorem find?_walkSkipping {skip p : Node → Bool} {root : Node}
    (h : ∀ node ∈ root.walk, skip node = true → ∀ lower ∈ node.walk, p lower = false) :
    (root.walkSkipping skip).find? p = root.walk.find? p := by
  induction root using induct with
  | mk label children ih =>
      by_cases hskip : skip (.mk label children) = true
      · have hnone : (walk (.mk label children)).find? p = none := by
          rw [List.find?_eq_none]
          intro lower hlower
          simpa using h _ (mem_walk_self _) hskip lower hlower
        rw [hnone, walkSkipping, if_pos hskip, List.find?_nil]
      · have hchildren : (children.flatMap (walkSkipping skip)).find? p =
            (children.flatMap walk).find? p := by
          apply find?_flatMap_congr
          intro child hchild
          apply ih child hchild
          intro node hnode
          exact h node (mem_walk_trans hnode ((holds_children (.mk label children)).mem hchild))
        rw [walkSkipping, if_neg hskip, walkAllSkipping_eq, walk_mk, List.find?_cons,
          List.find?_cons, hchildren]

/-! ## The search for the first error -/

/-- Whether a node is passed over in the search for the first error: it is no error and reports
none. -/
def isSilent (node : Node) : Bool := !(node.label.hasError || node.isError)

/-- Among several nodes, the silent ones are passed over. -/
theorem findErrorIn?_eq_find? {nodes : List Node}
    (h : ∀ node ∈ nodes, node.isSilent = false →
      node.findError? = (node.walkSkipping isSilent).find? isError) :
    findErrorIn? nodes = (nodes.flatMap (walkSkipping isSilent)).find? isError := by
  induction nodes with
  | nil => rw [findErrorIn?, List.flatMap_nil, List.find?_nil]
  | cons node nodes ih =>
      have hrest := ih fun other hother => h other (List.mem_cons_of_mem _ hother)
      rw [findErrorIn?, List.flatMap_cons, List.find?_append, hrest]
      cases hsilent : node.isSilent with
      | true =>
          have hskipped : node.walkSkipping isSilent = [] := by
            cases node with
            | mk label children => rw [walkSkipping, if_pos hsilent]
          have hquiet : (node.label.hasError || node.isError) = false := by
            simpa only [isSilent, Bool.not_eq_true'] using hsilent
          rw [hskipped, hquiet]
          rfl
      | false =>
          have hloud : (node.label.hasError || node.isError) = true := by
            simpa only [isSilent, Bool.not_eq_false'] using hsilent
          rw [if_pos hloud, h node List.mem_cons_self hsilent]
          cases (node.walkSkipping isSilent).find? isError <;> rfl

/-- The search finds the first error of the walk that skips the silent nodes. -/
theorem findError?_eq_find? {node : Node} (h : node.isSilent = false) :
    node.findError? = (node.walkSkipping isSilent).find? isError := by
  induction node using induct with
  | mk label children ih =>
      rw [findError?, walkSkipping, h, walkAllSkipping_eq, findErrorIn?_eq_find? ih]
      simp only [Bool.false_eq_true, if_false, List.find?_cons]
      cases (Node.mk label children).isError <;> rfl

/-- The marks of a tree are right: a node reports an error exactly if its subtree holds one. -/
def ReportsErrors (root : Node) : Prop :=
  ∀ node ∈ root.walk, node.label.hasError = node.walk.any isError

instance (root : Node) : Decidable root.ReportsErrors :=
  inferInstanceAs (Decidable (∀ node ∈ root.walk, _))

/-- Where the marks are right, there is no error below a silent node. -/
theorem ReportsErrors.isError_eq_false {root : Node} (h : root.ReportsErrors) {node lower : Node}
    (hnode : node ∈ root.walk) (hsilent : node.isSilent = true) (hlower : lower ∈ node.walk) :
    lower.isError = false := by
  have hquiet : node.label.hasError = false := by
    simp only [isSilent, Bool.not_eq_true', Bool.or_eq_false_iff] at hsilent
    exact hsilent.1
  rw [h node hnode, List.any_eq_false] at hquiet
  simpa using hquiet lower hlower

/-- Where the marks are right, the first error is the first of the walk. -/
theorem firstError?_eq_find? {root : Node} (h : root.ReportsErrors) :
    root.firstError? = root.walk.find? isError := by
  have hroot := h root root.mem_walk_self
  rw [firstError?]
  cases hmark : root.label.hasError with
  | false =>
      rw [hmark] at hroot
      rw [if_neg Bool.false_ne_true, eq_comm, List.find?_eq_none]
      exact List.any_eq_false.1 hroot.symm
  | true =>
      have hloud : root.isSilent = false := by simp [isSilent, hmark]
      have hfound : (root.walk.find? isError).isSome := by
        rw [List.find?_isSome]
        exact List.any_eq_true.1 (hroot.symm.trans hmark)
      rw [if_pos rfl, findError?_eq_find? hloud,
        find?_walkSkipping fun node hnode hsilent lower => h.isError_eq_false hnode hsilent]
      rcases Option.isSome_iff_exists.1 hfound with ⟨error, herror⟩
      rw [herror, Option.getD_some]

end Node
end Tree

/-! ## Strict readings -/

open CodeAtlas.Tree

/-- A strict reading is decided by the first error of the tree. -/
theorem Grammars.parse_strict {grammars : Grammars} {path : String} {grammar : String → Node}
    (h : grammars.grammar? (Language.ofPath path) = some grammar) (text : String) :
    grammars.parse false path text =
      match (grammar text).firstError? with
      | some error => .error (syntaxFailure path (Source.ofText text) error)
      | none => .ok ⟨path, Language.ofPath path, Source.ofText text, grammar text⟩ := by
  simp only [parse, h]
  cases (grammar text).firstError? <;> rfl

theorem syntaxFailure_eq (path : String) (source : Source) (error : Node) :
    syntaxFailure path source error =
      { path
        reason :=
          if error.label.missing then "syntax error (missing token)"
          else "syntax error (unexpected input)"
        line := (source.startPoint error).line
        column := (source.startPoint error).column } := by
  unfold syntaxFailure
  cases error.label.missing <;> rfl

/-- The first error of a tree with right marks is the first in its walk.  A strict reading of a text
with this tree is refused exactly if there is an error or a missing token, and then for the first of
them: at its place, and by its kind. -/
theorem strict_reading_fails_at_first_error {root : Node} (hmarks : root.ReportsErrors) :
    root.firstError? = root.walk.find? Node.isError ∧
    ∀ (grammars : Grammars) (path text : String) (grammar : String → Node),
      grammars.grammar? (Language.ofPath path) = some grammar → grammar text = root →
      let source := Source.ofText text
      ((∃ failure, grammars.parse false path text = .error failure) ↔
        ∃ node ∈ root.walk, node.isError = true) ∧
      ((∀ node ∈ root.walk, node.isError = false) →
        grammars.parse false path text = .ok ⟨path, Language.ofPath path, source, root⟩) ∧
      ∀ before error after, root.walk = before ++ error :: after →
        (∀ node ∈ before, node.isError = false) → error.isError = true →
        grammars.parse false path text = .error
          { path
            reason :=
              if error.label.missing then "syntax error (missing token)"
              else "syntax error (unexpected input)"
            line := (source.startPoint error).line
            column := (source.startPoint error).column } := by
  have hfirst := Node.firstError?_eq_find? hmarks
  refine ⟨hfirst, ?_⟩
  intro grammars path text grammar hgrammar hroot source
  have hparse := Grammars.parse_strict hgrammar text
  rw [hroot, hfirst] at hparse
  refine ⟨?_, ?_, ?_⟩
  · rw [hparse]
    constructor
    · rintro ⟨failure, hfailure⟩
      split at hfailure
      next error herror => exact ⟨error, List.mem_of_find?_eq_some herror, List.find?_some herror⟩
      · cases hfailure
    · intro hexists
      rcases Option.isSome_iff_exists.1 (List.find?_isSome.2 hexists) with ⟨error, herror⟩
      rw [herror]
      exact ⟨_, rfl⟩
  · intro hnone
    have hfind : root.walk.find? Node.isError = none := by simpa using hnone
    rw [hparse, hfind]
  · intro before error after hwalk hbefore herror
    have hfind : root.walk.find? Node.isError = some error := by
      rw [List.find?_eq_some_iff_append]
      refine ⟨herror, before, after, hwalk, ?_⟩
      intro node hnode
      simp [hbefore node hnode]
    rw [hparse, hfind, ← syntaxFailure_eq]

/-- The rows of two statements of which the second lacks its end and is followed by an error. -/
def unfinishedRows : List Row :=
  [⟨0, "program", true, false, false, true, 0, 3, none⟩,
    ⟨1, "expression_statement", true, false, false, false, 0, 1, none⟩,
    ⟨1, "lexical_declaration", true, false, false, true, 2, 3, none⟩,
    ⟨2, "variable_declarator", true, false, false, false, 2, 3, none⟩,
    ⟨2, ";", false, false, true, true, 3, 3, none⟩,
    ⟨1, "ERROR", true, true, false, true, 3, 3, none⟩]

/-- A strict reading of {name}`unfinishedRows` is refused for the missing token, which comes before
the error. -/
theorem strict_reading_fails_at_first_error_missing :
    ∃ root, Node.ofRows? unfinishedRows = some root ∧ root.ReportsErrors ∧
      (Grammars.mk fun _ => some fun _ => root).parse false "a.ts" "a\nb" =
        .error ⟨"a.ts", "syntax error (missing token)", 2, 1⟩ := by
  obtain ⟨root, before, error, after, hroot, hmarks, hwalk, hbefore, herror, hmissing, hpoint⟩ :
      ∃ root before error after, Node.ofRows? unfinishedRows = some root ∧ root.ReportsErrors ∧
        root.walk = before ++ error :: after ∧ (∀ node ∈ before, node.isError = false) ∧
        error.isError = true ∧ error.label.missing = true ∧
        (Source.ofText "a\nb").startPoint error = ⟨2, 1⟩ :=
    ⟨_, [_, _, _, _], _, [_], rfl, by decide +kernel, rfl, by decide +kernel, rfl, rfl,
      by decide +kernel⟩
  have hfails := (strict_reading_fails_at_first_error hmarks).2
    (Grammars.mk fun _ => some fun _ => root) "a.ts" "a\nb" _ rfl rfl
  refine ⟨root, hroot, hmarks, ?_⟩
  rw [hfails.2.2 before error after hwalk hbefore herror, hmissing, hpoint]
  rfl

end CodeAtlas
