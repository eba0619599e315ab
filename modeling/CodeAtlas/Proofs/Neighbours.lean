import CodeAtlas.Proofs.CircularDependencies

/-!
# The neighbours of a file

The dependents of a file, its dependencies and its adjacent files are all read off the edges in one
way: an edge that belongs to the file brings in the name at its other end, unless an earlier edge
has brought it in.  So the three lists hold what the edges relate, each name once, in the order of
the first edge that brings it in, and the first two are converse to each other.

Main results:

- Theorem {lit}`mentions_append`: what one more edge adds to a list of neighbours.
- Theorem {lit}`mentions_lists`: what a list of neighbours holds after all edges.
- Theorem {lit}`Graph.neighbours_converse`: the neighbours of the files of a graph, and when there
  is no answer.
-/

namespace CodeAtlas
namespace Dependency

/-! ## Lists of neighbours -/

/-- A list holds the names that edges bring in: each of them once, in the order of the first edge
that brings it in. -/
structure Lists (edges : List Edge) (brings : String → Edge → Bool) (found : List String) :
    Prop where
  mem_iff : ∀ name, name ∈ found ↔ ∃ edge ∈ edges, brings name edge = true
  nodup : found.Nodup
  ordered : found.Pairwise fun earlier later =>
    edges.findIdx (brings earlier) < edges.findIdx (brings later)

namespace Lists

variable {edges : List Edge} {brings : String → Edge → Bool} {found : List String} {edge : Edge}

theorem nil (brings : String → Edge → Bool) : Lists [] brings [] :=
  ⟨by simp, List.nodup_nil, List.Pairwise.nil⟩

/-- The first edge that brings a listed name in does not depend on the edges to come. -/
theorem findIdx_append (h : Lists edges brings found) {name : String} (hname : name ∈ found) :
    (edges ++ [edge]).findIdx (brings name) = edges.findIdx (brings name) := by
  have hfound : edges.findIdx (brings name) < edges.length :=
    List.findIdx_lt_length.2 ((h.mem_iff name).1 hname)
  rw [List.findIdx_append, if_pos hfound]

theorem ordered_append (h : Lists edges brings found) :
    found.Pairwise fun earlier later =>
      (edges ++ [edge]).findIdx (brings earlier) < (edges ++ [edge]).findIdx (brings later) := by
  refine h.ordered.imp_of_mem fun hearlier hlater hlt => ?_
  rwa [h.findIdx_append hearlier, h.findIdx_append hlater]

/-- An edge that brings in nothing new changes nothing. -/
theorem append_known (h : Lists edges brings found)
    (hknown : ∀ name, brings name edge = true → name ∈ found) :
    Lists (edges ++ [edge]) brings found where
  mem_iff name := by
    constructor
    · intro hname
      obtain ⟨first, hfirst, hbrings⟩ := (h.mem_iff name).1 hname
      exact ⟨first, List.mem_append_left _ hfirst, hbrings⟩
    · rintro ⟨last, hlast, hbrings⟩
      rcases List.mem_append.1 hlast with hlast | hlast
      · exact (h.mem_iff name).2 ⟨last, hlast, hbrings⟩
      · rw [List.mem_singleton.1 hlast] at hbrings
        exact hknown name hbrings
  nodup := h.nodup
  ordered := h.ordered_append

/-- An edge that brings in a new name puts it last. -/
theorem append_new (h : Lists edges brings found) {name : String} (hnew : name ∉ found)
    (hbrings : ∀ other, brings other edge = true ↔ other = name) :
    Lists (edges ++ [edge]) brings (found ++ [name]) where
  mem_iff other := by
    simp only [List.mem_append, List.mem_singleton, h.mem_iff other, ← hbrings other, or_and_right,
      exists_or, exists_eq_left]
  nodup := List.concat_eq_append ▸ h.nodup.concat hnew
  ordered := by
    have hlast : (edges ++ [edge]).findIdx (brings name) = edges.length := by
      have hnone : ¬edges.findIdx (brings name) < edges.length := fun hlt =>
        hnew ((h.mem_iff name).2 (List.findIdx_lt_length.1 hlt))
      rw [List.findIdx_append, if_neg hnone, List.findIdx_cons, (hbrings name).2 rfl]
      simp
    refine List.pairwise_append.2 ⟨h.ordered_append, List.pairwise_singleton _ _, ?_⟩
    intro earlier hearlier later hlater
    rw [List.mem_singleton.1 hlater, hlast, h.findIdx_append hearlier]
    exact List.findIdx_lt_length.2 ((h.mem_iff earlier).1 hearlier)

end Lists

/-- The names at one end of the edges that pass a test, without repeats. -/
def mentions (picks : Edge → Bool) (name : Edge → String) (edges : List Edge) : List String :=
  ((edges.filter picks).map name).eraseDups

/-- What one more edge adds to a list of neighbours: its name, if it passes and the name is new. -/
theorem mentions_append (picks : Edge → Bool) (name : Edge → String) (edges : List Edge)
    (edge : Edge) :
    mentions picks name (edges ++ [edge]) =
      if picks edge = true ∧ name edge ∉ mentions picks name edges then
        mentions picks name edges ++ [name edge]
      else mentions picks name edges := by
  have hmem : name edge ∈ mentions picks name edges ↔ name edge ∈ (edges.filter picks).map name :=
    List.mem_eraseDups
  rw [mentions, List.filter_append, List.map_append, List.eraseDups_append]
  change mentions picks name edges ++ _ = _
  by_cases hpicks : picks edge = true
  · by_cases hold : name edge ∈ mentions picks name edges
    · simp [hpicks, hold, hmem.1 hold, List.removeAll]
    · have hnew : name edge ∉ (edges.filter picks).map name := fun h => hold (hmem.2 h)
      simp [hpicks, hold, hnew, List.removeAll, List.eraseDups_cons]
  · simp [hpicks]

/-- A list of neighbours holds the names at one end of the edges that pass, in the order of the
first such edge. -/
theorem mentions_lists (picks : Edge → Bool) (name : Edge → String) (edges : List Edge) :
    Lists edges (fun other edge => picks edge && name edge == other)
      (mentions picks name edges) := by
  induction edges using List.reverseRecOn with
  | nil => exact Lists.nil _
  | append_singleton edges edge ih =>
      rw [mentions_append]
      split
      next hnew =>
        refine ih.append_new hnew.2 fun other => ?_
        rw [hnew.1, Bool.true_and, beq_iff_eq, eq_comm]
      next hold =>
        refine ih.append_known fun other hbrings => ?_
        simp only [Bool.and_eq_true, beq_iff_eq] at hbrings
        obtain ⟨hpicks, rfl⟩ := hbrings
        by_contra hmem
        exact hold ⟨hpicks, hmem⟩

/-! ## Questions to a graph -/

namespace Graph

/-- The answer about a file: what was found, if the file is known. -/
def answer (graph : Graph) (file : String) (found : List String) : Except Failure (List String) :=
  if graph.isKnown file then .ok found else .error (.notFound file)

section Answers

variable {graph : Graph} {file : String} {found : List String}

/-- An answer is missing exactly for a file that is neither a node nor the target of an edge. -/
theorem answer_eq_error_iff {failure : Failure} :
    graph.answer file found = .error failure ↔
      failure = .notFound file ∧ file ∉ graph.nodes ∧ ∀ edge ∈ graph.edges, edge.target ≠ file := by
  have hunknown : graph.isKnown file = false ↔
      file ∉ graph.nodes ∧ ∀ edge ∈ graph.edges, edge.target ≠ file := by
    simp [isKnown]
  rw [← hunknown, answer]
  by_cases hknown : graph.isKnown file = true
  · simp [hknown]
  · simp [hknown, eq_comm]

theorem eq_of_answer_eq_ok {other : List String} (h : graph.answer file found = .ok other) :
    other = found := by
  unfold answer at h
  split at h
  · exact (Except.ok.inj h).symm
  · cases h

theorem answer_of_mem (h : file ∈ graph.nodes) : graph.answer file found = .ok found := by
  rw [answer, isKnown, List.contains_iff_mem.2 h, Bool.true_or, if_pos rfl]

/-- A file that is not blank is refused exactly if it is not known. -/
theorem answer_eq (h : Text.isBlank file = false) :
    graph.answer file found =
      match graph.unknown? file with
      | some failure => .error failure
      | none => .ok found := by
  cases hknown : graph.isKnown file with
  | false => simp [answer, unknown?, h, hknown]
  | true => simp [answer, unknown?, h, hknown]

theorem dependents_eq (h : Text.isBlank file = false) :
    graph.dependents file =
      graph.answer file (mentions (·.target == file) Edge.source graph.edges) :=
  (answer_eq h).symm

theorem dependencies_eq (h : Text.isBlank file = false) :
    graph.dependencies file =
      graph.answer file (mentions (·.source == file) Edge.target graph.edges) :=
  (answer_eq h).symm

/-- An answer with the names at one end of the edges that pass a test lists them. -/
theorem lists_of_answer {picks : Edge → Bool} {name : Edge → String}
    (h : graph.answer file (mentions picks name graph.edges) = .ok found) :
    Lists graph.edges (fun other edge => picks edge && name edge == other) found := by
  rw [eq_of_answer_eq_ok h]
  exact mentions_lists picks name graph.edges

/-- The dependents of a file are the sources of the edges to it. -/
theorem dependents_lists (hblank : Text.isBlank file = false)
    (h : graph.dependents file = .ok found) :
    Lists graph.edges (fun name edge => edge.target == file && edge.source == name) found :=
  lists_of_answer ((dependents_eq hblank).symm.trans h)

/-- The dependencies of a file are the targets of the edges from it. -/
theorem dependencies_lists (hblank : Text.isBlank file = false)
    (h : graph.dependencies file = .ok found) :
    Lists graph.edges (fun name edge => edge.source == file && edge.target == name) found :=
  lists_of_answer ((dependencies_eq hblank).symm.trans h)

/-- The adjacent files of a node are the targets of the edges from it that are not external. -/
theorem adjacency_lists (h : graph.adjacency.entries.lookup file = some found) :
    Lists graph.edges
      (fun name edge => (edge.source == file && !edge.external) && edge.target == name) found := by
  rw [adjacency, lookup_map_node] at h
  split at h
  · rw [← Option.some.inj h]
    exact mentions_lists _ _ _
  · cases h

end Answers

/-- In a graph of any nodes and edges, the dependents of a file are the sources of the edges to it,
its dependencies are the targets of the edges from it, and its adjacent files are those targets that
some edge from it reaches without being external.  Each list has its names in the order of the first
edge that brings them in, without repeats.  So dependents and dependencies are converse, and adjacent
files are dependencies.  There is no answer exactly for a file that is neither a node nor the target
of an edge. -/
theorem neighbours_converse {nodes : List String} {edges : List Edge} {maxCycles : Int}
    {graph : Graph} (hbuild : build nodes edges maxCycles = .ok graph) {a b : String}
    (ha : Text.isBlank a = false) (hb : Text.isBlank b = false) :
    (∀ failure, graph.dependents b = .error failure ↔
      failure = .notFound b ∧ b ∉ nodes ∧ ∀ edge ∈ edges, edge.target ≠ b) ∧
    (∀ failure, graph.dependencies a = .error failure ↔
      failure = .notFound a ∧ a ∉ nodes ∧ ∀ edge ∈ edges, edge.target ≠ a) ∧
    (∀ into, graph.dependents b = .ok into →
      Lists edges (fun name edge => edge.target == b && edge.source == name) into) ∧
    (∀ onto, graph.dependencies a = .ok onto →
      Lists edges (fun name edge => edge.source == a && edge.target == name) onto) ∧
    (∀ into onto, graph.dependents b = .ok into → graph.dependencies a = .ok onto →
      (b ∈ onto ↔ a ∈ into) ∧
        (a ∈ into ↔ ∃ edge ∈ edges, edge.source = a ∧ edge.target = b)) ∧
    (a ∈ nodes → ∃ targets onto, graph.adjacency.entries.lookup a = some targets ∧
      graph.dependencies a = .ok onto ∧
      Lists edges (fun name edge => (edge.source == a && !edge.external) && edge.target == name)
        targets ∧
      targets ⊆ onto) := by
  obtain ⟨rfl, rfl, -⟩ := build_eq_ok hbuild
  refine ⟨?_, ?_, fun _ => dependents_lists hb, fun _ => dependencies_lists ha, ?_, ?_⟩
  · intro failure
    rw [dependents_eq hb, answer_eq_error_iff]
  · intro failure
    rw [dependencies_eq ha, answer_eq_error_iff]
  · intro into onto hinto honto
    have hleads : a ∈ into ↔ ∃ edge ∈ graph.edges, edge.source = a ∧ edge.target = b := by
      simp only [(dependents_lists hb hinto).mem_iff a, Bool.and_eq_true, beq_iff_eq, and_comm]
    refine ⟨?_, hleads⟩
    rw [hleads]
    simp only [(dependencies_lists ha honto).mem_iff b, Bool.and_eq_true, beq_iff_eq]
  · intro hnode
    have htargets : graph.adjacency.entries.lookup a = some (graph.targets a) := by
      rw [adjacency, lookup_map_node, if_pos (List.mem_eraseDups.2 hnode)]
    have honto := (dependencies_eq ha).trans (answer_of_mem hnode)
    refine ⟨_, _, htargets, honto, adjacency_lists htargets, ?_⟩
    intro name hname
    obtain ⟨edge, hedge, hbrings⟩ := ((adjacency_lists htargets).mem_iff name).1 hname
    refine ((dependencies_lists ha honto).mem_iff name).2 ⟨edge, hedge, ?_⟩
    simp only [Bool.and_eq_true] at hbrings ⊢
    exact ⟨hbrings.1.1, hbrings.2⟩

/-- A file refers to another as to something outside, then to a module, and then to the same file
from within.  Before that a third file refers to the other one, which at last refers to itself. -/
def crossing : List Edge :=
  [⟨"c", "b", .importing, "./b", false⟩, ⟨"a", "b", .importing, "b", true⟩,
    ⟨"a", "lib", .importing, "lib", true⟩, ⟨"a", "b", .reExport, "./b", false⟩,
    ⟨"b", "b", .importing, "./b", false⟩]

/-- In {name}`crossing`, the other file has three dependents and is a dependency of the first one,
once. -/
theorem neighbours_converse_crossing :
    ∃ graph, build ["a", "b", "c"] crossing 0 = .ok graph ∧
      Text.isBlank "a" = false ∧ Text.isBlank "b" = false ∧
      graph.dependents "b" = .ok ["c", "a", "b"] ∧ graph.dependencies "a" = .ok ["b", "lib"] ∧
      Lists crossing (fun name edge => edge.target == "b" && edge.source == name)
        ["c", "a", "b"] ∧
      (∃ edge ∈ crossing, edge.source = "a" ∧ edge.target = "b") ∧
      ∃ targets, graph.adjacency.entries.lookup "a" = some targets ∧ targets ⊆ ["b", "lib"] := by
  have hsources : ∀ edge ∈ crossing, edge.source ∈ ["a", "b", "c"] := by decide
  have hbuild : build ["a", "b", "c"] crossing 0 = .ok ⟨["a", "b", "c"], crossing, 0, hsources⟩ :=
    dif_pos hsources
  have hinto : dependents ⟨["a", "b", "c"], crossing, 0, hsources⟩ "b" = .ok ["c", "a", "b"] := rfl
  have honto : dependencies ⟨["a", "b", "c"], crossing, 0, hsources⟩ "a" = .ok ["b", "lib"] := rfl
  have ha : Text.isBlank "a" = false := by decide
  have hb : Text.isBlank "b" = false := by decide
  obtain ⟨-, -, hlists, -, hconverse, hadjacent⟩ := neighbours_converse hbuild ha hb
  obtain ⟨targets, onto, htargets, honto', -, hsubset⟩ := hadjacent (by decide)
  rw [honto] at honto'
  cases honto'
  exact ⟨_, hbuild, ha, hb, hinto, honto, hlists _ hinto,
    (hconverse _ _ hinto honto).2.1 (by decide), targets, htargets, hsubset⟩

end Graph
end Dependency
end CodeAtlas
