import CodeAtlas.Proofs.CircularDependencies

/-!
# Outcomes of the search for cycles

The search goes through the components of its starts by the order of the listed vertices, in which
a vertex that is not listed has no place.  It fails where it meets one, and otherwise ends with all
cycles, or as soon as there are as many as the limit allows.  A limit only ends the search earlier:
it changes nothing of what comes before.

Main results:

- Theorem {lit}`CycleSearch.cyclesFromAll_cons_cases`: what the search can do at one start.
- Theorem {lit}`cycles_error_iff`: without a limit, the search fails exactly if a listed and an
  unlisted vertex reach each other.
- Theorem {lit}`limited_cycles_are_first`: a limit cuts the list of cycles off, and the search
  reports that it stopped exactly if the limit is reached.
- Theorem {lit}`Graph.cycle_search_fails_iff`: no search for circular dependencies fails.
-/

namespace CodeAtlas
namespace Digraph

variable {α : Type} [DecidableEq α] [Hashable α]

/-! ## Failures -/

namespace CycleSearch

variable {search : CycleSearch α} {starts : List α}

/-- The search from a start goes on if the component of the start is listed as far as needed.
Otherwise it fails at an unlisted vertex of the component. -/
theorem cyclesFrom_cases (search : CycleSearch α) (found : List (List α)) (start : α) :
    (search.Listed start ∧ ∃ paths, search.cyclesFrom found start = .ok paths) ∨
    (¬ search.Listed start ∧ ∃ v ∈ componentOf search.components start,
      search.isListed v = false ∧ search.cyclesFrom found start = .error ⟨v⟩) := by
  by_cases hmay : search.mayCycle (componentOf search.components start) start = true
  · cases hfind : (componentOf search.components start).find? (!search.isListed ·) with
    | none =>
        left
        have hlisted : search.Listed start := by
          intro _ v hv
          simpa using List.find?_eq_none.1 hfind v hv
        exact ⟨hlisted, _, cyclesFrom_of_listed hlisted hmay found⟩
    | some v =>
        right
        have hv : v ∈ componentOf search.components start := List.mem_of_find?_eq_some hfind
        have hunlisted : search.isListed v = false := by simpa using List.find?_some hfind
        refine ⟨?_, v, hv, hunlisted, ?_⟩
        · intro hlisted
          simp [hlisted hmay v hv] at hunlisted
        · simp [cyclesFrom, hmay, hfind]
  · left
    refine ⟨fun h => absurd h hmay, ?_⟩
    simp [cyclesFrom, hmay]

/-- What a search does at its first start: it goes on with the others, it ends there, as only a
search with a limit does, or it fails at an unlisted vertex of the component. -/
theorem cyclesFromAll_cons_cases (hbounded : search.Bounded) (found : List (List α)) (start : α)
    (starts : List α) :
    (search.Listed start ∧ ∃ more,
      search.cyclesFromAll found (start :: starts) = search.cyclesFromAll more starts) ∨
    (search.Listed start ∧ search.limit ≠ 0 ∧ ∃ report,
      search.cyclesFromAll found (start :: starts) = .ok report) ∨
    (¬ search.Listed start ∧ ∃ v ∈ componentOf search.components start,
      search.isListed v = false ∧
        search.cyclesFromAll found (start :: starts) = .error ⟨v⟩) := by
  rcases cyclesFrom_cases search found start with
    ⟨hlisted, paths, hpaths⟩ | ⟨hnot, v, hv, hunlisted, hfails⟩
  · by_cases hstopped : paths.stopped = true
    · refine Or.inr (Or.inl ⟨hlisted, ?_, ⟨paths.found.reverse, true⟩, ?_⟩)
      · intro hlimit
        rw [cyclesFrom_unlimited hlimit hbounded hlisted found] at hpaths
        cases hpaths
        simp at hstopped
      · simp [cyclesFromAll, hpaths, hstopped]
    · exact Or.inl ⟨hlisted, paths.found, by simp [cyclesFromAll, hpaths, hstopped]⟩
  · exact Or.inr (Or.inr ⟨hnot, v, hv, hunlisted, by simp [cyclesFromAll, hfails]⟩)

/-- A search that can go on from every start does not fail, whatever its limit. -/
theorem exists_cyclesFromAll_eq_ok (hbounded : search.Bounded)
    (hlisted : ∀ start ∈ starts, search.Listed start) (found : List (List α)) :
    ∃ report, search.cyclesFromAll found starts = .ok report := by
  induction starts generalizing found with
  | nil => exact ⟨_, rfl⟩
  | cons start starts ih =>
      rcases cyclesFromAll_cons_cases hbounded found start starts with
        ⟨-, more, hmore⟩ | ⟨-, -, hends⟩ | ⟨hnot, -⟩
      · rw [hmore]
        exact ih (fun other hother => hlisted other (List.mem_cons_of_mem _ hother)) more
      · exact hends
      · exact absurd (hlisted start List.mem_cons_self) hnot

/-- A search that fails does so at an unlisted vertex of the component of a start. -/
theorem exists_start_of_error (hbounded : search.Bounded) {found : List (List α)}
    {unlisted : UnlistedVertex α} (h : search.cyclesFromAll found starts = .error unlisted) :
    ∃ start ∈ starts, unlisted.vertex ∈ componentOf search.components start ∧
      search.isListed unlisted.vertex = false := by
  induction starts generalizing found with
  | nil => cases h
  | cons start starts ih =>
      rcases cyclesFromAll_cons_cases hbounded found start starts with
        ⟨-, more, hmore⟩ | ⟨-, -, report, hends⟩ | ⟨-, v, hv, hunlisted, hfails⟩
      · obtain ⟨other, hother, hmem⟩ := ih (hmore.symm.trans h)
        exact ⟨other, List.mem_cons_of_mem _ hother, hmem⟩
      · cases hends.symm.trans h
      · cases hfails.symm.trans h
        exact ⟨start, List.mem_cons_self, hv, hunlisted⟩

/-- A search without a limit comes to every start, so that it succeeds only if it can go on from
each. -/
theorem listed_of_cyclesFromAll_eq_ok (hlimit : search.limit = 0) (hbounded : search.Bounded)
    {found : List (List α)} {report : CycleReport α}
    (h : search.cyclesFromAll found starts = .ok report) :
    ∀ start ∈ starts, search.Listed start := by
  induction starts generalizing found with
  | nil => simp
  | cons start starts ih =>
      rcases cyclesFromAll_cons_cases hbounded found start starts with
        ⟨hstart, more, hmore⟩ | ⟨-, hnonzero, -⟩ | ⟨-, v, -, -, hfails⟩
      · intro other hother
        rcases List.mem_cons.1 hother with rfl | hother
        · exact hstart
        · exact ih (hmore.symm.trans h) other hother
      · exact absurd hlimit hnonzero
      · cases hfails.symm.trans h

end CycleSearch

section Outcomes

variable {vertices : List α} {graph : Adjacency α}

/-- Where components are listed, no search fails, whatever its limit. -/
theorem exists_cycles_eq_ok (hlists : graph.ListsComponents vertices) (limit : Int) :
    ∃ report, cycles vertices graph limit = .ok report :=
  CycleSearch.exists_cyclesFromAll_eq_ok (CycleSearch.ofGraph_bounded vertices graph limit)
    (hlists.listed limit) []

/-- A search without a limit succeeds only where components are listed. -/
theorem listsComponents_of_cycles_eq_ok {report : CycleReport α}
    (h : cycles vertices graph 0 = .ok report) : graph.ListsComponents vertices := by
  intro v hv
  have hlisted := CycleSearch.listed_of_cyclesFromAll_eq_ok rfl
    (CycleSearch.ofGraph_bounded vertices graph 0) h v hv
  exact (CycleSearch.listed_ofGraph_iff hv).1 hlisted

/-- Whatever its limit, a search fails at an unlisted vertex that a listed one reaches and is
reached by. -/
theorem exists_mutual_of_cycles_eq_error {limit : Int} {unlisted : UnlistedVertex α}
    (h : cycles vertices graph limit = .error unlisted) :
    ∃ v ∈ vertices, unlisted.vertex ∉ vertices ∧ graph.Reaches v unlisted.vertex ∧
      graph.Reaches unlisted.vertex v := by
  obtain ⟨v, hv, hmem, hunlisted⟩ :=
    CycleSearch.exists_start_of_error (CycleSearch.ofGraph_bounded vertices graph limit) h
  rw [CycleSearch.ofGraph_isListed] at hunlisted
  obtain ⟨hto, hback⟩ := (CycleSearch.mem_componentOf_iff graph hv _).1 hmem
  exact ⟨v, hv, by simpa using hunlisted, hto, hback⟩

/-- A search without a limit fails exactly if a listed and an unlisted vertex reach each other. -/
theorem cycles_error_iff :
    (∃ unlisted, cycles vertices graph 0 = .error unlisted) ↔
      ∃ v ∈ vertices, ∃ u ∉ vertices, graph.Reaches v u ∧ graph.Reaches u v := by
  constructor
  · rintro ⟨unlisted, h⟩
    obtain ⟨v, hv, hu, hmutual⟩ := exists_mutual_of_cycles_eq_error h
    exact ⟨v, hv, unlisted.vertex, hu, hmutual⟩
  · rintro ⟨v, hv, u, hu, hto, hback⟩
    cases h : cycles vertices graph 0 with
    | error unlisted => exact ⟨unlisted, rfl⟩
    | ok report => exact absurd (listsComponents_of_cycles_eq_ok h v hv u hto hback) hu

/-! ## Limits -/

/-- Where the search without a limit lists the cycles of a graph, the search with a limit lists the
first of them, as many as the limit allows, and reports that it stopped exactly if there are that
many. -/
theorem limited_cycles_are_first {report : CycleReport α} (h : cycles vertices graph 0 = .ok report)
    {limit : Int} (hlimit : 0 < limit) :
    ∃ limited, cycles vertices graph limit = .ok limited ∧
      limited.cycles = report.cycles.take (min limit.toNat report.cycles.length) ∧
      limited.warnings limit =
        if limit ≤ report.cycles.length then [.cyclesStopped limit] else [] := by
  have hlists := listsComponents_of_cycles_eq_ok h
  obtain ⟨bound, rfl⟩ := Int.eq_ofNat_of_zero_le (Int.le_of_lt hlimit)
  have hreport : report = ⟨allWays vertices graph, false⟩ :=
    Except.ok.inj (h.symm.trans (cycles_unlimited hlists))
  refine ⟨_, cycles_limited hlists (Int.natCast_pos.1 hlimit), ?_, ?_⟩
  · rw [hreport, Int.toNat_natCast, ← List.take_take, List.take_length]
  · simp [hreport, CycleReport.warnings]

/-- The cycles from a start without the tables of the search, so that those of a small graph can be
evaluated. -/
theorem CycleSearch.waysFrom_ofGraph (vertices : List α) (graph : Adjacency α) (limit : Int)
    (start : α) :
    (ofGraph vertices graph limit).waysFrom start =
      (let members := componentOf (Digraph.components vertices graph) start
      let allowed := members.filter ((notBefore vertices start).contains ·)
      let next := fun v => (graph.successors v).filter (allowed.contains ·)
      if members.length != 1 || (graph.successors start).contains start then
        PathSearch.closings next start (allowed.length + 1) [start] (next start)
      else []) := by
  simp only [waysFrom, mayCycle, nextAt_ofGraph, allowedAt_ofGraph, ofGraph_successors]
  rfl

/-- Of three cycles, a limit of two leaves the first two.  A limit of three leaves them all, but is
reached with the last of them, and a limit of four is not reached. -/
theorem limited_cycles_are_first_of_three :
    let graph : Adjacency Nat := ⟨[(1, [2, 3]), (2, [1]), (3, [1, 3])]⟩
    cycles [1, 2, 3] graph 0 = .ok ⟨[[1, 2], [1, 3], [3]], false⟩ ∧
      (∃ limited, cycles [1, 2, 3] graph 2 = .ok limited ∧ limited.cycles = [[1, 2], [1, 3]] ∧
        limited.warnings 2 = [.cyclesStopped 2]) ∧
      (∃ limited, cycles [1, 2, 3] graph 3 = .ok limited ∧
        limited.cycles = [[1, 2], [1, 3], [3]] ∧ limited.warnings 3 = [.cyclesStopped 3]) ∧
      (∃ limited, cycles [1, 2, 3] graph 4 = .ok limited ∧
        limited.cycles = [[1, 2], [1, 3], [3]] ∧ limited.warnings 4 = []) := by
  intro graph
  have hsources : ∀ v w, graph.Arc v w → v ∈ [1, 2, 3] := by
    intro v w harc
    by_contra hv
    simp only [List.mem_cons, List.not_mem_nil, or_false, not_or, ← beq_eq_false_iff_ne] at hv
    simp [Adjacency.Arc, Adjacency.successors, graph, List.lookup_cons, hv] at harc
  have hways : allWays [1, 2, 3] graph = [[1, 2], [1, 3], [3]] := by
    simp only [allWays, List.flatMap_cons, List.flatMap_nil, CycleSearch.waysFrom_ofGraph]
    decide
  have hall : cycles [1, 2, 3] graph 0 = .ok ⟨[[1, 2], [1, 3], [3]], false⟩ :=
    hways ▸ cycles_unlimited (.of_arcs hsources)
  exact ⟨hall, limited_cycles_are_first hall (by decide), limited_cycles_are_first hall (by decide),
    limited_cycles_are_first hall (by decide)⟩

end Outcomes
end Digraph

namespace Dependency
namespace Graph

open CodeAtlas.Digraph

/-! ## Dependency graphs -/

/-- A search for cycles fails exactly if a listed and an unlisted vertex reach each other.  A
dependency graph has no such vertices, even if files depend on files that are no nodes, so that the
search for its circular dependencies does not fail under any limit. -/
theorem cycle_search_fails_iff :
    (∀ (vertices : List String) (adjacency : Adjacency String),
      (∃ unlisted, Digraph.cycles vertices adjacency 0 = .error unlisted) ↔
        ∃ v ∈ vertices, ∃ u ∉ vertices, adjacency.Reaches v u ∧ adjacency.Reaches u v) ∧
    ∀ (nodes : List String) (edges : List Edge) (maxCycles : Int) (graph : Graph),
      build nodes edges maxCycles = .ok graph →
        Digraph.cycles nodes graph.adjacency maxCycles = .ok graph.cycleReport := by
  refine ⟨fun vertices adjacency => cycles_error_iff, ?_⟩
  intro nodes edges maxCycles graph hbuild
  obtain ⟨rfl, rfl, rfl⟩ := build_eq_ok hbuild
  obtain ⟨report, hreport⟩ := exists_cycles_eq_ok graph.lists_components graph.maxCycles
  rw [cycleReport, hreport]

/-- A file and a missing file that lead to each other make the search fail.  The graph of
{name}`tangle` depends on a missing file too, which leads nowhere, and is searched under any
limit. -/
theorem cycle_search_fails_iff_missing :
    (∃ unlisted, Digraph.cycles ["a"] ⟨[("a", ["gone"]), ("gone", ["a"])]⟩ 0 = .error unlisted) ∧
      ∀ maxCycles, ∃ graph, build ["a", "b"] tangle maxCycles = .ok graph ∧
        graph.DependsOn "b" "gone" ∧ "gone" ∉ graph.nodes ∧
        Digraph.cycles ["a", "b"] graph.adjacency maxCycles = .ok graph.cycleReport := by
  obtain ⟨hfails, hsearched⟩ := cycle_search_fails_iff
  constructor
  · refine (hfails _ _).2 ⟨"a", by decide, "gone", by decide, .single ?_, .single ?_⟩
    · exact List.mem_singleton.2 rfl
    · exact List.mem_singleton.2 rfl
  · intro maxCycles
    obtain ⟨graph, hbuild⟩ : ∃ graph, build ["a", "b"] tangle maxCycles = .ok graph :=
      ⟨_, dif_pos (by decide)⟩
    obtain ⟨hnodes, hedges, -⟩ := build_eq_ok hbuild
    refine ⟨graph, hbuild, ?_, by rw [hnodes]; decide, hsearched _ _ _ _ hbuild⟩
    exact ⟨⟨"b", "gone", .importing, "./gone", false⟩, by rw [hedges]; decide, rfl, rfl, rfl⟩

end Graph
end Dependency
end CodeAtlas
