import CodeAtlas.Proofs.DotDocuments

/-!
# Files on cycles

A drawing marks the files on cycles, which one search lists; the components are found by another.
A file is on a cycle exactly if it depends on itself, along however many steps: a way that leads
back to its start can be cut short wherever it meets itself, and what remains is an elementary cycle
through the start.  So a file is on a cycle if it depends on itself directly, or if it shares its
component with another file.

Main results:

- Theorem {lit}`Digraph.transGen_self_iff_exists_cycle`: what leads back to its start is on an
  elementary cycle.
- Theorem {lit}`Digraph.two_le_length_component_iff`: the components with more than one vertex.
- Theorem {lit}`Dependency.Graph.exists_cycle_iff`: the files on the cycles that are listed.
- Theorem {lit}`Dependency.Graph.red_iff_depends_on_itself`: the files that are drawn red.
-/

namespace CodeAtlas
namespace Digraph

open Relation

variable {α : Type}

/-! ## Ways that lead back -/

section Ways

variable {r : α → α → Prop} {x y : α}

/-- What reaches a vertex reaches it along a way without repeats. -/
theorem exists_simple_way (h : ReflTransGen r x y) :
    ∃ front, (front ++ [y]).Nodup ∧ (front ++ [y]).IsChain r ∧ (front ++ [y]).head? = some x := by
  induction h using ReflTransGen.head_induction_on with
  | refl => exact ⟨[], List.nodup_singleton y, .singleton y, rfl⟩
  | @head x next hstep _ ih =>
      rcases ih with ⟨front, hnodup, hchain, hhead⟩
      by_cases hmet : x ∈ front ++ [y]
      · -- the way comes through the vertex again, and can start there
        rcases List.mem_append.1 hmet with hmet | hmet
        · rcases List.append_of_mem hmet with ⟨before, after, rfl⟩
          rw [List.append_assoc] at hnodup hchain
          exact ⟨x :: after, (List.nodup_append.1 hnodup).2.1, hchain.right_of_append, rfl⟩
        · rw [List.mem_singleton.1 hmet]
          exact ⟨[], List.nodup_singleton y, .singleton y, rfl⟩
      · refine ⟨x :: front, List.nodup_cons.2 ⟨hmet, hnodup⟩, ?_, rfl⟩
        rw [List.cons_append, List.isChain_cons]
        refine ⟨?_, hchain⟩
        intro first hfirst
        rw [hhead, Option.mem_some_iff] at hfirst
        exact hfirst ▸ hstep

/-- What leads back to its start contains an elementary cycle from there. -/
theorem exists_cycle_of_transGen (h : TransGen r x x) : ∃ rest, ElementaryCycle r (x :: rest) := by
  rcases TransGen.head'_iff.1 h with ⟨next, hstep, hback⟩
  rcases exists_simple_way hback with ⟨rest, hnodup, hchain, hhead⟩
  refine ⟨rest, ElementaryCycle.cons_iff.2 ⟨?_, ?_, hchain⟩⟩
  · exact (List.perm_append_singleton x rest).nodup_iff.1 hnodup
  · intro first hfirst
    rw [hhead, Option.mem_some_iff] at hfirst
    exact hfirst ▸ hstep

/-- The vertices of an elementary cycle lead back to themselves. -/
theorem ElementaryCycle.transGen {cycle : List α} (h : ElementaryCycle r cycle) (hx : x ∈ cycle) :
    TransGen r x x := by
  rcases exists_rotation hx with ⟨rest, hrot⟩
  have hcycle := h.rotated hrot
  rcases cons_iff.1 hcycle with ⟨-, hfirst, -⟩
  cases rest with
  | nil => exact .single (hfirst x rfl)
  | cons next rest =>
      have hnext : next ∈ x :: next :: rest := List.mem_cons_of_mem _ List.mem_cons_self
      exact .head' (hfirst next rfl) (hcycle.reaches hnext).2

/-- What leads back to its start is on an elementary cycle. -/
theorem transGen_self_iff_exists_cycle :
    TransGen r x x ↔ ∃ cycle, ElementaryCycle r cycle ∧ x ∈ cycle := by
  constructor
  · intro h
    rcases exists_cycle_of_transGen h with ⟨rest, hcycle⟩
    exact ⟨x :: rest, hcycle, List.mem_cons_self⟩
  · rintro ⟨cycle, hcycle, hx⟩
    exact hcycle.transGen hx

/-- A vertex leads back to itself directly, or by way of another vertex. -/
theorem transGen_self_iff :
    TransGen r x x ↔ r x x ∨ ∃ y, y ≠ x ∧ ReflTransGen r x y ∧ ReflTransGen r y x := by
  constructor
  · intro h
    rcases TransGen.head'_iff.1 h with ⟨next, hstep, hback⟩
    by_cases hself : next = x
    · exact .inl (hself ▸ hstep)
    · exact .inr ⟨next, hself, .single hstep, hback⟩
  · rintro (hself | ⟨y, hne, hthere, hback⟩)
    · exact .single hself
    · rcases hthere.cases_head with rfl | ⟨next, hstep, hrest⟩
      · exact absurd rfl hne
      · exact .head' hstep (hrest.trans hback)

end Ways

/-! ## Components -/

section Components

variable [DecidableEq α] {vertices : List α} {graph : Adjacency α} {component : List α} {x : α}

/-- A component has a second vertex exactly if its vertices reach another one and are reached by
it. -/
theorem two_le_length_component_iff (hmem : component ∈ components vertices graph)
    (hx : x ∈ component) :
    2 ≤ component.length ↔ ∃ y, y ≠ x ∧ graph.Reaches x y ∧ graph.Reaches y x := by
  have hnodup : component.Nodup :=
    (components_nodup vertices graph).sublist (List.sublist_flatten_of_mem hmem)
  have hpos : 0 < component.length := List.length_pos_of_mem hx
  have hsingle : component = [x] ↔ component.length = 1 := by
    constructor
    · intro heq
      rw [heq, List.length_singleton]
    · intro hlength
      rcases List.length_eq_one_iff.1 hlength with ⟨only, rfl⟩
      rw [List.mem_singleton.1 hx]
  have hlength : 2 ≤ component.length ↔ component ≠ [x] := by
    rw [ne_eq, hsingle]
    omega
  rw [hlength, hnodup.ne_singleton_iff]
  constructor
  · rintro (rfl | ⟨y, hy, hne⟩)
    · exact absurd hx List.not_mem_nil
    · exact ⟨y, hne, (mem_component_iff hmem hx y).1 hy⟩
  · rintro ⟨y, hne, hmutual⟩
    exact .inr ⟨y, (mem_component_iff hmem hx y).2 hmutual, hne⟩

/-- A component is trivial when it is a single vertex without an arc to itself. -/
def Trivial (graph : Adjacency α) (component : List α) : Prop :=
  ∃ v, component = [v] ∧ ¬graph.Arc v v

/-- A vertex leads back to itself exactly if its component is not trivial. -/
theorem transGen_self_iff_component (hmem : component ∈ components vertices graph)
    (hx : x ∈ component) : TransGen graph.Arc x x ↔ ¬Trivial graph component := by
  rw [transGen_self_iff, ← two_le_length_component_iff hmem hx]
  constructor
  · rintro (harc | hlength) ⟨v, rfl, hnone⟩
    · rw [List.mem_singleton.1 hx] at harc
      exact hnone harc
    · rw [List.length_singleton] at hlength
      omega
  · intro hnot
    by_cases harc : graph.Arc x x
    · exact .inl harc
    · right
      by_contra hshort
      have hpos : 0 < component.length := List.length_pos_of_mem hx
      rcases List.length_eq_one_iff.1 (by omega : component.length = 1) with ⟨only, rfl⟩
      rw [List.mem_singleton.1 hx] at harc
      exact hnot ⟨only, rfl, harc⟩

end Components
end Digraph

namespace Dependency

open Relation CodeAtlas.Digraph

namespace Graph

/-! ## Files on the cycles that are listed -/

/-- Without a limit, the files on the circular dependencies are those that depend on themselves. -/
theorem exists_cycle_iff {graph : Graph} (hnodup : graph.nodes.Nodup) (hlimit : graph.maxCycles = 0)
    (file : String) :
    (∃ cycle ∈ graph.cycles, file ∈ cycle) ↔ TransGen graph.DependsOn file file := by
  have hcycles : graph.cycles = allWays graph.nodes graph.adjacency := graph.cycles_eq hlimit
  rw [hcycles, ← arc_adjacency, transGen_self_iff_exists_cycle]
  constructor
  · rintro ⟨cycle, hcycle, hfile⟩
    exact ⟨cycle, ((mem_allWays hnodup cycle).1 hcycle).1, hfile⟩
  · rintro ⟨cycle, hcycle, hfile⟩
    -- the cycle need not begin where the search begins it, but one of its rotations does
    have hcount :=
      countP_allWays hnodup graph.nodup_successors_adjacency graph.arc_source_mem hcycle
    rcases List.countP_pos_iff.1 (hcount ▸ Nat.one_pos) with ⟨found, hfound, hrot⟩
    exact ⟨found, hfound, (of_decide_eq_true hrot).mem_iff.2 hfile⟩

end Graph

namespace Drawing

theorem markOf_eq_red_iff (graph : Graph) (onCycles : List String) (node : String) :
    markOf graph onCycles node = .red ↔ node ∈ graph.nodes ∧ node ∈ onCycles := by
  unfold markOf
  by_cases hnode : node ∈ graph.nodes
  · by_cases hcycle : node ∈ onCycles
    · simp [hnode, hcycle]
    · simp [hnode, hcycle]
  · simp [hnode]

/-- A drawing is read back with the names that it declares, each with the mark of its node. -/
theorem read?_dot (graph : Graph) (focus : String) (withExternal : Bool) :
    ∃ picture, Dot.read? (graph.dot focus withExternal) = some picture ∧
      picture.nodes.map Prod.fst = (ofGraph graph focus withExternal).names ∧
      ∀ name label mark, (name, label, mark) ∈ picture.nodes →
        mark = markOf graph graph.cycles.flatten name := by
  refine ⟨Dot.Picture.ofDrawing (ofGraph graph focus withExternal), Dot.read?_render _, ?_, ?_⟩
  · rw [Dot.Picture.ofDrawing, names, List.map_map]
    rfl
  · intro name label mark hentry
    rcases List.mem_map.1 hentry with ⟨drawn, hdrawn, heq⟩
    rcases List.mem_map.1 hdrawn with ⟨node, -, rfl⟩
    cases heq
    rfl

end Drawing

/-- In the text that draws a graph with distinct nodes and no limit on its cycles, a file is marked
red exactly if some way of dependencies leads from it back to itself.  That is so exactly if it
depends on itself directly, or if its component has a second file.  So the files on the circular
dependencies are those in the components that are not trivial. -/
theorem Graph.red_iff_depends_on_itself {nodes : List String} {edges : List Edge} {graph : Graph}
    (hbuild : build nodes edges 0 = .ok graph) (hnodup : nodes.Nodup) (focus : String)
    (withExternal : Bool) :
    (∃ picture, Dot.read? (graph.dot focus withExternal) = some picture ∧
      picture.nodes.map Prod.fst = (Drawing.ofGraph graph focus withExternal).names ∧
      ∀ file label mark, (file, label, mark) ∈ picture.nodes → file ∈ nodes →
        (mark = .red ↔ TransGen graph.DependsOn file file)) ∧
    (∀ file ∈ nodes, ∃ component ∈ components nodes graph.adjacency, file ∈ component ∧
      (∀ other, other ∈ component ↔ ReflTransGen graph.DependsOn file other ∧
        ReflTransGen graph.DependsOn other file) ∧
      (TransGen graph.DependsOn file file ↔
        graph.DependsOn file file ∨ 2 ≤ component.length)) ∧
    (∀ file, (∃ cycle ∈ graph.cycles, file ∈ cycle) ↔
      ∃ component ∈ components nodes graph.adjacency, file ∈ component ∧
        ¬∃ only, component = [only] ∧ ¬graph.DependsOn only only) := by
  rcases build_eq_ok hbuild with ⟨rfl, rfl, hlimit⟩
  have hcycles := exists_cycle_iff hnodup hlimit
  have hcomponent (file : String) (hfile : file ∈ graph.nodes) :
      ∃ component ∈ components graph.nodes graph.adjacency, file ∈ component :=
    List.mem_flatten.1 ((mem_components_flatten _ _ _).2 ⟨file, hfile, .refl⟩)
  refine ⟨?_, ?_, ?_⟩
  · rcases Drawing.read?_dot graph focus withExternal with ⟨picture, hread, hnames, hmarks⟩
    refine ⟨picture, hread, hnames, ?_⟩
    intro file label mark hentry hfile
    rw [hmarks file label mark hentry, Drawing.markOf_eq_red_iff, List.mem_flatten, hcycles]
    exact and_iff_right hfile
  · intro file hfile
    rcases hcomponent file hfile with ⟨component, hmem, hin⟩
    refine ⟨component, hmem, hin, ?_, ?_⟩
    · rw [← arc_adjacency]
      exact mem_component_iff hmem hin
    · rw [← arc_adjacency, transGen_self_iff, two_le_length_component_iff hmem hin]
  · intro file
    rw [hcycles, ← arc_adjacency]
    constructor
    · intro hback
      rcases TransGen.head'_iff.1 hback with ⟨next, hstep, -⟩
      rcases hcomponent file (graph.arc_source_mem file next hstep) with ⟨component, hmem, hin⟩
      exact ⟨component, hmem, hin, (transGen_self_iff_component hmem hin).1 hback⟩
    · rintro ⟨component, hmem, hin, hnot⟩
      exact (transGen_self_iff_component hmem hin).2 hnot

/-- The files of {name}`Graph.tangle` import each other, and a third file imports one of them.  The
text that draws them with the external module marks the two red, and the third not. -/
theorem Graph.red_iff_depends_on_itself_tangle :
    ∃ graph picture,
      build ["a", "b", "c"] (⟨"c", "a", .importing, "./a", false⟩ :: tangle) 0 = .ok graph ∧
        ["a", "b", "c"].Nodup ∧ Dot.read? (graph.dot "" true) = some picture ∧
        (∃ label, ("a", label, Mark.red) ∈ picture.nodes) ∧
        (∃ label, ("b", label, Mark.red) ∈ picture.nodes) ∧
        ∀ label, ("c", label, Mark.red) ∉ picture.nodes := by
  obtain ⟨graph, hbuild⟩ : ∃ graph,
      build ["a", "b", "c"] (⟨"c", "a", .importing, "./a", false⟩ :: tangle) 0 = .ok graph :=
    ⟨_, dif_pos (by decide)⟩
  have hnodup : ["a", "b", "c"].Nodup := by decide
  rcases (red_iff_depends_on_itself hbuild hnodup "" true).1 with ⟨picture, hread, hnames, hmarks⟩
  rcases build_eq_ok hbuild with ⟨hnodes, hedges, -⟩
  have hab : graph.DependsOn "a" "b" :=
    ⟨⟨"a", "b", .importing, "./b", false⟩, by rw [hedges]; decide, rfl, rfl, rfl⟩
  have hba : graph.DependsOn "b" "a" :=
    ⟨⟨"b", "a", .importing, "./a", false⟩, by rw [hedges]; decide, rfl, rfl, rfl⟩
  have hnone : ∀ file, ¬graph.DependsOn file "c" := by
    rintro file ⟨edge, hedge, -, htarget, -⟩
    rw [hedges] at hedge
    exact absurd htarget ((by decide : ∀ edge ∈ _ :: tangle, edge.target ≠ "c") edge hedge)
  have hred (file : String) (hfile : file ∈ ["a", "b", "c"])
      (hback : TransGen graph.DependsOn file file) :
      ∃ label, (file, label, Mark.red) ∈ picture.nodes := by
    have hdrawn : file ∈ picture.nodes.map Prod.fst := by
      rw [hnames, Drawing.names_unfocused]
      exact List.mem_append_left _ (hnodes ▸ hfile)
    rcases List.mem_map.1 hdrawn with ⟨⟨name, label, mark⟩, hentry, rfl⟩
    rw [(hmarks name label mark hentry hfile).2 hback] at hentry
    exact ⟨label, hentry⟩
  refine ⟨graph, picture, hbuild, hnodup, hread, hred "a" (by decide) (.head hab (.single hba)),
    hred "b" (by decide) (.head hba (.single hab)), ?_⟩
  intro label hentry
  have hback := (hmarks "c" label .red hentry (by decide)).1 rfl
  rcases TransGen.tail'_iff.1 hback with ⟨file, -, hlast⟩
  exact hnone file hlast

end Dependency
end CodeAtlas
