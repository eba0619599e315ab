import CodeAtlas.Proofs.SimplePaths

/-!
# Rounds of the searches

Both searches are loops over a stack of frames, which pop vertices from a second stack besides: the
open vertices of the search for components, the path of the search for cycles.  Here a step that
would pop from an empty stack fails, and a loop is given by its execution, the list of
configurations in which its rounds begin.  Every loop of both searches has an execution, so that it
ends and none of its steps fails.

Main results:

- Theorem {lit}`Execution.exists_of_measure`: how a loop is shown to end.
- Theorem {lit}`Search.step?_eq_some`: the search for components pops from no empty stack.
- Theorem {lit}`MarkedSearch.step?_eq_some`: the search for cycles pops from no empty stack.
- Theorem {lit}`MarkedSearch.begin_execution`: the rounds of the search for cycles from a start.
- Theorem {lit}`searches_end_within_simple_paths`: the loops of both searches end, and the search for
  cycles within the rounds at the simple paths of a component.
-/

namespace CodeAtlas
namespace Digraph

/-! ## Executions of loops -/

/-- An execution of a loop that takes steps while a condition holds: the configurations in which
its rounds begin, in order, and the one in which it ends.  A loop that comes to a failing step has
no execution, and neither has one that does not end. -/
inductive Execution {σ : Type} (goesOn : σ → Prop) (step? : σ → Option σ) : σ → List σ → σ → Prop
  | done {s : σ} (hend : ¬ goesOn s) : Execution goesOn step? s [] s
  | round {s s' last : σ} {rounds : List σ} (hgo : goesOn s) (hstep : step? s = some s')
      (rest : Execution goesOn step? s' rounds last) : Execution goesOn step? s (s :: rounds) last

namespace Execution

variable {σ : Type} {goesOn : σ → Prop} {step? : σ → Option σ}

/-- A loop has an execution if an invariant keeps its steps from failing and each step brings a
measure down.  The measure bounds the rounds, and the invariant holds throughout. -/
theorem exists_of_measure {inv : σ → Prop} (left : σ → Nat)
    (hstep : ∀ s, inv s → goesOn s → ∃ s', step? s = some s' ∧ inv s' ∧ left s' < left s) {s : σ}
    (hs : inv s) :
    ∃ rounds last, Execution goesOn step? s rounds last ∧ rounds.length ≤ left s ∧
      ∀ c ∈ last :: rounds, inv c := by
  induction hleft : left s using Nat.strong_induction_on generalizing s with
  | _ n ih =>
      by_cases hgo : goesOn s
      · obtain ⟨s', hs', hinv, hless⟩ := hstep s hs hgo
        obtain ⟨rounds, last, hrest, hlength, hall⟩ := ih (left s') (hleft ▸ hless) hinv rfl
        refine ⟨s :: rounds, last, .round hgo hs' hrest, ?_, ?_⟩
        · rw [List.length_cons]
          omega
        · intro c hc
          rcases List.mem_cons.1 hc with rfl | hc
          · exact hall c List.mem_cons_self
          · rcases List.mem_cons.1 hc with rfl | hc
            · exact hs
            · exact hall c (List.mem_cons_of_mem _ hc)
      · exact ⟨[], s, .done hgo, Nat.zero_le _, by simpa using hs⟩

/-- A function that takes the steps of a loop, but no more than a given number, comes to the end of
the execution if the number is large enough. -/
theorem run_eq (run : Nat → σ → σ) (hidle : ∀ n s, ¬ goesOn s → run n s = s)
    (hround : ∀ n s s', goesOn s → step? s = some s' → run (n + 1) s = run n s') {s last : σ}
    {rounds : List σ} (h : Execution goesOn step? s rounds last) {fuel : Nat}
    (hfuel : rounds.length ≤ fuel) : run fuel s = last := by
  induction h generalizing fuel with
  | done hend => exact hidle fuel _ hend
  | round hgo hstep _ ih =>
      cases fuel with
      | zero => exact absurd hfuel (Nat.not_succ_le_zero _)
      | succ fuel =>
          rw [hround fuel _ _ hgo hstep]
          exact ih (Nat.le_of_succ_le_succ hfuel)

/-- A round begins only where the loop goes on. -/
theorem goesOn_of_mem {s last c : σ} {rounds : List σ}
    (h : Execution goesOn step? s rounds last) (hc : c ∈ rounds) : goesOn c := by
  induction h with
  | done => cases hc
  | round hgo _ _ ih =>
      rcases List.mem_cons.1 hc with rfl | hc
      · exact hgo
      · exact ih hc

/-- An execution ends where the loop does not go on. -/
theorem not_goesOn {s last : σ} {rounds : List σ} (h : Execution goesOn step? s rounds last) :
    ¬ goesOn last := by
  induction h with
  | done hend => exact hend
  | round _ _ _ ih => exact ih

end Execution

variable {α : Type} [DecidableEq α]

/-! ## The search for components -/

namespace Search

/-- Pops vertices from a stack until a given one comes up.  Fails if the stack is empty before. -/
def popThrough? (v : α) : List α → Option (List α × List α)
  | [] => none
  | w :: rest =>
    if w = v then some ([w], rest)
    else (popThrough? v rest).map fun (popped, left) => (w :: popped, left)

/-- The stack is empty too early exactly if the vertex is not on it. -/
theorem popThrough?_eq (v : α) (stack : List α) :
    popThrough? v stack = if v ∈ stack then some (popThrough v stack) else none := by
  induction stack with
  | nil => rfl
  | cons w rest ih =>
      unfold popThrough? popThrough
      by_cases hw : w = v
      · simp [hw]
      · have hmem : v ∈ w :: rest ↔ v ∈ rest := by
          rw [List.mem_cons, or_iff_right fun heq => hw heq.symm]
        rw [if_neg hw, if_neg hw, ih]
        simp only [hmem]
        split <;> rfl

/-- Closes the component of a vertex that reaches no earlier one.  Fails if a vertex would be popped
from an empty stack. -/
def close? (v : α) (search : Search α) : Option (Search α) :=
  if search.index v = some (search.low v) then
    (popThrough? v search.stack).map fun (component, stack) =>
      { search with stack, closed := search.closed ++ [component] }
  else some search

theorem close?_of_mem {v : α} {search : Search α} (hv : v ∈ search.stack) :
    search.close? v = some (search.close v) := by
  unfold close? close
  split
  · rw [popThrough?_eq, if_pos hv, Option.map_some]
  · rfl

theorem close?_eq {v : α} {search closed : Search α} (h : search.close? v = some closed) :
    closed = search.close v := by
  by_cases hv : v ∈ search.stack
  · rw [close?_of_mem hv] at h
    exact (Option.some.inj h).symm
  · unfold close? at h
    unfold close
    rw [popThrough?_eq, if_neg hv] at h
    split at h
    · cases h
    · next hlow => rw [if_neg hlow, Option.some.inj h]

/-- Takes a step, and fails if a frame or a vertex would be popped from an empty stack. -/
def step? (graph : Adjacency α) (search : Search α) : Option (Search α) :=
  match search.work with
  | [] => none
  | ⟨v, []⟩ :: below => (({ search with work := below }).close? v).map (handDown v)
  | ⟨_, _ :: _⟩ :: _ => some (search.step graph)

/-- A step that does not fail is a step of the search. -/
theorem step_eq_of_step? {graph : Adjacency α} {search search' : Search α}
    (h : search.step? graph = some search') : search.step graph = search' := by
  unfold step? at h
  split at h
  · cases h
  · next v below hw =>
    obtain ⟨closed, hclosed, rfl⟩ := Option.map_eq_some_iff.1 h
    rw [close?_eq hclosed, step, hw]
  · exact Option.some.inj h

/-- The loop goes on while there are frames. -/
def GoesOn (search : Search α) : Prop := search.work ≠ []

/-- The vertex of a finished frame is open, so that no step pops from an empty stack. -/
theorem step?_eq_some {graph : Adjacency α} {search : Search α} (h : search.Invariant graph)
    (hgo : search.GoesOn) : search.step? graph = some (search.step graph) := by
  rcases step_cases graph hgo with ⟨v, below, hw, hstep⟩ | ⟨v, w, rest, below, hw, -, -⟩ |
    ⟨v, w, rest, below, n, hw, -, -⟩
  · have hlayers := h.layers
    rw [hw] at hlayers
    obtain ⟨layer, lower, hstack, -, -⟩ := hlayers.exists_top
    have hv : v ∈ search.stack := by simp [hstack]
    have hclose : ({ search with work := below } : Search α).close? v =
        some (({ search with work := below } : Search α).close v) := close?_of_mem hv
    simp only [step?, hw, hclose, hstep, Option.map_some]
  · simp only [step?, hw]
  · simp only [step?, hw]

/-- A search for components has an execution. -/
theorem exists_execution {graph : Adjacency α} {search : Search α} (h : search.Invariant graph) :
    ∃ rounds last, Execution GoesOn (step? graph) search rounds last ∧
      rounds.length ≤ search.stepsLeft graph := by
  have hstep : ∀ s : Search α, s.Invariant graph → s.GoesOn → ∃ s', s.step? graph = some s' ∧
      s'.Invariant graph ∧ s'.stepsLeft graph < s.stepsLeft graph := fun s hs hgo =>
    ⟨s.step graph, step?_eq_some hs hgo, step_invariant hs hgo, stepsLeft_step hgo⟩
  obtain ⟨rounds, last, hexec, hlength, -⟩ := Execution.exists_of_measure _ hstep h
  exact ⟨rounds, last, hexec, hlength⟩

/-- The steps allowed from a start are all that its execution takes. -/
theorem visit_execution (graph : Adjacency α) {search : Search α} (h : search.Invariant graph)
    (hwork : search.work = []) {root : α} (hroot : search.index root = none) :
    ∃ rounds, Execution GoesOn (step? graph) (search.discover graph root) rounds
        (search.visit graph root) ∧ rounds.length ≤ stepBound graph := by
  have hopened : (search.discover graph root).Invariant graph :=
    h.discover hroot (h.layers_discover hroot) (by simp [hwork])
  obtain ⟨rounds, last, hexec, hlength⟩ := exists_execution hopened
  have hbound : rounds.length ≤ stepBound graph :=
    Nat.le_trans hlength (stepsLeft_discover_le hwork hroot)
  have hrun : (search.discover graph root).run graph (stepBound graph) = last := by
    refine hexec.run_eq (fun fuel s => s.run graph fuel) ?_ ?_ hbound
    · intro n s hend
      cases n with
      | zero => rfl
      | succ n => simp [run, not_not.1 hend]
    · intro n s s' hgo hstep
      rw [← step_eq_of_step? hstep]
      exact if_neg fun hempty => hgo (List.isEmpty_iff.1 hempty)
  have hvisit : search.visit graph root = last := by simp [visit, hroot, hrun]
  exact ⟨rounds, hvisit ▸ hexec, hbound⟩

/-- After any vertices, the search stands between two starts. -/
theorem visitAll_invariant (graph : Adjacency α) (vertices : List α) :
    (vertices.foldl (visit graph) empty).Invariant graph ∧
      (vertices.foldl (visit graph) empty).work = [] := by
  have hempty : (empty : Search α).Knows graph [] (fun _ => True) :=
    ⟨empty_invariant graph, by simp, fun _ _ => trivial⟩
  obtain ⟨hknows, hwork⟩ := hempty.visitAll (fun _ _ _ _ => trivial) vertices rfl fun _ _ => trivial
  exact ⟨hknows.invariant, hwork⟩

end Search

/-! ## The search for cycles -/

variable [Hashable α]

namespace MarkedSearch

variable {next : α → List α} {start : α} {limit : Int} {marked : MarkedSearch α}

/-- Takes a step, and fails if a frame or a vertex would be popped from an empty stack. -/
def step? (next : α → List α) (start : α) (limit : Int) (marked : MarkedSearch α) :
    Option (MarkedSearch α) :=
  match marked.search.work, marked.search.path with
  | [], _ => none
  | ⟨_, []⟩ :: _, [] => none
  | _, _ => some (marked.step next start limit)

/-- A step that does not fail is a step of the search. -/
theorem step_eq_of_step? {marked' : MarkedSearch α}
    (h : marked.step? next start limit = some marked') : marked.step next start limit = marked' := by
  unfold step? at h
  split at h
  · cases h
  · cases h
  · exact Option.some.inj h

/-- The loop goes on while there are frames and the limit has not been reached. -/
def GoesOn (marked : MarkedSearch α) : Prop :=
  marked.search.work ≠ [] ∧ marked.search.stopped = false

/-- A run takes the steps of the loop. -/
theorem run_eq {marked last : MarkedSearch α} {rounds : List (MarkedSearch α)}
    (h : Execution GoesOn (step? next start limit) marked rounds last) {fuel : Nat}
    (hfuel : rounds.length ≤ fuel) : marked.run next start limit fuel = last := by
  have hgoes : ∀ m : MarkedSearch α,
      (m.search.work.isEmpty || m.search.stopped) = true ↔ ¬ m.GoesOn := by
    intro m
    simp only [GoesOn, Bool.or_eq_true, List.isEmpty_iff, not_and_or, not_not, Bool.not_eq_false]
  refine h.run_eq (fun fuel m => m.run next start limit fuel) ?_ ?_ hfuel
  · intro n m hend
    cases n with
    | zero => rfl
    | succ n => exact if_pos ((hgoes m).2 hend)
  · intro n m m' hgo hstep
    rw [← step_eq_of_step? hstep]
    exact if_neg fun hends => (hgoes m).1 hends hgo

/-- What holds of every configuration of the search from a start. -/
structure Walks (next : α → List α) (start : α) (marked : MarkedSearch α) : Prop where
  agrees : marked.Agrees
  walks : marked.search.Walks next start

/-- A step keeps marks, path and frames together. -/
theorem Walks.step (h : marked.Walks next start) (limit : Int) (hgo : marked.GoesOn) :
    (marked.step next start limit).Walks next start := by
  refine ⟨step_agrees h.agrees next start limit, ?_⟩
  rw [step_search h.agrees]
  exact h.walks.step limit hgo.1

/-- There is a vertex on the path for every frame, so that no step pops from an empty stack. -/
theorem step?_eq_some (h : marked.Walks next start) (limit : Int) (hgo : marked.GoesOn) :
    marked.step? next start limit = some (marked.step next start limit) := by
  unfold step?
  split
  · next hwork => exact absurd hwork hgo.1
  · next hpath => exact absurd hpath (h.walks.path_ne_nil hgo.1)
  · rfl

/-- The search for cycles from a start has an execution.  Its rounds go through the paths to come in
order, and through all of them unless it stops at the limit. -/
theorem exists_execution {allowed : List α} (hnext : ∀ v, ∀ w ∈ next v, w ∈ allowed)
    (h : marked.Walks next start) (limit : Int) :
    ∃ rounds last, Execution GoesOn (step? next start limit) marked rounds last ∧
      (∀ c ∈ last :: rounds, c.Walks next start) ∧
      rounds.map (·.search.path) ++
          PathSearch.ahead next (allowed.length + 1) last.search.work =
        PathSearch.ahead next (allowed.length + 1) marked.search.work := by
  have hahead : ∀ m : MarkedSearch α, m.Walks next start → m.GoesOn →
      PathSearch.ahead next (allowed.length + 1) m.search.work = m.search.path ::
        PathSearch.ahead next (allowed.length + 1) (m.step next start limit).search.work := by
    intro m hm hgo
    rw [step_search hm.agrees]
    exact PathSearch.ahead_step hm.walks limit hgo.1 (hm.walks.length_le hnext)
  have hstep : ∀ m : MarkedSearch α, m.Walks next start → m.GoesOn →
      ∃ m', m.step? next start limit = some m' ∧ m'.Walks next start ∧
        (PathSearch.ahead next (allowed.length + 1) m'.search.work).length <
          (PathSearch.ahead next (allowed.length + 1) m.search.work).length := by
    intro m hm hgo
    refine ⟨_, step?_eq_some hm limit hgo, hm.step limit hgo, ?_⟩
    rw [hahead m hm hgo]
    exact Nat.lt_succ_self _
  obtain ⟨rounds, last, hexec, -, hall⟩ := Execution.exists_of_measure _ hstep h
  refine ⟨rounds, last, hexec, hall, ?_⟩
  clear hall
  -- by induction on the execution: a round takes its path from the front of the list
  induction hexec with
  | done => rfl
  | round hgo hstep _ ih =>
      rw [← step_eq_of_step? hstep] at ih
      rw [List.map_cons, List.cons_append, ih (h.step limit hgo), hahead _ h hgo]

/-- The search from a start has an execution, of no more rounds than it spends at the simple paths
from there, and of exactly so many if it does not stop at the limit.  The steps that are allowed
suffice for it. -/
theorem begin_execution {allowed : List α} (hnext : ∀ v, ∀ w ∈ next v, w ∈ allowed) {degree : Nat}
    (hdegree : ∀ v, (next v).length ≤ degree) (start : α) (limit : Int) (found : List (List α)) :
    ∃ rounds last, ∃ paths : Finset (List α),
      Execution GoesOn (step? next start limit) (begin next start found) rounds last ∧
      (begin next start found).run next start limit
        (PathSearch.stepBound degree allowed.length) = last ∧
      (∀ c ∈ last :: rounds, c.Walks next start) ∧
      (∀ path, path ∈ paths ↔ SimplePath (fun v w => w ∈ next v) start path) ∧
      rounds.length ≤ ∑ path ∈ paths, PathSearch.roundsAlong next (next start) path.tail ∧
      (last.search.stopped = false →
        rounds.length = ∑ path ∈ paths, PathSearch.roundsAlong next (next start) path.tail) := by
  obtain ⟨paths, hpaths, hsum⟩ := PathSearch.exists_simplePaths start hnext
  obtain ⟨rounds, last, hexec, hall, hahead⟩ := exists_execution hnext
    ⟨begin_agrees next start found, PathSearch.begin_walks next start found⟩ limit
  have hlength : rounds.length +
      (PathSearch.ahead next (allowed.length + 1) last.search.work).length =
      (PathSearch.itinerary next (allowed.length + 1) [start] (next start)).length := by
    have hlengths := congrArg List.length hahead
    rw [List.length_append, List.length_map] at hlengths
    simpa [PathSearch.ahead, begin, PathSearch.begin] using hlengths
  have hbound : rounds.length ≤ PathSearch.stepBound degree allowed.length := by
    have hcost := PathSearch.length_itinerary_le hdegree allowed.length [start] (next start)
    have hmul := Nat.mul_le_mul_right (PathSearch.lookCost degree allowed.length) (hdegree start)
    rw [PathSearch.stepBound_eq]
    omega
  refine ⟨rounds, last, paths, hexec, run_eq hexec hbound, hall, hpaths, ?_, ?_⟩
  · rw [← hsum]
    omega
  · intro hgo
    have hwork : last.search.work = [] := by
      by_contra hwork
      exact hexec.not_goesOn ⟨hwork, hgo⟩
    rw [← hsum, ← hlength, hwork]
    rfl

end MarkedSearch

/-- The loops of both searches end, and no step of theirs pops from an empty stack.

The search for components ends from every vertex that it has not met, within twice the arcs and two
rounds.  The search for cycles ends from every start.  Its path is made of the vertices of its
frames, none of which repeats, and is one of the simple paths of the component of the start that go
through no vertex before it.  Those are finitely many, and the rounds that the search spends at them
bound its rounds.  If no limit stops it, there are exactly so many. -/
theorem searches_end_within_simple_paths (vertices : List α) (graph : Adjacency α) :
    (∀ before root after, vertices = before ++ root :: after →
      (before.foldl (Search.visit graph) Search.empty).index root = none →
      ∃ rounds, Execution Search.GoesOn (Search.step? graph)
          ((before.foldl (Search.visit graph) Search.empty).discover graph root) rounds
          ((before.foldl (Search.visit graph) Search.empty).visit graph root) ∧
        rounds.length ≤ 2 * graph.arcCount + 2) ∧
    ∀ (limit : Int) (found : List (List α)), ∀ start ∈ vertices,
      let search := CycleSearch.ofGraph vertices graph limit
      let next := search.nextAt start
      ∃ rounds last, ∃ paths : Finset (List α),
        Execution MarkedSearch.GoesOn (MarkedSearch.step? next start limit)
          (MarkedSearch.begin next start found) rounds last ∧
        (search.mayCycle (CycleSearch.componentOf search.components start) start = true →
          search.Listed start → search.cyclesFrom found start = .ok last.search) ∧
        (∀ c ∈ last :: rounds,
          c.search.path = c.search.work.map Frame.vertex ∧ c.search.path.Nodup) ∧
        (∀ path, path ∈ paths ↔ SimplePath graph.Arc start path ∧ ∀ v ∈ path,
          (graph.Reaches start v ∧ graph.Reaches v start) ∧
            v ∈ CycleSearch.notBefore vertices start) ∧
        (∀ c ∈ rounds, c.search.path.reverse ∈ paths) ∧
        rounds.length ≤ ∑ path ∈ paths, PathSearch.roundsAlong next (next start) path.tail ∧
        (limit = 0 ∨ last.search.stopped = false →
          rounds.length = ∑ path ∈ paths, PathSearch.roundsAlong next (next start) path.tail) := by
  constructor
  · intro before root after _ hroot
    obtain ⟨hinvariant, hwork⟩ := Search.visitAll_invariant graph before
    exact Search.visit_execution graph hinvariant hwork hroot
  · intro limit found start hstart search next
    have hbounded : search.Bounded := CycleSearch.ofGraph_bounded vertices graph limit
    obtain ⟨rounds, last, paths, hexec, hrun, hall, hpaths, hle, heq⟩ :=
      MarkedSearch.begin_execution (fun v w hw => ((search.mem_nextAt start v w).1 hw).2)
        (CycleSearch.length_nextAt_le hbounded start) start limit found
    have hlast : (PathSearch.begin next start found).run next start limit
        (PathSearch.stepBound search.degree (search.allowedAt start).length) = last.search := by
      rw [← hrun, MarkedSearch.run_search (MarkedSearch.begin_agrees next start found)]
      rfl
    refine ⟨rounds, last, paths, hexec, ?_, ?_, ?_, ?_, hle, ?_⟩
    · intro hmay hlisted
      rw [CycleSearch.cyclesFrom_of_listed hlisted hmay]
      exact congrArg Except.ok hlast
    · exact fun c hc => ⟨(hall c hc).walks.path_eq, (hall c hc).walks.nodup⟩
    · intro path
      rw [hpaths path]
      exact CycleSearch.simplePath_nextAt_iff hstart path
    · intro c hc
      have hwalks := (hall c (List.mem_cons_of_mem _ hc)).walks
      have hpath := hwalks.simplePath (hwalks.path_ne_nil (hexec.goesOn_of_mem hc).1)
      exact (hpaths _).2 hpath
    · rintro (rfl | hgo)
      · refine heq ?_
        rw [← hlast, CycleSearch.run_unlimited hbounded]
      · exact heq hgo

/-- Two vertices of which the first leads to the second twice and to one that is not listed, and the
second to the first and to itself; the second is listed twice.  From the first, the search for
cycles spends three rounds at the start, and comes twice to the other vertex, for three rounds
each. -/
theorem searches_end_within_simple_paths_doubled :
    let graph : Adjacency Nat := ⟨[(1, [2, 2, 5]), (2, [1, 2])]⟩
    let search := CycleSearch.ofGraph [1, 2, 2] graph 0
    let next := search.nextAt 1
    (∃ rounds, Execution Search.GoesOn (Search.step? graph) (Search.empty.discover graph 1) rounds
      (Search.empty.visit graph 1) ∧ rounds.length ≤ 12) ∧
    ∃ rounds last, Execution MarkedSearch.GoesOn (MarkedSearch.step? next 1 0)
      (MarkedSearch.begin next 1 []) rounds last ∧
        search.cyclesFrom [] 1 = .ok last.search ∧ rounds.length = 9 := by
  intro graph search next
  obtain ⟨hcomponents, hcycles⟩ := searches_end_within_simple_paths [1, 2, 2] graph
  refine ⟨hcomponents [] 1 [2, 2] rfl rfl, ?_⟩
  obtain ⟨rounds, last, paths, hexec, hfrom, -, hpaths, -, -, hexact⟩ := hcycles 0 [] 1 (by decide)
  have hcomponent : CycleSearch.componentOf search.components 1 = [2, 1] := by
    have hsearch : search.components = components [1, 2, 2] graph := by
      simp only [search, CycleSearch.ofGraph]
    rw [hsearch]
    decide
  have hlisted : search.Listed 1 := by
    intro _ v hv
    rw [hcomponent] at hv
    rw [CycleSearch.ofGraph_isListed]
    rcases List.mem_pair.1 hv with rfl | rfl <;> rfl
  have hmay : search.mayCycle (CycleSearch.componentOf search.components 1) 1 = true := by
    rw [hcomponent]
    rfl
  refine ⟨rounds, last, hexec, hfrom hmay hlisted, ?_⟩
  have hin : ∀ v ∈ [1, 2], (graph.Reaches 1 v ∧ graph.Reaches v 1) ∧
      v ∈ CycleSearch.notBefore [1, 2, 2] 1 := by
    intro v hv
    rcases List.mem_pair.1 hv with rfl | rfl
    · exact ⟨⟨.refl, .refl⟩, by decide⟩
    · have hto : graph.Reaches 1 2 := .single (by decide : 2 ∈ graph.successors 1)
      have hback : graph.Reaches 2 1 := .single (by decide : 1 ∈ graph.successors 2)
      exact ⟨⟨hto, hback⟩, by decide⟩
  have hall : paths = {[1], [1, 2]} := by
    ext path
    rw [hpaths, Finset.mem_insert, Finset.mem_singleton]
    constructor
    · rintro ⟨hpath, hlisted⟩
      obtain ⟨way, rfl⟩ := hpath.exists_cons
      obtain ⟨hone, hnodup⟩ := List.nodup_cons.1 hpath.nodup
      have htwo : ∀ v ∈ way, v = 2 := by
        intro v hv
        have hmem : v ∈ [2, 2, 1] := (hlisted v (List.mem_cons_of_mem _ hv)).2
        have hne : v ≠ 1 := fun heq => hone (heq ▸ hv)
        simpa [hne] using hmem
      have hway := List.eq_replicate_of_mem htwo
      have hshort : way.length ≤ 1 := List.nodup_replicate.1 (hway ▸ hnodup)
      rcases Nat.le_one_iff_eq_zero_or_eq_one.1 hshort with hlength | hlength
      · exact Or.inl (by rw [hway, hlength]; rfl)
      · exact Or.inr (by rw [hway, hlength]; rfl)
    · rintro (rfl | rfl)
      · refine ⟨⟨rfl, by decide, .singleton 1⟩, fun v hv => hin v ?_⟩
        exact List.mem_cons.2 (Or.inl (List.mem_singleton.1 hv))
      · exact ⟨⟨rfl, by decide, List.isChain_pair.2 (by decide : 2 ∈ graph.successors 1)⟩, hin⟩
  have hallowed : search.allowedAt 1 = [2, 1] := by
    rw [CycleSearch.allowedAt_ofGraph]
    decide
  have hnext : next = fun v => (graph.successors v).filter ([2, 1].contains ·) := by
    rw [← hallowed]
    exact CycleSearch.nextAt_ofGraph [1, 2, 2] graph 0 1
  have hfirst : next 1 = [2, 2] := by rw [hnext]; decide
  have hsecond : next 2 = [1, 2] := by rw [hnext]; decide
  rw [hexact (Or.inl rfl), hall, Finset.sum_pair (by decide)]
  change PathSearch.roundsAlong next (next 1) [] + PathSearch.roundsAlong next (next 1) [2] = 9
  simp only [PathSearch.roundsAlong, hfirst, hsecond]
  decide

end Digraph
end CodeAtlas
