import CodeAtlas.Proofs.Cycles
import Mathlib.Algebra.BigOperators.Group.Finset.Basic

/-!
# Simple paths of the search for cycles

The search for cycles comes back to vertices that it has left, so that no set of visited vertices
grows.  What is left to do is read off its frames instead: the path of the search is made of their
vertices, and each frame has paths ahead that go on by one of its remaining successors.  A step takes
one path from the list of those to come, and the list holds the simple paths from the start, each as
often as there are choices of arcs along it.

Main results:

- Theorem {lit}`PathSearch.Walks.step`: a step keeps the path equal to the vertices of the frames.
- Theorem {lit}`PathSearch.ahead_step`: a step takes the first of the paths to come.
- Theorem {lit}`PathSearch.count_itinerary`: how often the search comes to a path.
- Theorem {lit}`PathSearch.exists_simplePaths`: the paths to come from a start are its simple paths.
- Theorem {lit}`CycleSearch.simplePath_nextAt_iff`: they are the simple paths of the component of the
  start that go through no vertex before it.
-/

namespace CodeAtlas
namespace Digraph

variable {α : Type} [DecidableEq α]

/-! ## Simple paths -/

/-- A simple path of a relation from a start: no vertex repeats, and each is related to the next. -/
structure SimplePath (r : α → α → Prop) (start : α) (path : List α) : Prop where
  head : path.head? = some start
  nodup : path.Nodup
  chain : path.IsChain r

namespace SimplePath

variable {r : α → α → Prop} {start : α} {path : List α}

omit [DecidableEq α] in
/-- A simple path begins with its start. -/
theorem exists_cons (h : SimplePath r start path) : ∃ way, path = start :: way := by
  cases path with
  | nil => exact absurd h.head (by simp)
  | cons v way => exact ⟨way, by rw [Option.some.inj h.head]⟩

omit [DecidableEq α] in
/-- A simple path of a relation that leads into a set that holds the start is a simple path inside
the set. -/
theorem restrict_iff {P : α → Prop} (hstart : P start) :
    SimplePath (fun v w => r v w ∧ P w) start path ↔
      SimplePath r start path ∧ ∀ v ∈ path, P v := by
  constructor
  · intro h
    refine ⟨⟨h.head, h.nodup, h.chain.imp fun _ _ hstep => hstep.1⟩, ?_⟩
    obtain ⟨way, rfl⟩ := h.exists_cons
    intro v hv
    rcases List.mem_cons.1 hv with rfl | hv
    · exact hstart
    · exact ElementaryCycle.mem_of_chain h.chain v hv
  · rintro ⟨h, hP⟩
    refine ⟨h.head, h.nodup, h.chain.imp_of_mem_imp ?_⟩
    intro v w _ hw hstep
    exact ⟨hstep, hP w hw⟩

omit [DecidableEq α] in
/-- A simple path has no more vertices than there are to go to, and its start. -/
theorem length_le {next : α → List α} {allowed : List α}
    (hnext : ∀ v, ∀ w ∈ next v, w ∈ allowed)
    (h : SimplePath (fun v w => w ∈ next v) start path) : path.length ≤ allowed.length + 1 := by
  obtain ⟨way, rfl⟩ := h.exists_cons
  have hchain : (start :: way).IsChain fun v w => w ∈ next v ∧ w ∈ allowed :=
    h.chain.imp fun v w hw => ⟨hw, hnext v w hw⟩
  have hsub : way ⊆ allowed := fun w hw => ElementaryCycle.mem_of_chain hchain w hw
  exact Nat.succ_le_succ ((List.nodup_cons.1 h.nodup).2.subperm hsub).length_le

end SimplePath

/-! ## Paths and frames -/

namespace PathSearch

variable {next : α → List α} {start : α}

/-- What a step does to the path and the frames: it leaves the innermost vertex, looks past a
successor, or goes on to one. -/
theorem step_moves (next : α → List α) (start : α) (limit : Int) {search : PathSearch α}
    (hwork : search.work ≠ []) :
    (∃ v below, search.work = ⟨v, []⟩ :: below ∧
      (search.step next start limit).path = search.path.tail ∧
      (search.step next start limit).work = below) ∨
    (∃ v w rest below, search.work = ⟨v, w :: rest⟩ :: below ∧ (w = start ∨ w ∈ search.path) ∧
      (search.step next start limit).path = search.path ∧
      (search.step next start limit).work = ⟨v, rest⟩ :: below) ∨
    (∃ v w rest below, search.work = ⟨v, w :: rest⟩ :: below ∧ w ∉ search.path ∧
      (search.step next start limit).path = w :: search.path ∧
      (search.step next start limit).work = ⟨w, next w⟩ :: ⟨v, rest⟩ :: below) := by
  unfold step
  match hw : search.work with
  | [] => exact absurd hw hwork
  | ⟨v, []⟩ :: below => exact Or.inl ⟨v, below, rfl, rfl, rfl⟩
  | ⟨v, w :: rest⟩ :: below =>
      refine Or.inr ?_
      dsimp only
      by_cases hstart : w = start
      · rw [if_pos hstart]
        exact Or.inl ⟨v, w, rest, below, rfl, Or.inl hstart, rfl, rfl⟩
      · by_cases hpath : w ∈ search.path
        · rw [if_neg hstart, if_pos hpath]
          exact Or.inl ⟨v, w, rest, below, rfl, Or.inr hpath, rfl, rfl⟩
        · rw [if_neg hstart, if_neg hpath]
          exact Or.inr ⟨v, w, rest, below, rfl, hpath, rfl, rfl⟩

/-- What holds of every configuration of the search from a start: the path is made of the vertices
of the frames and repeats none, each vertex may follow the one below it, and what a frame has still
to look at may follow its vertex. -/
structure Walks (next : α → List α) (start : α) (search : PathSearch α) : Prop where
  path_eq : search.path = search.work.map Frame.vertex
  nodup : search.path.Nodup
  chain : search.path.IsChain fun w v => w ∈ next v
  bottom : ∀ v ∈ search.path.getLast?, v = start
  rest_mem : ∀ frame ∈ search.work, ∀ w ∈ frame.rest, w ∈ next frame.vertex

omit [DecidableEq α] in
theorem begin_walks (next : α → List α) (start : α) (found : List (List α)) :
    (begin next start found).Walks next start where
  path_eq := rfl
  nodup := List.nodup_singleton start
  chain := .singleton start
  bottom := by simp [begin]
  rest_mem := by simp [begin]

namespace Walks

variable {search : PathSearch α}

omit [DecidableEq α] in
/-- There is a vertex on the path as long as there is a frame. -/
theorem path_ne_nil (h : search.Walks next start) (hwork : search.work ≠ []) :
    search.path ≠ [] := by
  rw [h.path_eq]
  simpa using hwork

omit [DecidableEq α] in
/-- The path of a search is a simple path from its start. -/
theorem simplePath (h : search.Walks next start) (hpath : search.path ≠ []) :
    SimplePath (fun v w => w ∈ next v) start search.path.reverse where
  head := by
    rw [List.head?_reverse, List.getLast?_eq_some_getLast hpath,
      h.bottom _ (List.getLast?_eq_some_getLast hpath)]
  nodup := List.nodup_reverse.2 h.nodup
  chain := List.isChain_reverse.2 h.chain

omit [DecidableEq α] in
/-- The start of a search stays on its path. -/
theorem start_mem (h : search.Walks next start) (hpath : search.path ≠ []) :
    start ∈ search.path :=
  List.mem_reverse.1 (List.mem_of_mem_head? (h.simplePath hpath).head)

omit [DecidableEq α] in
/-- The path of a search is no longer than there are vertices to go to, and the start. -/
theorem length_le (h : search.Walks next start) {allowed : List α}
    (hnext : ∀ v, ∀ w ∈ next v, w ∈ allowed) : search.path.length ≤ allowed.length + 1 := by
  by_cases hpath : search.path = []
  · simp [hpath]
  · rw [← List.length_reverse]
    exact (h.simplePath hpath).length_le hnext

omit [DecidableEq α] in
/-- When a frame moves past a successor, what it has still to look at may follow its vertex. -/
theorem rest_mem_advance {v w : α} {rest : List α} {below : List (Frame α)}
    (h : search.Walks next start) (hwork : search.work = ⟨v, w :: rest⟩ :: below) :
    ∀ frame ∈ ⟨v, rest⟩ :: below, ∀ u ∈ frame.rest, u ∈ next frame.vertex := by
  have hrest := h.rest_mem
  rw [hwork] at hrest
  intro frame hframe
  rcases List.mem_cons.1 hframe with rfl | hframe
  · exact fun u hu => hrest ⟨v, w :: rest⟩ List.mem_cons_self u (List.mem_cons_of_mem _ hu)
  · exact hrest frame (List.mem_cons_of_mem _ hframe)

/-- A step keeps the path and the frames together. -/
theorem step (h : search.Walks next start) (limit : Int) (hwork : search.work ≠ []) :
    (search.step next start limit).Walks next start := by
  have hpath := h.path_eq
  rcases step_moves next start limit hwork with ⟨v, below, hw, hpath', hwork'⟩ |
    ⟨v, w, rest, below, hw, -, hpath', hwork'⟩ | ⟨v, w, rest, below, hw, hfresh, hpath', hwork'⟩
  · -- the last vertex of the path is that of the frame
    rw [hw, List.map_cons] at hpath
    have htail : search.path.tail = below.map Frame.vertex := by rw [hpath, List.tail_cons]
    have hrest := h.rest_mem
    rw [hw] at hrest
    refine ⟨by rw [hpath', hwork', htail], ?_, ?_, ?_, ?_⟩
    · exact hpath' ▸ h.nodup.tail
    · exact hpath' ▸ h.chain.tail
    · rw [hpath', htail]
      intro u hu
      refine h.bottom u ?_
      rw [hpath]
      exact List.mem_getLast?_cons hu
    · rw [hwork']
      exact fun frame hframe => hrest frame (List.mem_cons_of_mem _ hframe)
  · have hadvance := h.rest_mem_advance hw
    rw [hw] at hpath
    exact ⟨by rw [hpath', hwork', hpath]; rfl, hpath' ▸ h.nodup, hpath' ▸ h.chain,
      hpath' ▸ h.bottom, hwork' ▸ hadvance⟩
  · have hadvance := h.rest_mem_advance hw
    have hnext : w ∈ next v :=
      h.rest_mem ⟨v, w :: rest⟩ (hw ▸ List.mem_cons_self) w List.mem_cons_self
    rw [hw] at hpath
    refine ⟨by rw [hpath', hwork', hpath]; rfl, ?_, ?_, ?_, ?_⟩
    · exact hpath' ▸ List.nodup_cons.2 ⟨hfresh, h.nodup⟩
    · rw [hpath', List.isChain_cons]
      refine ⟨?_, h.chain⟩
      intro u hu
      rw [hpath, List.map_cons, List.head?_cons, Option.mem_some_iff] at hu
      exact hu ▸ hnext
    · intro u hu
      refine h.bottom u ?_
      rw [hpath', List.getLast?_cons_of_ne_nil (h.path_ne_nil hwork)] at hu
      exact hu
    · rw [hwork']
      intro frame hframe
      rcases List.mem_cons.1 hframe with rfl | hframe
      · exact fun u hu => hu
      · exact hadvance frame hframe

end Walks

/-! ## Paths to come -/

/-- The paths of the rounds that the search spends at a path and beyond it, where the given vertices
are still to be looked at: the path itself at each of them and once more to leave it, and between
these the paths that go on.  The depth counts the last vertex of the path and those that it may go
on by. -/
def itinerary (next : α → List α) : Nat → List α → List α → List (List α)
  | 0, _, _ => []
  | depth + 1, path, rest =>
    rest.flatMap (fun w =>
      path :: if w ∈ path then [] else itinerary next depth (w :: path) (next w)) ++ [path]

@[simp]
theorem itinerary_nil (next : α → List α) (depth : Nat) (path : List α) :
    itinerary next (depth + 1) path [] = [path] :=
  rfl

theorem itinerary_cons (next : α → List α) (depth : Nat) (path : List α) (w : α)
    (rest : List α) :
    itinerary next (depth + 1) path (w :: rest) =
      path :: ((if w ∈ path then [] else itinerary next depth (w :: path) (next w)) ++
        itinerary next (depth + 1) path rest) := by
  simp [itinerary]

/-- The paths of the rounds that are left to a search with the given frames. -/
def ahead (next : α → List α) (depth : Nat) : List (Frame α) → List (List α)
  | [] => []
  | frame :: below =>
    itinerary next (depth - below.length) (frame.vertex :: below.map Frame.vertex) frame.rest ++
      ahead next depth below

/-- A step takes the first of the paths to come, which is the path of the search. -/
theorem ahead_step {search : PathSearch α} (h : search.Walks next start) (limit : Int)
    (hwork : search.work ≠ []) {depth : Nat} (hdepth : search.path.length ≤ depth) :
    ahead next depth search.work =
      search.path :: ahead next depth (search.step next start limit).work := by
  have hpath := h.path_eq
  have hmem := h.start_mem (h.path_ne_nil hwork)
  rcases step_moves next start limit hwork with ⟨v, below, hw, -, hwork'⟩ |
    ⟨v, w, rest, below, hw, hseen, -, hwork'⟩ | ⟨v, w, rest, below, hw, hfresh, -, hwork'⟩
  all_goals
    rw [hw, List.map_cons] at hpath
    rw [hpath, List.length_cons, List.length_map] at hdepth
    obtain ⟨deeper, hdeeper⟩ : ∃ deeper, depth - below.length = deeper + 1 :=
      Nat.exists_eq_succ_of_ne_zero (by omega)
  · simp only [hw, hwork', ahead, hdeeper, itinerary_nil, hpath, List.singleton_append]
  · have hon : w ∈ search.path := hseen.elim (fun heq => heq ▸ hmem) id
    rw [hpath] at hon
    simp only [hw, hwork', ahead, hdeeper, itinerary_cons, hpath, if_pos hon, List.nil_append,
      List.cons_append]
  · have hless : depth - (below.length + 1) = deeper := by omega
    rw [hpath] at hfresh
    simp only [hw, hwork', ahead, hdeeper, itinerary_cons, hpath, if_neg hfresh, List.length_cons,
      List.map_cons, hless, List.cons_append, List.append_assoc]

/-- What bounds the rounds for each successor bounds those for all of them. -/
theorem length_itinerary_le_mul {depth cost : Nat} {path : List α}
    (hcost : ∀ w, (if w ∈ path then [] else
      itinerary next depth (w :: path) (next w)).length + 1 ≤ cost) (rest : List α) :
    (itinerary next (depth + 1) path rest).length ≤ rest.length * cost + 1 := by
  induction rest with
  | nil => simp
  | cons w rest ih =>
      have hw := hcost w
      rw [itinerary_cons, List.length_cons, List.length_append, List.length_cons, Nat.succ_mul]
      omega

/-- The steps that suffice below a frame are no fewer than the rounds of its itinerary. -/
theorem length_itinerary_le {degree : Nat} (hdegree : ∀ v, (next v).length ≤ degree)
    (bound : Nat) (path rest : List α) :
    (itinerary next (bound + 1) path rest).length ≤ rest.length * lookCost degree bound + 1 := by
  induction bound generalizing path rest with
  | zero =>
      refine length_itinerary_le_mul (fun w => ?_) rest
      split <;> exact Nat.le_refl 1
  | succ bound ih =>
      refine length_itinerary_le_mul (fun w => ?_) rest
      have hmul := Nat.mul_le_mul_right (lookCost degree bound) (hdegree w)
      have hdeep := ih (w :: path) (next w)
      rw [lookCost, stepBound_eq]
      split
      · rw [List.length_nil]
        omega
      · omega

/-- The vertices of a way lead on from a path by one of the given vertices, and none repeats. -/
structure LeadsOn (next : α → List α) (path rest way : List α) : Prop where
  first : ∀ w ∈ way.head?, w ∈ rest
  chain : way.IsChain fun v w => w ∈ next v
  fresh : (way.reverse ++ path).Nodup

omit [DecidableEq α] in
/-- The ways on from a start make the simple paths from it. -/
theorem leadsOn_start_iff {way : List α} :
    LeadsOn next [start] (next start) way ↔
      SimplePath (fun v w => w ∈ next v) start (start :: way) := by
  have hnodup : (way.reverse ++ [start]).Nodup ↔ (start :: way).Nodup := by
    rw [← List.reverse_cons, List.nodup_reverse]
  constructor
  · intro h
    exact ⟨rfl, hnodup.1 h.fresh, List.isChain_cons.2 ⟨h.first, h.chain⟩⟩
  · intro h
    have hchain := List.isChain_cons.1 h.chain
    exact ⟨hchain.1, hchain.2, hnodup.2 h.nodup⟩

/-- The paths of an itinerary lead on from its path. -/
theorem exists_of_mem_itinerary {depth : Nat} {path rest other : List α} (hpath : path.Nodup)
    (h : other ∈ itinerary next depth path rest) :
    ∃ way, other = way.reverse ++ path ∧ LeadsOn next path rest way := by
  induction depth generalizing path rest with
  | zero => cases h
  | succ depth ih =>
      have hhere : LeadsOn next path rest [] := ⟨by simp, .nil, hpath⟩
      rw [itinerary, List.mem_append, List.mem_flatMap, List.mem_singleton] at h
      rcases h with ⟨w, hw, h⟩ | rfl
      · rcases List.mem_cons.1 h with rfl | h
        · exact ⟨[], rfl, hhere⟩
        · split at h
          · cases h
          · next hfresh =>
            obtain ⟨way, rfl, hway⟩ := ih (List.nodup_cons.2 ⟨hfresh, hpath⟩) h
            refine ⟨w :: way, by simp, ?_, List.isChain_cons.2 ⟨hway.first, hway.chain⟩, ?_⟩
            · intro u hu
              exact Option.some.inj hu ▸ hw
            · simpa using hway.fresh
      · exact ⟨[], rfl, hhere⟩

/-- The number of rounds that a search spends at a path, which leads on by the vertices of a way
from a vertex with the given successors.  It comes there once for each choice of arcs along the way,
and then has a round for each vertex that may follow the last one, and one to leave it. -/
def roundsAlong (next : α → List α) : List α → List α → Nat
  | rest, [] => rest.length + 1
  | rest, w :: way => rest.count w * roundsAlong next (next w) way

/-- Along arcs there is a round at least. -/
theorem roundsAlong_pos {rest way : List α} (hfirst : ∀ w ∈ way.head?, w ∈ rest)
    (hchain : way.IsChain fun v w => w ∈ next v) : 0 < roundsAlong next rest way := by
  induction way generalizing rest with
  | nil => exact Nat.succ_pos _
  | cons w way ih =>
      rw [List.isChain_cons] at hchain
      exact Nat.mul_pos (List.count_pos_iff.2 (hfirst w rfl)) (ih hchain.1 hchain.2)

/-- A path is not met where the search has gone on from it. -/
theorem count_itinerary_longer {depth : Nat} {path : List α} {v : α} (hpath : path.Nodup) :
    (if v ∈ path then [] else itinerary next depth (v :: path) (next v)).count path = 0 := by
  rw [List.count_eq_zero]
  intro hmem
  split at hmem
  · cases hmem
  · next hfresh =>
    obtain ⟨way, heq, -⟩ := exists_of_mem_itinerary (List.nodup_cons.2 ⟨hfresh, hpath⟩) hmem
    have hlength := congrArg List.length heq
    rw [List.length_append, List.length_cons] at hlength
    omega

/-- A path that goes on by a vertex is not met where the search has gone on by another. -/
theorem count_itinerary_ne {depth : Nat} {path way : List α} {v w : α} (hpath : path.Nodup)
    (hne : v ≠ w) :
    (if v ∈ path then [] else itinerary next depth (v :: path) (next v)).count
      (way.reverse ++ w :: path) = 0 := by
  rw [List.count_eq_zero]
  intro hmem
  split at hmem
  · cases hmem
  · next hfresh =>
    obtain ⟨other, heq, -⟩ := exists_of_mem_itinerary (List.nodup_cons.2 ⟨hfresh, hpath⟩) hmem
    exact hne (List.cons.inj (List.append_inj' heq rfl).2).1.symm

/-- An itinerary comes to a path as often as there are choices of arcs along it. -/
theorem count_itinerary {depth : Nat} {path rest way : List α} (hdepth : way.length < depth)
    (hfresh : (way.reverse ++ path).Nodup) :
    (itinerary next depth path rest).count (way.reverse ++ path) = roundsAlong next rest way := by
  induction depth generalizing path rest way with
  | zero => exact absurd hdepth (Nat.not_lt_zero _)
  | succ depth ih =>
      have hpath : path.Nodup := (List.nodup_append.1 hfresh).2.1
      -- the path is met at the successor that it goes on by, and nowhere else
      cases way with
      | nil =>
          rw [List.reverse_nil, List.nil_append]
          induction rest with
          | nil => simp [roundsAlong]
          | cons v rest ihRest =>
              rw [itinerary_cons, List.count_cons_self, List.count_append,
                count_itinerary_longer hpath, ihRest, Nat.zero_add]
              rfl
      | cons w way =>
          have hsplit : (w :: way).reverse ++ path = way.reverse ++ w :: path := by simp
          rw [hsplit] at hfresh ⊢
          have hw : w ∉ path := (List.nodup_cons.1 (List.nodup_append.1 hfresh).2.1).1
          have hother : path ≠ way.reverse ++ w :: path := by
            intro heq
            have hlength := congrArg List.length heq
            rw [List.length_append, List.length_cons] at hlength
            omega
          induction rest with
          | nil => simp [roundsAlong, hother]
          | cons v rest ihRest =>
              rw [itinerary_cons, List.count_cons_of_ne hother, List.count_append, ihRest]
              by_cases hv : v = w
              · subst hv
                rw [if_neg hw, ih (Nat.lt_of_succ_lt_succ hdepth) hfresh, roundsAlong, roundsAlong,
                  List.count_cons_self, Nat.succ_mul, Nat.add_comm]
              · rw [count_itinerary_ne hpath hv, roundsAlong, roundsAlong,
                  List.count_cons_of_ne hv, Nat.zero_add]

/-- The itinerary from a start goes through the simple paths from there, and through no others. -/
theorem exists_simplePaths (start : α) {allowed : List α}
    (hnext : ∀ v, ∀ w ∈ next v, w ∈ allowed) :
    ∃ paths : Finset (List α),
      (∀ path, path ∈ paths ↔ SimplePath (fun v w => w ∈ next v) start path) ∧
      (itinerary next (allowed.length + 1) [start] (next start)).length =
        ∑ path ∈ paths, roundsAlong next (next start) path.tail := by
  have hcount : ∀ way, SimplePath (fun v w => w ∈ next v) start (start :: way) →
      ((itinerary next (allowed.length + 1) [start] (next start)).map List.reverse).count
        (start :: way) = roundsAlong next (next start) way := by
    intro way hway
    have hshort : way.length < allowed.length + 1 := hway.length_le hnext
    have hcounted := List.count_map_of_injective
      (itinerary next (allowed.length + 1) [start] (next start)) List.reverse List.reverse_injective
      (start :: way).reverse
    rw [List.reverse_reverse, List.reverse_cons] at hcounted
    rw [hcounted, count_itinerary hshort (leadsOn_start_iff.2 hway).fresh]
  have hmem : ∀ path, path ∈ ((itinerary next (allowed.length + 1) [start]
      (next start)).map List.reverse).toFinset ↔
      SimplePath (fun v w => w ∈ next v) start path := by
    intro path
    rw [List.mem_toFinset]
    constructor
    · intro h
      obtain ⟨other, hother, rfl⟩ := List.mem_map.1 h
      obtain ⟨way, rfl, hway⟩ := exists_of_mem_itinerary (List.nodup_singleton start) hother
      simpa using leadsOn_start_iff.1 hway
    · intro h
      obtain ⟨way, rfl⟩ := h.exists_cons
      have hway := leadsOn_start_iff.2 h
      rw [← List.count_pos_iff, hcount way h]
      exact roundsAlong_pos hway.first hway.chain
  refine ⟨_, hmem, ?_⟩
  rw [← List.length_map List.reverse, ← List.sum_toFinset_count_eq_length]
  refine Finset.sum_congr rfl ?_
  intro path hpath
  have h := (hmem path).1 hpath
  obtain ⟨way, rfl⟩ := h.exists_cons
  rw [List.tail_cons, ← hcount way h]
  -- sums compare lists by their decidable equality, and counts item by item
  exact congrArg (fun same => @List.count _ same _ _) (lawful_beq_subsingleton _ _)

end PathSearch

/-! ## Simple paths of components -/

namespace CycleSearch

variable [Hashable α] {vertices : List α} {graph : Adjacency α} {limit : Int} {start : α}

/-- A vertex is allowed from a start if each reaches the other and it comes no earlier. -/
theorem mem_allowedAt_ofGraph_iff (hstart : start ∈ vertices) (v : α) :
    v ∈ (ofGraph vertices graph limit).allowedAt start ↔
      (graph.Reaches start v ∧ graph.Reaches v start) ∧ v ∈ notBefore vertices start := by
  rw [← mem_componentOf_iff graph hstart]
  exact mem_allowedFrom _ _ _ v

/-- The search from a start goes along the simple paths of the component of the start that go
through no vertex before it. -/
theorem simplePath_nextAt_iff (hstart : start ∈ vertices) (path : List α) :
    SimplePath (fun v w => w ∈ (ofGraph vertices graph limit).nextAt start v) start path ↔
      SimplePath graph.Arc start path ∧ ∀ v ∈ path,
        (graph.Reaches start v ∧ graph.Reaches v start) ∧ v ∈ notBefore vertices start := by
  have hnext : (fun v w => w ∈ (ofGraph vertices graph limit).nextAt start v) = fun v w =>
      graph.Arc v w ∧
        (graph.Reaches start w ∧ graph.Reaches w start) ∧ w ∈ notBefore vertices start := by
    funext v w
    rw [mem_nextAt, ofGraph_successors, mem_allowedAt_ofGraph_iff hstart]
    rfl
  rw [hnext]
  exact SimplePath.restrict_iff ⟨⟨.refl, .refl⟩, by simp [notBefore]⟩

end CycleSearch

end Digraph
end CodeAtlas
