import CodeAtlas.Digraph.Components
import Mathlib.Data.List.Nodup
import Mathlib.Logic.Relation

/-!
# Correctness of the component search

The open vertices of a search lie in layers, one for each frame: below the vertex of a frame come
the layers of the frames under it, above it the vertices that were finished while the frame was
open.  A vertex of a layer is reached from the frame and reaches the frame or something lower, and
the low number of the frame bounds from below every open vertex that the layer has an arc to.  So
a frame whose low number is its own number closes exactly one strongly connected component.

Main results:

- Theorem {lit}`Search.step_invariant`: one step keeps the layers.
- Theorem {lit}`Search.run_work`: the number of steps allowed from a start suffices.
- Theorem {lit}`components_ordered`: every component is strongly connected, and its arcs lead into
  it or into earlier ones.
- Theorem {lit}`mem_components_flatten`: the components hold what the vertices reach.
- Theorem {lit}`mem_component_iff`: the component of a vertex is what it reaches and is reached by.
- Theorem {lit}`components_partition_reachable`: the components part what the vertices reach, by who
  reaches whom, and each comes after those that it reaches.
-/

namespace CodeAtlas
namespace Digraph

open Relation

variable {α : Type} [DecidableEq α]

/-! ## Reachability -/

/-- There is an arc from one vertex to another. -/
def Adjacency.Arc (graph : Adjacency α) (v w : α) : Prop := w ∈ graph.successors v

/-- A vertex reaches another along arcs; every vertex reaches itself. -/
abbrev Adjacency.Reaches (graph : Adjacency α) : α → α → Prop := ReflTransGen graph.Arc

/-- What a set of vertices that no arc leaves reaches is in the set. -/
theorem Adjacency.Reaches.mem_of_closed {graph : Adjacency α} {P : α → Prop}
    (hclosed : ∀ x y, P x → graph.Arc x y → P y) {x y : α} (hx : P x) (h : graph.Reaches x y) :
    P y := by
  induction h with
  | refl => exact hx
  | tail _ harc ih => exact hclosed _ _ ih harc

/-! ## Closed components -/

/-- A component as the search closes it after others: it is strongly connected, and its arcs lead
into it or into the others. -/
structure ClosesAfter (graph : Adjacency α) (closed : List (List α)) (component : List α) :
    Prop where
  ne_nil : component ≠ []
  connected : ∀ x ∈ component, ∀ y ∈ component, graph.Reaches x y
  arc_mem : ∀ x ∈ component, ∀ y, graph.Arc x y → y ∈ component ∨ y ∈ closed.flatten

/-- Components in the order in which they close. -/
inductive Ordered (graph : Adjacency α) : List (List α) → Prop
  | nil : Ordered graph []
  | snoc {closed : List (List α)} {component : List α} (earlier : Ordered graph closed)
      (last : ClosesAfter graph closed component) : Ordered graph (closed ++ [component])

namespace Ordered

variable {graph : Adjacency α} {closed : List (List α)}

/-- Every component closes after those before it. -/
theorem closesAfter (h : Ordered graph closed) {before after : List (List α)}
    {component : List α} (hsplit : closed = before ++ component :: after) :
    ClosesAfter graph before component := by
  induction h generalizing after with
  | nil => simp at hsplit
  | @snoc closed' component' earlier last ih =>
      rcases List.eq_nil_or_concat' after with rfl | ⟨after', last', rfl⟩
      · obtain ⟨rfl, hcomp⟩ := List.append_inj' hsplit rfl
        obtain rfl : component' = component := by simpa using hcomp
        exact last
      · have hsplit' : closed' ++ [component'] = (before ++ component :: after') ++ [last'] := by
          simpa using hsplit
        exact ih (List.append_inj' hsplit' rfl).1

/-- No arc leaves the closed components. -/
theorem arc_mem_flatten (h : Ordered graph closed) {x y : α} (hx : x ∈ closed.flatten)
    (harc : graph.Arc x y) : y ∈ closed.flatten := by
  induction h with
  | nil => simp at hx
  | snoc earlier last ih =>
      simp only [List.flatten_append, List.flatten_singleton, List.mem_append] at hx ⊢
      rcases hx with hx | hx
      · exact Or.inl (ih hx)
      · exact (last.arc_mem x hx y harc).symm

/-- What a closed component reaches has been closed. -/
theorem reaches_mem_flatten (h : Ordered graph closed) {x y : α} (hx : x ∈ closed.flatten)
    (hreach : graph.Reaches x y) : y ∈ closed.flatten :=
  Adjacency.Reaches.mem_of_closed (fun _ _ hx harc => h.arc_mem_flatten hx harc) hx hreach

/-- The components before and with a given one form a closed set as well. -/
theorem reaches_mem_upTo (h : Ordered graph closed) {before after : List (List α)}
    {component : List α} (hsplit : closed = before ++ component :: after)
    (hbefore : Ordered graph before) {x y : α} (hx : x ∈ component) (hreach : graph.Reaches x y) :
    y ∈ component ∨ y ∈ before.flatten := by
  have hlast := h.closesAfter hsplit
  have hmem := (hbefore.snoc hlast).reaches_mem_flatten (by simp [hx]) hreach
  simpa [or_comm] using hmem

/-- The components before a given one are in order. -/
theorem of_append (h : Ordered graph closed) {before after : List (List α)}
    (hsplit : closed = before ++ after) : Ordered graph before := by
  induction h generalizing after with
  | nil =>
      obtain ⟨rfl, -⟩ := List.append_eq_nil_iff.1 hsplit.symm
      exact Ordered.nil
  | @snoc closed' component' earlier last ih =>
      rcases List.eq_nil_or_concat' after with rfl | ⟨after', last', rfl⟩
      · have hbefore : before = closed' ++ [component'] := by simpa using hsplit.symm
        exact hbefore ▸ earlier.snoc last
      · have hsplit' : closed' ++ [component'] = (before ++ after') ++ [last'] := by
          simpa using hsplit
        exact ih (List.append_inj' hsplit' rfl).1

/-- Two vertices of one component reach each other. -/
theorem connected (h : Ordered graph closed) {component : List α} (hmem : component ∈ closed)
    {x y : α} (hx : x ∈ component) (hy : y ∈ component) : graph.Reaches x y := by
  obtain ⟨before, after, hsplit⟩ := List.append_of_mem hmem
  exact (h.closesAfter hsplit).connected x hx y hy

/-- A vertex that reaches a component and is reached by it belongs to it. -/
theorem mem_of_mutual (h : Ordered graph closed) (hnodup : closed.flatten.Nodup)
    {component : List α} (hmem : component ∈ closed) {x y : α} (hx : x ∈ component)
    (hxy : graph.Reaches x y) (hyx : graph.Reaches y x) : y ∈ component := by
  obtain ⟨before, after, hsplit⟩ := List.append_of_mem hmem
  have hbefore : Ordered graph before := h.of_append hsplit
  rcases h.reaches_mem_upTo hsplit hbefore hx hxy with hy | hy
  · exact hy
  · -- an earlier component would reach back to `x`, which is listed once
    have hx' : x ∈ before.flatten := hbefore.reaches_mem_flatten hy hyx
    rw [hsplit, List.flatten_append, List.flatten_cons] at hnodup
    exact absurd (List.mem_append_left _ hx) (List.disjoint_of_nodup_append hnodup hx')

/-- No component reaches one that closes after it. -/
theorem pairwise_not_reaches (h : Ordered graph closed) (hnodup : closed.flatten.Nodup) :
    closed.Pairwise fun earlier later => ∀ x ∈ earlier, ∀ y ∈ later, ¬ graph.Reaches x y := by
  induction h with
  | nil => exact .nil
  | @snoc closed component earlier last ih =>
      rw [List.flatten_append, List.flatten_singleton] at hnodup
      refine List.pairwise_append.2 ⟨ih (List.nodup_append.1 hnodup).1, List.pairwise_singleton _ _,
        ?_⟩
      intro other hother component' hcomponent x hx y hy hreach
      obtain rfl : component' = component := List.mem_singleton.1 hcomponent
      have hy' : y ∈ closed.flatten :=
        earlier.reaches_mem_flatten (List.mem_flatten.2 ⟨other, hother, hx⟩) hreach
      exact List.disjoint_of_nodup_append hnodup hy' hy

end Ordered

/-! ## Steps -/

namespace Search

/-- A step finishes the innermost frame, discovers its next successor, or looks at one that has
been discovered. -/
theorem step_cases (graph : Adjacency α) {search : Search α} (hwork : search.work ≠ []) :
    (∃ v below, search.work = ⟨v, []⟩ :: below ∧
      search.step graph = (({ search with work := below }).close v).handDown v) ∨
    (∃ v w rest below, search.work = ⟨v, w :: rest⟩ :: below ∧ search.index w = none ∧
      search.step graph = ({ search with work := ⟨v, rest⟩ :: below }).discover graph w) ∨
    (∃ v w rest below n, search.work = ⟨v, w :: rest⟩ :: below ∧ search.index w = some n ∧
      search.step graph =
        if w ∈ search.stack then ({ search with work := ⟨v, rest⟩ :: below }).lower v n
        else { search with work := ⟨v, rest⟩ :: below }) := by
  unfold step
  match hw : search.work with
  | [] => exact absurd hw hwork
  | ⟨v, []⟩ :: below => exact Or.inl ⟨v, below, rfl, rfl⟩
  | ⟨v, w :: rest⟩ :: below =>
      dsimp only
      match hindex : search.index w with
      | none => exact Or.inr (Or.inl ⟨v, w, rest, below, rfl, hindex, rfl⟩)
      | some n => exact Or.inr (Or.inr ⟨v, w, rest, below, n, rfl, hindex, rfl⟩)

@[simp]
theorem close_index (v : α) (search : Search α) : (search.close v).index = search.index := by
  unfold close
  split <;> rfl

@[simp]
theorem close_work (v : α) (search : Search α) : (search.close v).work = search.work := by
  unfold close
  split <;> rfl

@[simp]
theorem handDown_index (v : α) (search : Search α) :
    (search.handDown v).index = search.index := by
  unfold handDown
  split <;> rfl

@[simp]
theorem handDown_work (v : α) (search : Search α) :
    (search.handDown v).work = search.work := by
  unfold handDown
  split <;> rfl

/-- Popping through the vertex of a frame takes the layer above it. -/
theorem popThrough_layer {v : α} {layer lower : List α} (hv : v ∉ layer) :
    popThrough v (layer ++ v :: lower) = (layer ++ [v], lower) := by
  induction layer with
  | nil => simp [popThrough]
  | cons w layer ih =>
      simp only [List.mem_cons, not_or] at hv
      have hwv : ¬ w = v := fun heq => hv.1 heq.symm
      simp [popThrough, hwv, ih hv.2]

/-- A low number is not changed by a greater one. -/
theorem lower_eq_self {search : Search α} {v : α} {n : Nat} (h : search.low v ≤ n) :
    search.lower v n = search := by
  have hlow : (fun w => if w = v then min (search.low v) n else search.low w) = search.low := by
    funext w
    split
    · next heq => rw [heq, Nat.min_eq_left h]
    · rfl
  simp [lower, hlow]

/-! ## Layers of open vertices -/

/-- The discovery number of a vertex; zero stands for none. -/
def number (index : α → Option Nat) (v : α) : Nat := (index v).getD 0

/-- What holds of the layer of a frame, where `layer` are the vertices finished above the vertex
of the frame and `lower` is the stack below it. -/
structure Layer (graph : Adjacency α) (index : α → Option Nat) (low : α → Nat) (frame : Frame α)
    (layer lower : List α) : Prop where
  seen : ∃ done, graph.successors frame.vertex = done ++ frame.rest ∧
    ∀ y ∈ done, (index y).isSome ∧ (y ∈ lower → low frame.vertex ≤ number index y)
  reached : ∀ x ∈ layer, graph.Reaches frame.vertex x
  returns : ∀ x ∈ layer, ∃ y ∈ frame.vertex :: lower, graph.Reaches x y
  explored : ∀ x ∈ layer, ∀ y, graph.Arc x y →
    (index y).isSome ∧ (y ∈ lower → low frame.vertex ≤ number index y)
  low_le : low frame.vertex ≤ number index frame.vertex
  low_mem : ∃ y ∈ frame.vertex :: lower,
    number index y = low frame.vertex ∧ graph.Reaches frame.vertex y

/-- The stack is made of the layers of the frames, and each frame was opened along an arc from the
one below it. -/
inductive Layers (graph : Adjacency α) (index : α → Option Nat) (low : α → Nat) :
    List (Frame α) → List α → Prop
  | nil : Layers graph index low [] []
  | cons {frame : Frame α} {below : List (Frame α)} {layer lower : List α}
      (top : Layer graph index low frame layer lower)
      (opened : ∀ parent ∈ below.head?, graph.Arc parent.vertex frame.vertex)
      (rest : Layers graph index low below lower) :
      Layers graph index low (frame :: below) (layer ++ frame.vertex :: lower)

/-- The innermost frame has a layer of its own on top of the others. -/
theorem Layers.exists_top {graph : Adjacency α} {index : α → Option Nat} {low : α → Nat}
    {frame : Frame α} {below : List (Frame α)} {stack : List α}
    (h : Layers graph index low (frame :: below) stack) :
    ∃ layer lower, stack = layer ++ frame.vertex :: lower ∧
      Layer graph index low frame layer lower ∧ Layers graph index low below lower := by
  cases h with
  | cons top _ rest => exact ⟨_, _, rfl, top, rest⟩

/-- The innermost frame has an arc to the successor it looks at next. -/
theorem Layers.arc_next {graph : Adjacency α} {index : α → Option Nat} {low : α → Nat} {v w : α}
    {rest : List α} {below : List (Frame α)} {stack : List α}
    (h : Layers graph index low (⟨v, w :: rest⟩ :: below) stack) : graph.Arc v w := by
  obtain ⟨layer, lower, -, top, -⟩ := h.exists_top
  obtain ⟨done, hdone, -⟩ := top.seen
  have hmem : w ∈ graph.successors v := by
    rw [hdone]
    simp
  exact hmem

section Transfer

variable {graph : Adjacency α} {index index' : α → Option Nat} {low low' : α → Nat}

/-- A layer does not notice new discoveries, nor changes of low numbers elsewhere. -/
theorem Layer.transfer {frame : Frame α} {layer lower : List α}
    (h : Layer graph index low frame layer lower)
    (hsome : ∀ x, (index x).isSome → (index' x).isSome)
    (hindex : ∀ x ∈ frame.vertex :: lower, index' x = index x)
    (hlow : low' frame.vertex = low frame.vertex) :
    Layer graph index' low' frame layer lower := by
  have hnumber : ∀ x ∈ frame.vertex :: lower, number index' x = number index x := by
    intro x hx
    rw [number, number, hindex x hx]
  obtain ⟨done, hdone, hseen⟩ := h.seen
  obtain ⟨y, hy, hyn, hreach⟩ := h.low_mem
  refine ⟨⟨done, hdone, ?_⟩, h.reached, h.returns, ?_, ?_, ⟨y, hy, ?_, hreach⟩⟩
  · intro x hx
    refine ⟨hsome x (hseen x hx).1, fun hxl => ?_⟩
    rw [hlow, hnumber x (List.mem_cons_of_mem _ hxl)]
    exact (hseen x hx).2 hxl
  · intro x hx z harc
    refine ⟨hsome z (h.explored x hx z harc).1, fun hzl => ?_⟩
    rw [hlow, hnumber z (List.mem_cons_of_mem _ hzl)]
    exact (h.explored x hx z harc).2 hzl
  · rw [hlow, hnumber _ List.mem_cons_self]
    exact h.low_le
  · rw [hlow, hnumber y hy, hyn]

/-- Layers do not notice new discoveries, nor changes of low numbers elsewhere. -/
theorem Layers.transfer {work : List (Frame α)} {stack : List α}
    (h : Layers graph index low work stack)
    (hsome : ∀ x, (index x).isSome → (index' x).isSome)
    (hindex : ∀ x ∈ stack, index' x = index x) (hlow : ∀ x ∈ stack, low' x = low x) :
    Layers graph index' low' work stack := by
  induction h with
  | nil => exact .nil
  | @cons frame below layer lower top opened rest ih =>
      refine .cons (top.transfer hsome ?_ ?_) opened (ih ?_ ?_)
      · intro x hx
        exact hindex x (List.mem_append_right _ hx)
      · exact hlow _ (by simp)
      · intro x hx
        exact hindex x (by simp [hx])
      · intro x hx
        exact hlow x (by simp [hx])

/-- Layers do not notice another low number of a vertex that is not in them. -/
theorem Layers.relabel {work : List (Frame α)} {stack : List α}
    (h : Layers graph index low work stack) {v : α} (hv : v ∉ stack) (m : Nat) :
    Layers graph index (fun x => if x = v then m else low x) work stack := by
  refine h.transfer (fun _ hx => hx) (fun _ _ => rfl) ?_
  intro x hx
  have hxv : x ≠ v := by
    rintro rfl
    exact hv hx
  simp [hxv]

/-- The arcs of a finished frame and of its layer lead to discovered vertices, and those that are
open below are noted in the low number. -/
theorem Layer.explored_finished {v : α} {layer lower : List α}
    (h : Layer graph index low ⟨v, []⟩ layer lower) {x y : α} (hx : x ∈ layer ++ [v])
    (harc : graph.Arc x y) :
    (index y).isSome ∧ (y ∈ lower → low v ≤ number index y) := by
  rcases List.mem_append.1 hx with hx | hx
  · exact h.explored x hx y harc
  · obtain rfl : x = v := by simpa using hx
    obtain ⟨done, hdone, hseen⟩ := h.seen
    have hmem : y ∈ graph.successors x := harc
    rw [hdone] at hmem
    exact hseen y (by simpa using hmem)

end Transfer

/-! ## What steps do to layers -/

section Moves

variable {graph : Adjacency α} {index : α → Option Nat} {low : α → Nat} {v w : α}
  {rest : List α} {below : List (Frame α)} {stack : List α}

/-- A frame moves past a successor that has been discovered and, if it is open, is noted in the
low number. -/
theorem Layers.advance (h : Layers graph index low (⟨v, w :: rest⟩ :: below) stack)
    (hw : (index w).isSome) (hlow : w ∈ stack → low v ≤ number index w) :
    Layers graph index low (⟨v, rest⟩ :: below) stack := by
  cases h with
  | @cons _ _ layer lower top opened lowerLayers =>
      obtain ⟨done, hdone, hseen⟩ := top.seen
      have htop : Layer graph index low ⟨v, rest⟩ layer lower := by
        refine ⟨⟨done ++ [w], by simpa using hdone, ?_⟩, top.reached, top.returns, top.explored,
          top.low_le, top.low_mem⟩
        intro y hy
        rcases List.mem_append.1 hy with hy | hy
        · exact hseen y hy
        · obtain rfl : y = w := by simpa using hy
          exact ⟨hw, fun hyl => hlow (by simp [hyl])⟩
      exact .cons htop opened lowerLayers

/-- The low number of the innermost frame may be lowered to the number of an open vertex that the
frame has an arc to. -/
theorem Layers.lower (h : Layers graph index low (⟨v, rest⟩ :: below) stack)
    (hnodup : stack.Nodup) (hfalling : stack.Pairwise fun x y => number index y < number index x)
    (hw : w ∈ stack) (harc : graph.Arc v w) :
    Layers graph index (fun x => if x = v then min (low v) (number index w) else low x)
      (⟨v, rest⟩ :: below) stack := by
  cases h with
  | @cons _ _ layer lower top opened lowerLayers =>
      have hmin : min (low v) (number index w) ≤ low v := Nat.min_le_left _ _
      obtain ⟨done, hdone, hseen⟩ := top.seen
      have htop : Layer graph index
          (fun x => if x = v then min (low v) (number index w) else low x) ⟨v, rest⟩ layer
          lower := by
        refine ⟨⟨done, hdone, ?_⟩, top.reached, top.returns, ?_, ?_, ?_⟩
        · intro y hy
          refine ⟨(hseen y hy).1, fun hyl => ?_⟩
          simpa using Nat.le_trans hmin ((hseen y hy).2 hyl)
        · intro x hx y harcx
          refine ⟨(top.explored x hx y harcx).1, fun hyl => ?_⟩
          simpa using Nat.le_trans hmin ((top.explored x hx y harcx).2 hyl)
        · simpa using Nat.le_trans hmin top.low_le
        · by_cases hle : low v ≤ number index w
          · obtain ⟨y, hy, hyn, hreach⟩ := top.low_mem
            exact ⟨y, hy, by simpa [Nat.min_eq_left hle] using hyn, hreach⟩
          · -- a smaller number belongs to a vertex below the layer
            have hlt : number index w < low v := Nat.lt_of_not_le hle
            have hwlow : w ∈ v :: lower := by
              rcases List.mem_append.1 hw with hwl | hwl
              · have habove := (List.pairwise_append.1 hfalling).2.2 w hwl v List.mem_cons_self
                have hle' : low v ≤ number index v := top.low_le
                omega
              · exact hwl
            refine ⟨w, hwlow, ?_, .single harc⟩
            simp [Nat.min_eq_right (Nat.le_of_lt hlt)]
      have hv : v ∉ lower := (List.nodup_cons.1 (List.nodup_append.1 hnodup).2.1).1
      exact .cons htop opened (lowerLayers.relabel hv _)

section Join

variable {u : α} {restU layer layerU lowerU : List α}

/-- Where a finished frame reaches lower, its layer returns to the frame below it, or lower. -/
theorem Layer.returns_join (top : Layer graph index low ⟨v, []⟩ layer (layerU ++ u :: lowerU))
    (topU : Layer graph index low ⟨u, restU⟩ layerU lowerU) (hlow : low v ≠ number index v) :
    ∀ x ∈ layer ++ v :: layerU, ∃ z ∈ u :: lowerU, graph.Reaches x z := by
  have hback : ∀ z ∈ layerU ++ u :: lowerU, ∃ y ∈ u :: lowerU, graph.Reaches z y := by
    intro z hz
    rcases List.mem_append.1 hz with hz | hz
    · exact topU.returns z hz
    · exact ⟨z, hz, .refl⟩
  have hv : ∃ z ∈ u :: lowerU, graph.Reaches v z := by
    obtain ⟨y, hy, hyn, hreach⟩ := top.low_mem
    rcases List.mem_cons.1 hy with rfl | hy
    · exact absurd hyn.symm hlow
    · obtain ⟨z, hz, hyz⟩ := hback y hy
      exact ⟨z, hz, hreach.trans hyz⟩
  intro x hx
  simp only [List.mem_append, List.mem_cons] at hx
  rcases hx with hx | rfl | hx
  · obtain ⟨z, hz, hxz⟩ := top.returns x hx
    have hzback : ∃ z' ∈ u :: lowerU, graph.Reaches z z' := by
      rcases List.mem_cons.1 hz with rfl | hz
      · exact hv
      · exact hback z hz
    obtain ⟨z', hz', hzz'⟩ := hzback
    exact ⟨z', hz', hxz.trans hzz'⟩
  · exact hv
  · exact topU.returns x hx

/-- The smaller of the two low numbers is that of a vertex which the frame below reaches. -/
theorem Layer.low_mem_join (top : Layer graph index low ⟨v, []⟩ layer (layerU ++ u :: lowerU))
    (topU : Layer graph index low ⟨u, restU⟩ layerU lowerU) (harc : graph.Arc u v)
    (hfalling : (layerU ++ u :: lowerU).Pairwise fun x y => number index y < number index x)
    (hlow : low v ≠ number index v) :
    ∃ y ∈ u :: lowerU, number index y = min (low u) (low v) ∧ graph.Reaches u y := by
  by_cases hle : low u ≤ low v
  · obtain ⟨y, hy, hyn, hreach⟩ := topU.low_mem
    exact ⟨y, hy, by rw [Nat.min_eq_left hle]; exact hyn, hreach⟩
  · obtain ⟨y, hy, hyn, hreach⟩ := top.low_mem
    have hyn' : number index y = low v := hyn
    have hyU : y ∈ u :: lowerU := by
      rcases List.mem_cons.1 hy with rfl | hy
      · exact absurd hyn.symm hlow
      · rcases List.mem_append.1 hy with hyl | hyl
        · -- the layer of the frame below has larger numbers than the frame
          have habove := (List.pairwise_append.1 hfalling).2.2 y hyl u List.mem_cons_self
          have hleU : low u ≤ number index u := topU.low_le
          omega
        · exact hyl
    refine ⟨y, hyU, ?_, .head harc hreach⟩
    rw [Nat.min_eq_right (Nat.le_of_not_le hle)]
    exact hyn'

/-- A finished frame that reaches lower joins the layer of the frame below it. -/
theorem Layer.join (top : Layer graph index low ⟨v, []⟩ layer (layerU ++ u :: lowerU))
    (topU : Layer graph index low ⟨u, restU⟩ layerU lowerU) (harc : graph.Arc u v)
    (hfalling : (layerU ++ u :: lowerU).Pairwise fun x y => number index y < number index x)
    (hlow : low v ≠ number index v) :
    Layer graph index (fun x => if x = u then min (low u) (low v) else low x) ⟨u, restU⟩
      (layer ++ v :: layerU) lowerU := by
  have hminU : min (low u) (low v) ≤ low u := Nat.min_le_left _ _
  have hminV : min (low u) (low v) ≤ low v := Nat.min_le_right _ _
  obtain ⟨doneU, hdoneU, hseenU⟩ := topU.seen
  refine ⟨⟨doneU, hdoneU, ?_⟩, ?_, top.returns_join topU hlow, ?_, ?_, ?_⟩
  · intro z hz
    refine ⟨(hseenU z hz).1, fun hzl => ?_⟩
    simpa using Nat.le_trans hminU ((hseenU z hz).2 hzl)
  · intro x hx
    simp only [List.mem_append, List.mem_cons] at hx
    rcases hx with hx | rfl | hx
    · exact .head harc (top.reached x hx)
    · exact .single harc
    · exact topU.reached x hx
  · intro x hx z harcx
    have hx' : x ∈ layer ++ [v] ∨ x ∈ layerU := by simpa [or_assoc] using hx
    rcases hx' with hx | hx
    · obtain ⟨hsome, hbound⟩ := top.explored_finished hx harcx
      exact ⟨hsome, fun hzl => by simpa using Nat.le_trans hminV (hbound (by simp [hzl]))⟩
    · obtain ⟨hsome, hbound⟩ := topU.explored x hx z harcx
      exact ⟨hsome, fun hzl => by simpa using Nat.le_trans hminU (hbound hzl)⟩
  · simpa using Nat.le_trans hminU topU.low_le
  · simpa using top.low_mem_join topU harc hfalling hlow

end Join

/-- A finished frame that reaches lower joins the layer of the frame below it, and hands its low
number down. -/
theorem Layers.merge {parent : Frame α}
    (h : Layers graph index low (⟨v, []⟩ :: parent :: below) stack) (hnodup : stack.Nodup)
    (hfalling : stack.Pairwise fun x y => number index y < number index x)
    (hlow : low v ≠ number index v) :
    Layers graph index
      (fun x => if x = parent.vertex then min (low parent.vertex) (low v) else low x)
      (parent :: below) stack := by
  obtain ⟨u, restU⟩ := parent
  cases h with
  | @cons _ _ layer lower top opened lowerLayers =>
      cases lowerLayers with
      | @cons _ _ layerU lowerU topU openedU lowerLayersU =>
          have hfallingU := (List.pairwise_cons.1 (List.pairwise_append.1 hfalling).2.1).2
          have hjoin := top.join topU (opened ⟨u, restU⟩ rfl) hfallingU hlow
          have hstack : layer ++ v :: (layerU ++ u :: lowerU) =
              (layer ++ v :: layerU) ++ u :: lowerU := by simp
          change Layers graph index _ _ (layer ++ v :: (layerU ++ u :: lowerU))
          rw [hstack] at hnodup ⊢
          have hu : u ∉ lowerU := (List.nodup_cons.1 (List.nodup_append.1 hnodup).2.1).1
          exact .cons hjoin openedU (lowerLayersU.relabel hu _)

end Moves

/-! ## The invariant -/

/-- What holds of every configuration of a search. -/
structure Invariant (graph : Adjacency α) (search : Search α) : Prop where
  layers : Layers graph search.index search.low search.work search.stack
  falling : search.stack.Pairwise fun x y => number search.index y < number search.index x
  bounded : ∀ x ∈ search.stack, number search.index x < search.count
  known : ∀ x, (search.index x).isSome ↔ x ∈ search.closed.flatten ∨ x ∈ search.stack
  apart : (search.closed.flatten ++ search.stack).Nodup
  ordered : Ordered graph search.closed

theorem empty_invariant (graph : Adjacency α) : (empty : Search α).Invariant graph where
  layers := .nil
  falling := by simp [empty]
  bounded := by simp [empty]
  known := by simp [empty]
  apart := by simp [empty]
  ordered := .nil

namespace Invariant

variable {graph : Adjacency α} {search : Search α}

/-- A vertex without a number is on no list. -/
theorem not_mem_of_undiscovered (h : search.Invariant graph) {v : α} (hv : search.index v = none) :
    v ∉ search.stack ∧ v ∉ search.closed.flatten := by
  have hno : ¬ (v ∈ search.closed.flatten ∨ v ∈ search.stack) := by
    rw [← h.known v, hv]
    simp
  exact ⟨fun hmem => hno (Or.inr hmem), fun hmem => hno (Or.inl hmem)⟩

/-- The layers of a search are layers after a discovery as well. -/
theorem layers_discover (h : search.Invariant graph) {v : α} (hv : search.index v = none) :
    Layers graph (search.discover graph v).index (search.discover graph v).low
      search.work search.stack := by
  have hne : ∀ x ∈ search.stack, x ≠ v := fun x hx heq =>
    (h.not_mem_of_undiscovered hv).1 (heq ▸ hx)
  refine h.layers.transfer ?_ ?_ ?_
  · intro x hx
    by_cases hxv : x = v
    · simp [Search.discover, hxv]
    · simpa [Search.discover, hxv] using hx
  · intro x hx
    simp [Search.discover, hne x hx]
  · intro x hx
    simp [Search.discover, hne x hx]

/-- Discovering a vertex puts a layer of its own on top of the others.  The frames may have moved
on meanwhile, as long as they still fit the stack. -/
theorem discover (h : search.Invariant graph) {v : α} (hv : search.index v = none)
    {work : List (Frame α)}
    (hwork : Layers graph (search.discover graph v).index (search.discover graph v).low
      work search.stack)
    (hopened : ∀ parent ∈ work.head?, graph.Arc parent.vertex v) :
    (({ search with work }).discover graph v).Invariant graph := by
  obtain ⟨hstack, hclosed⟩ := h.not_mem_of_undiscovered hv
  have hne : ∀ x ∈ search.stack, x ≠ v := fun x hx heq => hstack (heq ▸ hx)
  have hnumber : ∀ x ∈ search.stack,
      number (search.discover graph v).index x = number search.index x := by
    intro x hx
    simp [number, Search.discover, hne x hx]
  have hnew : number (search.discover graph v).index v = search.count := by
    simp [number, Search.discover]
  refine ⟨?_, ?_, ?_, ?_, ?_, h.ordered⟩
  · have htop : Layer graph (search.discover graph v).index (search.discover graph v).low
        ⟨v, graph.successors v⟩ [] search.stack :=
      { seen := ⟨[], by simp, by simp⟩
        reached := by simp
        returns := by simp
        explored := by simp
        low_le := by simp [number, Search.discover]
        low_mem := ⟨v, by simp, by simp [number, Search.discover], .refl⟩ }
    exact .cons htop hopened hwork
  · refine List.pairwise_cons.2 ⟨?_, ?_⟩
    · intro x hx
      change number (search.discover graph v).index x < number (search.discover graph v).index v
      rw [hnew, hnumber x hx]
      exact h.bounded x hx
    · refine h.falling.imp_of_mem ?_
      intro x y hx hy hlt
      change number (search.discover graph v).index y < number (search.discover graph v).index x
      rwa [hnumber x hx, hnumber y hy]
  · intro x hx
    change number (search.discover graph v).index x < search.count + 1
    rcases List.mem_cons.1 hx with rfl | hx
    · rw [hnew]
      exact Nat.lt_succ_self _
    · rw [hnumber x hx]
      exact Nat.lt_succ_of_lt (h.bounded x hx)
  · intro x
    by_cases hxv : x = v
    · simp [Search.discover, hxv]
    · simpa [Search.discover, hxv] using h.known x
  · have hmid : (search.closed.flatten ++ v :: search.stack).Nodup := by
      rw [List.nodup_middle, List.nodup_cons]
      exact ⟨by simp [hstack, hclosed], h.apart⟩
    exact hmid

/-- Looking at a discovered successor keeps the invariant. -/
theorem look (h : search.Invariant graph) {v w : α} {rest : List α} {below : List (Frame α)}
    (hwork : search.work = ⟨v, w :: rest⟩ :: below) {n : Nat} (hw : search.index w = some n) :
    (if w ∈ search.stack then ({ search with work := ⟨v, rest⟩ :: below }).lower v n
      else { search with work := ⟨v, rest⟩ :: below }).Invariant graph := by
  have hlayers := h.layers
  rw [hwork] at hlayers
  have hsome : (search.index w).isSome := by simp [hw]
  have hnumber : number search.index w = n := by simp [number, hw]
  have hnodup : search.stack.Nodup := (List.nodup_append.1 h.apart).2.1
  by_cases hopen : w ∈ search.stack
  · rw [if_pos hopen]
    have hlowered := hlayers.lower hnodup h.falling hopen hlayers.arc_next
    rw [hnumber] at hlowered
    have hlow : (if v = v then min (search.low v) n else search.low v) ≤
        number search.index w := by
      rw [if_pos rfl, hnumber]
      exact Nat.min_le_right _ _
    exact ⟨hlowered.advance hsome (fun _ => hlow), h.falling, h.bounded, h.known, h.apart,
      h.ordered⟩
  · rw [if_neg hopen]
    exact ⟨hlayers.advance hsome (fun hmem => absurd hmem hopen), h.falling, h.bounded, h.known,
      h.apart, h.ordered⟩

/-- The part of the stack that is popped for a finished frame whose low number is its own closes a
component. -/
theorem closesAfter (h : search.Invariant graph) {v : α} {layer lower : List α}
    (hstack : search.stack = layer ++ v :: lower)
    (top : Layer graph search.index search.low ⟨v, []⟩ layer lower)
    (hlow : search.low v = number search.index v) :
    ClosesAfter graph search.closed (layer ++ [v]) := by
  have happart := h.apart
  have hfalling := h.falling
  rw [hstack] at happart hfalling
  have harc_mem : ∀ x ∈ layer ++ [v], ∀ y, graph.Arc x y →
      y ∈ layer ++ [v] ∨ y ∈ search.closed.flatten := by
    intro x hx y harc
    obtain ⟨hsome, hbound⟩ := top.explored_finished hx harc
    rcases (h.known y).1 hsome with hy | hy
    · exact Or.inr hy
    · rw [hstack] at hy
      have hy' : y ∈ layer ++ [v] ∨ y ∈ lower := by simpa [or_assoc] using hy
      refine Or.inl (hy'.resolve_right fun hyl => ?_)
      -- an open vertex below has a smaller number than the frame
      have hsmall := List.rel_of_pairwise_cons (List.pairwise_append.1 hfalling).2.1 hyl
      have hle := hbound hyl
      omega
  have hclosed : ∀ x ∈ layer ++ [v], ∀ y, graph.Reaches x y →
      y ∈ layer ++ [v] ∨ y ∈ search.closed.flatten := by
    intro x hx y hreach
    refine hreach.mem_of_closed (P := fun z => z ∈ layer ++ [v] ∨ z ∈ search.closed.flatten) ?_
      (Or.inl hx)
    rintro z z' (hz | hz) harc
    · exact harc_mem z hz z' harc
    · exact Or.inr (h.ordered.arc_mem_flatten hz harc)
  have hto : ∀ x ∈ layer ++ [v], graph.Reaches x v := by
    intro x hx
    rcases List.mem_append.1 hx with hxl | hxv
    · obtain ⟨y, hy, hreach⟩ := top.returns x hxl
      rcases List.mem_cons.1 hy with rfl | hyl
      · exact hreach
      · -- `x` reaches nothing below the frame
        have hout : y ∉ layer ++ [v] ∧ y ∉ search.closed.flatten := by
          simp only [List.nodup_append, List.nodup_cons, List.mem_append, List.mem_cons] at happart
          constructor
          · intro hmem
            rcases List.mem_append.1 hmem with hmem | hmem
            · exact happart.2.1.2.2 y hmem y (Or.inr hyl) rfl
            · obtain rfl : y = v := by simpa using hmem
              exact happart.2.1.2.1.1 hyl
          · intro hmem
            exact happart.2.2 y hmem y (Or.inr (Or.inr hyl)) rfl
        rcases hclosed x hx y hreach with hmem | hmem
        · exact absurd hmem hout.1
        · exact absurd hmem hout.2
    · obtain rfl : x = v := by simpa using hxv
      exact .refl
  have hfrom : ∀ x ∈ layer ++ [v], graph.Reaches v x := by
    intro x hx
    rcases List.mem_append.1 hx with hx | hx
    · exact top.reached x hx
    · obtain rfl : x = v := by simpa using hx
      exact .refl
  exact ⟨by simp, fun x hx y hy => (hto x hx).trans (hfrom y hy), harc_mem⟩

/-- Closing the component of a finished frame keeps the invariant. -/
theorem close (h : search.Invariant graph) {v : α} {below : List (Frame α)}
    {layer lower : List α} (hstack : search.stack = layer ++ v :: lower)
    (top : Layer graph search.index search.low ⟨v, []⟩ layer lower)
    (hbelow : Layers graph search.index search.low below lower)
    (hlow : search.low v = number search.index v) :
    ({ search with
        work := below, stack := lower
        closed := search.closed ++ [layer ++ [v]] } : Search α).Invariant graph := by
  have hfalling := h.falling
  have hbounded := h.bounded
  have happart := h.apart
  rw [hstack] at hfalling hbounded happart
  refine ⟨hbelow, ?_, ?_, ?_, ?_, h.ordered.snoc (h.closesAfter hstack top hlow)⟩
  · exact (List.pairwise_cons.1 (List.pairwise_append.1 hfalling).2.1).2
  · intro x hx
    exact hbounded x (by simp [hx])
  · intro x
    have hknown := h.known x
    rw [hstack] at hknown
    rw [hknown]
    simp [or_assoc]
  · simpa using happart

/-- Finishing a frame keeps the invariant. -/
theorem finish (h : search.Invariant graph) {v : α} {below : List (Frame α)}
    (hwork : search.work = ⟨v, []⟩ :: below) :
    ((({ search with work := below }).close v).handDown v).Invariant graph := by
  have hlayers := h.layers
  rw [hwork] at hlayers
  have hnodup : search.stack.Nodup := (List.nodup_append.1 h.apart).2.1
  obtain ⟨layer, lower, hstack, top, hbelow⟩ := hlayers.exists_top
  have hsome : (search.index v).isSome := (h.known v).2 (Or.inr (by simp [hstack]))
  have hindex : search.index v = some (number search.index v) := by
    obtain ⟨n, hn⟩ := Option.isSome_iff_exists.1 hsome
    simp [number, hn]
  by_cases hlow : search.low v = number search.index v
  · have hclosed := h.close hstack top hbelow hlow
    have hv : v ∉ layer := by
      intro hmem
      rw [hstack] at hnodup
      exact (List.nodup_append.1 hnodup).2.2 v hmem v List.mem_cons_self rfl
    have hclose : ({ search with work := below } : Search α).close v =
        { search with
          work := below, stack := lower
          closed := search.closed ++ [layer ++ [v]] } := by
      simp [Search.close, hindex, hlow, hstack, popThrough_layer hv]
    rw [hclose]
    cases below with
    | nil => exact hclosed
    | cons parent below =>
        -- the frame below reaches lower already, so nothing is handed down
        obtain ⟨layerU, lowerU, hstackU, topU, -⟩ := hbelow.exists_top
        have hparent : number search.index parent.vertex < number search.index v := by
          have hfalling := h.falling
          rw [hstack] at hfalling
          exact List.rel_of_pairwise_cons (List.pairwise_append.1 hfalling).2.1
            (by simp [hstackU])
        have hle : search.low parent.vertex ≤ search.low v := by
          have hleU := topU.low_le
          omega
        simp only [handDown]
        rw [lower_eq_self]
        · exact hclosed
        · exact hle
  · have hclose : ({ search with work := below } : Search α).close v =
        { search with work := below } := by
      have hne : ¬ number search.index v = search.low v := fun heq => hlow heq.symm
      simp [Search.close, hindex, hne]
    rw [hclose]
    cases below with
    | nil =>
        -- without a frame below there is nothing lower to reach
        exfalso
        cases hbelow
        obtain ⟨y, hy, hyn, -⟩ := top.low_mem
        obtain rfl : y = v := by simpa using hy
        exact hlow hyn.symm
    | cons parent below =>
        exact ⟨hlayers.merge hnodup h.falling hlow, h.falling, h.bounded, h.known, h.apart,
          h.ordered⟩

end Invariant

/-- A step keeps the invariant. -/
theorem step_invariant {graph : Adjacency α} {search : Search α} (h : search.Invariant graph)
    (hwork : search.work ≠ []) : (search.step graph).Invariant graph := by
  rcases step_cases graph hwork with ⟨v, below, hw, hstep⟩ | ⟨v, w, rest, below, hw, hnone, hstep⟩ |
    ⟨v, w, rest, below, n, hw, hsome, hstep⟩
  · rw [hstep]
    exact h.finish hw
  · have hlayers := h.layers_discover hnone
    rw [hw] at hlayers
    rw [hstep]
    refine h.discover hnone (hlayers.advance ?_ ?_) ?_
    · simp [Search.discover]
    · intro hmem
      exact absurd hmem (h.not_mem_of_undiscovered hnone).1
    · intro parent hparent
      obtain rfl : ⟨v, rest⟩ = parent := by simpa using hparent
      exact hlayers.arc_next
  · rw [hstep]
    exact h.look hw hsome

/-- What holds at the start of a run and is kept by every step holds at its end. -/
theorem run_induction {graph : Adjacency α} {P : Search α → Prop}
    (hstep : ∀ search, P search → search.work ≠ [] → P (search.step graph)) (fuel : Nat)
    {search : Search α} (h : P search) : P (search.run graph fuel) := by
  induction fuel generalizing search with
  | zero => exact h
  | succ fuel ih =>
      unfold run
      split
      · exact h
      · next hempty =>
        exact ih (hstep search h fun heq => hempty (List.isEmpty_iff.2 heq))

/-! ## Discoveries -/

/-- A step discovers nothing, or one vertex along an arc from a discovered one. -/
theorem step_index {graph : Adjacency α} {search : Search α} (h : search.Invariant graph)
    (hwork : search.work ≠ []) :
    (search.step graph).index = search.index ∨
      ∃ v w, (search.index v).isSome ∧ graph.Arc v w ∧ (search.step graph).index =
        fun x => if x = w then some search.count else search.index x := by
  rcases step_cases graph hwork with ⟨v, below, hw, hstep⟩ | ⟨v, w, rest, below, hw, hnone, hstep⟩ |
    ⟨v, w, rest, below, n, hw, hsome, hstep⟩
  · exact Or.inl (by simp [hstep])
  · have hlayers := h.layers
    rw [hw] at hlayers
    obtain ⟨layer, lower, hstack, -, -⟩ := hlayers.exists_top
    have hv : (search.index v).isSome := (h.known v).2 (Or.inr (by simp [hstack]))
    exact Or.inr ⟨v, w, hv, hlayers.arc_next, by rw [hstep]; rfl⟩
  · refine Or.inl ?_
    rw [hstep]
    split <;> rfl

/-- What a search knows: the invariant holds, the given vertices are discovered, and all that is
discovered has a property. -/
structure Knows (graph : Adjacency α) (given : List α) (P : α → Prop) (search : Search α) :
    Prop where
  invariant : search.Invariant graph
  given_isSome : ∀ x ∈ given, (search.index x).isSome
  discovered : ∀ x, (search.index x).isSome → P x

/-- A run discovers only what arcs lead to from earlier discoveries, and forgets none. -/
theorem Knows.run {graph : Adjacency α} {given : List α} {P : α → Prop}
    (hclosed : ∀ x y, P x → graph.Arc x y → P y) (fuel : Nat) {search : Search α}
    (h : search.Knows graph given P) : (search.run graph fuel).Knows graph given P := by
  refine run_induction ?_ fuel h
  intro s hs hwork
  refine ⟨step_invariant hs.invariant hwork, ?_, ?_⟩
  · intro x hx
    have hold := hs.given_isSome x hx
    rcases step_index hs.invariant hwork with heq | ⟨v, w, -, -, heq⟩
    · rwa [heq]
    · rw [heq]
      by_cases hxw : x = w
      · simp [hxw]
      · simpa [hxw] using hold
  · intro x hx
    rcases step_index hs.invariant hwork with heq | ⟨v, w, hv, harc, heq⟩
    · rw [heq] at hx
      exact hs.discovered x hx
    · by_cases hxw : x = w
      · rw [hxw]
        exact hclosed v w (hs.discovered v hv) harc
      · rw [heq] at hx
        exact hs.discovered x (by simpa [hxw] using hx)

/-! ## Enough steps -/

/-- The number of arcs that entries list from undiscovered vertices. -/
def unexplored (index : α → Option Nat) : List (α × List α) → Nat
  | [] => 0
  | entry :: entries =>
    (if (index entry.1).isNone then entry.2.length else 0) + unexplored index entries

omit [DecidableEq α] in
/-- The arcs from undiscovered vertices are arcs of the graph. -/
theorem unexplored_le (index : α → Option Nat) (graph : Adjacency α) :
    unexplored index graph.entries ≤ graph.arcCount := by
  unfold Adjacency.arcCount
  induction graph.entries with
  | nil => simp [unexplored]
  | cons entry entries ih =>
      simp only [unexplored, List.foldr_cons]
      split <;> omega

/-- A discovery takes at least the arcs of the discovered vertex away. -/
theorem unexplored_discover (index : α → Option Nat) {v : α} (hv : index v = none) (n : Nat)
    (entries : List (α × List α)) :
    unexplored (fun x => if x = v then some n else index x) entries
        + ((entries.lookup v).getD []).length ≤ unexplored index entries := by
  have hmono : ∀ entries : List (α × List α),
      unexplored (fun x => if x = v then some n else index x) entries
        ≤ unexplored index entries := by
    intro entries
    induction entries with
    | nil => simp [unexplored]
    | cons entry entries ih =>
        simp only [unexplored]
        by_cases hentry : entry.1 = v
        · simp only [hentry, if_true, Option.isNone_some, Bool.false_eq_true, if_false]
          omega
        · simp only [hentry, if_false]
          omega
  induction entries with
  | nil => simp [unexplored]
  | cons entry entries ih =>
      obtain ⟨w, next⟩ := entry
      have hrest := hmono entries
      simp only [unexplored, List.lookup_cons]
      by_cases hw : w = v
      · subst hw
        simp only [beq_self_eq_true, Option.getD_some, if_true, Option.isNone_some,
          Bool.false_eq_true, if_false, hv, Option.isNone_none]
        omega
      · have hvw : (v == w) = false := by simpa using fun heq : v = w => hw heq.symm
        simp only [hw, if_false, hvw]
        omega

/-- A bound on the steps that are left: two for each successor still to be looked at, one to
finish each frame, and two for each arc that may yet come into view. -/
def stepsLeft (graph : Adjacency α) (search : Search α) : Nat :=
  2 * unexplored search.index graph.entries
    + search.work.foldr (fun frame count => 2 * frame.rest.length + 1 + count) 0

/-- A step brings the end nearer. -/
theorem stepsLeft_step {graph : Adjacency α} {search : Search α} (hwork : search.work ≠ []) :
    (search.step graph).stepsLeft graph < search.stepsLeft graph := by
  rcases step_cases graph hwork with ⟨v, below, hw, hstep⟩ | ⟨v, w, rest, below, hw, hnone, hstep⟩ |
    ⟨v, w, rest, below, n, hw, hsome, hstep⟩
  · simp only [hstep, stepsLeft, handDown_index, handDown_work, close_index, close_work, hw,
      List.foldr_cons, List.length_nil]
    omega
  · have hfewer := unexplored_discover search.index hnone search.count graph.entries
    simp only [hstep, stepsLeft, discover, Adjacency.successors, hw, List.foldr_cons,
      List.length_cons]
    omega
  · rw [hstep]
    split <;> simp only [stepsLeft, lower, hw, List.foldr_cons, List.length_cons] <;> omega

/-- Enough steps finish all frames. -/
theorem run_work {graph : Adjacency α} (fuel : Nat) {search : Search α}
    (hfuel : search.stepsLeft graph ≤ fuel) : (search.run graph fuel).work = [] := by
  induction fuel generalizing search with
  | zero =>
      show search.work = []
      by_contra hwork
      have hless : (search.step graph).stepsLeft graph < search.stepsLeft graph :=
        stepsLeft_step hwork
      omega
  | succ fuel ih =>
      unfold run
      split
      · next hempty => exact List.isEmpty_iff.1 hempty
      · next hempty =>
        have hless : (search.step graph).stepsLeft graph < search.stepsLeft graph :=
          stepsLeft_step fun heq => hempty (List.isEmpty_iff.2 heq)
        exact ih (by omega)

/-- The steps allowed from a start bound those that are left when it has been discovered. -/
theorem stepsLeft_discover_le {graph : Adjacency α} {search : Search α} {root : α}
    (hwork : search.work = []) (hroot : search.index root = none) :
    (search.discover graph root).stepsLeft graph ≤ stepBound graph := by
  have hfewer := unexplored_discover search.index hroot search.count graph.entries
  have hall := unexplored_le search.index graph
  simp only [stepsLeft, stepBound, discover, Adjacency.successors, hwork, List.foldr_cons,
    List.foldr_nil]
  omega

/-- The steps allowed from a start finish its search. -/
theorem run_discover_work {graph : Adjacency α} {search : Search α} {root : α}
    (hwork : search.work = []) (hroot : search.index root = none) :
    ((search.discover graph root).run graph (stepBound graph)).work = [] :=
  run_work _ (stepsLeft_discover_le hwork hroot)

/-! ## All starts -/

/-- A search with no frame left has no vertex open. -/
theorem Invariant.stack_eq_nil {graph : Adjacency α} {search : Search α}
    (h : search.Invariant graph) (hwork : search.work = []) : search.stack = [] := by
  have hlayers := h.layers
  rw [hwork] at hlayers
  generalize search.stack = stack at hlayers
  cases hlayers
  rfl

/-- The search from one more vertex ends, and knows that vertex as well. -/
theorem Knows.visit {graph : Adjacency α} {given : List α} {P : α → Prop}
    (hclosed : ∀ x y, P x → graph.Arc x y → P y) {search : Search α}
    (h : search.Knows graph given P) (hwork : search.work = []) {root : α} (hroot : P root) :
    (search.visit graph root).Knows graph (root :: given) P ∧
      (search.visit graph root).work = [] := by
  unfold Search.visit
  match hindex : search.index root with
  | some n =>
      refine ⟨⟨h.invariant, ?_, h.discovered⟩, hwork⟩
      intro x hx
      rcases List.mem_cons.1 hx with rfl | hx
      · simp [hindex]
      · exact h.given_isSome x hx
  | none =>
      have hinvariant : (search.discover graph root).Invariant graph :=
        h.invariant.discover hindex (h.invariant.layers_discover hindex) (by simp [hwork])
      have hstart : (search.discover graph root).Knows graph (root :: given) P := by
        refine ⟨hinvariant, ?_, ?_⟩
        · intro x hx
          by_cases hxr : x = root
          · simp [discover, hxr]
          · have hold := h.given_isSome x ((List.mem_cons.1 hx).resolve_left hxr)
            simpa [discover, hxr] using hold
        · intro x hx
          by_cases hxr : x = root
          · exact hxr ▸ hroot
          · exact h.discovered x (by simpa [discover, hxr] using hx)
      exact ⟨hstart.run hclosed _, run_discover_work hwork hindex⟩

/-- The search from several more vertices ends, and knows those as well. -/
theorem Knows.visitAll {graph : Adjacency α} {P : α → Prop}
    (hclosed : ∀ x y, P x → graph.Arc x y → P y) (vertices : List α) {given : List α}
    {search : Search α} (h : search.Knows graph given P) (hwork : search.work = [])
    (hvertices : ∀ v ∈ vertices, P v) :
    (vertices.foldl (Search.visit graph) search).Knows graph (vertices.reverse ++ given) P ∧
      (vertices.foldl (Search.visit graph) search).work = [] := by
  induction vertices generalizing given search with
  | nil => exact ⟨h, hwork⟩
  | cons root vertices ih =>
      obtain ⟨hroot, hwork'⟩ := h.visit hclosed hwork (hvertices root List.mem_cons_self)
      have hrest := ih hroot hwork' fun v hv => hvertices v (List.mem_cons_of_mem _ hv)
      simpa using hrest

end Search

/-! ## Components -/

/-- The search behind the components ends, knows the vertices, and has discovered only what they
reach. -/
theorem components_search (vertices : List α) (graph : Adjacency α) :
    (vertices.foldl (Search.visit graph) Search.empty).Knows graph vertices
        (fun x => ∃ v ∈ vertices, graph.Reaches v x) ∧
      (vertices.foldl (Search.visit graph) Search.empty).stack = [] := by
  have hclosed : ∀ x y, (∃ v ∈ vertices, graph.Reaches v x) → graph.Arc x y →
      ∃ v ∈ vertices, graph.Reaches v y := by
    rintro x y ⟨v, hv, hreach⟩ harc
    exact ⟨v, hv, hreach.tail harc⟩
  have hempty : (Search.empty : Search α).Knows graph []
      (fun x => ∃ v ∈ vertices, graph.Reaches v x) :=
    ⟨Search.empty_invariant graph, by simp, by simp [Search.empty]⟩
  obtain ⟨hknows, hwork⟩ := hempty.visitAll hclosed vertices rfl fun v hv => ⟨v, hv, .refl⟩
  refine ⟨⟨hknows.invariant, ?_, hknows.discovered⟩, hknows.invariant.stack_eq_nil hwork⟩
  intro x hx
  exact hknows.given_isSome x (by simp [hx])

/-- The components are strongly connected, and their arcs lead to themselves or to earlier ones. -/
theorem components_ordered (vertices : List α) (graph : Adjacency α) :
    Ordered graph (components vertices graph) :=
  (components_search vertices graph).1.invariant.ordered

/-- No vertex is in two components, or twice in one. -/
theorem components_nodup (vertices : List α) (graph : Adjacency α) :
    (components vertices graph).flatten.Nodup :=
  (List.nodup_append.1 (components_search vertices graph).1.invariant.apart).1

/-- The components hold exactly what the vertices reach. -/
theorem mem_components_flatten (vertices : List α) (graph : Adjacency α) (x : α) :
    x ∈ (components vertices graph).flatten ↔ ∃ v ∈ vertices, graph.Reaches v x := by
  obtain ⟨hknows, hstack⟩ := components_search vertices graph
  have hknown : ∀ y, _ ↔ y ∈ (components vertices graph).flatten ∨ y ∈ _ := hknows.invariant.known
  rw [hstack] at hknown
  constructor
  · intro hx
    exact hknows.discovered x ((hknown x).2 (Or.inl hx))
  · rintro ⟨v, hv, hreach⟩
    have hv' : v ∈ (components vertices graph).flatten := by
      simpa using (hknown v).1 (hknows.given_isSome v hv)
    exact (components_ordered vertices graph).reaches_mem_flatten hv' hreach

/-- A component is what one of its vertices reaches and is reached by. -/
theorem mem_component_iff {vertices : List α} {graph : Adjacency α} {component : List α}
    (hmem : component ∈ components vertices graph) {x : α} (hx : x ∈ component) (y : α) :
    y ∈ component ↔ graph.Reaches x y ∧ graph.Reaches y x := by
  have hordered := components_ordered vertices graph
  constructor
  · intro hy
    exact ⟨hordered.connected hmem hx hy, hordered.connected hmem hy hx⟩
  · rintro ⟨hxy, hyx⟩
    exact hordered.mem_of_mutual (components_nodup vertices graph) hmem hx hxy hyx

/-- No component is empty. -/
theorem ne_nil_of_mem_components {vertices : List α} {graph : Adjacency α} {component : List α}
    (hmem : component ∈ components vertices graph) : component ≠ [] := by
  obtain ⟨before, after, hsplit⟩ := List.append_of_mem hmem
  exact ((components_ordered vertices graph).closesAfter hsplit).ne_nil

/-- A component that reaches another one comes after it. -/
theorem component_lt_of_reaches {vertices : List α} {graph : Adjacency α} {i j : Nat}
    {component other : List α} (hi : (components vertices graph)[i]? = some component)
    (hj : (components vertices graph)[j]? = some other) (hne : i ≠ j) {x y : α}
    (hx : x ∈ component) (hy : y ∈ other) (hreach : graph.Reaches x y) : j < i := by
  obtain ⟨hi', rfl⟩ := List.getElem?_eq_some_iff.1 hi
  obtain ⟨hj', rfl⟩ := List.getElem?_eq_some_iff.1 hj
  have hapart := (components_ordered vertices graph).pairwise_not_reaches
    (components_nodup vertices graph)
  by_contra hle
  exact List.pairwise_iff_getElem.1 hapart i j hi' hj' (by omega) x hx y hy hreach

/-- The components part what the vertices reach: each such vertex is in one component, once, and no
component is empty.  Two of them are together exactly if each reaches the other.  A component that
reaches another one comes after it. -/
theorem components_partition_reachable (vertices : List α) (graph : Adjacency α) :
    ((components vertices graph).flatten.Nodup ∧ [] ∉ components vertices graph ∧
      ∀ x, x ∈ (components vertices graph).flatten ↔ ∃ v ∈ vertices, graph.Reaches v x) ∧
    (∀ x y, (∃ v ∈ vertices, graph.Reaches v x) → (∃ v ∈ vertices, graph.Reaches v y) →
      ((∃ component ∈ components vertices graph, x ∈ component ∧ y ∈ component) ↔
        graph.Reaches x y ∧ graph.Reaches y x)) ∧
    (∀ (i j : Nat) component other, (components vertices graph)[i]? = some component →
      (components vertices graph)[j]? = some other → i ≠ j →
      (∃ x ∈ component, ∃ y ∈ other, graph.Reaches x y) → j < i) := by
  refine ⟨⟨components_nodup vertices graph, ?_, mem_components_flatten vertices graph⟩, ?_, ?_⟩
  · intro hmem
    exact ne_nil_of_mem_components hmem rfl
  · intro x y hx _
    constructor
    · rintro ⟨component, hmem, hx, hy⟩
      exact (mem_component_iff hmem hx y).1 hy
    · intro hmutual
      obtain ⟨component, hmem, hxc⟩ :=
        List.mem_flatten.1 ((mem_components_flatten vertices graph x).2 hx)
      exact ⟨component, hmem, hxc, (mem_component_iff hmem hxc y).2 hmutual⟩
  · rintro i j component other hi hj hne ⟨x, hx, y, hy, hreach⟩
    exact component_lt_of_reaches hi hj hne hx hy hreach

/-- A pair of vertices that lead to each other and on to a vertex without an entry, and a third that
leads to itself and to the pair.  One vertex of the pair is listed twice and the other not at all.
That the pair is together tells that each reaches the other, and that the third vertex comes later
tells that the pair does not reach it. -/
theorem components_partition_reachable_pair :
    let graph : Adjacency Nat := ⟨[(1, [2, 2, 5]), (2, [1]), (3, [3, 1])]⟩
    components [1, 3, 1] graph = [[5], [2, 1], [3]] ∧
      (graph.Reaches 1 2 ∧ graph.Reaches 2 1) ∧ ¬ graph.Reaches 1 3 := by
  intro graph
  have hcomponents : components [1, 3, 1] graph = [[5], [2, 1], [3]] := by decide
  obtain ⟨⟨-, -, hreached⟩, htogether, horder⟩ := components_partition_reachable [1, 3, 1] graph
  rw [hcomponents] at hreached htogether horder
  refine ⟨hcomponents, ?_, ?_⟩
  · exact (htogether 1 2 ((hreached 1).1 (by decide)) ((hreached 2).1 (by decide))).1
      ⟨[2, 1], by decide, by decide, by decide⟩
  · intro hreach
    have hless := horder 1 2 [2, 1] [3] rfl rfl (by decide) ⟨1, by decide, 3, by decide, hreach⟩
    exact absurd hless (by decide)

end Digraph
end CodeAtlas
