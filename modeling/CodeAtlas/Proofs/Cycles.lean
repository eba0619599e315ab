import CodeAtlas.Digraph.Cycles
import CodeAtlas.Proofs.Components
import Mathlib.Data.Finset.Max
import Mathlib.Data.List.Cycle
import Mathlib.Logic.Function.Iterate

/-!
# Correctness of the search for cycles

Beside the search stands a plain recursion that lists the ways in which a path closes to a cycle.
The search from a start goes through these ways in order and takes each of them down, within the
steps it is allowed.  The ways from a start are the elementary cycles through vertices that do not
come before it, so that each elementary cycle is found from its earliest vertex and nowhere else.

Main results:

- Theorem {lit}`PathSearch.mem_closings_start`: the ways to close from a start are the elementary
  cycles that begin there.
- Theorem {lit}`PathSearch.run_found`: the search takes down exactly these ways, in order.
- Theorem {lit}`PathSearch.run_limit`: a limit cuts the list off and changes nothing before.
- Theorem {lit}`CycleSearch.mem_waysFrom`: what is found from one start.
- Theorem {lit}`cycles_unlimited`: without a limit, the cycles are those of all starts in order.
- Theorem {lit}`countP_allWays`: each elementary cycle is found once, in one rotation.
- Theorem {lit}`allWays_perm`: up to rotation, the order of the vertices does not matter.
-/

namespace CodeAtlas
namespace Digraph

variable {α : Type} [DecidableEq α]

/-! ## Elementary cycles -/

/-- An elementary cycle of a relation: no element repeats, and each is related to the next and the
last to the first. -/
structure ElementaryCycle (r : α → α → Prop) (cycle : List α) : Prop where
  ne_nil : cycle ≠ []
  nodup : cycle.Nodup
  chain : Cycle.Chain r cycle

namespace ElementaryCycle

variable {r : α → α → Prop} {cycle other : List α}

omit [DecidableEq α] in
/-- It does not matter where a cycle begins. -/
theorem rotated (h : ElementaryCycle r cycle) (hrot : cycle ~r other) :
    ElementaryCycle r other := by
  refine ⟨?_, hrot.nodup_iff.1 h.nodup, ?_⟩
  · rintro rfl
    exact h.ne_nil (List.isRotated_nil_iff.1 hrot)
  · have heq : (cycle : Cycle α) = (other : Cycle α) := Cycle.coe_eq_coe.2 hrot
    exact heq ▸ h.chain

omit [DecidableEq α] in
/-- A cycle can begin at each of its elements. -/
theorem exists_rotation {x : α} (hx : x ∈ cycle) : ∃ rest, cycle ~r x :: rest := by
  obtain ⟨before, after, rfl⟩ := List.append_of_mem hx
  exact ⟨after ++ before, List.isRotated_append⟩

omit [DecidableEq α] in
/-- Two rotations of a list without repeats that begin alike are the same. -/
theorem eq_of_rotated_of_head {x : α} {rest rest' : List α} (hnodup : (x :: rest).Nodup)
    (hrot : x :: rest ~r x :: rest') : x :: rest = x :: rest' := by
  obtain ⟨n, hn⟩ := hrot
  have hhead : ((x :: rest).rotate n).head? = some x := by simp [hn]
  rw [← List.rotate_mod] at hn hhead
  have hlt : n % (x :: rest).length < (x :: rest).length := Nat.mod_lt _ (by simp)
  rw [List.head?_rotate hlt] at hhead
  have hzero : n % (x :: rest).length = 0 := by
    have hget : (x :: rest)[n % (x :: rest).length] = (x :: rest)[0] := by
      rw [List.getElem?_eq_getElem hlt] at hhead
      exact Option.some.inj hhead
    exact (hnodup.getElem_inj_iff).1 hget
  rw [hzero, List.rotate_zero] at hn
  exact hn

omit [DecidableEq α] in
/-- A cycle from a start is a chain that leaves the start and returns to it. -/
theorem cons_iff {start : α} {rest : List α} :
    ElementaryCycle r (start :: rest) ↔
      (start :: rest).Nodup ∧ (∀ w ∈ (rest ++ [start]).head?, r start w) ∧
        (rest ++ [start]).IsChain r := by
  constructor
  · intro h
    have hchain := h.chain
    rw [Cycle.chain_coe_cons, List.isChain_cons] at hchain
    exact ⟨h.nodup, hchain⟩
  · rintro ⟨hnodup, hchain⟩
    exact ⟨by simp, hnodup, (Cycle.chain_coe_cons r start rest).2 (List.isChain_cons.2 hchain)⟩

omit [DecidableEq α] in
/-- A chain of a relation that leads into a set goes on inside the set. -/
theorem mem_of_chain {P : α → Prop} {v : α} {rest : List α}
    (h : (v :: rest).IsChain fun v w => r v w ∧ P w) : ∀ w ∈ rest, P w := by
  induction rest generalizing v with
  | nil => simp
  | cons w rest ih =>
      rw [List.isChain_cons_cons] at h
      intro x hx
      rcases List.mem_cons.1 hx with rfl | hx
      · exact h.1.2
      · exact ih h.2 x hx

omit [DecidableEq α] in
/-- A cycle of a relation that leads into a set is a cycle inside the set. -/
theorem restrict_iff {P : α → Prop} :
    ElementaryCycle (fun v w => r v w ∧ P w) cycle ↔
      ElementaryCycle r cycle ∧ ∀ v ∈ cycle, P v := by
  constructor
  · intro h
    refine ⟨⟨h.ne_nil, h.nodup, h.chain.imp fun _ _ hstep => hstep.1⟩, ?_⟩
    cases cycle with
    | nil => simp
    | cons start rest =>
        have hchain := (Cycle.chain_coe_cons _ start rest).1 h.chain
        intro v hv
        exact mem_of_chain hchain v (by simpa [or_comm] using hv)
  · rintro ⟨h, hP⟩
    refine ⟨h.ne_nil, h.nodup, ?_⟩
    cases cycle with
    | nil => exact absurd rfl h.ne_nil
    | cons start rest =>
        have hchain := (Cycle.chain_coe_cons _ start rest).1 h.chain
        refine (Cycle.chain_coe_cons _ start rest).2 (hchain.imp_of_mem_imp ?_)
        intro v w _ hw hstep
        exact ⟨hstep, hP w (by simpa [or_comm] using hw)⟩

omit [DecidableEq α] in
/-- The elements of a cycle reach each other. -/
theorem reaches {x : α} {rest : List α} (h : ElementaryCycle r (x :: rest)) {y : α}
    (hy : y ∈ x :: rest) : Relation.ReflTransGen r x y ∧ Relation.ReflTransGen r y x := by
  have hchain : ((x :: rest) ++ [x]).IsChain r := (Cycle.chain_coe_cons r x rest).1 h.chain
  constructor
  · exact hchain.concat_induction (Relation.ReflTransGen r x) _ rfl
      (fun _ _ hstep hreach => hreach.tail hstep) .refl y (List.mem_append_left _ hy)
  · exact hchain.backwards_concat_induction (fun z => Relation.ReflTransGen r z x) _
      (fun _ _ hstep hreach => hreach.head hstep) .refl y hy

end ElementaryCycle

/-! ## Ways to close a path -/

namespace PathSearch

/-- The cycles that continue a path, latest vertex first, by one of the given vertices, in the
order of the search.  No path takes more than `depth` further vertices. -/
def closings (next : α → List α) (start : α) : Nat → List α → List α → List (List α)
  | 0, _, _ => []
  | depth + 1, path, rest =>
    rest.flatMap fun w =>
      if w = start then [path.reverse]
      else if w ∈ path then []
      else closings next start depth (w :: path) (next w)

@[simp]
theorem closings_nil (next : α → List α) (start : α) (depth : Nat) (path : List α) :
    closings next start depth path [] = [] := by
  cases depth <;> rfl

theorem closings_cons (next : α → List α) (start : α) (depth : Nat) (path : List α) (w : α)
    (rest : List α) :
    closings next start (depth + 1) path (w :: rest) =
      (if w = start then [path.reverse]
        else if w ∈ path then []
        else closings next start depth (w :: path) (next w)) ++
      closings next start (depth + 1) path rest := by
  simp [closings]

/-- The vertices `way` lead on from a path by one of the given vertices, and back to the start. -/
structure Closes (next : α → List α) (start : α) (path rest way : List α) : Prop where
  first : ∀ w ∈ (way ++ [start]).head?, w ∈ rest
  chain : (way ++ [start]).IsChain fun v w => w ∈ next v
  fresh : (way.reverse ++ path).Nodup

variable {next : α → List α} {start : α}

omit [DecidableEq α] in
/-- A way to close a path goes on from its first vertex as a way to close the longer path. -/
theorem closes_cons {path rest way : List α} {w : α} (hstart : start ∈ path) :
    Closes next start path rest (w :: way) ↔
      w ∈ rest ∧ w ≠ start ∧ w ∉ path ∧ Closes next start (w :: path) (next w) way := by
  have hfresh : ((w :: way).reverse ++ path).Nodup ↔ (way.reverse ++ w :: path).Nodup := by simp
  constructor
  · intro h
    have hchain := h.chain
    rw [List.cons_append, List.isChain_cons] at hchain
    have hnodup := hfresh.1 h.fresh
    have hw : w ∉ path := (List.nodup_cons.1 (List.nodup_append.1 hnodup).2.1).1
    refine ⟨h.first w (by simp), ?_, hw, ⟨hchain.1, hchain.2, hnodup⟩⟩
    rintro rfl
    exact hw hstart
  · rintro ⟨hmem, -, -, h⟩
    refine ⟨?_, ?_, hfresh.2 h.fresh⟩
    · intro x hx
      obtain rfl : w = x := by simpa using hx
      exact hmem
    · rw [List.cons_append, List.isChain_cons]
      exact ⟨h.first, h.chain⟩

/-- What is listed closes the path. -/
theorem exists_of_mem_closings {depth : Nat} {path rest cycle : List α} (hstart : start ∈ path)
    (hpath : path.Nodup) (h : cycle ∈ closings next start depth path rest) :
    ∃ way, cycle = path.reverse ++ way ∧ Closes next start path rest way := by
  induction depth generalizing path rest with
  | zero => simp [closings] at h
  | succ depth ih =>
      rw [closings, List.mem_flatMap] at h
      obtain ⟨w, hw, hcycle⟩ := h
      split at hcycle
      · next heq =>
        subst heq
        refine ⟨[], by simpa using hcycle, ⟨?_, by simp, by simpa using hpath⟩⟩
        simpa using hw
      · next hne =>
        split at hcycle
        · simp at hcycle
        · next hfresh =>
          obtain ⟨way, rfl, hcloses⟩ :=
            ih (List.mem_cons_of_mem w hstart) (List.nodup_cons.2 ⟨hfresh, hpath⟩) hcycle
          exact ⟨w :: way, by simp, (closes_cons hstart).2 ⟨hw, hne, hfresh, hcloses⟩⟩

/-- The allowed vertices that are not on a path. -/
def free (allowed path : List α) : List α := allowed.filter fun v => !path.contains v

/-- Going on to an allowed vertex leaves fewer of them free. -/
theorem free_cons_lt {allowed path : List α} {w : α} (hw : w ∈ allowed) (hpath : w ∉ path) :
    (free allowed (w :: path)).length < (free allowed path).length := by
  have hsub : (free allowed (w :: path)).Sublist (free allowed path) := by
    refine List.monotone_filter_right allowed ?_
    intro v hv
    simp only [List.contains_cons, Bool.not_or, Bool.and_eq_true] at hv
    exact hv.2
  refine Nat.lt_of_le_of_ne hsub.length_le fun hlen => ?_
  have hmem : w ∈ free allowed path := by simp [free, hw, hpath]
  rw [← hsub.eq_of_length hlen] at hmem
  simp [free] at hmem

/-- While the free vertices bound its depth, the list misses no way to close the path. -/
theorem mem_closings {allowed : List α} (hnext : ∀ v, ∀ w ∈ next v, w ∈ allowed) {depth : Nat}
    {path rest way : List α} (hstart : start ∈ path) (hrest : ∀ w ∈ rest, w ∈ allowed)
    (hdepth : (free allowed path).length < depth) (h : Closes next start path rest way) :
    path.reverse ++ way ∈ closings next start depth path rest := by
  induction depth generalizing path rest way with
  | zero => exact absurd hdepth (Nat.not_lt_zero _)
  | succ depth ih =>
      rw [closings, List.mem_flatMap]
      cases way with
      | nil =>
          refine ⟨start, h.first start (by simp), ?_⟩
          simp
      | cons w way =>
          obtain ⟨hw, hne, hfresh, hcloses⟩ := (closes_cons hstart).1 h
          refine ⟨w, hw, ?_⟩
          rw [if_neg hne, if_neg hfresh]
          have hless := free_cons_lt (hrest w hw) hfresh
          have hmem := ih (List.mem_cons_of_mem w hstart) (hnext w) (by omega) hcloses
          simpa using hmem

/-- No way to close a path is listed twice. -/
theorem closings_nodup (hnext : ∀ v, (next v).Nodup) {depth : Nat} {path rest : List α}
    (hstart : start ∈ path) (hpath : path.Nodup) (hrest : rest.Nodup) :
    (closings next start depth path rest).Nodup := by
  induction depth generalizing path rest with
  | zero => simp [closings]
  | succ depth ih =>
      rw [closings, List.nodup_flatMap]
      constructor
      · intro w hw
        split
        · simp
        · split
          · simp
          · next hfresh =>
            exact ih (List.mem_cons_of_mem w hstart) (List.nodup_cons.2 ⟨hfresh, hpath⟩) (hnext w)
      · -- cycles that go on differently are different
        have hwhich : ∀ w cycle, cycle ∈ (if w = start then [path.reverse]
            else if w ∈ path then []
            else closings next start depth (w :: path) (next w)) →
            ((cycle ++ [start]).drop path.length).head? = some w := by
          intro w cycle hcycle
          split at hcycle
          · next heq =>
            obtain rfl : cycle = path.reverse := by simpa using hcycle
            simp [heq]
          · split at hcycle
            · simp at hcycle
            · next hfresh =>
              obtain ⟨way, rfl, -⟩ := exists_of_mem_closings (List.mem_cons_of_mem w hstart)
                (List.nodup_cons.2 ⟨hfresh, hpath⟩) hcycle
              simp
        refine hrest.imp ?_
        intro w w' hne
        rw [Function.onFun, List.disjoint_left]
        intro cycle hcycle hcycle'
        have heq := (hwhich w cycle hcycle).symm.trans (hwhich w' cycle hcycle')
        exact hne (Option.some.inj heq)

/-- The ways to close from a start are the elementary cycles that begin there. -/
theorem mem_closings_start {allowed : List α} (hnext : ∀ v, ∀ w ∈ next v, w ∈ allowed)
    (cycle : List α) :
    cycle ∈ closings next start (allowed.length + 1) [start] (next start) ↔
      ElementaryCycle (fun v w => w ∈ next v) cycle ∧ cycle.head? = some start := by
  have hcloses : ∀ way, Closes next start [start] (next start) way ↔
      ElementaryCycle (fun v w => w ∈ next v) (start :: way) := by
    intro way
    have hnodup : (way.reverse ++ [start]).Nodup ↔ (start :: way).Nodup := by
      rw [← List.nodup_reverse]
      simp
    rw [ElementaryCycle.cons_iff, ← hnodup]
    exact ⟨fun h => ⟨h.fresh, h.first, h.chain⟩, fun h => ⟨h.2.1, h.2.2, h.1⟩⟩
  constructor
  · intro h
    obtain ⟨way, rfl, hway⟩ := exists_of_mem_closings (by simp) (by simp) h
    exact ⟨(hcloses way).1 hway, by simp⟩
  · rintro ⟨hcycle, hhead⟩
    obtain ⟨way, rfl⟩ : ∃ way, cycle = start :: way := by
      cases cycle with
      | nil => simp at hhead
      | cons v way => exact ⟨way, by simpa using hhead⟩
    have hfree : (free allowed [start]).length ≤ allowed.length := List.length_filter_le _ _
    exact mem_closings hnext (by simp) (hnext start) (by omega) ((hcloses way).2 hcycle)

/-! ## The search without a limit -/

/-- The steps that suffice to look at one successor while a number of vertices is free. -/
def lookCost (degree : Nat) : Nat → Nat
  | 0 => 1
  | bound + 1 => 1 + stepBound degree bound

theorem stepBound_eq (degree bound : Nat) :
    stepBound degree bound = degree * lookCost degree bound + 1 := by
  cases bound <;> simp [stepBound, lookCost]

theorem lookCost_pos (degree bound : Nat) : 0 < lookCost degree bound := by
  cases bound with
  | zero => exact Nat.zero_lt_one
  | succ bound => exact Nat.lt_of_lt_of_le Nat.zero_lt_one (Nat.le_add_right 1 _)

/-- The search goes through the successors of a frame, takes down the ways to close the path by
them, and comes back to the frame. -/
theorem exists_iterate_step (start : α) {allowed : List α} (hnext : ∀ v, ∀ w ∈ next v, w ∈ allowed)
    {degree : Nat} (hdegree : ∀ v, (next v).length ≤ degree) {bound : Nat} {path rest : List α}
    (hbound : (free allowed path).length ≤ bound) (hrest : ∀ w ∈ rest, w ∈ allowed) (v : α)
    (below : List (Frame α)) (found : List (List α)) :
    ∃ n ≤ rest.length * lookCost degree bound,
      (step next start 0)^[n] ⟨path, ⟨v, rest⟩ :: below, found, false⟩ =
        ⟨path, ⟨v, []⟩ :: below, (closings next start (bound + 1) path rest).reverse ++ found,
          false⟩ := by
  induction bound using Nat.strong_induction_on generalizing path rest v below found with
  | _ bound ihBound =>
      induction rest generalizing found with
      | nil => exact ⟨0, by simp, by simp⟩
      | cons w rest ih =>
          have hrest' : ∀ x ∈ rest, x ∈ allowed := fun x hx => hrest x (List.mem_cons_of_mem _ hx)
          have hpos := lookCost_pos degree bound
          have hlook : (w :: rest).length * lookCost degree bound =
              rest.length * lookCost degree bound + lookCost degree bound := by
            rw [List.length_cons, Nat.succ_mul]
          by_cases hw : w = start
          · obtain ⟨n, hn, hrun⟩ := ih hrest' (path.reverse :: found)
            refine ⟨n + 1, by omega, ?_⟩
            rw [Function.iterate_succ_apply, closings_cons, if_pos hw]
            simpa [step, record, hw] using hrun
          · by_cases hpath : w ∈ path
            · obtain ⟨n, hn, hrun⟩ := ih hrest' found
              refine ⟨n + 1, by omega, ?_⟩
              rw [Function.iterate_succ_apply, closings_cons, if_neg hw, if_pos hpath]
              simpa [step, hw, hpath] using hrun
            · -- one step enters `w`, one leaves it again, and between them lies its frame
              have hless := free_cons_lt (hrest w List.mem_cons_self) hpath
              obtain ⟨smaller, rfl⟩ : ∃ smaller, bound = smaller + 1 :=
                Nat.exists_eq_succ_of_ne_zero (by omega)
              have hfree : (free allowed (w :: path)).length ≤ smaller := by omega
              obtain ⟨m, hm, hframe⟩ := ihBound smaller (Nat.lt_succ_self _) hfree (hnext w) w
                (⟨v, rest⟩ :: below) found
              obtain ⟨n, hn, hrun⟩ := ih hrest'
                ((closings next start (smaller + 1) (w :: path) (next w)).reverse ++ found)
              have hcost : m + 1 + 1 ≤ lookCost degree (smaller + 1) := by
                have hmul := Nat.mul_le_mul_right (lookCost degree smaller) (hdegree w)
                rw [lookCost, stepBound_eq]
                omega
              have henter : step next start 0 ⟨path, ⟨v, w :: rest⟩ :: below, found, false⟩ =
                  ⟨w :: path, ⟨w, next w⟩ :: ⟨v, rest⟩ :: below, found, false⟩ := by
                simp [step, extend, hw, hpath]
              have hleave : ∀ found', step next start 0
                  ⟨w :: path, ⟨w, []⟩ :: ⟨v, rest⟩ :: below, found', false⟩ =
                  ⟨path, ⟨v, rest⟩ :: below, found', false⟩ := fun _ => rfl
              refine ⟨n + 1 + m + 1, by omega, ?_⟩
              rw [Function.iterate_succ_apply, henter, Function.iterate_add_apply, hframe,
                Function.iterate_succ_apply, hleave, hrun, closings_cons, if_neg hw, if_neg hpath]
              simp

/-- A step takes down at most one cycle, and a limit changes only whether it stops there. -/
theorem step_cases (limit : Int) (search : PathSearch α) :
    ((search.step next start 0).found = search.found ∧
      search.step next start limit = search.step next start 0 ∧
      (search.step next start 0).stopped = search.stopped) ∨
    (∃ cycle, (search.step next start 0).found = cycle :: search.found ∧
      search.step next start limit =
        { search.step next start 0 with
          stopped := limit != 0 && limit ≤ (search.found.length + 1 : Nat) } ∧
      (search.step next start 0).stopped = false) := by
  unfold step
  split
  · exact Or.inl ⟨rfl, rfl, rfl⟩
  · exact Or.inl ⟨rfl, rfl, rfl⟩
  · dsimp only
    split
    · exact Or.inr ⟨search.path.reverse, by simp [record], by simp [record], by simp [record]⟩
    · split
      · exact Or.inl ⟨rfl, rfl, rfl⟩
      · exact Or.inl ⟨rfl, rfl, rfl⟩

/-- Without a limit, a run is the repetition of steps. -/
theorem run_eq_iterate (fuel : Nat) {search : PathSearch α} (hgo : search.stopped = false) :
    search.run next start 0 fuel = (step next start 0)^[fuel] search := by
  have hkeep : ∀ s : PathSearch α, s.stopped = false → (s.step next start 0).stopped = false := by
    intro s hs
    rcases step_cases 0 s with ⟨-, -, hstopped⟩ | ⟨_, -, -, hstopped⟩
    · exact hstopped.trans hs
    · exact hstopped
  have hidle : ∀ (s : PathSearch α) (n : Nat), s.work = [] → (step next start 0)^[n] s = s := by
    intro s n hs
    refine Function.iterate_fixed ?_ n
    simp [step, hs]
  induction fuel generalizing search with
  | zero => rfl
  | succ fuel ih =>
      unfold run
      split
      · next hend =>
        have hwork : search.work = [] := by simpa [hgo] using hend
        exact (hidle search _ hwork).symm
      · rw [ih (hkeep search hgo), Function.iterate_succ_apply]

/-- The search from a start takes down exactly the ways to close from it, in order. -/
theorem run_found (start : α) {allowed : List α} (hnext : ∀ v, ∀ w ∈ next v, w ∈ allowed)
    {degree : Nat} (hdegree : ∀ v, (next v).length ≤ degree) (found : List (List α)) :
    (begin next start found).run next start 0 (stepBound degree allowed.length) =
      ⟨[], [], (closings next start (allowed.length + 1) [start] (next start)).reverse ++ found,
        false⟩ := by
  obtain ⟨n, hn, hrun⟩ := exists_iterate_step start hnext hdegree
    (List.length_filter_le _ _ : (free allowed [start]).length ≤ allowed.length) (hnext start)
    start [] found
  have henough : n + 1 ≤ stepBound degree allowed.length := by
    have hmul := Nat.mul_le_mul_right (lookCost degree allowed.length) (hdegree start)
    rw [stepBound_eq]
    omega
  obtain ⟨spare, hspare⟩ := Nat.exists_eq_add_of_le henough
  rw [run_eq_iterate _ rfl, hspare, Nat.add_comm, Nat.add_comm n 1, Function.iterate_add_apply,
    Function.iterate_add_apply, begin, hrun]
  exact Function.iterate_fixed rfl spare

/-! ## The search with a limit -/

/-- What has been found stays found. -/
theorem found_suffix_run (fuel : Nat) (search : PathSearch α) :
    search.found <:+ (search.run next start 0 fuel).found := by
  induction fuel generalizing search with
  | zero => exact List.suffix_rfl
  | succ fuel ih =>
      unfold run
      split
      · exact List.suffix_rfl
      · refine List.IsSuffix.trans ?_ (ih _)
        rcases step_cases 0 search with ⟨hfound, -, -⟩ | ⟨cycle, hfound, -, -⟩
        · rw [hfound]
        · rw [hfound]
          exact List.suffix_cons _ _

/-- A search that has stopped stays as it is. -/
theorem run_of_stopped (limit : Int) (fuel : Nat) {search : PathSearch α}
    (h : search.stopped = true) : search.run next start limit fuel = search := by
  cases fuel with
  | zero => rfl
  | succ fuel => simp [run, h]

/-- A positive limit leaves a run alone that finds fewer cycles, and stops any other when the last
of the allowed cycles is found. -/
theorem run_limit (next : α → List α) (start : α) {limit : Nat} (fuel : Nat) {search : PathSearch α}
    (hgo : search.stopped = false) (hless : search.found.length < limit) :
    if (search.run next start 0 fuel).found.length < limit then
      search.run next start limit fuel = search.run next start 0 fuel
    else
      (search.run next start limit fuel).stopped = true ∧
        (search.run next start limit fuel).found.length = limit ∧
        (search.run next start limit fuel).found <:+ (search.run next start 0 fuel).found := by
  induction fuel generalizing search with
  | zero => simp [run, hless]
  | succ fuel ih =>
      unfold run
      by_cases hend : (search.work.isEmpty || search.stopped) = true
      · simp [hend, hless]
      · rw [if_neg hend, if_neg hend]
        rcases step_cases (limit : Int) search with ⟨hfound, hlimit, hstopped⟩ |
          ⟨cycle, hfound, hlimit, hstopped⟩
        · rw [hlimit]
          exact ih (hstopped.trans hgo) (by rw [hfound]; exact hless)
        · by_cases hmore : search.found.length + 1 < limit
          · have hsame : search.step next start limit = search.step next start 0 := by
              have hno : (((limit : Int) != 0) &&
                  decide ((limit : Int) ≤ (search.found.length + 1 : Nat))) = false := by
                simp only [Bool.and_eq_false_iff, decide_eq_false_iff_not]
                exact Or.inr (by omega)
              rw [hlimit, hno, ← hstopped]
            rw [hsame]
            exact ih hstopped (by rw [hfound]; simpa using hmore)
          · -- the limit is reached with this cycle
            have hlast : (search.step next start limit).stopped = true := by
              rw [hlimit]
              simp only [Bool.and_eq_true, bne_iff_ne, ne_eq, decide_eq_true_eq]
              omega
            have hlen : (search.step next start limit).found.length = limit := by
              rw [hlimit]
              simp only [hfound, List.length_cons]
              omega
            have hsuffix : (search.step next start limit).found <:+
                ((search.step next start 0).run next start 0 fuel).found := by
              have hfound' : (search.step next start limit).found =
                  (search.step next start 0).found := by rw [hlimit]
              rw [hfound']
              exact found_suffix_run fuel _
            have hmany := hsuffix.length_le
            rw [if_neg (by omega), run_of_stopped limit fuel hlast]
            exact ⟨hlast, hlen, hsuffix⟩

end PathSearch

/-! ## One start -/

variable [Hashable α]

namespace CycleSearch

/-- The vertices that a cycle from a start may go through. -/
def allowedAt (search : CycleSearch α) (start : α) : List α :=
  allowedFrom search.vertices (componentOf search.components start) start

/-- The allowed vertices that may follow another. -/
def nextAt (search : CycleSearch α) (start : α) : α → List α :=
  successorsIn search.successors (Std.HashSet.ofList (search.allowedAt start))

/-- The cycles that a search without a limit finds from one start, in order. -/
def waysFrom (search : CycleSearch α) (start : α) : List (List α) :=
  if search.mayCycle (componentOf search.components start) start then
    PathSearch.closings (search.nextAt start) start ((search.allowedAt start).length + 1) [start]
      (search.nextAt start start)
  else []

/-- If a start may be on a cycle, its component has listed vertices only. -/
def Listed (search : CycleSearch α) (start : α) : Prop :=
  search.mayCycle (componentOf search.components start) start = true →
    ∀ v ∈ componentOf search.components start, search.isListed v = true

/-- No vertex has more successors than the search allows for. -/
def Bounded (search : CycleSearch α) : Prop :=
  ∀ v, (search.successors v).length ≤ search.degree

section OneStart

variable {search : CycleSearch α} {start : α}

/-- What may follow a vertex are its allowed successors. -/
theorem mem_nextAt (search : CycleSearch α) (start v w : α) :
    w ∈ search.nextAt start v ↔ w ∈ search.successors v ∧ w ∈ search.allowedAt start := by
  rw [nextAt, successorsIn_ofList, List.mem_filter]
  simp

theorem length_nextAt_le (hbounded : search.Bounded) (start v : α) :
    (search.nextAt start v).length ≤ search.degree :=
  Nat.le_trans (List.length_filter_le _ _) (hbounded v)

/-- The search from a start whose component is listed is a search along paths. -/
theorem cyclesFrom_of_listed (hlisted : search.Listed start)
    (hmay : search.mayCycle (componentOf search.components start) start = true)
    (found : List (List α)) :
    search.cyclesFrom found start =
      .ok ((PathSearch.begin (search.nextAt start) start found).run (search.nextAt start) start
        search.limit (PathSearch.stepBound search.degree (search.allowedAt start).length)) := by
  have hnone : (componentOf search.components start).find? (!search.isListed ·) = none := by
    rw [List.find?_eq_none]
    intro v hv
    simp [hlisted hmay v hv]
  unfold cyclesFrom
  simp only [hmay, if_true, hnone]
  rw [MarkedSearch.run_search (MarkedSearch.begin_agrees _ _ _)]
  rfl

/-- Along paths without a limit, the search adds the cycles from its start. -/
theorem run_unlimited (hbounded : search.Bounded) (start : α) (found : List (List α)) :
    (PathSearch.begin (search.nextAt start) start found).run (search.nextAt start) start 0
        (PathSearch.stepBound search.degree (search.allowedAt start).length) =
      ⟨[], [], (PathSearch.closings (search.nextAt start) start
        ((search.allowedAt start).length + 1) [start] (search.nextAt start start)).reverse ++ found,
        false⟩ :=
  PathSearch.run_found start (fun v w hw => ((search.mem_nextAt start v w).1 hw).2)
    (length_nextAt_le hbounded start) found

/-- Without a limit, the search adds the cycles from its start. -/
theorem cyclesFrom_unlimited (hlimit : search.limit = 0) (hbounded : search.Bounded)
    (hlisted : search.Listed start) (found : List (List α)) :
    search.cyclesFrom found start =
      .ok ⟨[], [], (search.waysFrom start).reverse ++ found, false⟩ := by
  by_cases hmay : search.mayCycle (componentOf search.components start) start = true
  · rw [cyclesFrom_of_listed hlisted hmay, hlimit, run_unlimited hbounded, waysFrom, if_pos hmay]
  · simp [cyclesFrom, waysFrom, hmay]

/-- With a limit that is not yet reached, the search adds the cycles from its start as long as
they stay below the limit, and otherwise stops with as many as the limit allows. -/
theorem cyclesFrom_limited {limit : Nat} (hlimit : search.limit = limit)
    (hbounded : search.Bounded) (hlisted : search.Listed start) {found : List (List α)}
    (hless : found.length < limit) :
    ∃ paths, search.cyclesFrom found start = .ok paths ∧
      if ((search.waysFrom start).reverse ++ found).length < limit then
        paths.stopped = false ∧ paths.found = (search.waysFrom start).reverse ++ found
      else
        paths.stopped = true ∧ paths.found.length = limit ∧
          paths.found <:+ (search.waysFrom start).reverse ++ found := by
  by_cases hmay : search.mayCycle (componentOf search.components start) start = true
  · refine ⟨_, cyclesFrom_of_listed hlisted hmay found, ?_⟩
    have hcut := PathSearch.run_limit (search.nextAt start) start
      (PathSearch.stepBound search.degree (search.allowedAt start).length)
      (rfl : (PathSearch.begin (search.nextAt start) start found).stopped = false) hless
    rw [run_unlimited hbounded] at hcut
    rw [waysFrom, if_pos hmay, hlimit]
    split at hcut
    · next hfew =>
      rw [if_pos hfew, hcut]
      exact ⟨rfl, rfl⟩
    · next hmany =>
      rw [if_neg hmany]
      exact hcut
  · refine ⟨_, by simp only [cyclesFrom, hmay]; rfl, ?_⟩
    simp [waysFrom, hmay, hless]

end OneStart

/-! ## All starts -/

section AllStarts

variable {search : CycleSearch α} {starts : List α}

/-- Without a limit, the search adds the cycles from its starts in order. -/
theorem cyclesFromAll_unlimited (hlimit : search.limit = 0) (hbounded : search.Bounded)
    (hlisted : ∀ start ∈ starts, search.Listed start) (found : List (List α)) :
    search.cyclesFromAll found starts =
      .ok ⟨found.reverse ++ starts.flatMap search.waysFrom, false⟩ := by
  induction starts generalizing found with
  | nil => simp [cyclesFromAll]
  | cons start starts ih =>
      have hstart := cyclesFrom_unlimited hlimit hbounded (hlisted start List.mem_cons_self) found
      have hrest := ih (fun s hs => hlisted s (List.mem_cons_of_mem _ hs))
        ((search.waysFrom start).reverse ++ found)
      simp [cyclesFromAll, hstart, hrest]

/-- With a limit, the search lists as many of these cycles as the limit allows. -/
theorem cyclesFromAll_limited {limit : Nat} (hlimit : search.limit = limit)
    (hbounded : search.Bounded) (hlisted : ∀ start ∈ starts, search.Listed start)
    {found : List (List α)} (hless : found.length < limit) :
    search.cyclesFromAll found starts =
      .ok ⟨(found.reverse ++ starts.flatMap search.waysFrom).take limit,
        limit ≤ (found.reverse ++ starts.flatMap search.waysFrom).length⟩ := by
  induction starts generalizing found with
  | nil =>
      have htake : found.reverse.take limit = found.reverse := by
        refine List.take_of_length_le ?_
        rw [List.length_reverse]
        omega
      simp [cyclesFromAll, htake, hless]
  | cons start starts ih =>
      obtain ⟨paths, hpaths, hcut⟩ :=
        cyclesFrom_limited hlimit hbounded (hlisted start List.mem_cons_self) hless
      unfold cyclesFromAll
      rw [hpaths]
      split at hcut
      · next hfew =>
        obtain ⟨hgo, hfound⟩ := hcut
        have hrest := ih (fun s hs => hlisted s (List.mem_cons_of_mem _ hs)) hfew
        simp only [hgo, hfound, Bool.false_eq_true, if_false]
        rw [hrest]
        simp
      · next hmany =>
        obtain ⟨hstop, hlen, more, hmore⟩ := hcut
        -- what the search has is the beginning of the list, latest first
        have hall : found.reverse ++ (start :: starts).flatMap search.waysFrom =
            paths.found.reverse ++ (more.reverse ++ starts.flatMap search.waysFrom) := by
          have hrev := congrArg List.reverse hmore
          simp only [List.reverse_append, List.reverse_reverse] at hrev
          rw [List.flatMap_cons, ← List.append_assoc, ← hrev, List.append_assoc]
        have htake : (found.reverse ++ (start :: starts).flatMap search.waysFrom).take limit =
            paths.found.reverse := by
          rw [hall, List.take_append_of_le_length (by simp [hlen]),
            List.take_of_length_le (by simp [hlen])]
        have hlong :
            limit ≤ (found.reverse ++ (start :: starts).flatMap search.waysFrom).length := by
          rw [hall, List.length_append, List.length_reverse, hlen]
          exact Nat.le_add_right _ _
        simp only [hstop, if_true]
        rw [htake, decide_eq_true hlong]

end AllStarts

/-! ## Searches of graphs -/

section OfGraph

variable {vertices : List α} {graph : Adjacency α} {limit : Int} {start : α}

omit [Hashable α] in
/-- No vertex has more successors than the largest entry. -/
theorem length_successors_le (graph : Adjacency α) (v : α) :
    (graph.successors v).length ≤ graph.maxDegree := by
  unfold Adjacency.successors Adjacency.maxDegree
  induction graph.entries with
  | nil => simp
  | cons entry entries ih =>
      obtain ⟨w, next⟩ := entry
      rw [List.lookup_cons, List.map_cons, List.foldr_cons]
      by_cases hw : v = w
      · simp only [hw, beq_self_eq_true, Option.getD_some]
        exact Nat.le_max_left _ _
      · have hvw : (v == w) = false := by simpa using hw
        simp only [hvw]
        exact Nat.le_trans ih (Nat.le_max_right _ _)

theorem ofGraph_bounded (vertices : List α) (graph : Adjacency α) (limit : Int) :
    (ofGraph vertices graph limit).Bounded := by
  intro v
  rw [ofGraph_successors]
  exact length_successors_le graph v

/-- The allowed vertices without the tables of the search. -/
theorem allowedAt_ofGraph (vertices : List α) (graph : Adjacency α) (limit : Int) (start : α) :
    (ofGraph vertices graph limit).allowedAt start =
      (componentOf (Digraph.components vertices graph) start).filter
        ((notBefore vertices start).contains ·) :=
  List.filter_congr fun _ _ => Std.HashSet.contains_ofList

/-- What may follow a vertex without the tables of the search. -/
theorem nextAt_ofGraph (vertices : List α) (graph : Adjacency α) (limit : Int) (start : α) :
    (ofGraph vertices graph limit).nextAt start = fun v => (graph.successors v).filter
      (((ofGraph vertices graph limit).allowedAt start).contains ·) := by
  funext v
  rw [nextAt, successorsIn_ofList, ofGraph_successors]

omit [Hashable α] in
/-- Every listed vertex has a component, which holds it. -/
theorem componentOf_spec (graph : Adjacency α) (hstart : start ∈ vertices) :
    componentOf (Digraph.components vertices graph) start ∈ Digraph.components vertices graph ∧
      start ∈ componentOf (Digraph.components vertices graph) start := by
  have hflat : start ∈ (Digraph.components vertices graph).flatten :=
    (mem_components_flatten vertices graph start).2 ⟨start, hstart, .refl⟩
  obtain ⟨component, hmem, hin⟩ := List.mem_flatten.1 hflat
  have hsome : ((Digraph.components vertices graph).find? fun c => c.contains start).isSome := by
    rw [List.find?_isSome]
    exact ⟨component, hmem, by simpa using hin⟩
  obtain ⟨found, hfound⟩ := Option.isSome_iff_exists.1 hsome
  have hof : componentOf (Digraph.components vertices graph) start = found := by
    rw [componentOf, hfound, Option.getD_some]
  rw [hof]
  exact ⟨List.mem_of_find?_eq_some hfound, by simpa using List.find?_some hfound⟩

omit [Hashable α] in
/-- The component of a listed vertex is what it reaches and is reached by. -/
theorem mem_componentOf_iff (graph : Adjacency α) (hstart : start ∈ vertices) (v : α) :
    v ∈ componentOf (Digraph.components vertices graph) start ↔
      graph.Reaches start v ∧ graph.Reaches v start := by
  obtain ⟨hmem, hin⟩ := componentOf_spec graph hstart
  exact mem_component_iff hmem hin v

omit [Hashable α] in
/-- A component with one vertex has no other than its start. -/
theorem eq_start_of_length_eq_one (hstart : start ∈ vertices)
    (hlen : (componentOf (Digraph.components vertices graph) start).length = 1) {v : α}
    (hv : v ∈ componentOf (Digraph.components vertices graph) start) : v = start := by
  obtain ⟨only, honly⟩ := List.length_eq_one_iff.1 hlen
  have hin := (componentOf_spec graph hstart).2
  rw [honly, List.mem_singleton] at hv hin
  rw [hv, hin]

/-- The cycles found from a start are the elementary cycles that begin there and go through no
vertex before it. -/
theorem mem_waysFrom (hstart : start ∈ vertices) (cycle : List α) :
    cycle ∈ (ofGraph vertices graph limit).waysFrom start ↔
      ElementaryCycle graph.Arc cycle ∧ cycle.head? = some start ∧
        ∀ v ∈ cycle, v ∈ notBefore vertices start := by
  have hmembers := mem_componentOf_iff graph hstart
  have hcomponent : ElementaryCycle graph.Arc cycle → cycle.head? = some start → ∀ v ∈ cycle,
      v ∈ componentOf (Digraph.components vertices graph) start := by
    intro hcycle hhead v hv
    cases cycle with
    | nil => simp at hv
    | cons first rest =>
        obtain rfl : first = start := by simpa using hhead
        exact (hmembers v).2 (hcycle.reaches hv)
  unfold waysFrom
  split
  · have hnext : (fun v w => w ∈ (ofGraph vertices graph limit).nextAt start v) =
        fun v w => graph.Arc v w ∧ w ∈ (ofGraph vertices graph limit).allowedAt start := by
      funext v w
      rw [mem_nextAt, ofGraph_successors]
      rfl
    rw [PathSearch.mem_closings_start (fun v w hw => ((mem_nextAt _ start v w).1 hw).2), hnext,
      ElementaryCycle.restrict_iff]
    have hallowed : ∀ v, v ∈ (ofGraph vertices graph limit).allowedAt start ↔
        v ∈ componentOf (Digraph.components vertices graph) start ∧ v ∈ notBefore vertices start :=
      fun v => mem_allowedFrom _ _ _ v
    constructor
    · rintro ⟨⟨hcycle, hin⟩, hhead⟩
      exact ⟨hcycle, hhead, fun v hv => ((hallowed v).1 (hin v hv)).2⟩
    · rintro ⟨hcycle, hhead, hin⟩
      exact ⟨⟨hcycle, fun v hv => (hallowed v).2 ⟨hcomponent hcycle hhead v hv, hin v hv⟩⟩, hhead⟩
  · next hmay =>
    -- a vertex alone in its component that does not follow itself is on no cycle
    simp only [List.not_mem_nil, false_iff]
    rintro ⟨hcycle, hhead, -⟩
    simp only [mayCycle, ofGraph_successors, Bool.or_eq_true, bne_iff_ne, ne_eq, not_or,
      Decidable.not_not, List.contains_iff_mem] at hmay
    obtain ⟨hlen, hself⟩ := hmay
    cases cycle with
    | nil => simp at hhead
    | cons first rest =>
        obtain rfl : first = start := by simpa using hhead
        cases rest with
        | nil => exact hself ((Cycle.chain_singleton _ first).1 hcycle.chain)
        | cons second rest =>
            have hsecond : second = first :=
              eq_start_of_length_eq_one hstart hlen (hcomponent hcycle rfl second (by simp))
            have hnodup := hcycle.nodup
            simp [hsecond] at hnodup

/-- From one start, no cycle is found twice. -/
theorem waysFrom_nodup (hsuccessors : ∀ v, (graph.successors v).Nodup) (start : α) :
    ((ofGraph vertices graph limit).waysFrom start).Nodup := by
  unfold waysFrom
  split
  · have hnext : ∀ v, ((ofGraph vertices graph limit).nextAt start v).Nodup := by
      intro v
      rw [nextAt, ofGraph_successors]
      exact (hsuccessors v).filter _
    exact PathSearch.closings_nodup hnext (by simp) (by simp) (hnext start)
  · exact List.nodup_nil

omit [Hashable α] in
/-- Among distinct vertices, those not before a start are those with no smaller position. -/
theorem mem_notBefore_iff (hnodup : vertices.Nodup) (hstart : start ∈ vertices) (v : α) :
    v ∈ notBefore vertices start ↔
      v ∈ vertices ∧ vertices.idxOf start ≤ vertices.idxOf v := by
  obtain ⟨before, after, rfl⟩ := List.append_of_mem hstart
  obtain ⟨-, hrest, hapart⟩ := List.nodup_append.1 hnodup
  have hafter : start ∉ after := (List.nodup_cons.1 hrest).1
  have hbefore : start ∉ before := fun hmem => hapart start hmem start List.mem_cons_self rfl
  have htake : (before ++ start :: after).reverse.takeWhile (· != start) = after.reverse := by
    rw [List.reverse_append, List.reverse_cons, List.append_assoc, List.takeWhile_append_of_pos]
    · simp
    · intro w hw
      have hne : w ≠ start := fun heq => hafter (heq ▸ List.mem_reverse.1 hw)
      simpa using hne
  have hidx : (before ++ start :: after).idxOf start = before.length := by
    rw [List.idxOf_append_of_notMem hbefore, List.idxOf_cons_self, Nat.add_zero]
  rw [notBefore, htake, hidx]
  constructor
  · intro hv
    have hv' : v ∈ start :: after := by simpa [or_comm] using hv
    have hnot : v ∉ before := fun hmem => hapart v hmem v hv' rfl
    refine ⟨List.mem_append_right _ hv', ?_⟩
    rw [List.idxOf_append_of_notMem hnot]
    exact Nat.le_add_right _ _
  · rintro ⟨hv, hle⟩
    rcases List.mem_append.1 hv with hv | hv
    · rw [List.idxOf_append_of_mem hv] at hle
      have hlt := List.idxOf_lt_length_of_mem hv
      omega
    · simpa [or_comm] using hv

/-- The search can go on from a start exactly if no unlisted vertex reaches the start and is reached
by it. -/
theorem listed_ofGraph_iff (hstart : start ∈ vertices) :
    (ofGraph vertices graph limit).Listed start ↔
      ∀ u, graph.Reaches start u → graph.Reaches u start → u ∈ vertices := by
  have hmembers := mem_componentOf_iff graph hstart
  constructor
  · intro hlisted u hto hback
    by_cases hu : u = start
    · exact hu ▸ hstart
    · -- the component has two vertices, so that it is looked at
      have hmay : (ofGraph vertices graph limit).mayCycle
          (componentOf (Digraph.components vertices graph) start) start = true := by
        have hlen : (componentOf (Digraph.components vertices graph) start).length ≠ 1 := by
          intro hone
          exact hu (eq_start_of_length_eq_one hstart hone ((hmembers u).2 ⟨hto, hback⟩))
        simp [mayCycle, hlen]
      have hisListed := hlisted hmay u ((hmembers u).2 ⟨hto, hback⟩)
      rw [ofGraph_isListed] at hisListed
      simpa using hisListed
  · intro hmutual _ v hv
    obtain ⟨hto, hback⟩ := (hmembers v).1 hv
    rw [ofGraph_isListed]
    simpa using hmutual v hto hback

end OfGraph

end CycleSearch

/-! ## Cycles of graphs -/

section Cycles

variable {vertices : List α} {graph : Adjacency α}

/-- Every component with a listed vertex is listed: what reaches a listed vertex and is reached by
it is listed as well. -/
def Adjacency.ListsComponents (graph : Adjacency α) (vertices : List α) : Prop :=
  ∀ v ∈ vertices, ∀ u, graph.Reaches v u → graph.Reaches u v → u ∈ vertices

omit [Hashable α] in
/-- Where every vertex with an arc is listed, so are the components. -/
theorem Adjacency.ListsComponents.of_arcs (harcs : ∀ v w, graph.Arc v w → v ∈ vertices) :
    graph.ListsComponents vertices := by
  intro v hv u _ hback
  rcases hback.cases_head with rfl | ⟨w, harc, -⟩
  · exact hv
  · exact harcs u w harc

/-- Where components are listed, the search can go on from every start. -/
theorem Adjacency.ListsComponents.listed (hlists : graph.ListsComponents vertices) (limit : Int) :
    ∀ start ∈ vertices, (CycleSearch.ofGraph vertices graph limit).Listed start :=
  fun start hstart => (CycleSearch.listed_ofGraph_iff hstart).2 (hlists start hstart)

/-- The cycles that are found from all starts. -/
def allWays (vertices : List α) (graph : Adjacency α) : List (List α) :=
  vertices.flatMap (CycleSearch.ofGraph vertices graph 0).waysFrom

/-- Without a limit, the cycles from all starts are listed in order. -/
theorem cycles_unlimited (hlists : graph.ListsComponents vertices) :
    cycles vertices graph 0 = .ok ⟨allWays vertices graph, false⟩ :=
  CycleSearch.cyclesFromAll_unlimited rfl (CycleSearch.ofGraph_bounded vertices graph 0)
    (hlists.listed 0) []

/-- With a limit, as many of the same cycles are listed as it allows. -/
theorem cycles_limited (hlists : graph.ListsComponents vertices) {limit : Nat}
    (hlimit : 0 < limit) :
    cycles vertices graph limit =
      .ok ⟨(allWays vertices graph).take limit, limit ≤ (allWays vertices graph).length⟩ :=
  CycleSearch.cyclesFromAll_limited rfl (CycleSearch.ofGraph_bounded vertices graph limit)
    (hlists.listed limit) hlimit

/-- What is found is an elementary cycle of listed vertices that begins at its earliest one. -/
theorem mem_allWays (hnodup : vertices.Nodup) (cycle : List α) :
    cycle ∈ allWays vertices graph ↔
      ElementaryCycle graph.Arc cycle ∧ ∃ start, cycle.head? = some start ∧
        ∀ v ∈ cycle, v ∈ vertices ∧ vertices.idxOf start ≤ vertices.idxOf v := by
  rw [allWays, List.mem_flatMap]
  constructor
  · rintro ⟨start, hstart, hcycle⟩
    obtain ⟨helem, hhead, hin⟩ := (CycleSearch.mem_waysFrom hstart cycle).1 hcycle
    exact ⟨helem, start, hhead, fun v hv =>
      (CycleSearch.mem_notBefore_iff hnodup hstart v).1 (hin v hv)⟩
  · rintro ⟨helem, start, hhead, hin⟩
    have hstart : start ∈ vertices := (hin start (List.mem_of_mem_head? hhead)).1
    exact ⟨start, hstart, (CycleSearch.mem_waysFrom hstart cycle).2 ⟨helem, hhead, fun v hv =>
      (CycleSearch.mem_notBefore_iff hnodup hstart v).2 (hin v hv)⟩⟩

/-- No cycle is found twice. -/
theorem allWays_nodup (hnodup : vertices.Nodup) (hsuccessors : ∀ v, (graph.successors v).Nodup) :
    (allWays vertices graph).Nodup := by
  rw [allWays, List.nodup_flatMap]
  refine ⟨fun start _ => CycleSearch.waysFrom_nodup hsuccessors start, ?_⟩
  refine hnodup.imp_of_mem ?_
  intro start start' hstart hstart' hne
  rw [Function.onFun, List.disjoint_left]
  intro cycle hcycle hcycle'
  have hhead := ((CycleSearch.mem_waysFrom hstart cycle).1 hcycle).2.1
  have hhead' := ((CycleSearch.mem_waysFrom hstart' cycle).1 hcycle').2.1
  exact hne (Option.some.inj (hhead.symm.trans hhead'))

omit [Hashable α] in
/-- The vertices of an elementary cycle are listed where every vertex with an arc is. -/
theorem ElementaryCycle.listed (harcs : ∀ v w, graph.Arc v w → v ∈ vertices) {cycle : List α}
    (hcycle : ElementaryCycle graph.Arc cycle) {v : α} (hv : v ∈ cycle) : v ∈ vertices := by
  obtain ⟨rest, hrot⟩ := exists_rotation hv
  obtain ⟨-, hfirst, -⟩ := cons_iff.1 (hcycle.rotated hrot)
  cases rest with
  | nil => exact harcs v v (hfirst v rfl)
  | cons w rest => exact harcs v w (hfirst w rfl)

/-- Every elementary cycle is found in exactly one rotation, and once. -/
theorem countP_allWays (hnodup : vertices.Nodup) (hsuccessors : ∀ v, (graph.successors v).Nodup)
    (harcs : ∀ v w, graph.Arc v w → v ∈ vertices) {cycle : List α}
    (hcycle : ElementaryCycle graph.Arc cycle) :
    (allWays vertices graph).countP (fun found => decide (found ~r cycle)) = 1 := by
  have hlisted : ∀ v ∈ cycle, v ∈ vertices := fun v hv => hcycle.listed harcs hv
  obtain ⟨start, hstart, hearliest⟩ : ∃ start ∈ cycle, ∀ v ∈ cycle,
      vertices.idxOf start ≤ vertices.idxOf v := by
    have hnonempty : cycle.toFinset.Nonempty := List.toFinset_nonempty_iff _ |>.2 hcycle.ne_nil
    simpa using cycle.toFinset.exists_min_image vertices.idxOf hnonempty
  obtain ⟨rest, hrot⟩ := ElementaryCycle.exists_rotation hstart
  have hmem : start :: rest ∈ allWays vertices graph := by
    refine (mem_allWays hnodup _).2 ⟨hcycle.rotated hrot, start, rfl, ?_⟩
    intro v hv
    have hv' : v ∈ cycle := hrot.mem_iff.2 hv
    exact ⟨hlisted v hv', hearliest v hv'⟩
  have honly : ∀ found ∈ allWays vertices graph,
      decide (found ~r cycle) = true ↔ (found == start :: rest) = true := by
    intro found hfound
    rw [decide_eq_true_iff, beq_iff_eq]
    constructor
    · intro hrot'
      obtain ⟨-, first, hhead, hfirst⟩ := (mem_allWays hnodup found).1 hfound
      obtain ⟨rest', rfl⟩ : ∃ rest', found = first :: rest' := by
        cases found with
        | nil => simp at hhead
        | cons v rest' => exact ⟨rest', by simpa using hhead⟩
      -- both begin at the earliest vertex
      have hle := hearliest first (hrot'.mem_iff.1 List.mem_cons_self)
      have hge := (hfirst start (hrot'.mem_iff.2 hstart)).2
      obtain rfl : start = first :=
        (List.idxOf_inj (hlisted start hstart)).1 (Nat.le_antisymm hle hge)
      have hboth := hrot'.trans hrot
      have hfoundNodup := hboth.nodup_iff.2 (hcycle.rotated hrot).nodup
      exact ElementaryCycle.eq_of_rotated_of_head hfoundNodup hboth
    · rintro rfl
      exact hrot.symm
  rw [List.countP_congr honly]
  exact List.count_eq_one_of_mem (allWays_nodup hnodup hsuccessors) hmem

/-- What is no elementary cycle is found in no rotation. -/
theorem countP_allWays_eq_zero (hnodup : vertices.Nodup) {cycle : List α}
    (hcycle : ¬ ElementaryCycle graph.Arc cycle) :
    (allWays vertices graph).countP (fun found => decide (found ~r cycle)) = 0 := by
  rw [List.countP_eq_zero]
  intro found hfound hrot
  exact hcycle (((mem_allWays hnodup found).1 hfound).1.rotated (of_decide_eq_true hrot))

omit [Hashable α] in
/-- The rotations of a cycle count as one. -/
theorem count_rotations (found : List (List α)) (cycle : List α) :
    (found.map Cycle.ofList).count (Cycle.ofList cycle) =
      found.countP fun other => decide (other ~r cycle) := by
  rw [List.count, List.countP_map]
  refine List.countP_congr fun other _ => ?_
  simp [Cycle.coe_eq_coe]

/-- Two graphs with the same arcs have the same cycles up to rotation, in whichever order their
vertices come. -/
theorem allWays_perm {vertices' : List α} {graph' : Adjacency α}
    (hnodup : vertices.Nodup) (hnodup' : vertices'.Nodup)
    (hsuccessors : ∀ v, (graph.successors v).Nodup)
    (hsuccessors' : ∀ v, (graph'.successors v).Nodup)
    (harcs : ∀ v w, graph.Arc v w → v ∈ vertices)
    (harcs' : ∀ v w, graph'.Arc v w → v ∈ vertices') (hsame : graph.Arc = graph'.Arc) :
    ((allWays vertices graph).map Cycle.ofList).Perm
      ((allWays vertices' graph').map Cycle.ofList) := by
  rw [List.perm_iff_count]
  intro rotations
  induction rotations using Quotient.inductionOn' with
  | h cycle =>
      change List.count (Cycle.ofList cycle) _ = List.count (Cycle.ofList cycle) _
      rw [count_rotations, count_rotations]
      by_cases hcycle : ElementaryCycle graph.Arc cycle
      · rw [countP_allWays hnodup hsuccessors harcs hcycle,
          countP_allWays hnodup' hsuccessors' harcs' (hsame ▸ hcycle)]
      · rw [countP_allWays_eq_zero hnodup hcycle, countP_allWays_eq_zero hnodup' (hsame ▸ hcycle)]

end Cycles
end Digraph
end CodeAtlas
