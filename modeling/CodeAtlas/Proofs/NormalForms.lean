import CodeAtlas.Path
import Mathlib.Data.List.Basic
import Mathlib.Data.List.Induction

/-!
# Normal forms of paths

A path is evaluated from its root, one component after the other.  What the evaluation arrives at
has a normal shape: its components name something, and those that go up stand at the beginning of a
relative path.  A path of that shape is evaluated to itself, so that the normal form says no more
and no less than where a path leads.  Going on from there by another path, it matters only where
that one leads.

Main results:

- Theorem {lit}`Evaluated.moves_follow`: the ways in which a component is entered.
- Theorem {lit}`evaluate_normal`: every path is evaluated to one of normal shape.
- Theorem {lit}`evaluate_render`: a path of normal shape is evaluated to itself.
- Theorem {lit}`evaluate_join`: a joined path leads where its second part leads from its first.
-/

namespace CodeAtlas
namespace Path

/-! ## Going on from a path -/

namespace Evaluated

/-- Goes on from a path through further components. -/
def follow (path : Evaluated) (components : List (List Char)) : Evaluated :=
  ⟨path.root, (components.foldl (enter path.root) path.components.reverse).reverse⟩

@[simp]
theorem follow_root (path : Evaluated) (components : List (List Char)) :
    (path.follow components).root = path.root :=
  rfl

@[simp]
theorem follow_nil (path : Evaluated) : path.follow [] = path := by
  simp [follow]

theorem follow_append (path : Evaluated) (first second : List (List Char)) :
    path.follow (first ++ second) = (path.follow first).follow second := by
  simp [follow]

theorem follow_cons (path : Evaluated) (component : List Char) (components : List (List Char)) :
    path.follow (component :: components) = (path.follow [component]).follow components :=
  follow_append path [component] components

section OneComponent

variable {path : Evaluated} {component : List Char}

/-- A component that stays leaves the path as it is. -/
theorem follow_of_isHere (h : isHere component = true) : path.follow [component] = path := by
  simp [follow, enter, h]

/-- A component that names something comes last. -/
theorem follow_of_name (hhere : isHere component = false) (hup : isUp component = false) :
    path.follow [component] = ⟨path.root, path.components ++ [component]⟩ := by
  simp [follow, enter, hhere, hup]

theorem isHere_of_isUp (h : isUp component = true) : isHere component = false := by
  simp only [isUp, beq_iff_eq] at h
  subst h
  decide

/-- Going up leaves a component that names something. -/
theorem follow_leave {front : List (List Char)} {last : List Char} (hup : isUp component = true)
    (hcomponents : path.components = front ++ [last]) (hlast : isUp last = false) :
    path.follow [component] = ⟨path.root, front⟩ := by
  simp [follow, enter, isHere_of_isUp hup, hup, hcomponents, hlast]

/-- Going up is remembered at the top of a relative path, and after a component that goes up. -/
theorem follow_climb (hup : isUp component = true)
    (hcomponents : path.components = [] ∧ path.root = .relative ∨
      ∃ front last, path.components = front ++ [last] ∧ isUp last = true) :
    path.follow [component] = ⟨path.root, path.components ++ [component]⟩ := by
  rcases hcomponents with ⟨hempty, hroot⟩ | ⟨front, last, hcomponents, hlast⟩
  · simp [follow, enter, isHere_of_isUp hup, hup, hempty, hroot]
  · simp [follow, enter, isHere_of_isUp hup, hup, hcomponents, hlast]

/-- There is nothing above a root. -/
theorem follow_top (hup : isUp component = true) (hempty : path.components = [])
    (hroot : path.root ≠ .relative) : path.follow [component] = path := by
  cases path with
  | mk root components =>
      simp only at hempty hroot
      simp [follow, enter, isHere_of_isUp hup, hup, hempty, hroot]

end OneComponent

/-- How a path goes on by one component. -/
inductive Moves (path : Evaluated) (component : List Char) : Evaluated → Prop where
  | stay (hhere : isHere component = true) : Moves path component path
  | descend (hhere : isHere component = false) (hup : isUp component = false) :
      Moves path component ⟨path.root, path.components ++ [component]⟩
  | leave {front : List (List Char)} {last : List Char} (hup : isUp component = true)
      (hcomponents : path.components = front ++ [last]) (hlast : isUp last = false) :
      Moves path component ⟨path.root, front⟩
  | climb (hup : isUp component = true)
      (hcomponents : path.components = [] ∧ path.root = .relative ∨
        ∃ front last, path.components = front ++ [last] ∧ isUp last = true) :
      Moves path component ⟨path.root, path.components ++ [component]⟩
  | top (hup : isUp component = true) (hempty : path.components = [])
      (hroot : path.root ≠ .relative) : Moves path component path

theorem moves_follow (path : Evaluated) (component : List Char) :
    path.Moves component (path.follow [component]) := by
  cases hup : isUp component with
  | false =>
      cases hhere : isHere component with
      | true =>
          rw [follow_of_isHere hhere]
          exact .stay hhere
      | false =>
          rw [follow_of_name hhere hup]
          exact .descend hhere hup
  | true =>
      rcases List.eq_nil_or_concat' path.components with hempty | ⟨front, last, hcomponents⟩
      · by_cases hroot : path.root = .relative
        · rw [follow_climb hup (.inl ⟨hempty, hroot⟩)]
          exact .climb hup (.inl ⟨hempty, hroot⟩)
        · rw [follow_top hup hempty hroot]
          exact .top hup hempty hroot
      · cases hlast : isUp last with
        | true =>
            rw [follow_climb hup (.inr ⟨front, last, hcomponents, hlast⟩)]
            exact .climb hup (.inr ⟨front, last, hcomponents, hlast⟩)
        | false =>
            rw [follow_leave hup hcomponents hlast]
            exact .leave hup hcomponents hlast

/-- Every component of a path that goes on was there or was entered. -/
theorem mem_follow {path : Evaluated} {components : List (List Char)} {component : List Char}
    (h : component ∈ (path.follow components).components) :
    component ∈ path.components ∨ component ∈ components := by
  induction components using List.reverseRecOn with
  | nil =>
      left
      simpa using h
  | append_singleton components next ih =>
      rw [follow_append] at h
      have hmoves := moves_follow (path.follow components) next
      generalize (path.follow components).follow [next] = result at h hmoves
      have hbefore : component ∈ (path.follow components).components ∨ component = next := by
        cases hmoves with
        | stay => exact .inl h
        | descend => simpa using h
        | leave _ hcomponents => simp [hcomponents, h]
        | climb => simpa using h
        | top => exact .inl h
      rcases hbefore with hbefore | rfl
      · rcases ih hbefore with hpath | hcomponents
        · exact .inl hpath
        · exact .inr (by simp [hcomponents])
      · exact .inr (by simp)

/-! ## Normal shape -/

/-- A path of normal shape: its components name something, those that go up come first, and none
goes up from a root. -/
structure Normal (path : Evaluated) : Prop where
  proper : ∀ component ∈ path.components, isHere component = false ∧ '/' ∉ component
  upsFirst : path.components.Pairwise fun a b => isUp b = true → isUp a = true
  rooted : path.root ≠ .relative → ∀ component ∈ path.components, isUp component = false

namespace Normal

variable {path : Evaluated}

theorem empty (root : Root) : (Evaluated.mk root []).Normal := by
  refine ⟨?_, ?_, ?_⟩ <;> simp

/-- A path of normal shape without its last component. -/
theorem front {components : List (List Char)} {last : List Char} (h : path.Normal)
    (hcomponents : path.components = components ++ [last]) :
    (Evaluated.mk path.root components).Normal := by
  refine ⟨?_, ?_, ?_⟩
  · intro component hmem
    exact h.proper component (by simp [hcomponents, hmem])
  · have hups := h.upsFirst
    rw [hcomponents] at hups
    exact (List.pairwise_append.1 hups).1
  · intro hroot component hmem
    exact h.rooted hroot component (by simp [hcomponents, hmem])

/-- A component at the end keeps the shape, if it goes up only where all before it do. -/
theorem snoc (h : path.Normal) {component : List Char} (hhere : isHere component = false)
    (hslash : '/' ∉ component)
    (hups : isUp component = true → ∀ before ∈ path.components, isUp before = true)
    (hroot : isUp component = true → path.root = .relative) :
    (Evaluated.mk path.root (path.components ++ [component])).Normal := by
  refine ⟨?_, ?_, ?_⟩
  · intro other hmem
    rcases List.mem_append.1 hmem with hmem | hmem
    · exact h.proper other hmem
    · rw [List.mem_singleton.1 hmem]
      exact ⟨hhere, hslash⟩
  · apply List.pairwise_append.2
    refine ⟨h.upsFirst, List.pairwise_singleton _ _, ?_⟩
    intro before hbefore last hlast hup
    rw [List.mem_singleton.1 hlast] at hup
    exact hups hup before hbefore
  · intro hrooted other hmem
    rcases List.mem_append.1 hmem with hmem | hmem
    · exact h.rooted hrooted other hmem
    · rw [List.mem_singleton.1 hmem, ← Bool.not_eq_true]
      exact fun hup => hrooted (hroot hup)

/-- Where the last component goes up, all do, and the path is relative. -/
theorem all_up (h : path.Normal) {front : List (List Char)} {last : List Char}
    (hcomponents : path.components = front ++ [last]) (hlast : isUp last = true) :
    (∀ component ∈ path.components, isUp component = true) ∧ path.root = .relative := by
  constructor
  · intro component hmem
    have hups := h.upsFirst
    rw [hcomponents] at hups hmem
    rcases List.mem_append.1 hmem with hmem | hmem
    · exact (List.pairwise_append.1 hups).2.2 component hmem last (by simp) hlast
    · rw [List.mem_singleton.1 hmem]
      exact hlast
  · by_contra hroot
    have hnot := h.rooted hroot last (by simp [hcomponents])
    simp [hlast] at hnot

/-- Going on by one component keeps the shape. -/
theorem moves (h : path.Normal) {component : List Char} (hslash : '/' ∉ component)
    {result : Evaluated} (hmoves : path.Moves component result) : result.Normal := by
  cases hmoves with
  | stay => exact h
  | descend hhere hup => exact h.snoc hhere hslash (by simp [hup]) (by simp [hup])
  | leave _ hcomponents => exact h.front hcomponents
  | climb hup hcomponents =>
      have hhere := isHere_of_isUp hup
      rcases hcomponents with ⟨hempty, hroot⟩ | ⟨front, last, hcomponents, hlast⟩
      · exact h.snoc hhere hslash (by simp [hempty]) (fun _ => hroot)
      · rcases h.all_up hcomponents hlast with ⟨hall, hroot⟩
        exact h.snoc hhere hslash (fun _ => hall) (fun _ => hroot)
  | top => exact h

/-- Going on keeps the shape. -/
theorem follow (h : path.Normal) {components : List (List Char)}
    (hslash : ∀ component ∈ components, '/' ∉ component) : (path.follow components).Normal := by
  induction components using List.reverseRecOn with
  | nil => simpa using h
  | append_singleton components next ih =>
      rw [follow_append]
      have hbefore := ih fun component hmem => hslash component (by simp [hmem])
      exact hbefore.moves (hslash next (by simp)) (moves_follow _ next)

/-- The components of a path of normal shape lead to that path. -/
theorem follow_components (h : path.Normal) :
    (Evaluated.mk path.root []).follow path.components = path := by
  cases path with
  | mk root components =>
      induction components using List.reverseRecOn with
      | nil => simp
      | append_singleton front last ih =>
          have hfront : (Evaluated.mk root front).Normal := h.front rfl
          have hhere := (h.proper last (by simp)).1
          rw [follow_append, ih hfront]
          cases hup : isUp last with
          | false => exact follow_of_name hhere hup
          | true =>
              rcases h.all_up rfl hup with ⟨hall, hroot⟩
              apply follow_climb hup
              rcases List.eq_nil_or_concat' front with rfl | ⟨before, previous, rfl⟩
              · exact .inl ⟨rfl, hroot⟩
              · exact .inr ⟨before, previous, rfl, hall previous (by simp)⟩

end Normal

/-- Going on through some components leads where going on through their evaluation leads. -/
theorem follow_evaluated (path : Evaluated) {components : List (List Char)}
    (hslash : ∀ component ∈ components, '/' ∉ component) :
    path.follow ((Evaluated.mk .relative []).follow components).components =
      path.follow components := by
  -- from the end, since the last component may take back one that was entered before
  induction components using List.reverseRecOn with
  | nil => simp
  | append_singleton components next ih =>
      have hslash' : ∀ component ∈ components, '/' ∉ component :=
        fun component hmem => hslash component (by simp [hmem])
      have hnormal := (Normal.empty .relative).follow hslash'
      have hmoves := moves_follow ((Evaluated.mk .relative []).follow components) next
      have hroot : ((Evaluated.mk .relative []).follow components).root = .relative := rfl
      rw [follow_append, follow_append, ← ih hslash']
      generalize (Evaluated.mk .relative []).follow components = reached at hnormal hmoves hroot
      generalize reached.follow [next] = result at hmoves
      cases hmoves with
      | stay hhere => rw [follow_of_isHere hhere]
      | descend => exact follow_append path reached.components [next]
      | @leave front last hup hcomponents hlast =>
          have hhere := (hnormal.proper last (by simp [hcomponents])).1
          -- the last name is entered on the way from the path too, and left again
          have hback : (Evaluated.mk path.root ((path.follow front).components ++ [last])).follow
              [next] = path.follow front := follow_leave hup rfl hlast
          rw [hcomponents, follow_append, follow_of_name hhere hlast, follow_root, hback]
      | climb => exact follow_append path reached.components [next]
      | top _ _ hrooted => exact absurd hroot hrooted

end Evaluated

/-! ## Evaluation -/

open Evaluated

/-- A path is evaluated by going on from its root. -/
theorem evaluate_eq_follow (path : List Char) :
    evaluate path = (Evaluated.mk (rootOf path) []).follow (Text.segments '/' path) :=
  rfl

/-- Every path is evaluated to one of normal shape. -/
theorem evaluate_normal (path : List Char) : (evaluate path).Normal := by
  rw [evaluate_eq_follow]
  exact (Normal.empty _).follow fun _ => Text.not_mem_of_mem_segments

/-- The root of a path is told by what stands before a character other than a slash. -/
theorem rootOf_append (base : List Char) {path : List Char} (h : path.head? ≠ some '/') :
    rootOf (base ++ path) = rootOf base := by
  cases path with
  | nil => rw [List.append_nil]
  | cons c path =>
      have hc : c ≠ '/' := by simpa using h
      rcases base with _ | ⟨first, _ | ⟨second, _ | ⟨third, base⟩⟩⟩
      · simp [rootOf, hc]
      · by_cases hfirst : first = '/'
        · simp [rootOf, hfirst, hc]
        · simp [rootOf, hfirst]
      · by_cases hfirst : first = '/'
        · by_cases hsecond : second = '/'
          · simp [rootOf, hfirst, hsecond, hc]
          · simp [rootOf, hfirst, hsecond]
        · simp [rootOf, hfirst]
      · by_cases hfirst : first = '/'
        · by_cases hsecond : second = '/'
          · by_cases hthird : third = '/'
            · simp [rootOf, hfirst, hsecond, hthird]
            · simp [rootOf, hfirst, hsecond, hthird]
          · simp [rootOf, hfirst, hsecond]
        · simp [rootOf, hfirst]

theorem rootOf_of_head? {path : List Char} (h : path.head? ≠ some '/') : rootOf path = .relative :=
  rootOf_append [] h

/-- Slashes at the start only make the root. -/
theorem follow_segments_slashes (path : Evaluated) (root : Root) (text : List Char) :
    path.follow (Text.segments '/' (root.slashes ++ text)) =
      path.follow (Text.segments '/' text) := by
  have hempty : path.follow [[]] = path := follow_of_isHere rfl
  cases root with
  | relative => rfl
  | single => simp [Root.slashes, Text.segments, follow_cons, hempty]
  | double => simp [Root.slashes, Text.segments, follow_cons, hempty]

/-- Written components are entered one by one. -/
theorem follow_segments_intercalate (path : Evaluated) {components : List (List Char)}
    (hslash : ∀ component ∈ components, '/' ∉ component) :
    path.follow (Text.segments '/' (['/'].intercalate components)) = path.follow components := by
  cases components with
  | nil => exact (follow_of_isHere rfl).trans (follow_nil path).symm
  | cons component components => rw [Text.segments_intercalate (by simp) hslash]

/-- Components that are not empty are not written with a slash at the start. -/
theorem head?_intercalate_ne {components : List (List Char)}
    (h : ∀ component ∈ components, isHere component = false ∧ '/' ∉ component) :
    (['/'].intercalate components).head? ≠ some '/' := by
  rcases components with _ | ⟨component, components⟩
  · simp
  · rcases h component (by simp) with ⟨hhere, hslash⟩
    cases component with
    | nil => cases hhere
    | cons c component =>
        have hc : c ≠ '/' := fun heq => hslash (by simp [heq])
        cases components <;> simp [hc]

theorem rootOf_render {path : Evaluated} (h : path.Normal) : rootOf path.render = path.root := by
  rw [render, rootOf_append _ (head?_intercalate_ne h.proper)]
  cases path.root <;> rfl

/-- A path of normal shape is evaluated to itself. -/
theorem evaluate_render {path : Evaluated} (h : path.Normal) : evaluate path.render = path := by
  rw [evaluate_eq_follow, rootOf_render h, render, follow_segments_slashes,
    follow_segments_intercalate _ fun component hmem => (h.proper component hmem).2,
    h.follow_components]

/-- Two paths of normal shape that are written alike are the same. -/
theorem render_injective {path other : Evaluated} (h : path.Normal) (hother : other.Normal)
    (heq : path.render = other.render) : path = other := by
  rw [← evaluate_render h, ← evaluate_render hother, heq]

/-! ## Backslashes -/

theorem not_mem_slashed (path : List Char) : '\\' ∉ slashed path := by
  intro h
  rcases List.mem_map.1 h with ⟨c, -, hc⟩
  by_cases hback : c = '\\'
  · simp [hback] at hc
  · simp [hback] at hc

theorem slashed_of_not_mem {path : List Char} (h : '\\' ∉ path) : slashed path = path := by
  have hkept : ∀ c ∈ path, (if c = '\\' then '/' else c) = id c := by
    intro c hc
    have hne : c ≠ '\\' := fun heq => h (heq ▸ hc)
    simp [hne]
  rw [slashed, List.map_congr_left hkept, List.map_id]

/-- A normal form is written without backslashes. -/
theorem not_mem_normalizeChars (path : List Char) : '\\' ∉ normalizeChars path := by
  intro h
  rw [normalizeChars, render, List.mem_append] at h
  rcases h with h | h
  · revert h
    cases (evaluate (slashed path)).root <;> decide
  · rcases Text.mem_of_mem_intercalate h with h | ⟨component, hcomponent, h⟩
    · simp at h
    · rw [evaluate_eq_follow] at hcomponent
      rcases mem_follow hcomponent with hnone | hsegment
      · simp at hnone
      · exact not_mem_slashed path (Text.mem_of_mem_segments hsegment h).1

/-- A path of normal shape is its own normal form. -/
theorem normalizeChars_render {path : Evaluated} (h : path.Normal) (hback : '\\' ∉ path.render) :
    normalizeChars path.render = path.render := by
  rw [normalizeChars, slashed_of_not_mem hback, evaluate_render h]

/-- Normal forms are their own normal forms. -/
theorem normalizeChars_idem (path : List Char) :
    normalizeChars (normalizeChars path) = normalizeChars path :=
  normalizeChars_render (evaluate_normal _) (not_mem_normalizeChars path)

theorem normalize_normalize (path : String) : normalize (normalize path) = normalize path := by
  simp [normalize, normalizeChars_idem]

theorem normalizeChars_of_normalize {path : String} (h : normalize path = path) :
    normalizeChars path.toList = path.toList := by
  simpa [normalize] using congrArg String.toList h

/-- Paths have the same normal form if they are evaluated alike. -/
theorem normalize_eq_iff (path other : String) :
    normalize path = normalize other ↔
      evaluate (slashed path.toList) = evaluate (slashed other.toList) := by
  simp only [normalize, String.ofList_inj, normalizeChars]
  constructor
  · exact render_injective (evaluate_normal _) (evaluate_normal _)
  · intro h
    rw [h]

/-- A component with a character other than a dot names something. -/
theorem isName_of_mem {component : List Char} {c : Char} (hmem : c ∈ component) (hc : c ≠ '.') :
    isHere component = false ∧ isUp component = false := by
  constructor
  · simp only [isHere, Bool.or_eq_false_iff, beq_eq_false_iff_ne]
    constructor
    · rintro rfl
      simp at hmem
    · rintro rfl
      simp [hc] at hmem
  · simp only [isUp, beq_eq_false_iff_ne]
    rintro rfl
    simp [hc] at hmem

/-- What is written after the last component belongs to it. -/
theorem intercalate_append_last (front : List (List Char)) (last rest : List Char) :
    ['/'].intercalate (front ++ [last ++ rest]) = ['/'].intercalate (front ++ [last]) ++ rest := by
  by_cases hfront : front = []
  · simp [hfront]
  · simp [Text.intercalate_append '/' hfront]

/-- The last component of a path of normal shape may be written on, if not with dots alone. -/
theorem exists_longer {path : Evaluated} (h : path.Normal) {rest : List Char}
    (hslash : '/' ∉ rest) {c : Char} (hmem : c ∈ rest) (hc : c ≠ '.') :
    ∃ longer : Evaluated, longer.Normal ∧ longer.render = path.render ++ rest := by
  rcases List.eq_nil_or_concat' path.components with hempty | ⟨front, last, hcomponents⟩
  · rcases isName_of_mem hmem hc with ⟨hhere, hup⟩
    refine ⟨⟨path.root, [rest]⟩, ?_, ?_⟩
    · exact (Normal.empty path.root).snoc hhere hslash (by simp [hup]) (by simp [hup])
    · simp [render, hempty]
  · have hlast := (h.proper last (by simp [hcomponents])).2
    rcases isName_of_mem (List.mem_append_right last hmem) hc with ⟨hhere, hup⟩
    refine ⟨⟨path.root, front ++ [last ++ rest]⟩, ?_, ?_⟩
    · exact (h.front hcomponents).snoc hhere (by simp [hlast, hslash]) (by simp [hup])
        (by simp [hup])
    · rw [render, render, hcomponents, intercalate_append_last, List.append_assoc]

/-- A normal form with an extension is a normal form. -/
theorem normalizeChars_append {path : List Char} (hpath : normalizeChars path = path)
    (rest : List Char) (hslash : '/' ∉ rest) (hback : '\\' ∉ rest) {c : Char} (hmem : c ∈ rest)
    (hc : c ≠ '.') :
    normalizeChars (path ++ rest) = path ++ rest := by
  rcases exists_longer (evaluate_normal (slashed path)) hslash hmem hc with ⟨longer, h, hwritten⟩
  have hlonger : longer.render = path ++ rest := hwritten.trans (congrArg (· ++ rest) hpath)
  rw [← hlonger]
  apply normalizeChars_render h
  rw [hlonger, List.mem_append, not_or]
  exact ⟨hpath ▸ not_mem_normalizeChars path, hback⟩

/-! ## Joined paths -/

/-- What follows a slash is entered after what stands before it. -/
theorem follow_segments_append (path : Evaluated) (before after : List Char) :
    path.follow (Text.segments '/' (before ++ '/' :: after)) =
      (path.follow (Text.segments '/' before)).follow (Text.segments '/' after) := by
  rw [Text.segments_append_cons, follow_append]

/-- Going on by a relative path leads where going on by its evaluation leads. -/
theorem follow_evaluate (path : Evaluated) {text : List Char} (h : text.head? ≠ some '/') :
    path.follow (evaluate text).components = path.follow (Text.segments '/' text) := by
  have hroot := rootOf_of_head? h
  rw [evaluate_eq_follow, hroot]
  exact follow_evaluated path fun _ => Text.not_mem_of_mem_segments

/-- A joined path leads where its second part leads from its first, unless that starts afresh. -/
theorem evaluate_join (base : List Char) {path : List Char} (h : path.head? ≠ some '/') :
    evaluate (join base path) = (evaluate base).follow (evaluate path).components := by
  rw [follow_evaluate _ h, join, if_neg h]
  rcases List.eq_nil_or_concat' base with rfl | ⟨front, last, rfl⟩
  · have hroot := rootOf_of_head? h
    simp only [List.isEmpty_nil, true_or, if_true, List.nil_append]
    rw [evaluate_eq_follow, hroot]
    rfl
  · by_cases hlast : last = '/'
    · subst hlast
      have hempty : (evaluate (front ++ ['/'])) =
          (Evaluated.mk (rootOf (front ++ ['/'])) []).follow (Text.segments '/' front) := by
        rw [evaluate_eq_follow, follow_segments_append]
        exact follow_of_isHere rfl
      rw [if_pos (by simp), hempty, evaluate_eq_follow, rootOf_append _ h, List.append_assoc,
        List.singleton_append, follow_segments_append]
    · have hroot : rootOf (front ++ [last] ++ '/' :: path) = rootOf (front ++ [last]) := by
        rw [List.append_assoc, rootOf_append front (by simpa using hlast),
          rootOf_append front (by simpa using hlast)]
      rw [if_neg (by simpa using hlast), evaluate_eq_follow, hroot, follow_segments_append]
      rfl

/-- Backslashes in a path that starts with a dot may be turned before or after it is joined to a
base without any. -/
theorem slashed_join {base path : List Char} (hbase : '\\' ∉ base)
    (hpath : path.head? = some '.') : slashed (join base path) = join base (slashed path) := by
  rcases List.head?_eq_some_iff.1 hpath with ⟨rest, rfl⟩
  have hturned : slashed ('.' :: rest) = '.' :: slashed rest := rfl
  have happend (first second : List Char) :
      slashed (first ++ second) = slashed first ++ slashed second := List.map_append
  rw [hturned, join, join]
  simp only [List.head?_cons, Option.some.injEq, Char.reduceEq, if_false]
  split
  · rw [happend, slashed_of_not_mem hbase, hturned]
  · rw [happend, slashed_of_not_mem hbase]
    rfl

end Path
end CodeAtlas
