import CodeAtlas.Proofs.RelativeSpecifiers

/-!
# Canonical paths

A path is canonical if it is written with the slashes of its root, then with components that go up,
and then with names.  Normal forms are canonical, and canonical paths are their own normal forms;
two paths have the same normal form exactly if they begin alike and lead to the same components.
Whatever is tried for a canonical base path is canonical too, and so it can be the path of a file.

Main results:

- Theorem {lit}`Path.normalize_eq_self_iff`: the canonical paths are the normal forms.
- Theorem {lit}`Path.Evaluated.leads_iff`: where components lead, one after the other.
- Theorem {lit}`Path.normalizeChars_stem`: a normal form without its extension is one.
- Theorem {lit}`Dependency.normalize_of_mem_candidates`: what is tried is a normal form.
- Theorem {lit}`Dependency.normal_forms_are_canonical`: all of this together.
-/

namespace CodeAtlas
namespace Path

open Evaluated

/-! ## Canonical texts -/

/-- A path written with the slashes of its root, components that go up if it has none, and names. -/
structure Canonical (text : List Char) : Prop where
  turned : '\\' ∉ text
  written : ∃ (root : Root) (ups : Nat) (names : List (List Char)),
    text = root.slashes ++ ['/'].intercalate (List.replicate ups ['.', '.'] ++ names) ∧
      (∀ name ∈ names, name ∉ [[], ['.'], ['.', '.']] ∧ '/' ∉ name) ∧
      (root ≠ .relative → ups = 0)

theorem isName_iff {component : List Char} :
    component ∉ [[], ['.'], ['.', '.']] ↔ isHere component = false ∧ isUp component = false := by
  simp only [isHere, isUp, List.mem_cons, List.not_mem_nil, or_false, Bool.or_eq_false_iff,
    beq_eq_false_iff_ne, not_or, and_assoc]

/-- Components that go up first are a number of them, and then names. -/
theorem Evaluated.Normal.exists_split {path : Evaluated} (h : path.Normal) :
    ∃ (ups : Nat) (names : List (List Char)),
      path.components = List.replicate ups ['.', '.'] ++ names ∧
        ∀ name ∈ names, isUp name = false := by
  cases path with
  | mk root components =>
      induction components with
      | nil => exact ⟨0, [], rfl, by simp⟩
      | cons component components ih =>
          have hups := List.pairwise_cons.1 h.upsFirst
          cases hup : isUp component with
          | true =>
              have hrest : (Evaluated.mk root components).Normal := by
                refine ⟨?_, hups.2, ?_⟩
                · exact fun other hmem => h.proper other (List.mem_cons_of_mem _ hmem)
                · exact fun hroot other hmem => h.rooted hroot other (List.mem_cons_of_mem _ hmem)
              rcases ih hrest with ⟨ups, names, hsplit, hnames⟩
              refine ⟨ups + 1, names, ?_, hnames⟩
              rw [List.replicate_succ, List.cons_append, ← hsplit, ← beq_iff_eq.1 hup]
          | false =>
              refine ⟨0, component :: components, rfl, ?_⟩
              intro name hmem
              rcases List.mem_cons.1 hmem with rfl | hmem
              · exact hup
              · by_contra hnot
                rw [hups.1 name hmem (by simpa using hnot)] at hup
                cases hup

/-- A path of normal shape is written canonically. -/
theorem Evaluated.Normal.canonical {path : Evaluated} (h : path.Normal)
    (hback : '\\' ∉ path.render) : Canonical path.render := by
  rcases h.exists_split with ⟨ups, names, hsplit, hnames⟩
  refine ⟨hback, path.root, ups, names, by rw [render, hsplit], ?_, ?_⟩
  · intro name hmem
    have hproper := h.proper name (hsplit ▸ List.mem_append_right _ hmem)
    exact ⟨isName_iff.2 ⟨hproper.1, hnames name hmem⟩, hproper.2⟩
  · intro hroot
    by_contra hpos
    have hmem : ['.', '.'] ∈ path.components := by
      rw [hsplit]
      exact List.mem_append_left _ (List.mem_replicate.2 ⟨hpos, rfl⟩)
    cases h.rooted hroot _ hmem

/-- What is written canonically is a path of normal shape. -/
theorem Canonical.exists_normal {text : List Char} (h : Canonical text) :
    ∃ path : Evaluated, path.Normal ∧ path.render = text := by
  rcases h.written with ⟨root, ups, names, hwritten, hnames, hrooted⟩
  have hname : ∀ name ∈ names, isHere name = false ∧ isUp name = false :=
    fun name hmem => isName_iff.1 (hnames name hmem).1
  refine ⟨⟨root, List.replicate ups ['.', '.'] ++ names⟩, ⟨?_, ?_, ?_⟩, hwritten.symm⟩
  · intro component hmem
    rcases List.mem_append.1 hmem with hmem | hmem
    · rw [List.eq_of_mem_replicate hmem]
      decide
    · exact ⟨(hname component hmem).1, (hnames component hmem).2⟩
  · apply List.pairwise_append.2
    refine ⟨?_, ?_, ?_⟩
    · exact List.pairwise_replicate.2 (.inr id)
    · exact List.pairwise_of_forall_mem_list fun a _ b hb hup => by
        rw [(hname b hb).2] at hup
        cases hup
    · intro before hbefore name _ _
      rw [List.eq_of_mem_replicate hbefore]
      rfl
  · intro hroot component hmem
    rw [hrooted hroot] at hmem
    exact (hname component (by simpa using hmem)).2

theorem canonical_normalize (path : String) : Canonical (normalize path).toList := by
  have hwritten : (normalize path).toList = normalizeChars path.toList := by simp [normalize]
  rw [hwritten]
  exact (evaluate_normal _).canonical (not_mem_normalizeChars _)

/-- The canonical paths are the normal forms. -/
theorem normalize_eq_self_iff (path : String) :
    normalize path = path ↔ Canonical path.toList := by
  constructor
  · intro h
    rw [← h]
    exact canonical_normalize path
  · intro h
    rcases h.exists_normal with ⟨shape, hnormal, hwritten⟩
    rw [normalize, ← hwritten, normalizeChars_render hnormal (hwritten ▸ h.turned), hwritten,
      String.ofList_toList]

/-- The directory itself is not written as a dot. -/
theorem normalize_ne_dot (path : String) : normalize path ≠ "." := by
  intro h
  have hsame := normalize_normalize path
  rw [h] at hsame
  revert hsame
  decide

/-! ## Where components lead -/

/-- The number of slashes that a path begins with. -/
def leadingSlashes (path : List Char) : Nat := (path.takeWhile (· == '/')).length

/-- The root that a number of slashes stands for. -/
def Root.ofCount : Nat → Root
  | 0 => .relative
  | 2 => .double
  | _ => .single

theorem rootOf_eq_ofCount (path : List Char) :
    rootOf path = Root.ofCount (leadingSlashes path) := by
  unfold rootOf
  split
  · simp [leadingSlashes, Root.ofCount]
  next rest hthree =>
    cases rest with
    | nil => rfl
    | cons c rest =>
        have hc : c ≠ '/' := fun heq => hthree rest (by rw [heq])
        simp [leadingSlashes, Root.ofCount, hc]
  next rest hthree htwo =>
    cases rest with
    | nil => rfl
    | cons c rest =>
        have hc : c ≠ '/' := fun heq => htwo rest (by rw [heq])
        simp [leadingSlashes, Root.ofCount, hc]
  next hthree htwo hone =>
    cases path with
    | nil => rfl
    | cons c rest =>
        have hc : c ≠ '/' := fun heq => hone rest (by rw [heq])
        simp [leadingSlashes, Root.ofCount, hc]

namespace Evaluated

/-- How components lead from a path to another, one after the other. -/
inductive Leads : Evaluated → List (List Char) → Evaluated → Prop where
  | done (path : Evaluated) : Leads path [] path
  | step {path next result : Evaluated} {component : List Char} {components : List (List Char)} :
      path.Moves component next → Leads next components result →
        Leads path (component :: components) result

theorem Moves.eq_follow {path result : Evaluated} {component : List Char}
    (h : path.Moves component result) : result = path.follow [component] := by
  cases h with
  | stay hhere => exact (follow_of_isHere hhere).symm
  | descend hhere hup => exact (follow_of_name hhere hup).symm
  | leave hup hcomponents hlast => exact (follow_leave hup hcomponents hlast).symm
  | climb hup hcomponents => exact (follow_climb hup hcomponents).symm
  | top hup hempty hroot => exact (follow_top hup hempty hroot).symm

/-- Components lead to one path, which is found by following them. -/
theorem leads_iff {path result : Evaluated} {components : List (List Char)} :
    path.Leads components result ↔ result = path.follow components := by
  constructor
  · intro h
    induction h with
    | done path => exact (follow_nil path).symm
    | step hmoves _ ih => rw [follow_cons, ← hmoves.eq_follow, ih]
  · intro h
    induction components generalizing path with
    | nil =>
        rw [h, follow_nil]
        exact .done path
    | cons component components ih =>
        rw [follow_cons] at h
        exact .step (moves_follow path component) (ih h)

end Evaluated

/-- The root of a path, by the slashes that it begins with. -/
def rootKind (path : String) : Root := .ofCount (leadingSlashes (slashed path.toList))

/-- The components of a path, last one last, that are left when it is gone from left to right. -/
def Leaves (path : String) (components : List (List Char)) : Prop :=
  (Evaluated.mk (rootKind path) []).Leads (Text.segments '/' (slashed path.toList))
    ⟨rootKind path, components⟩

theorem leaves_iff {path : String} {components : List (List Char)} :
    Leaves path components ↔
      evaluate (slashed path.toList) = ⟨rootKind path, components⟩ := by
  rw [Leaves, leads_iff, evaluate_eq_follow, rootOf_eq_ofCount, eq_comm]
  rfl

/-- Paths have the same normal form exactly if they begin alike and leave the same components. -/
theorem normalize_eq_iff_leaves (path other : String) :
    normalize path = normalize other ↔
      rootKind path = rootKind other ∧
        ∃ components, Leaves path components ∧ Leaves other components := by
  have hroot (path : String) : (evaluate (slashed path.toList)).root = rootKind path :=
    rootOf_eq_ofCount _
  rw [normalize_eq_iff]
  constructor
  · intro h
    have hkind : rootKind path = rootKind other := by rw [← hroot, ← hroot, h]
    refine ⟨hkind, (evaluate (slashed other.toList)).components, ?_, ?_⟩
    · rw [leaves_iff, h, hkind, ← hroot]
    · rw [leaves_iff, ← hroot]
  · rintro ⟨hkind, components, hpath, hother⟩
    rw [leaves_iff.1 hpath, leaves_iff.1 hother, hkind]

/-! ## Stems and joined names -/

/-- The last segment of a written path is its last component. -/
theorem lastSegment_render {root : Root} {front : List (List Char)} {last : List Char}
    (h : '/' ∉ last) :
    Text.lastSegment '/' (Evaluated.render ⟨root, front ++ [last]⟩) = last := by
  by_cases hfront : front = []
  · rw [hfront, render, List.nil_append, List.intercalate_singleton]
    cases root with
    | relative => exact Text.lastSegment_of_not_mem h
    | single => exact Text.lastSegment_append_cons [] h
    | double => exact Text.lastSegment_append_cons ['/'] h
  · rw [render, Text.intercalate_append '/' hfront (by simp), ← List.append_assoc,
      List.intercalate_singleton]
    exact Text.lastSegment_append_cons _ h

/-- An extension follows a name that is more than dots. -/
theorem extension_eq_nil_or (path : List Char) :
    extension path = [] ∨ ∃ name, Text.lastSegment '/' path = name ++ extension path ∧
      ∃ c ∈ name, c ≠ '.' := by
  have hdots := List.takeWhile_append_dropWhile (p := (· == '.')) (l := Text.lastSegment '/' path)
  generalize hbody : (Text.lastSegment '/' path).dropWhile (· == '.') = body at hdots
  by_cases hdot : '.' ∈ body
  · right
    have hextension : extension path = '.' :: Text.lastSegment '.' body := by
      simp [extension, hbody, hdot]
    rcases (Text.lastSegment_eq_iff '.' body _).1 ⟨hdot, rfl⟩ with ⟨before, hsplit, -⟩
    refine ⟨(Text.lastSegment '/' path).takeWhile (· == '.') ++ before, ?_, ?_⟩
    · rw [hextension, List.append_assoc, ← hsplit, hdots]
    · -- what follows the dots at the start begins with another character, before the last dot
      cases before with
      | nil =>
          have hhead := List.head?_dropWhile_not (· == '.') (Text.lastSegment '/' path)
          rw [hbody, hsplit] at hhead
          simp at hhead
      | cons c before =>
          have hhead := List.head?_dropWhile_not (· == '.') (Text.lastSegment '/' path)
          rw [hbody, hsplit] at hhead
          exact ⟨c, by simp, by simpa using hhead⟩
  · left
    simp [extension, hbody, hdot]

theorem stem_eq_of_append {path front : List Char} (h : path = front ++ extension path) :
    stem path = front := by
  have hlength := congrArg List.length h
  rw [List.length_append] at hlength
  have hcount : path.length - (extension path).length = front.length := by omega
  calc
    stem path = path.take front.length := by rw [stem, hcount]
    _ = (front ++ extension path).take front.length := by rw [← h]
    _ = front := List.take_left

/-- A written path with an extension is one without it, and the extension. -/
theorem exists_render_append_extension {path : Evaluated} (h : path.Normal) {name : List Char}
    (hlast : Text.lastSegment '/' path.render = name ++ extension path.render) (hne : name ≠ []) :
    ∃ front, path.components = front ++ [name ++ extension path.render] ∧
      path.render = Evaluated.render ⟨path.root, front ++ [name]⟩ ++ extension path.render := by
  rcases List.eq_nil_or_concat' path.components with hempty | ⟨front, last, hcomponents⟩
  · -- a root alone has no last segment, and no name in it
    have hsegment : Text.lastSegment '/' path.render = [] := by
      rw [render, hempty]
      cases path.root <;> rfl
    rw [hsegment] at hlast
    exact absurd (List.append_eq_nil_iff.1 hlast.symm).1 hne
  · have hwritten : path.render = Evaluated.render ⟨path.root, front ++ [last]⟩ := by
      rw [← hcomponents]
    have hname : last = name ++ extension path.render := by
      rw [← hlast, hwritten, lastSegment_render (h.proper last (by simp [hcomponents])).2]
    refine ⟨front, hname ▸ hcomponents, ?_⟩
    calc
      path.render = path.root.slashes ++
          ['/'].intercalate (front ++ [name ++ extension path.render]) := by
          rw [← hname]
          exact hwritten
      _ = Evaluated.render ⟨path.root, front ++ [name]⟩ ++ extension path.render := by
          rw [intercalate_append_last, ← List.append_assoc]
          rfl

/-- A normal form without its extension is a normal form. -/
theorem normalizeChars_stem {path : List Char} (h : normalizeChars path = path) :
    normalizeChars (stem path) = stem path := by
  rcases extension_eq_nil_or path with hnone | ⟨name, hlast, c, hmem, hc⟩
  · rw [stem, hnone, List.length_nil, Nat.sub_zero, List.take_length, h]
  · have hnormal := evaluate_normal (slashed path)
    have hwritten : (evaluate (slashed path)).render = path := h
    rcases exists_render_append_extension hnormal (hwritten.symm ▸ hlast) (List.ne_nil_of_mem hmem)
      with ⟨front, hcomponents, hrender⟩
    rw [hwritten] at hcomponents hrender
    have hslash : '/' ∉ name := fun hin =>
      (hnormal.proper _ (hcomponents ▸ List.mem_append_right front List.mem_cons_self)).2
        (List.mem_append_left _ hin)
    rcases isName_of_mem hmem hc with ⟨hhere, hup⟩
    rw [stem_eq_of_append hrender]
    refine normalizeChars_render ?_ ?_
    · exact (hnormal.front hcomponents).snoc hhere hslash (by simp [hup]) (by simp [hup])
    · intro hback
      apply not_mem_normalizeChars path
      rw [h, hrender]
      exact List.mem_append_left _ hback

/-- A name that is joined to a written path becomes its last component. -/
theorem join_render {path : Evaluated} (h : path.Normal) {name : List Char} (hslash : '/' ∉ name) :
    join path.render name = Evaluated.render ⟨path.root, path.components ++ [name]⟩ := by
  have hstart : name.head? ≠ some '/' := fun hhead => hslash (List.mem_of_mem_head? hhead)
  rw [join, if_neg hstart]
  by_cases hempty : path.components = []
  · have hroot : path.render = path.root.slashes := by simp [render, hempty]
    have hwritten : Evaluated.render ⟨path.root, path.components ++ [name]⟩ =
        path.root.slashes ++ name := by
      simp [render, hempty]
    rw [hroot, hwritten, if_pos]
    cases path.root <;> decide
  · rcases exists_intercalate_eq_append hempty h.proper with ⟨text, c, htext, hc⟩
    have hend : path.render = path.root.slashes ++ text ++ [c] := by
      rw [render, htext, List.append_assoc]
    rw [if_neg, render, render, Text.intercalate_append '/' hempty (by simp),
      List.intercalate_singleton, List.append_assoc]
    rw [hend]
    simpa using hc

/-- A normal form joined with a name is a normal form. -/
theorem normalizeChars_join_name {path : List Char} (h : normalizeChars path = path)
    {name : List Char} (hslash : '/' ∉ name) (hback : '\\' ∉ name) {c : Char} (hmem : c ∈ name)
    (hc : c ≠ '.') : normalizeChars (join path name) = join path name := by
  have hnormal := evaluate_normal (slashed path)
  have hwritten : (evaluate (slashed path)).render = path := h
  rcases isName_of_mem hmem hc with ⟨hhere, hup⟩
  have hjoin := join_render hnormal hslash
  rw [hwritten] at hjoin
  have hkept : '\\' ∉ join path name := by
    have hpath : '\\' ∉ path := h ▸ not_mem_normalizeChars path
    unfold join
    split
    · exact hback
    · split <;> simp [hpath, hback]
  rw [hjoin]
  refine normalizeChars_render ?_ (hjoin ▸ hkept)
  exact hnormal.snoc hhere hslash (by simp [hup]) (by simp [hup])

end Path

/-! ## Candidates -/

namespace Dependency

/-- Every extension that is implied or stands for another has a letter, and no slash. -/
theorem extension_letters {extension : String}
    (h : extension ∈ impliedExtensions ∨ ∃ entry ∈ sourceExtensions, extension ∈ entry.2) :
    's' ∈ extension.toList ∧ '/' ∉ extension.toList ∧ '\\' ∉ extension.toList := by
  rcases h with h | ⟨entry, hentry, h⟩
  · revert extension
    decide
  · revert extension
    revert entry
    decide

/-- The paths that are tried for a normal form are normal forms. -/
theorem normalize_of_mem_candidates {base candidate : String} (hbase : Path.normalize base = base)
    (h : candidate ∈ candidates base) : Path.normalize candidate = candidate := by
  have hkept := Path.normalizeChars_of_normalize hbase
  have hletter : 's' ≠ '.' := by decide
  simp only [candidates, List.cons_append, List.mem_cons, List.mem_append, List.mem_map] at h
  rcases h with rfl | (⟨extension, hmem, rfl⟩ | ⟨extension, hmem, rfl⟩) | ⟨extension, hmem, rfl⟩
  · exact hbase
  · rcases extension_letters (.inl hmem) with ⟨hs, hslash, hback⟩
    rw [Path.normalize, String.toList_append,
      Path.normalizeChars_append hkept _ hslash hback hs hletter, ← String.toList_append,
      String.ofList_toList]
  · cases hfound : sourceExtensions.lookup (String.ofList (Path.extension base.toList)) with
    | none => simp [hfound] at hmem
    | some substitutes =>
        have hentry : (String.ofList (Path.extension base.toList), substitutes) ∈
            sourceExtensions := by
          rcases List.lookup_eq_some_iff.1 hfound with ⟨before, after, hsplit, -⟩
          rw [hsplit]
          exact List.mem_append_right _ List.mem_cons_self
        rw [hfound] at hmem
        rcases extension_letters (.inr ⟨_, hentry, hmem⟩) with ⟨hs, hslash, hback⟩
        rw [Path.normalize, String.toList_append, String.toList_ofList,
          Path.normalizeChars_append (Path.normalizeChars_stem hkept) _ hslash hback hs hletter,
          String.ofList_append, String.ofList_toList]
  · rcases extension_letters (.inl hmem) with ⟨hs, hslash, hback⟩
    rw [Path.normalize, String.toList_ofList, Path.normalizeChars_join_name hkept _ _ _ hletter]
    · simp [hslash]
    · simp [hback]
    · simp [hs]

/-- What is tried for a normal form is found, where it is the only file. -/
theorem lookup?_of_mem_candidates {base candidate : String} (hbase : Path.normalize base = base)
    (h : candidate ∈ candidates base) (aliases : List (String × String)) :
    (Specifiers.ofFiles [candidate] aliases).lookup? base = some candidate := by
  have hnormal := normalize_of_mem_candidates hbase h
  have hfile (path : String) : (Specifiers.ofFiles [candidate] aliases).file? path =
      if path = candidate then some candidate else none := by
    by_cases hpath : path = candidate
    · simp [Specifiers.file?, Specifiers.ofFiles, hnormal, hpath]
    · have hne : (path == candidate) = false := beq_eq_false_iff_ne.2 hpath
      simp [Specifiers.file?, Specifiers.ofFiles, hnormal, hpath, List.lookup_cons, hne]
  cases hfound : (Specifiers.ofFiles [candidate] aliases).lookup? base with
  | none =>
      have hnone := List.findSome?_eq_none_iff.1 hfound candidate h
      rw [hfile, if_pos rfl] at hnone
      cases hnone
  | some path =>
      rcases List.exists_of_findSome?_eq_some hfound with ⟨other, -, hother⟩
      rw [hfile] at hother
      split at hother
      · exact hother.symm
      · cases hother

/-- Normal forms are canonical.

Taking the normal form twice changes nothing more.  The normal forms are the texts without
backslashes that consist of a root, of components that go up if there is no root, and of names, and
none of them is a single dot.  Two paths have the same normal form exactly if, with slashes for
backslashes, they begin with a root of the same kind and leave the same components when they are
gone from left to right.

Every path that is tried for a normal form is itself one, and it is found if it is a file. -/
theorem normal_forms_are_canonical :
    (∀ path, Path.normalize (Path.normalize path) = Path.normalize path ∧
      Path.Canonical (Path.normalize path).toList ∧ Path.normalize path ≠ "." ∧
      (Path.Canonical path.toList → Path.normalize path = path)) ∧
    (∀ path other, Path.normalize path = Path.normalize other ↔
      Path.rootKind path = Path.rootKind other ∧
        ∃ components, Path.Leaves path components ∧ Path.Leaves other components) ∧
    ∀ base, Path.normalize base = base → ∀ candidate ∈ candidates base,
      Path.normalize candidate = candidate ∧
        ∀ aliases, (Specifiers.ofFiles [candidate] aliases).lookup? base = some candidate := by
  refine ⟨?_, Path.normalize_eq_iff_leaves, ?_⟩
  · intro path
    exact ⟨Path.normalize_normalize path, Path.canonical_normalize path,
      Path.normalize_ne_dot path, (Path.normalize_eq_self_iff path).2⟩
  · intro base hbase candidate hmem
    exact ⟨normalize_of_mem_candidates hbase hmem, lookup?_of_mem_candidates hbase hmem⟩

/-- A detour that leads up from the start, and what is tried above the start, at a root and for a
file whose name begins with dots. -/
theorem normal_forms_are_canonical_edges :
    Path.Canonical "../b".toList ∧ Path.normalize "../b" = "../b" ∧
      (∃ components, Path.Leaves "x\\..//./../b" components ∧ Path.Leaves "../b" components) ∧
      (Specifiers.ofFiles ["...ts"] []).lookup? ".." = some "...ts" ∧
      (Specifiers.ofFiles ["//index.ts"] []).lookup? "//" = some "//index.ts" ∧
      (Specifiers.ofFiles ["a/..x.tsx"] []).lookup? "a/..x.js" = some "a/..x.tsx" := by
  rcases normal_forms_are_canonical with ⟨hforms, hsame, hcandidates⟩
  have hcanonical : Path.Canonical "../b".toList := (hforms "x\\..//./../b").2.1
  refine ⟨hcanonical, (hforms "../b").2.2.2 hcanonical, ?_, ?_, ?_, ?_⟩
  · exact ((hsame "x\\..//./../b" "../b").1 (by decide)).2
  · exact (hcandidates ".." (by decide) "...ts" (by decide)).2 []
  · exact (hcandidates "//" (by decide) "//index.ts" (by decide)).2 []
  · exact (hcandidates "a/..x.js" (by decide) "a/..x.tsx" (by decide)).2 []

end Dependency
end CodeAtlas
