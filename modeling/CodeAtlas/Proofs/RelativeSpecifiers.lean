import CodeAtlas.Proofs.FileOrder
import CodeAtlas.Proofs.NormalForms
import Mathlib.Data.List.TakeWhile

/-!
# Relative specifiers

A relative specifier is joined to the directory of the importing file, and the normal form of the
joined path is looked for among the files.  So a specifier means the same however it and the
importing file are spelled.  From every file inside the codebase, every other one is reached by
going up to the top and down again, with or without the extension that is implied, and also by the
extension of the file that is built from it.

Main results:

- Theorem {lit}`Path.normalizeChars_join`: where a joined path leads.
- Theorem {lit}`Specifiers.resolve_ignores_spelling`: the spelling of a relative specifier does not
  matter.
- Theorem {lit}`Path.normalizeChars_wayUp`: going up and down again leads to any file.
- Theorem {lit}`Specifiers.file_reached_by_relative_path`: every file is reached by its relative
  path.
-/

namespace CodeAtlas

/-! ## Where relative paths lead -/

namespace Path

open Evaluated

theorem mem_of_mem_directory {path : List Char} {c : Char} (h : c ∈ directory path) : c ∈ path := by
  unfold directory at h
  dsimp only at h
  split at h
  · exact List.mem_of_mem_take h
  · apply List.mem_of_mem_take
    have hreversed := (List.dropWhile_sublist _).subset (List.mem_reverse.1 h)
    exact List.mem_reverse.1 hreversed

theorem not_mem_directory_normalize (path : String) : '\\' ∉ directory (normalize path).toList := by
  intro h
  apply not_mem_normalizeChars path.toList
  simpa [normalize] using mem_of_mem_directory h

/-- A relative path leads on from the base that it is joined to, and it matters only where each of
the two leads. -/
theorem normalizeChars_join {base path : List Char} (hbase : '\\' ∉ base)
    (hpath : path.head? = some '.') :
    normalizeChars (join base path) =
      ((evaluate base).follow (evaluate (slashed path)).components).render := by
  have hturned : (slashed path).head? ≠ some '/' := by
    rcases List.head?_eq_some_iff.1 hpath with ⟨rest, rfl⟩
    simp [slashed]
  rw [normalizeChars, slashed_join hbase hpath, evaluate_join base hturned]

end Path

namespace Dependency
namespace Specifiers

/-- A relative specifier is looked for under the normal form of the joined path. -/
theorem resolve?_relative (specifiers : Specifiers) (importer : String) {specifier : String}
    (h : specifier.toList.head? = some '.') :
    specifiers.resolve? importer specifier =
      specifiers.lookup? (String.ofList (Path.normalizeChars
        (Path.join (Path.directory (Path.normalize importer).toList) specifier.toList))) := by
  rcases List.head?_eq_some_iff.1 h with ⟨rest, hrest⟩
  simp [resolve?, base?, hrest, Path.normalize]

/-- Importing files of the same normal form and relative specifiers of the same normal form mean
the same file, however they are spelled. -/
theorem resolve_ignores_spelling (specifiers : Specifiers) {importer importer' : String}
    (himporter : Path.normalize importer = Path.normalize importer') {specifier specifier' : String}
    (hdot : specifier.toList.head? = some '.') (hdot' : specifier'.toList.head? = some '.')
    (hspecifier : Path.normalize specifier = Path.normalize specifier') :
    specifiers.resolve? importer specifier = specifiers.resolve? importer' specifier' := by
  have hbase := Path.not_mem_directory_normalize importer'
  have hlead := (Path.normalize_eq_iff specifier specifier').1 hspecifier
  rw [resolve?_relative specifiers importer hdot, resolve?_relative specifiers importer' hdot',
    himporter, Path.normalizeChars_join hbase hdot, Path.normalizeChars_join hbase hdot', hlead]

/-- Two spellings of one import, with a backslash, a doubled slash and a detour. -/
theorem resolve_ignores_spelling_detour :
    let specifiers := ofFiles ["src/b.ts"] []
    Path.normalize "src/lib/a.ts" = Path.normalize "./src\\lib//a.ts" ∧
      Path.normalize "../b" = Path.normalize "./x/..//..\\b" ∧
      specifiers.resolve? "src/lib/a.ts" "../b" = some "src/b.ts" ∧
      specifiers.resolve? "./src\\lib//a.ts" "./x/..//..\\b" = some "src/b.ts" := by
  intro specifiers
  have himporter : Path.normalize "src/lib/a.ts" = Path.normalize "./src\\lib//a.ts" := by decide
  have hspecifier : Path.normalize "../b" = Path.normalize "./x/..//..\\b" := by decide
  have hfound : specifiers.resolve? "src/lib/a.ts" "../b" = some "src/b.ts" := by decide
  have hsame := resolve_ignores_spelling specifiers himporter (by decide) (by decide) hspecifier
  exact ⟨himporter, hspecifier, hfound, hsame.symm.trans hfound⟩

end Specifiers
end Dependency

/-! ## Up to the top and down again -/

namespace Path

open Evaluated

/-- A relative path that does not lead out of the directory where it starts. -/
def Inside (path : String) : Prop :=
  path.toList.head? ≠ some '/' ∧ ['.', '.'] ∉ Text.segments '/' path.toList

instance (path : String) : Decidable (Inside path) := inferInstanceAs (Decidable (_ ∧ _))

/-- The number of directories that a path names before its last component. -/
def depth (path : String) : Nat := (Text.segments '/' path.toList).length - 1

/-- The way up through a number of directories; through none, it stays. -/
def wayUp (count : Nat) : String :=
  if count = 0 then "./" else String.ofList (List.replicate count "../".toList).flatten

theorem wayUp_zero : (wayUp 0).toList = ['.', '/'] :=
  rfl

theorem wayUp_succ (count : Nat) :
    (wayUp (count + 1)).toList = (List.replicate (count + 1) ['.', '.', '/']).flatten := by
  simp [wayUp]

theorem head?_wayUp_append (count : Nat) (target : String) :
    (wayUp count ++ target).toList.head? = some '.' := by
  cases count with
  | zero => simp [wayUp_zero]
  | succ count => simp [wayUp_succ, List.replicate_succ]

theorem follow_upwards (path : Evaluated) (steps : Nat) (text : List Char) :
    path.follow (Text.segments '/' ((List.replicate steps ['.', '.', '/']).flatten ++ text)) =
      (path.follow (List.replicate steps ['.', '.'])).follow (Text.segments '/' text) := by
  induction steps generalizing path with
  | zero => simp
  | succ steps ih =>
      rw [List.replicate_succ, List.replicate_succ, follow_cons, ← ih]
      exact follow_segments_append path ['.', '.'] _

/-- The way up enters the directory above as many times as it says. -/
theorem follow_wayUp (path : Evaluated) (count : Nat) (text : List Char) :
    path.follow (Text.segments '/' ((wayUp count).toList ++ text)) =
      (path.follow (List.replicate count ['.', '.'])).follow (Text.segments '/' text) := by
  cases count with
  | zero =>
      rw [wayUp_zero, List.replicate_zero, follow_nil]
      have hhere : path.follow (Text.segments '/' ['.']) = path := follow_of_isHere rfl
      exact (follow_segments_append path ['.'] text).trans (congrArg (follow · _) hhere)
  | succ count =>
      rw [wayUp_succ]
      exact follow_upwards path (count + 1) text

/-- Going up once for each component leads to the top. -/
theorem follow_ups (root : Root) {components : List (List Char)}
    (h : ∀ component ∈ components, isUp component = false) :
    (Evaluated.mk root components).follow (List.replicate components.length ['.', '.']) =
      ⟨root, []⟩ := by
  induction components using List.reverseRecOn with
  | nil => simp
  | append_singleton front last ih =>
      rw [List.length_append, List.length_singleton, List.replicate_succ, follow_cons,
        follow_leave rfl rfl (h last (by simp))]
      exact ih fun component hmem => h component (by simp [hmem])

/-- Written components do not end with a slash. -/
theorem exists_intercalate_eq_append {components : List (List Char)} (hne : components ≠ [])
    (h : ∀ component ∈ components, isHere component = false ∧ '/' ∉ component) :
    ∃ text c, ['/'].intercalate components = text ++ [c] ∧ c ≠ '/' := by
  rcases List.eq_nil_or_concat' components with rfl | ⟨front, last, rfl⟩
  · exact absurd rfl hne
  · rcases h last (by simp) with ⟨hhere, hslash⟩
    rcases List.eq_nil_or_concat' last with rfl | ⟨text, c, rfl⟩
    · cases hhere
    · have hc : c ≠ '/' := fun heq => hslash (by simp [heq])
      by_cases hfront : front = []
      · exact ⟨text, c, by simp [hfront], hc⟩
      · refine ⟨['/'].intercalate front ++ '/' :: text, c, ?_, hc⟩
        rw [Text.intercalate_append '/' hfront (by simp)]
        simp

/-- The directory of a written path is written with all components but the last. -/
theorem directory_intercalate {components : List (List Char)}
    (h : ∀ component ∈ components, isHere component = false ∧ '/' ∉ component) :
    directory (['/'].intercalate components) = ['/'].intercalate components.dropLast := by
  rcases List.eq_nil_or_concat' components with rfl | ⟨front, last, rfl⟩
  · rfl
  · have hslash := (h last (by simp)).2
    rw [List.dropLast_concat]
    by_cases hfront : front = []
    · subst hfront
      simp [directory, Text.lastSegment_of_not_mem hslash]
    · rcases exists_intercalate_eq_append hfront fun component hmem => h component (by simp [hmem])
        with ⟨text, c, htext, hc⟩
      -- before the last component there is one slash, and only that is cut off
      have hhead : (text ++ [c] ++ '/' :: last).take ((text ++ [c] ++ '/' :: last).length -
          (Text.lastSegment '/' (text ++ [c] ++ '/' :: last)).length) = text ++ [c] ++ ['/'] := by
        rw [Text.lastSegment_append_cons _ hslash, List.append_cons (text ++ [c])]
        apply List.take_left'
        simp only [List.length_append, List.length_singleton]
        omega
      rw [Text.intercalate_append '/' hfront (by simp), htext, List.intercalate_singleton,
        directory, hhead]
      simp [hc]

/-- A normal form that does not start with a slash consists of its components. -/
theorem exists_components (path : String) (h : (normalize path).toList.head? ≠ some '/') :
    ∃ components, (Evaluated.mk .relative components).Normal ∧
      (normalize path).toList = ['/'].intercalate components := by
  have hnormal := evaluate_normal (slashed path.toList)
  have hpath : (normalize path).toList = (evaluate (slashed path.toList)).render := by
    simp [normalize, normalizeChars]
  have hroot : (evaluate (slashed path.toList)).root = .relative := by
    rw [← rootOf_render hnormal, ← hpath]
    exact rootOf_of_head? h
  refine ⟨(evaluate (slashed path.toList)).components, hroot ▸ hnormal, ?_⟩
  rw [hpath, render, hroot]
  rfl

/-- The directory of a file inside the codebase is reached by as many components as the file is
deep, and none of them goes up. -/
theorem exists_directories {path : String} (h : Inside (normalize path)) :
    ∃ directories, evaluate (directory (normalize path).toList) = ⟨.relative, directories⟩ ∧
      directories.length = depth (normalize path) ∧
      ∀ component ∈ directories, isUp component = false := by
  rcases exists_components path h.1 with ⟨components, hnormal, hwritten⟩
  rcases List.eq_nil_or_concat' components with rfl | ⟨front, last, rfl⟩
  · refine ⟨[], ?_, ?_, by simp⟩
    · rw [hwritten]
      rfl
    · rw [depth, hwritten]
      rfl
  · have hsegments : Text.segments '/' (normalize path).toList = front ++ [last] := by
      rw [hwritten]
      apply Text.segments_intercalate (by simp)
      exact fun component hmem => (hnormal.proper component hmem).2
    refine ⟨front, ?_, ?_, ?_⟩
    · rw [hwritten, directory_intercalate hnormal.proper, List.dropLast_concat]
      exact evaluate_render (hnormal.front rfl)
    · simp [depth, hsegments]
    · intro component hmem
      rw [← Bool.not_eq_true]
      intro hup
      apply h.2
      rw [hsegments, ← beq_iff_eq.1 hup]
      exact List.mem_append_left _ hmem

theorem not_mem_wayUp (count : Nat) : '\\' ∉ (wayUp count).toList := by
  cases count with
  | zero => decide
  | succ count => simp [wayUp_succ]

/-- From a file inside the codebase, the way up followed by a normal form leads there. -/
theorem normalizeChars_wayUp {importer target : String} (himporter : Inside (normalize importer))
    (htarget : normalize target = target) (hrelative : target.toList.head? ≠ some '/') :
    normalizeChars (join (directory (normalize importer).toList)
      (wayUp (depth (normalize importer)) ++ target).toList) = target.toList := by
  rcases exists_directories himporter with ⟨directories, hdirectory, hdepth, hnames⟩
  have hkept := normalizeChars_of_normalize htarget
  have htargetBack : '\\' ∉ target.toList := hkept ▸ not_mem_normalizeChars target.toList
  have hturned : slashed (wayUp directories.length ++ target).toList =
      (wayUp directories.length ++ target).toList := by
    apply slashed_of_not_mem
    simp [not_mem_wayUp, htargetBack]
  have hstart : (wayUp directories.length ++ target).toList.head? ≠ some '/' := by
    rw [head?_wayUp_append]
    decide
  have hroot := rootOf_of_head? hrelative
  calc
    normalizeChars (join (directory (normalize importer).toList)
        (wayUp (depth (normalize importer)) ++ target).toList)
      = ((Evaluated.mk .relative directories).follow (Text.segments '/'
          (wayUp directories.length ++ target).toList)).render := by
        rw [← hdepth, normalizeChars_join (not_mem_directory_normalize importer)
          (head?_wayUp_append _ _), hturned, follow_evaluate _ hstart, hdirectory]
    _ = ((Evaluated.mk .relative []).follow (Text.segments '/' target.toList)).render := by
        rw [String.toList_append, follow_wayUp, follow_ups _ hnames]
    _ = normalizeChars target.toList := by
        rw [normalizeChars, slashed_of_not_mem htargetBack, evaluate_eq_follow, hroot]
    _ = target.toList := hkept

/-! ## Extensions -/

/-- The extension is what follows the last dot, if the component is more than dots before it. -/
theorem extension_append {path : List Char} (name : List Char) (hslash : '/' ∉ name)
    (hdot : '.' ∉ name) {c : Char} (hmem : c ∈ Text.lastSegment '/' path) (hc : c ≠ '.') :
    extension (path ++ '.' :: name) = '.' :: name := by
  have hlast : Text.lastSegment '/' (path ++ '.' :: name) =
      Text.lastSegment '/' path ++ '.' :: name := by
    apply Text.lastSegment_append
    simp [hslash]
  have hbody : ((Text.lastSegment '/' path).dropWhile (· == '.')).isEmpty = false := by
    rw [List.isEmpty_eq_false_iff, ne_eq, List.dropWhile_eq_nil_iff]
    exact fun hall => hc (by simpa using hall c hmem)
  rw [extension, hlast, List.dropWhile_append, hbody]
  simp [Text.lastSegment_append_cons _ hdot]

theorem stem_append {path : List Char} (name : List Char) (hslash : '/' ∉ name) (hdot : '.' ∉ name)
    {c : Char} (hmem : c ∈ Text.lastSegment '/' path) (hc : c ≠ '.') :
    stem (path ++ '.' :: name) = path := by
  rw [stem, extension_append name hslash hdot hmem hc]
  apply List.take_left'
  simp

end Path

/-! ## Files by their relative paths -/

namespace Dependency
namespace Specifiers

section Lookups

variable {specifiers : Specifiers} {base path : String}

/-- A file of that normal form comes first. -/
theorem lookup?_of_file (h : specifiers.file? base = some path) :
    specifiers.lookup? base = some path := by
  simp [lookup?, candidates, h]

/-- The first extension that is implied comes next. -/
theorem lookup?_of_implied (hbase : specifiers.file? base = none)
    (h : specifiers.file? (base ++ ".ts") = some path) : specifiers.lookup? base = some path := by
  simp [lookup?, candidates, impliedExtensions, hbase, h]

/-- Where no extension is implied, that of a built file stands for that of its source. -/
theorem lookup?_of_source {stem : String} (hstem : ∃ c ∈ Text.lastSegment '/' stem.toList, c ≠ '.')
    (hbase : specifiers.file? (stem ++ ".js") = none)
    (himplied : ∀ extension ∈ impliedExtensions,
      specifiers.file? (stem ++ ".js" ++ extension) = none)
    (h : specifiers.file? (stem ++ ".ts") = some path) :
    specifiers.lookup? (stem ++ ".js") = some path := by
  rcases hstem with ⟨c, hmem, hc⟩
  have hwritten : (stem ++ ".js").toList = stem.toList ++ '.' :: ['j', 's'] := by simp
  have hextension := Path.extension_append ['j', 's'] (by decide) (by decide) hmem hc
  have hstem := Path.stem_append ['j', 's'] (by decide) (by decide) hmem hc
  have hsources :
      sourceExtensions.lookup (String.ofList ['.', 'j', 's']) = some [".ts", ".tsx"] := by
    decide
  have hfirst : (impliedExtensions.map (stem ++ ".js" ++ ·)).findSome? specifiers.file? = none := by
    simpa [List.findSome?_eq_none_iff] using himplied
  simp only [lookup?, candidates, hwritten, hextension, hstem, hsources, List.cons_append,
    List.findSome?_cons, hbase, List.findSome?_append, hfirst]
  simp [h]

end Lookups

/-- From a file inside the codebase, the way up followed by a normal form is looked for under it. -/
theorem resolve?_wayUp (specifiers : Specifiers) {importer target : String}
    (himporter : Path.Inside (Path.normalize importer)) (htarget : Path.normalize target = target)
    (hrelative : target.toList.head? ≠ some '/') :
    specifiers.resolve? importer (Path.wayUp (Path.depth (Path.normalize importer)) ++ target) =
      specifiers.lookup? target := by
  rw [resolve?_relative specifiers importer (Path.head?_wayUp_append _ _),
    Path.normalizeChars_wayUp himporter htarget hrelative, String.ofList_toList]

theorem file?_eq_none {paths : List String} {normal : String} (aliases : List (String × String))
    (h : ∀ path ∈ paths, Path.normalize path ≠ normal) :
    (ofFiles paths aliases).file? normal = none := by
  rw [← Option.not_isSome_iff_eq_none, file?_isSome_iff]
  rintro ⟨path, hpath, heq⟩
  exact h path hpath heq

/-- Every file is reached from every file inside the codebase: by going up to the top and down to
its normal form; without the extension, if no file has that normal form; and with the extension of
the file that is built from it, if that is neither a file nor lacks an implied extension of one. -/
theorem file_reached_by_relative_path {paths : List String} (aliases : List (String × String))
    (hnormal : (paths.map Path.normalize).Nodup) {file importer : String} (hfile : file ∈ paths)
    (hrelative : (Path.normalize file).toList.head? ≠ some '/')
    (himporter : Path.Inside (Path.normalize importer)) :
    let specifiers := ofFiles paths aliases
    let up := Path.wayUp (Path.depth (Path.normalize importer))
    specifiers.resolve? importer (up ++ Path.normalize file) = some file ∧
    ∀ stem, Path.normalize file = stem ++ ".ts" → Path.normalize stem = stem →
      (∀ path ∈ paths, Path.normalize path ≠ stem) →
      specifiers.resolve? importer (up ++ stem) = some file ∧
      ((∃ c ∈ Text.lastSegment '/' stem.toList, c ≠ '.') →
        (∀ path ∈ paths, Path.normalize path ≠ stem ++ ".js" ∧
          ∀ extension ∈ impliedExtensions, Path.normalize path ≠ stem ++ ".js" ++ extension) →
        specifiers.resolve? importer (up ++ stem ++ ".js") = some file) := by
  intro specifiers up
  have hfound : specifiers.file? (Path.normalize file) = some file :=
    (file?_eq_some_iff aliases hnormal _ _).2 ⟨hfile, rfl⟩
  constructor
  · rw [resolve?_wayUp specifiers himporter (Path.normalize_normalize file) hrelative]
    exact lookup?_of_file hfound
  · intro stem hwritten hstem hnone
    rw [hwritten] at hfound hrelative
    have hstart : stem.toList.head? ≠ some '/' := fun hslash => hrelative (by simp [hslash])
    constructor
    · rw [resolve?_wayUp specifiers himporter hstem hstart]
      exact lookup?_of_implied (file?_eq_none aliases hnone) hfound
    · intro hname hother
      have hbuilt : Path.normalize (stem ++ ".js") = stem ++ ".js" := by
        apply String.toList_injective
        have hkept := Path.normalizeChars_of_normalize hstem
        simpa [Path.normalize] using Path.normalizeChars_append hkept ".js".toList (by decide)
          (by decide) (c := 'j') (by decide) (by decide)
      have hbuiltStart : (stem ++ ".js").toList.head? ≠ some '/' := by
        rw [String.toList_append, List.head?_append]
        cases hhead : stem.toList.head? with
        | none => decide
        | some c => simpa [hhead] using hstart
      rw [String.append_assoc, resolve?_wayUp specifiers himporter hbuilt hbuiltStart]
      apply lookup?_of_source hname _ _ hfound
      · exact file?_eq_none aliases fun path hpath => (hother path hpath).1
      · intro extension hextension
        exact file?_eq_none aliases fun path hpath => (hother path hpath).2 extension hextension

/-- A file with two dots in its name is reached from two directories down, with its extension,
without it, and with that of the file that is built from it. -/
theorem file_reached_by_relative_path_up_two :
    let paths := ["src/a.ts", "./lib/.cache.v2.ts"]
    let specifiers := ofFiles paths []
    (paths.map Path.normalize).Nodup ∧
      Path.normalize "./lib/.cache.v2.ts" = "lib/.cache.v2" ++ ".ts" ∧
      Path.Inside (Path.normalize "src\\deep/./x.ts") ∧
      Path.wayUp (Path.depth (Path.normalize "src\\deep/./x.ts")) = "../../" ∧
      specifiers.resolve? "src\\deep/./x.ts" "../../lib/.cache.v2.ts" = some "./lib/.cache.v2.ts" ∧
      specifiers.resolve? "src\\deep/./x.ts" "../../lib/.cache.v2" = some "./lib/.cache.v2.ts" ∧
      specifiers.resolve? "src\\deep/./x.ts" "../../lib/.cache.v2.js" =
        some "./lib/.cache.v2.ts" := by
  intro paths specifiers
  have hnormal : (paths.map Path.normalize).Nodup := by decide
  have hfile : Path.normalize "./lib/.cache.v2.ts" = "lib/.cache.v2" ++ ".ts" := by decide
  have himporter : Path.Inside (Path.normalize "src\\deep/./x.ts") := by decide
  have hup : Path.wayUp (Path.depth (Path.normalize "src\\deep/./x.ts")) = "../../" := by decide
  have hmem : "./lib/.cache.v2.ts" ∈ paths := by decide
  have hreached := file_reached_by_relative_path [] hnormal hmem (by decide) himporter
  rw [hup] at hreached
  rcases hreached with ⟨hexact, hothers⟩
  rcases hothers "lib/.cache.v2" hfile (by decide) (by decide) with ⟨himplied, hbuilt⟩
  exact ⟨hnormal, hfile, himporter, hup, by simpa [hfile] using hexact, himplied,
    hbuilt ⟨'c', by decide, by decide⟩ (by decide)⟩

end Specifiers
end Dependency
end CodeAtlas
