import CodeAtlas.Proofs.FileOrder

/-!
# Specifiers that begin with an alias

A specifier that is neither relative nor rooted goes through the aliases.  They are tried from the
longest to the shortest, and the first that the specifier begins with decides: what it stands for
takes its place, and the path that results is looked for among the files.  Two aliases of one length
that a specifier begins with are the same, so the order in which aliases are listed has no effect.

Main results:

- Theorem {lit}`Specifiers.Decides.unique`: at most one alias decides a specifier.
- Theorem {lit}`Specifiers.aliases_findSome?_eq_some_iff`: the search stops at the alias that
  decides.
- Theorem {lit}`Specifiers.lookup?_spec`: the file that a base path means.
- Theorem {lit}`Specifiers.resolve_through_longest_alias`: how a specifier with an alias is
  resolved.
-/

namespace CodeAtlas
namespace Dependency
namespace Specifiers

/-! ## The alias that decides -/

/-- An alias decides a specifier: the specifier begins with it, and with none that is longer. -/
structure Decides (aliases : List (String × String)) (specifier : String)
    (entry : String × String) : Prop where
  mem : entry ∈ aliases
  begins : entry.1.toList <+: specifier.toList
  longest : ∀ other ∈ aliases, other.1.toList <+: specifier.toList →
    other.1.length ≤ entry.1.length

theorem aliased?_append (entry : String × String) (rest : String) :
    aliased? (entry.1 ++ rest) entry = some (entry.2 ++ rest) := by
  have hbegins : entry.1.toList.isPrefixOf (entry.1 ++ rest).toList = true := by simp
  have hdrop : (entry.1 ++ rest).toList.drop entry.1.length = rest.toList := by
    rw [String.toList_append, ← String.length_toList, List.drop_left]
  rw [aliased?, dropStart?, if_pos hbegins, hdrop, Option.map_some, String.ofList_toList]

/-- An alias gives no path to a specifier that does not begin with it. -/
theorem aliased?_eq_none_iff (specifier : String) (entry : String × String) :
    aliased? specifier entry = none ↔ ¬entry.1.toList <+: specifier.toList := by
  simp [aliased?, dropStart?]

theorem exists_append_of_begins {start text : String} (h : start.toList <+: text.toList) :
    ∃ rest, text = start ++ rest := by
  rcases h with ⟨rest, hrest⟩
  refine ⟨String.ofList rest, ?_⟩
  apply String.toList_injective
  simp [hrest]

namespace Decides

variable {aliases aliases' : List (String × String)} {specifier : String}
  {entry other : String × String}

/-- Of two aliases that decide, each is as long as the other, and so they are the same. -/
theorem unique (hkeys : (aliases.map Prod.fst).Nodup) (h : Decides aliases specifier entry)
    (hother : Decides aliases specifier other) : other = entry := by
  have hlength : other.1.toList.length = entry.1.toList.length := by
    have hle := h.longest other hother.mem hother.begins
    have hge := hother.longest entry h.mem h.begins
    rw [String.length_toList, String.length_toList]
    omega
  have hstart : other.1.toList <+: entry.1.toList :=
    List.prefix_of_prefix_length_le hother.begins h.begins hlength.le
  have hkey : other.1 = entry.1 := String.toList_injective (hstart.eq_of_length hlength)
  exact List.inj_on_of_nodup_map hkeys hother.mem h.mem hkey

/-- Which alias decides does not depend on the order of the aliases. -/
theorem perm (h : Decides aliases specifier entry) (hperm : aliases.Perm aliases') :
    Decides aliases' specifier entry where
  mem := hperm.mem_iff.1 h.mem
  begins := h.begins
  longest other hother := h.longest other (hperm.mem_iff.2 hother)

end Decides

/-! ## The search among the aliases -/

theorem longerFirst_trans (a b c : String × String) (hab : longerFirst a b = true)
    (hbc : longerFirst b c = true) : longerFirst a c = true := by
  simp only [longerFirst, decide_eq_true_eq] at hab hbc ⊢
  omega

theorem longerFirst_total (a b : String × String) :
    (longerFirst a b || longerFirst b a) = true := by
  simp only [longerFirst, Bool.or_eq_true, decide_eq_true_eq]
  omega

theorem aliases_pairwise (paths : List String) (aliases : List (String × String)) :
    (ofFiles paths aliases).aliases.Pairwise fun a b => b.1.length ≤ a.1.length := by
  have hsorted := List.pairwise_mergeSort longerFirst_trans longerFirst_total aliases
  exact hsorted.imp fun hab => by simpa [longerFirst] using hab

theorem aliases_perm (paths : List String) (aliases : List (String × String)) :
    (ofFiles paths aliases).aliases.Perm aliases :=
  List.mergeSort_perm aliases longerFirst

/-- In a list of aliases from the longest to the shortest, the first that a specifier begins with
decides. -/
theorem exists_decides_of_findSome? {aliases : List (String × String)} {specifier base : String}
    (hsorted : aliases.Pairwise fun a b => b.1.length ≤ a.1.length)
    (h : aliases.findSome? (aliased? specifier) = some base) :
    ∃ entry rest, Decides aliases specifier entry ∧ specifier = entry.1 ++ rest ∧
      base = entry.2 ++ rest := by
  rcases List.findSome?_eq_some_iff.1 h with ⟨before, entry, after, rfl, hentry, hbefore⟩
  have hbegins : entry.1.toList <+: specifier.toList := by
    by_contra hnot
    rw [(aliased?_eq_none_iff specifier entry).2 hnot] at hentry
    cases hentry
  rcases exists_append_of_begins hbegins with ⟨rest, rfl⟩
  refine ⟨entry, rest, ⟨by simp, hbegins, ?_⟩, rfl, ?_⟩
  · intro other hother hbeginsOther
    rcases List.mem_append.1 hother with hother | hother
    · exact absurd hbeginsOther ((aliased?_eq_none_iff _ other).1 (hbefore other hother))
    · rcases List.mem_cons.1 hother with rfl | hother
      · exact le_rfl
      · exact List.rel_of_pairwise_cons (List.pairwise_append.1 hsorted).2.1 hother
  · rw [aliased?_append] at hentry
    exact (Option.some.inj hentry).symm

section Search

variable (paths : List String) {aliases : List (String × String)} {specifier : String}

/-- The search among the aliases succeeds exactly if the specifier begins with one of them. -/
theorem aliases_findSome?_isSome_iff :
    ((ofFiles paths aliases).aliases.findSome? (aliased? specifier)).isSome ↔
      ∃ entry ∈ aliases, entry.1.toList <+: specifier.toList := by
  rw [List.findSome?_isSome_iff]
  refine exists_congr fun entry => and_congr (aliases_perm paths aliases).mem_iff ?_
  rw [← not_iff_not, Option.not_isSome_iff_eq_none, aliased?_eq_none_iff]

/-- What the search finds comes from an alias that decides. -/
theorem exists_decides_of_found {base : String}
    (h : (ofFiles paths aliases).aliases.findSome? (aliased? specifier) = some base) :
    ∃ entry rest, Decides aliases specifier entry ∧ specifier = entry.1 ++ rest ∧
      base = entry.2 ++ rest := by
  rcases exists_decides_of_findSome? (aliases_pairwise paths aliases) h with
    ⟨entry, rest, hdecides, hrest⟩
  exact ⟨entry, rest, hdecides.perm (aliases_perm paths aliases), hrest⟩

/-- Where a specifier begins with an alias, one of them decides. -/
theorem exists_decides (h : ∃ entry ∈ aliases, entry.1.toList <+: specifier.toList) :
    ∃ entry, Decides aliases specifier entry := by
  rcases Option.isSome_iff_exists.1 ((aliases_findSome?_isSome_iff []).2 h) with ⟨base, hbase⟩
  rcases exists_decides_of_found [] hbase with ⟨entry, rest, hdecides, -⟩
  exact ⟨entry, hdecides⟩

/-- The search among the aliases stops at the one that decides. -/
theorem aliases_findSome?_eq_some_iff (hkeys : (aliases.map Prod.fst).Nodup) (base : String) :
    (ofFiles paths aliases).aliases.findSome? (aliased? specifier) = some base ↔
      ∃ entry rest, Decides aliases specifier entry ∧ specifier = entry.1 ++ rest ∧
        base = entry.2 ++ rest := by
  constructor
  · exact exists_decides_of_found paths
  · rintro ⟨entry, rest, hdecides, hrest, rfl⟩
    have hsome := (aliases_findSome?_isSome_iff paths).2 ⟨entry, hdecides.mem, hdecides.begins⟩
    rcases Option.isSome_iff_exists.1 hsome with ⟨base, hbase⟩
    -- whatever is found comes from an alias that decides, and there is only one
    rcases exists_decides_of_found paths hbase with ⟨other, rest', hother, hrest', rfl⟩
    obtain rfl := hdecides.unique hkeys hother
    rw [hbase, (String.append_right_inj _).1 (hrest'.symm.trans hrest)]

end Search

/-! ## The file that a base path means -/

section Lookups

variable {paths : List String} {aliases : List (String × String)} {base path : String}

/-- A path is found under the first of the candidates that is the normal form of any file. -/
theorem lookup?_spec (h : (ofFiles paths aliases).lookup? base = some path) :
    path ∈ paths ∧ ∃ before after, candidates base = before ++ Path.normalize path :: after ∧
      ∀ candidate ∈ before, ∀ file ∈ paths, Path.normalize file ≠ candidate := by
  rcases List.findSome?_eq_some_iff.1 h with ⟨before, candidate, after, heq, hfile, hbefore⟩
  rcases file?_spec hfile with ⟨hpath, rfl⟩
  refine ⟨hpath, before, after, heq, ?_⟩
  intro earlier hearlier file hmem hnormal
  have hsome := (file?_isSome_iff aliases earlier).2 ⟨file, hmem, hnormal⟩
  rw [hbefore earlier hearlier] at hsome
  cases hsome

/-- Nothing is found exactly if no candidate is the normal form of a file. -/
theorem lookup?_eq_none_iff :
    (ofFiles paths aliases).lookup? base = none ↔
      ∀ candidate ∈ candidates base, ∀ file ∈ paths, Path.normalize file ≠ candidate := by
  rw [lookup?, List.findSome?_eq_none_iff]
  refine forall₂_congr fun candidate _ => ?_
  rw [← Option.not_isSome_iff_eq_none, file?_isSome_iff]
  simp

end Lookups

/-- A specifier that is neither relative nor rooted is resolved by the aliases alone. -/
theorem resolve?_bare (specifiers : Specifiers) (importer : String) {specifier : String}
    (hdot : specifier.toList.head? ≠ some '.') (hslash : specifier.toList.head? ≠ some '/') :
    specifiers.resolve? importer specifier =
      (specifiers.aliases.findSome? (aliased? specifier)).bind fun base =>
        specifiers.lookup? (Path.normalize base) := by
  unfold resolve? base?
  split
  next rest hrest => simp [hrest] at hslash
  next rest hrest => simp [hrest] at hdot
  · rfl

/-- A specifier that is neither relative nor rooted means what the longest alias makes of it.  There
is one such alias at most, in whatever order the aliases are listed.  What it stands for, followed
by the rest of the specifier, is looked for as a path, and no other alias is tried after that. -/
theorem resolve_through_longest_alias (paths : List String)
    {aliases aliases' : List (String × String)} (hkeys : (aliases.map Prod.fst).Nodup)
    (hperm : aliases.Perm aliases') (importer : String) {specifier : String}
    (hdot : specifier.toList.head? ≠ some '.')
    (hslash : specifier.toList.head? ≠ some '/') :
    (ofFiles paths aliases').resolve? importer specifier =
      (ofFiles paths aliases).resolve? importer specifier ∧
    ((∃ entry ∈ aliases, entry.1.toList <+: specifier.toList) →
      ∃! entry, Decides aliases specifier entry) ∧
    ((∀ entry ∈ aliases, ¬entry.1.toList <+: specifier.toList) →
      (ofFiles paths aliases).resolve? importer specifier = none) ∧
    ∀ entry rest, Decides aliases specifier entry → specifier = entry.1 ++ rest →
      let base := Path.normalize (entry.2 ++ rest)
      (ofFiles paths aliases).resolve? importer specifier = (ofFiles paths aliases).lookup? base ∧
      ((ofFiles paths aliases).resolve? importer specifier = none ↔
        ∀ candidate ∈ candidates base, ∀ file ∈ paths, Path.normalize file ≠ candidate) ∧
      ∀ path, (ofFiles paths aliases).resolve? importer specifier = some path →
        path ∈ paths ∧ ∃ before after, candidates base = before ++ Path.normalize path :: after ∧
          ∀ candidate ∈ before, ∀ file ∈ paths, Path.normalize file ≠ candidate := by
  have hkeys' : (aliases'.map Prod.fst).Nodup := (hperm.map Prod.fst).nodup_iff.1 hkeys
  have hbase : (ofFiles paths aliases').aliases.findSome? (aliased? specifier) =
      (ofFiles paths aliases).aliases.findSome? (aliased? specifier) := by
    ext base
    rw [aliases_findSome?_eq_some_iff paths hkeys', aliases_findSome?_eq_some_iff paths hkeys]
    refine exists_congr fun entry => exists_congr fun rest => and_congr_left fun _ => ?_
    exact ⟨fun h => h.perm hperm.symm, fun h => h.perm hperm⟩
  rw [resolve?_bare _ importer hdot hslash, resolve?_bare _ importer hdot hslash, hbase]
  refine ⟨rfl, ?_, ?_, ?_⟩
  · intro hbegins
    rcases exists_decides hbegins with ⟨entry, hdecides⟩
    exact ⟨entry, hdecides, fun other hother => hdecides.unique hkeys hother⟩
  · intro hnone
    have hsearch : (ofFiles paths aliases).aliases.findSome? (aliased? specifier) = none := by
      rw [← Option.not_isSome_iff_eq_none, aliases_findSome?_isSome_iff]
      rintro ⟨entry, hentry, hbegins⟩
      exact hnone entry hentry hbegins
    rw [hsearch, Option.bind_none]
  · intro entry rest hdecides hrest
    have hfound := (aliases_findSome?_eq_some_iff paths hkeys _).2
      ⟨entry, rest, hdecides, hrest, rfl⟩
    rw [hfound, Option.bind_some]
    exact ⟨rfl, lookup?_eq_none_iff, fun path => lookup?_spec⟩

/-- Of two aliases that a specifier begins with, the longer one decides, also where only the shorter
one would lead to a file. -/
theorem resolve_through_longest_alias_nested :
    let paths := ["lib/a.ts", "src/lib/b.ts"]
    let aliases := [("@", "src/"), ("#", "lib/"), ("@/lib/", "lib/")]
    (aliases.map Prod.fst).Nodup ∧ aliases.Perm aliases.reverse ∧
      (∀ specifier ∈ ["@/lib/a", "@/lib/b"], specifier.toList.head? ≠ some '.' ∧
        specifier.toList.head? ≠ some '/' ∧ Decides aliases specifier ("@/lib/", "lib/")) ∧
      (ofFiles paths aliases).resolve? "c.ts" "@/lib/a" = some "lib/a.ts" ∧
      (ofFiles paths aliases.reverse).resolve? "c.ts" "@/lib/a" = some "lib/a.ts" ∧
      (ofFiles paths aliases).resolve? "c.ts" "@/lib/b" = none ∧
      (ofFiles paths aliases).lookup? (Path.normalize ("src/" ++ "/lib/b")) =
        some "src/lib/b.ts" := by
  intro paths aliases
  have hkeys : (aliases.map Prod.fst).Nodup := by decide
  have hperm : aliases.Perm aliases.reverse := (List.reverse_perm aliases).symm
  have hdecides : ∀ specifier ∈ ["@/lib/a", "@/lib/b"], specifier.toList.head? ≠ some '.' ∧
      specifier.toList.head? ≠ some '/' ∧ Decides aliases specifier ("@/lib/", "lib/") := by
    have hfirst : Decides aliases "@/lib/a" ("@/lib/", "lib/") := ⟨by decide, by decide, by decide⟩
    have hsecond : Decides aliases "@/lib/b" ("@/lib/", "lib/") := ⟨by decide, by decide, by decide⟩
    simpa using ⟨hfirst, hsecond⟩
  rcases hdecides "@/lib/a" (by simp) with ⟨hdotA, hslashA, hdecidesA⟩
  rcases hdecides "@/lib/b" (by simp) with ⟨hdotB, hslashB, hdecidesB⟩
  rcases resolve_through_longest_alias paths hkeys hperm "c.ts" hdotA hslashA with
    ⟨hsame, -, -, hfound⟩
  rcases resolve_through_longest_alias paths hkeys hperm "c.ts" hdotB hslashB with
    ⟨-, -, -, hmissed⟩
  have hA : (ofFiles paths aliases).resolve? "c.ts" "@/lib/a" = some "lib/a.ts" :=
    (hfound _ "a" hdecidesA (by decide)).1.trans (by decide)
  have hB : (ofFiles paths aliases).resolve? "c.ts" "@/lib/b" = none :=
    (hmissed _ "b" hdecidesB (by decide)).1.trans (by decide)
  exact ⟨hkeys, hperm, hdecides, hA, hsame.trans hA, hB, by decide⟩

end Specifiers
end Dependency
end CodeAtlas
