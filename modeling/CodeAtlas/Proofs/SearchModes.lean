import CodeAtlas.Snapshot.Basic
import Mathlib.Data.List.Infix

/-!
# The two ways of searching

A pattern with a star, a question mark or an opening bracket has to match a name as a whole; any
other pattern has to be a part of it.  Between two stars a pattern of the second kind finds the same
entities: the stars change neither how its characters are lower-cased nor what they stand for.

Main results:

- Theorem {lit}`Text.lower_between_stars`: stars do not change the lower-case form of what is
  between them.
- Theorem {lit}`Text.isGlob_lower`: lower-casing makes no text a glob.
- Theorem {lit}`Text.globMatches_between_stars`: between stars, ordinary characters are matched as a
  part.
- Theorem {lit}`Snapshot.search_modes_agree`: both ways of searching find the same entities.
-/

namespace CodeAtlas
namespace Text

/-! ## Lower-casing between stars -/

theorem startsCased_cons (c : Char) (cs : List Char) :
    startsCased (c :: cs) = if isCaseIgnorable c then startsCased cs else isCased c := by
  rw [startsCased, List.dropWhile_cons]
  by_cases hignorable : isCaseIgnorable c = true
  · rw [if_pos hignorable, if_pos hignorable, startsCased]
  · rw [if_neg hignorable, if_neg hignorable]

/-- A star ends a word. -/
theorem startsCased_star (cs : List Char) : startsCased ('*' :: cs) = false := by
  have hignorable : isCaseIgnorable '*' = false := by decide +kernel
  have hcased : isCased '*' = false := by decide +kernel
  rw [startsCased_cons, hignorable, hcased]
  rfl

/-- What follows a text does not count if it goes on with no cased character. -/
theorem startsCased_append {after : List Char} (h : startsCased after = false) (cs : List Char) :
    startsCased (cs ++ after) = startsCased cs := by
  induction cs with
  | nil => exact h
  | cons c cs ih => rw [List.cons_append, startsCased_cons, startsCased_cons, ih]

/-- What precedes a text counts only by whether a cased character comes nearest. -/
theorem lowerFrom_congr {before before' : List Char}
    (h : startsCased before = startsCased before') (cs : List Char) :
    lowerFrom before cs = lowerFrom before' cs := by
  induction cs generalizing before before' with
  | nil => rfl
  | cons c cs ih =>
      have hnext : startsCased (c :: before) = startsCased (c :: before') := by
        rw [startsCased_cons, startsCased_cons, h]
      rw [lowerFrom, lowerFrom, ih hnext, lowerAt, lowerAt, h]

/-- A text is lower-cased apart from what follows it, if that goes on with no cased character. -/
theorem lowerFrom_append {after : List Char} (h : startsCased after = false)
    (before cs : List Char) :
    lowerFrom before (cs ++ after) =
      lowerFrom before cs ++ lowerFrom (cs.reverse ++ before) after := by
  induction cs generalizing before with
  | nil => rfl
  | cons c cs ih =>
      have hat : lowerAt before c (cs ++ after) = lowerAt before c cs := by
        rw [lowerAt, lowerAt, startsCased_append h]
      rw [List.cons_append, lowerFrom, lowerFrom, ih, hat, List.reverse_cons, List.append_assoc,
        List.append_assoc]
      rfl

/-- Stars do not change the lower-case form of what is between them. -/
theorem lower_between_stars (text : String) :
    lower ("*" ++ text ++ "*") = "*" ++ lower text ++ "*" := by
  have hstar (before after : List Char) : lowerAt before '*' after = ['*'] := rfl
  have hchars : lowerFrom [] ('*' :: (text.toList ++ ['*'])) =
      '*' :: (lowerFrom [] text.toList ++ ['*']) := by
    -- the star in front is no cased character, so it is as if nothing preceded the text
    have hfront : lowerFrom ['*'] text.toList = lowerFrom [] text.toList :=
      lowerFrom_congr (startsCased_star []) text.toList
    rw [lowerFrom, hstar, lowerFrom_append (startsCased_star []), hfront, lowerFrom, hstar,
      lowerFrom]
    rfl
  apply String.toList_injective
  simp only [lower, String.toList_append, String.toList_ofList]
  exact hchars

/-! ## Characters of a glob -/

/-- Whether a character makes a text a glob. -/
def isGlobChar (c : Char) : Bool := c == '*' || c == '?' || c == '['

theorem isGlob_eq_false_iff (text : List Char) :
    isGlob text = false ↔ ∀ c ∈ text, isGlobChar c = false := by
  change text.any isGlobChar = false ↔ _
  simp only [List.any_eq_false, Bool.not_eq_true]

/-- The lower-case mapping leads to no character up to the opening bracket, the last one that makes a
glob. -/
theorem lowerRuns_above : ∀ run ∈ lowerRuns, ('['.toNat : Int) < run.first + run.shift := by
  decide +kernel

/-- A code point after the opening bracket makes no glob, and neither does the character that stands
for invalid code points. -/
theorem isGlobChar_ofNat {n : Nat} (h : '['.toNat < n) : isGlobChar (Char.ofNat n) = false := by
  have hcode : (Char.ofNat n).toNat = n ∨ (Char.ofNat n).toNat = 0 := by
    by_cases hvalid : n.isValidChar
    · exact .inl (congrArg Char.toNat (dif_pos hvalid))
    · exact .inr (congrArg Char.toNat (dif_neg hvalid))
  rw [Bool.eq_false_iff]
  intro hglob
  have hbelow : (Char.ofNat n).toNat ≤ '['.toNat ∧ (Char.ofNat n).toNat ≠ 0 := by
    simp only [isGlobChar, Bool.or_eq_true, beq_iff_eq] at hglob
    rcases hglob with (heq | heq) | heq <;> rw [heq] <;> decide
  omega

/-- Lower-casing a character that makes no glob gives none that does. -/
theorem isGlobChar_lowerChar {c : Char} (h : isGlobChar c = false) :
    isGlobChar (lowerChar c) = false := by
  have hascii : ∀ n < 0x80, isGlobChar (Char.ofNat n) = false →
      isGlobChar (Char.ofNat n).toLower = false := by decide +kernel
  unfold lowerChar
  split
  next hsmall =>
    have hlower := hascii c.toNat hsmall
    rw [Char.ofNat_toNat] at hlower
    exact hlower h
  · split
    next n hfound =>
      obtain ⟨run, hrun, himage⟩ := List.exists_of_findSome?_eq_some hfound
      unfold LowerRun.image? at himage
      split at himage
      next hmember =>
        have habove := lowerRuns_above run hrun
        cases himage
        exact isGlobChar_ofNat (by omega)
      · cases himage
    · exact h

theorem isGlobChar_lowerAt {before after : List Char} {c : Char} (h : isGlobChar c = false) :
    ∀ d ∈ lowerAt before c after, isGlobChar d = false := by
  have hgiven : ∀ d ∈ ['ς', 'σ', 'i', '̇'], isGlobChar d = false := by simp [isGlobChar]
  intro d hd
  unfold lowerAt at hd
  split_ifs at hd
  · exact hgiven d (by simp_all)
  · exact hgiven d (by simp_all)
  · exact hgiven d (by simp_all)
  · rw [List.mem_singleton.1 hd]
    exact isGlobChar_lowerChar h

theorem isGlob_lowerFrom {cs : List Char} (h : isGlob cs = false) (before : List Char) :
    isGlob (lowerFrom before cs) = false := by
  rw [isGlob_eq_false_iff] at h ⊢
  induction cs generalizing before with
  | nil => simp [lowerFrom]
  | cons c cs ih =>
      intro d hd
      rw [lowerFrom, List.mem_append] at hd
      rcases hd with hd | hd
      · exact isGlobChar_lowerAt (h c (by simp)) d hd
      · exact ih (fun e he => h e (by simp [he])) _ d hd

/-- Lower-casing makes no text a glob. -/
theorem isGlob_lower {text : String} (h : isGlob text.toList = false) :
    isGlob (lower text).toList = false := by
  rw [lower, String.toList_ofList]
  exact isGlob_lowerFrom h []

/-! ## Matching between stars -/

namespace Glob

/-- A star followed by other atoms matches if they match some suffix. -/
theorem run_star_iff (atoms : List Atom) (cs : List Char) :
    run (.star :: atoms) cs = true ↔ ∃ rest, rest <:+ cs ∧ run atoms rest = true := by
  rw [run]
  induction cs with
  | nil => simp [run.starRun]
  | cons c cs ih =>
      rw [run.starRun, Bool.or_eq_true, ih]
      constructor
      · rintro (hrun | ⟨rest, hsuffix, hrun⟩)
        · exact ⟨c :: cs, List.suffix_refl _, hrun⟩
        · exact ⟨rest, hsuffix.trans (List.suffix_cons c cs), hrun⟩
      · rintro ⟨rest, hsuffix, hrun⟩
        rcases List.suffix_cons_iff.1 hsuffix with rfl | hsuffix
        · exact .inl hrun
        · exact .inr ⟨rest, hsuffix, hrun⟩

/-- Atoms for given characters match if the text begins with these and the rest is matched. -/
theorem run_exactly_append_iff (part : List Char) (atoms : List Atom) (cs : List Char) :
    run (part.map .exactly ++ atoms) cs = true ↔
      ∃ rest, cs = part ++ rest ∧ run atoms rest = true := by
  induction part generalizing cs with
  | nil => simp
  | cons d part ih =>
      cases cs with
      | nil => simp [run]
      | cons c cs =>
          have hstep : run ((d :: part).map .exactly ++ atoms) (c :: cs) =
              (c == d && run (part.map .exactly ++ atoms) cs) := rfl
          rw [hstep, Bool.and_eq_true, beq_iff_eq, ih]
          constructor
          · rintro ⟨rfl, rest, rfl, hrun⟩
            exact ⟨rest, rfl, hrun⟩
          · rintro ⟨rest, heq, hrun⟩
            obtain ⟨rfl, rfl⟩ := List.cons.inj heq
            exact ⟨rfl, rest, rfl, hrun⟩

/-- A character that makes no glob stands for itself. -/
theorem readFrom_cons {c : Char} (h : isGlobChar c = false) (fuel : Nat) (rest : List Char) :
    readFrom (fuel + 1) (c :: rest) = .exactly c :: readFrom fuel rest := by
  unfold isGlobChar at h
  simp only [Bool.or_eq_false_iff, beq_eq_false_iff_ne] at h
  obtain ⟨⟨hstar, hmark⟩, hbracket⟩ := h
  rw [readFrom]
  · exact hstar
  · exact hmark
  · exact hbracket

/-- Characters that make no glob stand for themselves, whatever follows them. -/
theorem readFrom_append {part : List Char} (h : ∀ c ∈ part, isGlobChar c = false) (fuel : Nat)
    (rest : List Char) :
    readFrom (part.length + fuel) (part ++ rest) = part.map .exactly ++ readFrom fuel rest := by
  induction part with
  | nil => rw [List.length_nil, Nat.zero_add]; rfl
  | cons c part ih =>
      rw [List.length_cons, Nat.add_right_comm, List.cons_append, readFrom_cons (h c (by simp)),
        ih fun d hd => h d (by simp [hd])]
      rfl

/-- Between stars, characters that make no glob stand for themselves. -/
theorem read_between_stars {part : List Char} (h : isGlob part = false) :
    read ('*' :: (part ++ ['*'])) = .star :: (part.map .exactly ++ [.star]) := by
  have hlength : ('*' :: (part ++ ['*'])).length = part.length + 1 + 1 := by simp
  rw [read, hlength, readFrom, readFrom_append ((isGlob_eq_false_iff part).1 h)]
  rfl

end Glob

/-- Between stars, characters that make no glob are matched as a part of the text. -/
theorem globMatches_between_stars {part : List Char} (h : isGlob part = false) (text : List Char) :
    globMatches ('*' :: (part ++ ['*'])) text = hasPart part text := by
  rw [globMatches_eq_run, Glob.read_between_stars h, Bool.eq_iff_iff, hasPart_iff,
    Glob.run_star_iff]
  have hend (rest : List Char) : Glob.run [.star] rest = true :=
    (Glob.run_star_iff [] rest).2 ⟨[], List.nil_suffix, rfl⟩
  constructor
  · rintro ⟨suffix, ⟨before, rfl⟩, hrun⟩
    obtain ⟨rest, rfl, -⟩ := (Glob.run_exactly_append_iff part _ suffix).1 hrun
    exact ⟨before, rest, List.append_assoc before part rest⟩
  · rintro ⟨before, rest, rfl⟩
    refine ⟨part ++ rest, ⟨before, (List.append_assoc before part rest).symm⟩, ?_⟩
    exact (Glob.run_exactly_append_iff part _ _).2 ⟨rest, rfl, hend rest⟩

end Text

/-! ## Searches -/

namespace Snapshot

/-- A pattern that is no glob matches the names that it is a part of, both in lower case. -/
theorem nameMatches_eq_hasPart {pattern : String} (h : Text.isGlob pattern.toList = false)
    (name : String) :
    nameMatches pattern name =
      Text.hasPart (Text.lower pattern).toList (Text.lower name).toList := by
  simp only [nameMatches, Text.isGlob_lower h, Bool.false_eq_true, if_false]

/-- Between stars, a pattern that is no glob matches the same names. -/
theorem nameMatches_between_stars {pattern : String} (h : Text.isGlob pattern.toList = false)
    (name : String) : nameMatches ("*" ++ pattern ++ "*") name = nameMatches pattern name := by
  have hpattern : (Text.lower ("*" ++ pattern ++ "*")).toList =
      '*' :: ((Text.lower pattern).toList ++ ['*']) := by
    rw [Text.lower_between_stars, String.toList_append, String.toList_append]
    rfl
  have hstar (rest : List Char) : Text.isGlob ('*' :: rest) = true := rfl
  rw [nameMatches_eq_hasPart h, nameMatches]
  simp only [hpattern, hstar, if_true]
  exact Text.globMatches_between_stars (Text.isGlob_lower h) _

/-- A pattern without a star, a question mark and an opening bracket finds what it finds between two
stars: of the entities of the given kind, in the order of the snapshot, those whose name in lower
case has the pattern in lower case as a part. -/
theorem search_modes_agree (snapshot : Snapshot) {pattern : String} (kind : Option EntityKind)
    (h : ∀ c ∈ ['*', '?', '['], c ∉ pattern.toList) :
    snapshot.search ("*" ++ pattern ++ "*") kind = snapshot.search pattern kind ∧
      ((∀ chosen ∈ kind, chosen ∈ EntityKind.all) →
        snapshot.search pattern kind = .ok (snapshot.entities.filter fun entity =>
          (∀ chosen ∈ kind, entity.kind = chosen) ∧
            (Text.lower pattern).toList <:+: (Text.lower entity.name).toList)) := by
  have hglob : Text.isGlob pattern.toList = false := by
    rw [Text.isGlob_eq_false_iff]
    intro c hc
    rw [Bool.eq_false_iff]
    intro hmark
    refine h c ?_ hc
    simpa [Text.isGlobChar, or_assoc] using hmark
  refine ⟨?_, fun hkind => ?_⟩
  · unfold search
    simp only [nameMatches_between_stars hglob]
  · unfold search
    split
    next label =>
      exact absurd (hkind (.other label) rfl) (by simp [EntityKind.all])
    · congr 1
      apply List.filter_congr
      intro entity _
      rw [Bool.eq_iff_iff, Bool.and_eq_true, nameMatches_eq_hasPart hglob, Text.hasPart_iff,
        decide_eq_true_eq]
      cases kind with
      | none => simp
      | some chosen => simp [@eq_comm _ chosen]

/-- A method with a given name. -/
def methodNamed (name : String) : Entity :=
  { name, kind := .method, file := "a.ts", range := ⟨1, 0, 1, 0⟩, signature := none,
    complexity := none, issues := [] }

/-- A closing bracket is an ordinary character, and a capital sigma is final before it as it is in
the name of a computed member.  Of the two members only one has the pattern as a part. -/
theorem search_modes_agree_final_sigma :
    let snapshot : Snapshot :=
      { files := [], entities := [methodNamed "K.[ΑΣ]", methodNamed "K.[ΑΣΑ]"],
        calls := ⟨[], ∅, ∅, ∅⟩, dependencies := ⟨[], [], 0, nofun⟩, fileIssues := [] }
    (∀ c ∈ ['*', '?', '['], c ∉ "ΑΣ]".toList) ∧
      snapshot.search "*ΑΣ]*" (some .method) = .ok [methodNamed "K.[ΑΣ]"] := by
  intro snapshot
  have hplain : ∀ c ∈ ['*', '?', '['], c ∉ "ΑΣ]".toList := by simp
  obtain ⟨hmodes, hfound⟩ := search_modes_agree snapshot (some .method) hplain
  refine ⟨hplain, hmodes.trans ((hfound (by decide)).trans ?_)⟩
  refine congrArg Except.ok ?_
  decide +kernel

end Snapshot
end CodeAtlas
