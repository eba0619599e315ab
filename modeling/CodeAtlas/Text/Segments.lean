/-!
# Segments of a text

Qualified names are dotted and paths are slashed.  This module splits a text at a separator,
takes its outer segments, and tests for a part.
-/

namespace CodeAtlas
namespace Text

/-! ## Splitting and joining -/

/-- The maximal parts of a text that hold no separator, in order.  There is always one more part
than there are separators. -/
def segments (separator : Char) : List Char → List (List Char)
  | [] => [[]]
  | c :: rest =>
    if c = separator then [] :: segments separator rest
    else
      match segments separator rest with
      | [] => [[c]]
      | first :: others => (c :: first) :: others

/-- The segments are what a list is split into at a separator. -/
theorem segments_eq_splitOn (separator : Char) (cs : List Char) :
    segments separator cs = cs.splitOn separator := by
  induction cs with
  | nil => rfl
  | cons c rest ih =>
      rw [segments, List.splitOn_cons_eq_if_modifyHead, ih]
      by_cases hc : c = separator
      · simp [hc]
      · cases hrest : rest.splitOn separator with
        | nil => exact absurd hrest (List.splitOn_ne_nil separator rest)
        | cons first others => simp [hc]

/-- A text has at least one segment. -/
theorem segments_ne_nil (separator : Char) (cs : List Char) : segments separator cs ≠ [] := by
  rw [segments_eq_splitOn]
  exact List.splitOn_ne_nil separator cs

/-- Joining the segments of a text gives the text back. -/
theorem intercalate_segments (separator : Char) (cs : List Char) :
    [separator].intercalate (segments separator cs) = cs := by
  rw [segments_eq_splitOn, List.intercalate_splitOn]

/-- The segments on both sides of a separator. -/
theorem segments_append_cons (separator : Char) (before after : List Char) :
    segments separator (before ++ separator :: after) =
      segments separator before ++ segments separator after := by
  simp only [segments_eq_splitOn, List.splitOn_append_cons_self]

/-- Joined parts are the segments again, if none of them holds a separator. -/
theorem segments_intercalate {separator : Char} {parts : List (List Char)} (hne : parts ≠ [])
    (h : ∀ part ∈ parts, separator ∉ part) :
    segments separator ([separator].intercalate parts) = parts := by
  rw [segments_eq_splitOn, List.splitOn_intercalate separator h hne]

/-- A segment is made of characters of the text other than the separator. -/
theorem mem_of_mem_segments {separator c : Char} {cs segment : List Char}
    (h : segment ∈ segments separator cs) (hc : c ∈ segment) : c ∈ cs ∧ c ≠ separator := by
  induction cs generalizing segment with
  | nil => simp_all [segments]
  | cons d rest ih =>
      rw [segments] at h
      by_cases hd : d = separator
      · simp only [hd, if_true, List.mem_cons] at h
        rcases h with rfl | h
        · simp at hc
        · simp [ih h hc]
      · cases hrest : segments separator rest with
        | nil => exact absurd hrest (segments_ne_nil separator rest)
        | cons first others =>
            simp only [hd, if_false, hrest, List.mem_cons] at h
            rcases h with rfl | h
            · rcases List.mem_cons.1 hc with rfl | hc
              · simp [hd]
              · have hfirst : first ∈ segments separator rest := by simp [hrest]
                simp [ih hfirst hc]
            · simp [ih (by simp [hrest, h]) hc]

/-- No segment holds a separator. -/
theorem not_mem_of_mem_segments {separator : Char} {cs segment : List Char}
    (h : segment ∈ segments separator cs) : separator ∉ segment :=
  fun hmem => (mem_of_mem_segments h hmem).2 rfl

/-- The parts of a joined text, in two groups. -/
theorem intercalate_append (separator : Char) {parts others : List (List Char)}
    (hparts : parts ≠ []) (hothers : others ≠ []) :
    [separator].intercalate (parts ++ others) =
      [separator].intercalate parts ++ separator :: [separator].intercalate others := by
  induction parts with
  | nil => exact absurd rfl hparts
  | cons part parts ih =>
      cases parts with
      | nil => simp [List.intercalate_cons_of_ne_nil hothers]
      | cons next parts =>
          have hrest := ih (by simp)
          simp only [List.cons_append, List.intercalate_cons_cons, List.append_assoc] at hrest ⊢
          rw [hrest]

/-- A joined text is made of characters of its parts and separators. -/
theorem mem_of_mem_intercalate {separator c : Char} {parts : List (List Char)}
    (h : c ∈ [separator].intercalate parts) : c = separator ∨ ∃ part ∈ parts, c ∈ part := by
  induction parts with
  | nil => simp at h
  | cons part parts ih =>
      cases parts with
      | nil => simp_all
      | cons next parts =>
          simp only [List.intercalate_cons_cons, List.mem_append, List.mem_singleton] at h
          rcases h with (h | h) | h
          · exact .inr ⟨part, by simp, h⟩
          · exact .inl h
          · rcases ih h with h | ⟨other, hother, h⟩
            · exact .inl h
            · exact .inr ⟨other, by simp [hother], h⟩

/-! ## Outer segments -/

/-- The characters after the last separator. -/
def lastSegment (separator : Char) (cs : List Char) : List Char :=
  (cs.reverse.takeWhile (· != separator)).reverse

/-- The characters up to the first separator. -/
def firstSegment (separator : Char) (cs : List Char) : List Char :=
  cs.takeWhile (· != separator)

/-- The last segment holds no separator. -/
theorem not_mem_lastSegment (separator : Char) (cs : List Char) :
    separator ∉ lastSegment separator cs := by
  intro h
  rw [lastSegment, List.mem_reverse] at h
  simpa using List.all_eq_true.1 List.all_takeWhile _ h

/-- What follows a text without a separator in it is part of the last segment. -/
theorem lastSegment_append {separator : Char} (before : List Char) {after : List Char}
    (h : separator ∉ after) :
    lastSegment separator (before ++ after) = lastSegment separator before ++ after := by
  have hall : ∀ c ∈ after.reverse, (c != separator) = true := by
    intro c hc
    have hne : c ≠ separator := fun heq => h (heq ▸ List.mem_reverse.1 hc)
    simpa using hne
  rw [lastSegment, lastSegment, List.reverse_append, List.takeWhile_append_of_pos hall,
    List.reverse_append, List.reverse_reverse]

/-- A text without a separator is its own last segment. -/
theorem lastSegment_of_not_mem {separator : Char} {cs : List Char} (h : separator ∉ cs) :
    lastSegment separator cs = cs :=
  lastSegment_append [] h

/-- The last segment is what follows a separator, if no other comes after it. -/
theorem lastSegment_append_cons {separator : Char} (before : List Char) {after : List Char}
    (h : separator ∉ after) : lastSegment separator (before ++ separator :: after) = after := by
  rw [List.append_cons, lastSegment_append _ h]
  simp [lastSegment]

/-- The last segment of a text with a separator is what follows its last one. -/
theorem lastSegment_eq_iff (separator : Char) (cs segment : List Char) :
    separator ∈ cs ∧ lastSegment separator cs = segment ↔
      ∃ before, cs = before ++ separator :: segment ∧ separator ∉ segment := by
  constructor
  · rintro ⟨hmem, rfl⟩
    -- read backwards, the text goes on after its last segment, and with the separator
    have hsplit := List.takeWhile_append_dropWhile (p := (· != separator)) (l := cs.reverse)
    cases hrest : cs.reverse.dropWhile (· != separator) with
    | nil =>
        rw [hrest, List.append_nil] at hsplit
        have hnot := not_mem_lastSegment separator cs
        rw [lastSegment, hsplit, List.reverse_reverse] at hnot
        exact absurd hmem hnot
    | cons c rest =>
        have hc : c = separator := by
          have hhead := List.head?_dropWhile_not (· != separator) cs.reverse
          simpa [hrest] using hhead
        subst hc
        refine ⟨rest.reverse, ?_, not_mem_lastSegment c cs⟩
        rw [hrest] at hsplit
        have hreverse := congrArg List.reverse hsplit
        simp only [List.reverse_append, List.reverse_cons, List.reverse_reverse,
          List.append_assoc, List.singleton_append] at hreverse
        exact hreverse.symm
  · rintro ⟨before, rfl, hnot⟩
    exact ⟨by simp, lastSegment_append_cons before hnot⟩

/-! ## Parts -/

/-- Whether `part` occurs in a text as consecutive characters. -/
def hasPart (part : List Char) : List Char → Bool
  | [] => part.isEmpty
  | c :: rest => part.isPrefixOf (c :: rest) || hasPart part rest

/-- A part of a text is an infix of it. -/
theorem hasPart_iff (part cs : List Char) : hasPart part cs = true ↔ part <:+: cs := by
  induction cs with
  | nil => simp [hasPart]
  | cons c rest ih => simp [hasPart, ih, List.infix_cons_iff]

end Text
end CodeAtlas
