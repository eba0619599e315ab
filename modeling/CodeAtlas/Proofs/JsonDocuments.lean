import CodeAtlas.Json.Reader
import CodeAtlas.Json.Writer
import CodeAtlas.Text.Utf8
import CodeAtlas.Dependency.Document
import CodeAtlas.Proofs.Integrity

/-!
# Documents that are read back

The reader of JSON documents gives back what the writer wrote, whatever the characters of the texts
and however the parts are laid out, as long as there are only spaces between them.  Every character
of such a document is in ASCII.  A dependency graph is written as a document of this kind, so that
nothing of it is lost.

Main results:

- Theorem {lit}`Json.readText_escapeChar`: a character is read back from its escape.
- Theorem {lit}`Json.Textual.readsBack`: a value of texts is read back, whatever follows it.
- Theorem {lit}`Json.parse?_render`: so is a document.
- Theorem {lit}`Dependency.Graph.json_document`: the document of a dependency graph.
-/

namespace CodeAtlas
namespace Json

/-! ## Escapes by units -/

/-- The digits of a number in base sixteen, with zeros in front up to a width. -/
def padded (width n : Nat) : List Char :=
  List.replicate (width - (Nat.toDigits 16 n).length) '0' ++ Nat.toDigits 16 n

/-- A single digit needs no zeros in front. -/
theorem padded_one {n : Nat} (h : n < 16) : padded 1 n = [n.digitChar] := by
  simp [padded, Nat.toDigits_of_lt_base h]

/-- The last digit comes after the number without it, padded by one less. -/
theorem padded_succ {width : Nat} (hwidth : 0 < width) (n : Nat) :
    padded (width + 1) n = padded width (n / 16) ++ [(n % 16).digitChar] := by
  rcases Nat.lt_or_ge n 16 with h | h
  · have hzero : n / 16 = 0 := by omega
    have hlast : n % 16 = n := by omega
    obtain ⟨less, rfl⟩ := Nat.exists_eq_add_of_lt hwidth
    simp [padded, Nat.toDigits_of_lt_base h, hzero, hlast, List.replicate_succ']
  · simp [padded, Nat.toDigits_of_base_le (show 1 < 16 by decide) h]

/-- A unit is written with four digits. -/
theorem unitEscape_eq {n : Nat} (h : n < 0x10000) :
    unitEscape n = ['\\', 'u', (n / 16 / 16 / 16).digitChar, (n / 16 / 16 % 16).digitChar,
      (n / 16 % 16).digitChar, (n % 16).digitChar] := by
  change '\\' :: 'u' :: padded 4 n = _
  rw [padded_succ (by decide), padded_succ (by decide), padded_succ (by decide),
    padded_one (by omega)]
  rfl

/-- A digit in base sixteen has the value that it is written for. -/
theorem hexValue?_digitChar : ∀ n < 16, Text.hexValue? n.digitChar = some n := by
  decide

/-- A unit is read back from its digits. -/
theorem unit?_digits {n : Nat} (h : n < 0x10000) :
    unit? (n / 16 / 16 / 16).digitChar (n / 16 / 16 % 16).digitChar (n / 16 % 16).digitChar
      (n % 16).digitChar = some n := by
  simp only [unit?, List.mapM_cons, List.mapM_nil, Option.pure_def, Option.bind_eq_bind,
    hexValue?_digitChar _ (show n / 16 / 16 / 16 < 16 by omega),
    hexValue?_digitChar _ (show n / 16 / 16 % 16 < 16 by omega),
    hexValue?_digitChar _ (show n / 16 % 16 < 16 by omega),
    hexValue?_digitChar _ (show n % 16 < 16 by omega),
    Option.bind_some, List.foldl_cons, List.foldl_nil, Option.some.injEq]
  omega

/-! ## Texts -/

/-- A text that goes on with a character is read as the character and the rest. -/
def withFirst (c : Char) : Option (List Char × List Char) → Option (List Char × List Char) :=
  Option.map fun (cs, after) => (c :: cs, after)

/-- A single unit is read as its character, unless it is the first half of a pair. -/
theorem readText_unitEscape {n : Nat} (h : n < 0xD800 ∨ 0xE000 ≤ n ∧ n < 0x10000)
    (rest : List Char) :
    readText (unitEscape n ++ rest) = withFirst (Char.ofNat n) (readText rest) := by
  have hchar : charOfUnit n = Char.ofNat n := if_neg (by omega)
  rw [unitEscape_eq (by omega)]
  simp only [List.cons_append, List.nil_append]
  rw [readText]
  simp only [unit?_digits (show n < 0x10000 by omega)]
  rw [if_neg (by omega), hchar]
  rfl

/-- Two units that make a pair are read as one character. -/
theorem readText_pair {high low : Nat} (hhigh : 0xD800 ≤ high ∧ high < 0xDC00)
    (hlow : 0xDC00 ≤ low ∧ low < 0xE000) (rest : List Char) :
    readText (unitEscape high ++ (unitEscape low ++ rest)) =
      withFirst (Char.ofNat (0x10000 + (high - 0xD800) * 0x400 + (low - 0xDC00)))
        (readText rest) := by
  rw [unitEscape_eq (show high < 0x10000 by omega), unitEscape_eq (show low < 0x10000 by omega)]
  simp only [List.cons_append, List.nil_append]
  rw [readText]
  simp only [unit?_digits (show high < 0x10000 by omega),
    unit?_digits (show low < 0x10000 by omega), if_pos hhigh, if_pos hlow]
  rfl

/-- A character with a simple escape is read back from it. -/
theorem readText_simpleEscape {e c : Char} (h : simpleEscape? e = some c) (rest : List Char) :
    readText ('\\' :: e :: rest) = withFirst c (readText rest) := by
  have hu : e ≠ 'u' := by
    rintro rfl
    cases h
  rw [readText]
  · simp only [h]
    rfl
  · intro _ _ _ _ _ heq
    exact absurd heq hu

/-- A character is written as itself, by a simple escape, by its unit, or by a pair of units. -/
theorem escapeChar_cases (c : Char) :
    (∃ e, escapeChar c = ['\\', e] ∧ simpleEscape? e = some c ∧ e.toNat < 0x80) ∨
      (escapeChar c = [c] ∧ c ≠ '"' ∧ c ≠ '\\' ∧ 0x20 ≤ c.toNat ∧ c.toNat < 0x80) ∨
      (escapeChar c = unitEscape c.toNat ∧ c.toNat < 0x10000) ∨
      (escapeChar c = unitEscape (0xD800 + (c.toNat - 0x10000) / 0x400)
          ++ unitEscape (0xDC00 + (c.toNat - 0x10000) % 0x400) ∧ 0x10000 ≤ c.toNat) := by
  have hcode (n : Nat) (h : c.toNat = n) : c = Char.ofNat n := by rw [← h, Char.ofNat_toNat]
  unfold escapeChar
  split
  next h => exact .inl ⟨'"', rfl, by rw [h]; rfl, by decide⟩
  split
  next h => exact .inl ⟨'\\', rfl, by rw [h]; rfl, by decide⟩
  split
  next h => exact .inl ⟨'n', rfl, by rw [h]; rfl, by decide⟩
  split
  next h => exact .inl ⟨'r', rfl, by rw [h]; rfl, by decide⟩
  split
  next h => exact .inl ⟨'t', rfl, by rw [h]; rfl, by decide⟩
  split
  next h => exact .inl ⟨'b', rfl, by rw [hcode _ h]; rfl, by decide⟩
  split
  next h => exact .inl ⟨'f', rfl, by rw [hcode _ h]; rfl, by decide⟩
  split
  next hquote hslash _ _ _ _ _ h => exact .inr (.inl ⟨rfl, hquote, hslash, h.1, by omega⟩)
  split
  next h => exact .inr (.inr (.inl ⟨rfl, h⟩))
  next h => exact .inr (.inr (.inr ⟨rfl, by omega⟩))

/-- A character is read back from its escape. -/
theorem readText_escapeChar (c : Char) (rest : List Char) :
    readText (escapeChar c ++ rest) = withFirst c (readText rest) := by
  have hvalid := Text.toNat_valid c
  rcases escapeChar_cases c with ⟨e, heq, he, -⟩ | ⟨heq, hquote, hslash, hplain, -⟩ |
    ⟨heq, hunit⟩ | ⟨heq, hpair⟩
  · rw [heq]
    exact readText_simpleEscape he rest
  · rw [heq, List.singleton_append, readText]
    · rw [if_neg (by simp [hslash]; omega)]
      rfl
    · exact hquote
    · exact fun _ _ _ _ _ h => absurd h hslash
    · exact fun _ _ h => absurd h hslash
  · rw [heq, readText_unitEscape (by omega), Char.ofNat_toNat]
  · rw [heq, List.append_assoc, readText_pair (by omega) (by omega)]
    -- the two halves give the code point back
    have hcode : 0x10000 + (0xD800 + (c.toNat - 0x10000) / 0x400 - 0xD800) * 0x400
        + (0xDC00 + (c.toNat - 0x10000) % 0x400 - 0xDC00) = c.toNat := by omega
    rw [hcode, Char.ofNat_toNat]

example : escapeChar '𝄞' = "\\ud834\\udd1e".toList := by decide

/-- A text is read back up to its closing quote. -/
theorem readText_escaped (cs rest : List Char) :
    readText (cs.flatMap escapeChar ++ '"' :: rest) = some (cs, rest) := by
  induction cs with
  | nil => simp [readText]
  | cons c cs ih => rw [List.flatMap_cons, List.append_assoc, readText_escapeChar, ih]; rfl

/-- A text is written between two quotes, with its characters escaped. -/
theorem writeText_append (text : String) (rest : List Char) :
    writeText text ++ rest = '"' :: (text.toList.flatMap escapeChar ++ '"' :: rest) := by
  simp [writeText]

/-! ## Spaces -/

/-- A text of spaces only. -/
def Spaces (cs : List Char) : Prop := ∀ c ∈ cs, isSpace c = true

/-- Spaces in front of a text are skipped. -/
theorem skipSpace_append {cs : List Char} (h : Spaces cs) (rest : List Char) :
    skipSpace (cs ++ rest) = skipSpace rest :=
  List.dropWhile_append_of_pos h

/-- A text that starts with no space is left as it is. -/
theorem skipSpace_cons {c : Char} (h : isSpace c = false) (rest : List Char) :
    skipSpace (c :: rest) = c :: rest :=
  List.dropWhile_cons_of_neg (by simp [h])

/-- A layout puts nothing but spaces between the parts of a document. -/
structure Layout.Spaced (layout : Layout) : Prop where
  lineBreak : ∀ depth, Spaces (layout.lineBreak depth)
  colon : ∃ after, layout.colon = ':' :: after ∧ Spaces after

/-- The indented layout puts line ends and blanks between the parts. -/
theorem indented_spaced : indented.Spaced where
  lineBreak := by
    intro depth c hc
    rcases List.mem_cons.1 hc with rfl | hc
    · rfl
    · rw [List.eq_of_mem_replicate hc]
      rfl
  colon := ⟨[' '], rfl, by simp [Spaces, isSpace]⟩

/-- Spaces in front of a value are skipped. -/
theorem readValue_spaces {cs : List Char} (h : Spaces cs) (fuel : Nat) (rest : List Char) :
    readValue fuel (cs ++ rest) = readValue fuel rest := by
  cases fuel with
  | zero => rfl
  | succ fuel => rw [readValue, readValue, skipSpace_append h]

/-- Spaces in front of the items of a list are skipped. -/
theorem readItems_spaces {cs : List Char} (h : Spaces cs) (fuel : Nat) (rest : List Char) :
    readItems fuel (cs ++ rest) = readItems fuel rest := by
  cases fuel with
  | zero => rfl
  | succ fuel => rw [readItems, readItems, readValue_spaces h]

/-- Spaces in front of the entries of a table are skipped. -/
theorem readEntries_spaces {cs : List Char} (h : Spaces cs) (fuel : Nat)
    (entries : List (String × Value)) (rest : List Char) :
    readEntries fuel entries (cs ++ rest) = readEntries fuel entries rest := by
  cases fuel with
  | zero => rfl
  | succ fuel => rw [readEntries, readEntries, skipSpace_append h]

/-! ## Values -/

/-- A value that is made of texts, booleans and nulls, and whose tables have no key twice. -/
inductive Textual : Value → Prop where
  | null : Textual .null
  | bool (b : Bool) : Textual (.bool b)
  | text (s : String) : Textual (.text s)
  | list {items : List Value} (hitems : ∀ item ∈ items, Textual item) : Textual (.list items)
  | table {entries : List (String × Value)} (hkeys : (entries.map Prod.fst).Nodup)
      (hentries : ∀ entry ∈ entries, Textual entry.2) : Textual (.table entries)

/-- A value is read back from what is written of it, at any depth and whatever follows. -/
def ReadsBack (layout : Layout) (value : Value) : Prop :=
  ∀ (depth fuel : Nat) (rest : List Char), (write layout depth value).length ≤ fuel →
    readValue fuel (write layout depth value ++ rest) = some (value, rest)

/-- What is written of a value starts with a character that neither closes a list nor is a
space. -/
theorem Textual.exists_write_eq {value : Value} (h : Textual value) (layout : Layout)
    (depth : Nat) :
    ∃ c cs, write layout depth value = c :: cs ∧ isSpace c = false ∧ c ≠ ']' := by
  cases h with
  | null => exact ⟨_, _, by rw [write], rfl, by decide⟩
  | bool b => cases b <;> exact ⟨_, _, by rw [write], rfl, by decide⟩
  | text s => exact ⟨_, _, by rw [write, writeText], rfl, by decide⟩
  | @list items _ => cases items <;> exact ⟨_, _, by rw [write], rfl, by decide⟩
  | @table entries _ _ => cases entries <;> exact ⟨_, _, by rw [write], rfl, by decide⟩

section Parts

variable {layout : Layout}

/-- The items of a list are read back up to its closing bracket. -/
theorem readItems_write (hlayout : layout.Spaced) {item : Value} {items : List Value}
    (hitems : ∀ value ∈ item :: items, ReadsBack layout value) (depth fuel : Nat)
    (hfuel : (write layout depth item).length + (writeItems layout depth items).length < fuel)
    {close : List Char} (hclose : Spaces close) (rest : List Char) :
    readItems fuel (write layout depth item ++ (writeItems layout depth items
      ++ (close ++ ']' :: rest))) = some (item :: items, rest) := by
  induction items generalizing item fuel with
  | nil =>
      obtain ⟨fuel, rfl⟩ := Nat.exists_eq_add_one_of_ne_zero (show fuel ≠ 0 by omega)
      have hnext : skipSpace (close ++ ']' :: rest) = ']' :: rest := by
        rw [skipSpace_append hclose, skipSpace_cons rfl]
      rw [readItems, writeItems, List.nil_append, hitems item (by simp) depth fuel _ (by omega)]
      simp only [hnext]
  | cons next items ih =>
      obtain ⟨fuel, rfl⟩ := Nat.exists_eq_add_one_of_ne_zero (show fuel ≠ 0 by omega)
      simp only [writeItems, List.length_cons, List.length_append] at hfuel
      have hothers := ih (fun value hvalue => hitems value (List.mem_cons_of_mem item hvalue)) fuel
        (by omega)
      rw [readItems, writeItems, List.cons_append, hitems item (by simp) depth fuel _ (by omega)]
      simp only [skipSpace_cons (show isSpace ',' = false from rfl), List.append_assoc,
        readItems_spaces (hlayout.lineBreak depth), hothers, Option.map_some]

/-- One entry of a table is read and put behind those before it, and a comma or the closing brace
comes next. -/
theorem readEntries_entry (hlayout : layout.Spaced) {key : String} {value : Value}
    (hvalue : ReadsBack layout value) {depth fuel : Nat}
    (hfuel : (write layout depth value).length ≤ fuel) {before : List (String × Value)}
    (hkey : key ∉ before.map Prod.fst) {rest after : List Char} :
    let found := readEntries (fuel + 1) before
      (writeText key ++ (layout.colon ++ (write layout depth value ++ rest)))
    (skipSpace rest = ',' :: after →
        found = readEntries fuel (before ++ [(key, value)]) after) ∧
      (skipSpace rest = '\x7d' :: after → found = some (before ++ [(key, value)], after)) := by
  obtain ⟨blank, hcolon, hblank⟩ := hlayout.colon
  have hread := hvalue depth fuel rest hfuel
  constructor
  all_goals
    intro hnext
    rw [readEntries, writeText_append, skipSpace_cons rfl]
    simp only [readText_escaped, hcolon, List.cons_append,
      skipSpace_cons (show isSpace ':' = false from rfl), readValue_spaces hblank, hread, hnext,
      String.ofList_toList, Snapshot.putEntry_new hkey]

/-- A key that comes once is not among the keys before it. -/
theorem key_not_mem {before entries : List (String × Value)} {key : String} {value : Value}
    (hkeys : ((before ++ (key, value) :: entries).map Prod.fst).Nodup) :
    key ∉ before.map Prod.fst := by
  rw [List.map_append, List.nodup_append] at hkeys
  exact fun hmem => hkeys.2.2 key hmem key (by simp) rfl

/-- The entries of a table are read back up to its closing brace, behind those before them. -/
theorem readEntries_write (hlayout : layout.Spaced) {key : String} {value : Value}
    {entries : List (String × Value)}
    (hentries : ∀ entry ∈ (key, value) :: entries, ReadsBack layout entry.2) (depth fuel : Nat)
    (hfuel : (write layout depth value).length + (writeEntries layout depth entries).length < fuel)
    (before : List (String × Value))
    (hkeys : ((before ++ (key, value) :: entries).map Prod.fst).Nodup)
    {close : List Char} (hclose : Spaces close) (rest : List Char) :
    readEntries fuel before (writeText key ++ (layout.colon ++ (write layout depth value
      ++ (writeEntries layout depth entries ++ (close ++ '\x7d' :: rest))))) =
        some (before ++ (key, value) :: entries, rest) := by
  obtain ⟨fuel, rfl⟩ := Nat.exists_eq_add_one_of_ne_zero (show fuel ≠ 0 by omega)
  induction entries generalizing key value before fuel with
  | nil =>
      have hnext : skipSpace (close ++ '\x7d' :: rest) = '\x7d' :: rest := by
        rw [skipSpace_append hclose, skipSpace_cons rfl]
      have hvalue : ReadsBack layout value := hentries (key, value) (by simp)
      exact (readEntries_entry hlayout hvalue (by omega) (key_not_mem hkeys)).2 hnext
  | cons next entries ih =>
      obtain ⟨nextKey, nextValue⟩ := next
      simp only [writeEntries, List.length_cons, List.length_append] at hfuel
      obtain ⟨fuel, rfl⟩ := Nat.exists_eq_add_one_of_ne_zero (show fuel ≠ 0 by omega)
      have hothers := ih (fun entry hentry => hentries entry (List.mem_cons_of_mem _ hentry))
        (before ++ [(key, value)]) (by simpa using hkeys) fuel (by omega)
      have hvalue : ReadsBack layout value := hentries (key, value) (by simp)
      rw [writeEntries, List.cons_append,
        (readEntries_entry hlayout hvalue (by omega) (key_not_mem hkeys)).1 (skipSpace_cons rfl _)]
      simpa only [List.append_assoc, List.singleton_append,
        readEntries_spaces (hlayout.lineBreak depth)] using hothers

end Parts

/-- Every value takes some fuel. -/
theorem Textual.readsBack_of_fuel {layout : Layout} {value : Value} (h : Textual value)
    (hread : ∀ (depth fuel : Nat) (rest : List Char),
      (write layout depth value).length ≤ fuel + 1 →
        readValue (fuel + 1) (write layout depth value ++ rest) = some (value, rest)) :
    ReadsBack layout value := by
  intro depth fuel rest hfuel
  cases fuel with
  | zero =>
      obtain ⟨c, cs, hwrite, -, -⟩ := h.exists_write_eq layout depth
      simp [hwrite] at hfuel
  | succ fuel => exact hread depth fuel rest hfuel

/-- A list that is not empty is read through its items. -/
theorem readValue_list {fuel : Nat} {rest cs after : List Char} {c : Char} {items : List Value}
    (hstart : skipSpace rest = c :: cs) (hc : c ≠ ']')
    (hitems : readItems fuel (c :: cs) = some (items, after)) :
    readValue (fuel + 1) ('[' :: rest) = some (.list items, after) := by
  rw [readValue, skipSpace_cons rfl]
  simp only [hstart]
  split
  next heq => exact absurd (List.cons.inj heq).1 hc
  next => rw [hitems]; rfl

/-- A table that is not empty is read through its entries. -/
theorem readValue_table {fuel : Nat} {rest cs after : List Char} {entries : List (String × Value)}
    (hstart : skipSpace rest = '"' :: cs)
    (hentries : readEntries fuel [] ('"' :: cs) = some (entries, after)) :
    readValue (fuel + 1) ('\x7b' :: rest) = some (.table entries, after) := by
  rw [readValue, skipSpace_cons rfl]
  simp only [hstart]
  split
  next heq => exact absurd (List.cons.inj heq).1 (by decide)
  next => rw [hentries]; rfl

/-- A value of texts is read back, whatever follows it. -/
theorem Textual.readsBack {layout : Layout} (hlayout : layout.Spaced) {value : Value}
    (h : Textual value) : ReadsBack layout value := by
  induction h with
  | null => exact Textual.null.readsBack_of_fuel fun depth fuel rest _ => rfl
  | bool b =>
      refine (Textual.bool b).readsBack_of_fuel fun depth fuel rest _ => ?_
      cases b <;> rfl
  | text s =>
      refine (Textual.text s).readsBack_of_fuel fun depth fuel rest _ => ?_
      rw [write, writeText_append, readValue, skipSpace_cons rfl]
      simp only [readText_escaped, Option.map_some, String.ofList_toList]
  | @list items hitems ih =>
      refine (Textual.list hitems).readsBack_of_fuel fun depth fuel rest hfuel => ?_
      cases items with
      | nil => rfl
      | cons item items =>
          obtain ⟨c, cs, hwrite, hspace, hc⟩ :=
            (hitems item (by simp)).exists_write_eq layout (depth + 1)
          simp only [write, List.length_cons, List.length_append, List.length_nil] at hfuel
          have hread := readItems_write hlayout ih (depth + 1) fuel (by omega)
            (hlayout.lineBreak depth) rest
          rw [write, List.cons_append, hwrite]
          rw [hwrite, List.cons_append] at hread
          refine readValue_list ?_ hc hread
          simp only [List.append_assoc, skipSpace_append (hlayout.lineBreak (depth + 1)),
            List.cons_append, skipSpace_cons hspace, List.nil_append]
  | @table entries hkeys hentries ih =>
      refine (Textual.table hkeys hentries).readsBack_of_fuel fun depth fuel rest hfuel => ?_
      cases entries with
      | nil => rfl
      | cons entry entries =>
          obtain ⟨key, value⟩ := entry
          simp only [write, List.length_cons, List.length_append, List.length_nil] at hfuel
          have hread := readEntries_write hlayout ih (depth + 1) fuel (by omega) [] hkeys
            (hlayout.lineBreak depth) rest
          rw [write, List.cons_append]
          rw [writeText_append] at hread
          refine readValue_table ?_ hread
          simp only [List.append_assoc, skipSpace_append (hlayout.lineBreak (depth + 1)),
            writeText_append, skipSpace_cons (show isSpace '"' = false from rfl), List.nil_append,
            List.cons_append]

/-- A document of texts is read back from what is written. -/
theorem parse?_render {layout : Layout} (hlayout : layout.Spaced) {value : Value}
    (h : Textual value) : parse? (render layout value) = some value := by
  have hread := h.readsBack hlayout 0 ((write layout 0 value).length + 1) [] (by omega)
  rw [List.append_nil] at hread
  simp [parse?, render, hread, skipSpace]

/-! ## ASCII -/

/-- A text of characters in ASCII. -/
def Ascii (cs : List Char) : Prop := ∀ c ∈ cs, c.toNat < 0x80

@[simp]
theorem ascii_nil : Ascii [] := by
  simp [Ascii]

@[simp]
theorem ascii_cons (c : Char) (cs : List Char) : Ascii (c :: cs) ↔ c.toNat < 0x80 ∧ Ascii cs :=
  List.forall_mem_cons

@[simp]
theorem ascii_append (cs ds : List Char) : Ascii (cs ++ ds) ↔ Ascii cs ∧ Ascii ds :=
  List.forall_mem_append

@[simp]
theorem ascii_flatMap {α : Type} (xs : List α) (f : α → List Char) :
    Ascii (xs.flatMap f) ↔ ∀ x ∈ xs, Ascii (f x) := by
  simp only [Ascii, List.mem_flatMap]
  exact ⟨fun h x hx c hc => h c ⟨x, hx, hc⟩, fun h c ⟨x, hx, hc⟩ => h x hx c hc⟩

/-- Spaces are in ASCII. -/
theorem Spaces.ascii {cs : List Char} (h : Spaces cs) : Ascii cs := by
  intro c hc
  have hspace := h c hc
  simp only [isSpace, Bool.or_eq_true, beq_iff_eq] at hspace
  rcases hspace with ((rfl | rfl) | rfl) | rfl <;> decide

/-- Digits in base sixteen are in ASCII. -/
theorem digitChar_toNat_lt : ∀ n < 16, n.digitChar.toNat < 0x80 := by
  decide

/-- The escape of a unit is in ASCII. -/
theorem ascii_unitEscape {n : Nat} (h : n < 0x10000) : Ascii (unitEscape n) := by
  rw [unitEscape_eq h]
  simp only [ascii_cons, ascii_nil, and_true]
  exact ⟨by decide, by decide, digitChar_toNat_lt _ (by omega), digitChar_toNat_lt _ (by omega),
    digitChar_toNat_lt _ (by omega), digitChar_toNat_lt _ (by omega)⟩

/-- Characters outside ASCII are escaped. -/
theorem ascii_escapeChar (c : Char) : Ascii (escapeChar c) := by
  have hvalid := Text.toNat_valid c
  rcases escapeChar_cases c with ⟨e, heq, -, he⟩ | ⟨heq, -, -, -, hplain⟩ | ⟨heq, hunit⟩ |
    ⟨heq, hpair⟩
  · simp [heq, he]
  · simp [heq, hplain]
  · rw [heq]
    exact ascii_unitEscape hunit
  · rw [heq, ascii_append]
    exact ⟨ascii_unitEscape (by omega), ascii_unitEscape (by omega)⟩

/-- What is written of a text is in ASCII. -/
theorem ascii_writeText (text : String) : Ascii (writeText text) := by
  simp [writeText, ascii_escapeChar]

/-- Further items are written one by one, each after a comma. -/
theorem writeItems_eq_flatMap (layout : Layout) (depth : Nat) (items : List Value) :
    writeItems layout depth items =
      items.flatMap fun item => ',' :: (layout.lineBreak depth ++ write layout depth item) := by
  induction items with
  | nil => rfl
  | cons item items ih => simp [writeItems, ih]

/-- Further entries are written one by one, each after a comma. -/
theorem writeEntries_eq_flatMap (layout : Layout) (depth : Nat) (entries : List (String × Value)) :
    writeEntries layout depth entries =
      entries.flatMap fun entry => ',' :: (layout.lineBreak depth ++ (writeText entry.1
        ++ (layout.colon ++ write layout depth entry.2))) := by
  induction entries with
  | nil => rfl
  | cons entry entries ih => simp [writeEntries, ih]

/-- Every character of a document of texts is in ASCII. -/
theorem Textual.ascii_write {layout : Layout} (hlayout : layout.Spaced) {value : Value}
    (h : Textual value) (depth : Nat) : Ascii (write layout depth value) := by
  have hbreak (depth : Nat) : Ascii (layout.lineBreak depth) := (hlayout.lineBreak depth).ascii
  have hcolon : Ascii layout.colon := by
    obtain ⟨blank, heq, hblank⟩ := hlayout.colon
    simp [heq, hblank.ascii]
  induction h generalizing depth with
  | null => simp [write]
  | bool b => cases b <;> simp [write]
  | text s => simpa [write] using ascii_writeText s
  | @list items hitems ih =>
      cases items with
      | nil => simp [write]
      | cons item items =>
          have hparts := fun value hvalue => ih value hvalue (depth + 1)
          rw [List.forall_mem_cons] at hparts
          simpa [write, writeItems_eq_flatMap, hbreak] using hparts
  | @table entries hkeys hentries ih =>
      cases entries with
      | nil => simp [write]
      | cons entry entries =>
          have hparts := fun value hvalue => ih value hvalue (depth + 1)
          rw [List.forall_mem_cons] at hparts
          simpa [write, writeEntries_eq_flatMap, hbreak, hcolon, ascii_writeText] using hparts

end Json

/-! ## Dependency graphs -/

namespace Dependency

/-- What a document tells of an edge. -/
def Edge.fields (edge : Edge) : String × String × String × String × Bool :=
  (edge.source, edge.target, edge.kind.label, edge.specifier, edge.external)

namespace Graph

open CodeAtlas.Json

/-- A list of texts is made of texts. -/
theorem textual_textsValue (texts : List String) : Textual (textsValue texts) :=
  .list (by simp [Textual.text])

/-- The value of a graph is made of texts, booleans and tables without repeated keys. -/
theorem textual_toValue (graph : Graph) : Textual graph.toValue := by
  have hedges : Textual (.list (graph.edges.map Edge.toValue)) := by
    refine .list (List.forall_mem_map.2 fun edge _ => .table (by simp) ?_)
    simp [Textual.text, Textual.bool]
  have hcycles : Textual (.list (graph.cycles.map textsValue)) :=
    .list (List.forall_mem_map.2 fun cycle _ => textual_textsValue cycle)
  refine .table (by simp) ?_
  simp [textual_textsValue, hedges, hcycles]

/-- Lists of texts are written differently if they differ. -/
theorem textsValue_injective : Function.Injective textsValue := by
  intro texts others h
  exact List.map_injective_iff.2 (fun a b => Value.text.inj) (Value.list.inj h)

/-- The value of an edge with given fields. -/
def fieldsValue (fields : String × String × String × String × Bool) : Value :=
  .table
    [("from", .text fields.1), ("to", .text fields.2.1), ("type", .text fields.2.2.1),
      ("specifier", .text fields.2.2.2.1), ("external", .bool fields.2.2.2.2)]

/-- Edges are written differently if their fields differ. -/
theorem fieldsValue_injective : Function.Injective fieldsValue := by
  intro fields others h
  simpa [fieldsValue, Prod.ext_iff] using h

/-- Lists of edges are written alike if the edges have the same fields. -/
theorem map_toValue_eq_iff (edges others : List Edge) :
    edges.map Edge.toValue = others.map Edge.toValue ↔
      edges.map Edge.fields = others.map Edge.fields := by
  have hvalue (those : List Edge) :
      those.map Edge.toValue = (those.map Edge.fields).map fieldsValue := by
    rw [List.map_map]
    rfl
  rw [hvalue, hvalue, (List.map_injective_iff.2 fieldsValue_injective).eq_iff]

/-- The value of a graph keeps its nodes, the fields of its edges and its circular dependencies. -/
theorem toValue_eq_iff (graph other : Graph) :
    graph.toValue = other.toValue ↔
      graph.nodes = other.nodes ∧ graph.edges.map Edge.fields = other.edges.map Edge.fields ∧
        graph.cycles = other.cycles := by
  simp [toValue, textsValue_injective.eq_iff, map_toValue_eq_iff,
    (List.map_injective_iff.2 textsValue_injective).eq_iff]

/-- The document of a dependency graph is in ASCII, and reading it gives back the nodes, the edges
with all their fields, and the circular dependencies, each in order.  So graphs with the same
document have the same nodes, edges and circular dependencies. -/
theorem json_document (graph : Graph) :
    (∀ c ∈ graph.json.toList, c.toNat < 0x80) ∧
      parse? graph.json = some (.table
        [("nodes", .list (graph.nodes.map .text)),
          ("edges", .list (graph.edges.map fun edge => .table
            [("from", .text edge.source), ("to", .text edge.target),
              ("type", .text edge.kind.label), ("specifier", .text edge.specifier),
              ("external", .bool edge.external)])),
          ("circularDependencies",
            .list (graph.cycles.map fun cycle => .list (cycle.map .text)))]) ∧
      ∀ other : Graph, graph.json = other.json ↔
        graph.nodes = other.nodes ∧ graph.edges.map Edge.fields = other.edges.map Edge.fields ∧
          graph.cycles = other.cycles := by
  have hparse (graph : Graph) : parse? graph.json = some graph.toValue :=
    parse?_render indented_spaced graph.textual_toValue
  refine ⟨?_, hparse graph, ?_⟩
  · rw [json, render, String.toList_ofList]
    exact graph.textual_toValue.ascii_write indented_spaced 0
  · intro other
    rw [← toValue_eq_iff]
    constructor
    · intro h
      exact Option.some.inj (by rw [← hparse, ← hparse, h])
    · intro h
      rw [json, json, h]

end Graph
end Dependency
end CodeAtlas
