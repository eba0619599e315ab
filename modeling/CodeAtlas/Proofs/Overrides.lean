import CodeAtlas.Settings.Basic
import CodeAtlas.Proofs.CircularDependencies
import Mathlib.Logic.Function.Basic

/-!
# Laws of overrides

Each setting has a shape: a number, a switch, a table of texts or a list of texts.  A table of
overrides is read by shapes that never change, so that what it does can be said entry by entry: the
first entry whose value the shape does not take decides the failure, and otherwise the last entry
for a key decides the setting.

The settings can also be seen as a record of values.  There the kind of the value that is present
decides what becomes of a new one.  Both ways of reading a table agree, since a new value is always
of the kind of the one that it replaces.

Main results:

- Theorem {lit}`map_value_set`: what becomes of one setting.
- Theorem {lit}`map_value_override`: records are overridden as settings are.
- Theorem {lit}`override_eq_error_iff`: the first value that is not taken decides the failure.
- Theorem {lit}`exists_override`: the last entry for a key decides the setting.
- Theorem {lit}`overrides_keep_shapes_and_compose`: the laws of overrides.

Current gaps:

- Whole numbers may have any number of digits, and values may be nested to any depth.  That a
  machine may refuse to write a number of thousands of digits, or run out of stack for the text of
  a value, is left out.
-/

namespace CodeAtlas

/-! ## Tables -/

/-- A table as documents hold it: no key comes twice, in it or in a table that it holds. -/
structure Table.Distinct (table : Table) : Prop where
  keys : (table.map Prod.fst).Nodup
  inner : ∀ key entries, (key, Value.table entries) ∈ table → (entries.map Prod.fst).Nodup

/-- A table updated with the entries of another: known keys keep their places, new ones come
last. -/
def Table.updated (table other : Table) : Table :=
  other.foldl (fun entries entry => putEntry entry.1 entry.2 entries) table

namespace Table

/-- The entries after one more are those of before and the new one. -/
theorem mem_putEntry {key : String} {value : Value} {table : Table} {entry : String × Value}
    (h : entry ∈ putEntry key value table) : entry = (key, value) ∨ entry ∈ table := by
  induction table with
  | nil => exact .inl (List.mem_singleton.1 h)
  | cons first table ih =>
      unfold putEntry at h
      split at h
      · rcases List.mem_cons.1 h with h | h
        · exact .inl h
        · exact .inr (List.mem_cons_of_mem _ h)
      · rcases List.mem_cons.1 h with rfl | h
        · exact .inr List.mem_cons_self
        · rcases ih h with h | h
          · exact .inl h
          · exact .inr (List.mem_cons_of_mem _ h)

theorem nodup_putEntry (key : String) (value : Value) {table : Table}
    (h : (table.map Prod.fst).Nodup) : ((putEntry key value table).map Prod.fst).Nodup := by
  induction table with
  | nil => exact List.nodup_singleton key
  | cons first table ih =>
      rw [List.map_cons, List.nodup_cons] at h
      unfold putEntry
      by_cases hkey : first.1 = key
      · rw [if_pos (beq_iff_eq.2 hkey), List.map_cons, List.nodup_cons]
        exact ⟨hkey ▸ h.1, h.2⟩
      · rw [if_neg (mt beq_iff_eq.1 hkey), List.map_cons, List.nodup_cons]
        refine ⟨?_, ih h.2⟩
        intro hmem
        rcases List.mem_map.1 hmem with ⟨entry, hentry, heq⟩
        rcases mem_putEntry hentry with rfl | hentry
        · exact hkey heq.symm
        · exact h.1 (heq ▸ List.mem_map_of_mem hentry)

theorem mem_updated {table other : Table} {entry : String × Value}
    (h : entry ∈ table.updated other) : entry ∈ table ∨ entry ∈ other := by
  induction other generalizing table with
  | nil => exact .inl h
  | cons first other ih =>
      rcases ih h with h | h
      · rcases mem_putEntry h with rfl | h
        · exact .inr List.mem_cons_self
        · exact .inl h
      · exact .inr (List.mem_cons_of_mem _ h)

theorem nodup_updated {table : Table} (other : Table) (h : (table.map Prod.fst).Nodup) :
    ((table.updated other).map Prod.fst).Nodup := by
  induction other generalizing table with
  | nil => exact h
  | cons first other ih => exact ih (nodup_putEntry first.1 first.2 h)

/-- Where no key comes twice, it does not matter from which end it is looked for. -/
theorem lookup_reverse {table : Table} (h : (table.map Prod.fst).Nodup) (key : String) :
    table.reverse.lookup key = table.lookup key := by
  induction table with
  | nil => rfl
  | cons first table ih =>
      rw [List.map_cons, List.nodup_cons] at h
      rw [List.reverse_cons, List.lookup_append, ih h.2, List.lookup_cons, List.lookup_cons,
        List.lookup_nil]
      by_cases hkey : key = first.1
      · have hnone : table.lookup key = none := by
          rw [List.lookup_eq_none_iff]
          intro entry hentry
          rw [bne_iff_ne]
          rintro rfl
          exact h.1 (hkey ▸ List.mem_map_of_mem hentry)
        rw [hnone, beq_iff_eq.2 hkey]
        rfl
      · have hne : (key == first.1) = false := beq_eq_false_iff_ne.2 hkey
        simp [hne]

/-- In an updated table, the last entry of the update comes before what was there. -/
theorem lookup_updated (table other : Table) (key : String) :
    (table.updated other).lookup key = (other.reverse.lookup key).or (table.lookup key) := by
  induction other generalizing table with
  | nil => rfl
  | cons first other ih =>
      have hupdated : table.updated (first :: other) =
          Table.updated (putEntry first.1 first.2 table) other := rfl
      rw [hupdated, ih, List.reverse_cons, List.lookup_append, Option.or_assoc, lookup_putEntry,
        List.lookup_cons, List.lookup_nil]
      cases key == first.1 <;> rfl

end Table

namespace Settings

/-! ## Shapes -/

/-- The shape of a setting. -/
inductive Shape where
  | number
  | switch
  | table
  | list
  deriving DecidableEq

/-- The shape of the setting with a key. -/
def Key.shape : Key → Shape
  | .tolerantParsing => .switch
  | .pathAliases => .table
  | .skipDirs => .list
  | _ => .number

namespace Shape

/-- Whether a setting takes a value.  A number must be whole and not negative, and a switch takes
everything. -/
def takes : Shape → Value → Bool
  | .number, .int (.ofNat _) => true
  | .switch, _ => true
  | .table, .table _ => true
  | .list, .list _ => true
  | _, _ => false

/-- What a setting makes of a value that it takes. -/
def made : Shape → Value → Value
  | .switch, value => .bool (switchOf value)
  | .table, .table entries => .table (entries.map fun entry => (entry.1, .text entry.2.display))
  | .list, .list items => .list ((items.map Value.display).eraseDups.map .text)
  | _, value => value

/-- What is wrong with a value that a setting does not take. -/
def complaint (label : String) (value : Value) : Shape → InvalidInput
  | .table => .notTable label
  | .list => .notList label
  | _ => .notNatural label value.literal

/-- What a setting has to be, as a complaint says it. -/
def demand (value : Value) : Shape → String
  | .table => "a table"
  | .list => "a list"
  | _ => "a non-negative integer, got " ++ value.literal

/-- The shape of the settings that have a value of this kind. -/
def of? : Value → Option Shape
  | .bool _ => some .switch
  | .int _ => some .number
  | .table _ => some .table
  | .list _ => some .list
  | _ => none

/-- A value that a setting of a shape may have: a natural number, a truth value, a table from texts
to texts without repeated keys, or a list of texts without repeats. -/
def Holds : Shape → Value → Prop
  | .number, value => ∃ n : Nat, value = .int n
  | .switch, value => ∃ b, value = .bool b
  | .table, value => ∃ texts : List (String × String),
      value = .table (texts.map fun entry => (entry.1, .text entry.2)) ∧
        (texts.map Prod.fst).Nodup
  | .list, value => ∃ texts : List String, value = .list (texts.map .text) ∧ texts.Nodup

theorem message_complaint (label : String) (value : Value) (shape : Shape) :
    (shape.complaint label value).message =
      "Setting '" ++ label ++ "' must be " ++ shape.demand value := by
  have hnumber : "' must be a non-negative integer, got " =
      "' must be " ++ "a non-negative integer, got " := by decide
  have htable : "' must be a table" = "' must be " ++ "a table" := by decide
  have hlist : "' must be a list" = "' must be " ++ "a list" := by decide
  cases shape with
  | table =>
      change "Setting '" ++ label ++ "' must be a table" = _
      rw [htable, ← String.append_assoc]
      rfl
  | list =>
      change "Setting '" ++ label ++ "' must be a list" = _
      rw [hlist, ← String.append_assoc]
      rfl
  | _ =>
      change "Setting '" ++ label ++ "' must be a non-negative integer, got " ++ value.literal =
        "Setting '" ++ label ++ "' must be " ++ ("a non-negative integer, got " ++ value.literal)
      rw [hnumber, ← String.append_assoc, ← String.append_assoc]

/-- What a setting makes of a value is of its shape. -/
theorem made_holds {shape : Shape} {value : Value} (htakes : shape.takes value = true)
    (hdistinct : ∀ entries, value = .table entries → (entries.map Prod.fst).Nodup) :
    shape.Holds (shape.made value) := by
  unfold takes at htakes
  split at htakes
  next n => exact ⟨n, rfl⟩
  · exact ⟨_, rfl⟩
  next entries =>
    refine ⟨entries.map fun entry => (entry.1, entry.2.display), ?_, ?_⟩
    · simp [made]
    · simpa [Function.comp_def] using hdistinct entries rfl
  · exact ⟨_, rfl, Dependency.nodup_eraseDups _⟩
  · cases htakes

end Shape

/-! ## Settings as values -/

/-- The value of a setting, as a document would hold it. -/
def value (settings : Settings) : Key → Value
  | .maxComplexity => .int settings.maxComplexity
  | .maxParameters => .int settings.maxParameters
  | .maxFunctionLines => .int settings.maxFunctionLines
  | .maxClassLines => .int settings.maxClassLines
  | .tolerantParsing => .bool settings.tolerantParsing
  | .maxCycles => .int settings.maxCycles
  | .pathAliases => .table (settings.pathAliases.map fun entry => (entry.1, .text entry.2))
  | .skipDirs => .list (settings.skipDirs.map .text)

/-- Settings with the same values are the same. -/
theorem value_injective : Function.Injective value := by
  intro settings other h
  have hat (key : Key) : settings.value key = other.value key := congrFun h key
  have htexts : Function.Injective (Value.text) := fun _ _ => Value.text.inj
  have hentries :
      Function.Injective fun entry : String × String => (entry.1, Value.text entry.2) := by
    rintro ⟨key, text⟩ ⟨key', text'⟩ heq
    cases heq
    rfl
  cases settings
  cases other
  simp only [mk.injEq]
  exact ⟨Int.ofNat.inj (Value.int.inj (hat .maxComplexity)),
    Int.ofNat.inj (Value.int.inj (hat .maxParameters)),
    Int.ofNat.inj (Value.int.inj (hat .maxFunctionLines)),
    Int.ofNat.inj (Value.int.inj (hat .maxClassLines)),
    Value.bool.inj (hat .tolerantParsing),
    Int.ofNat.inj (Value.int.inj (hat .maxCycles)),
    hentries.list_map (Value.table.inj (hat .pathAliases)),
    htexts.list_map (Value.list.inj (hat .skipDirs))⟩

theorem of?_value (settings : Settings) (key : Key) :
    Shape.of? (settings.value key) = some key.shape := by
  cases key <;> rfl

theorem Key.ofLabel?_eq_some_iff {label : String} {key : Key} :
    ofLabel? label = some key ↔ key.label = label := by
  constructor
  · intro h
    simpa using List.find?_some h
  · rintro rfl
    cases key <;> decide

/-! ## One setting -/

/-- A whole setting is changed to a natural number, or refuses what is none. -/
theorem map_value_naturalOf {settings : Settings} {key : Key} {write : Nat → Settings}
    (hshape : key.shape = .number)
    (hwrite : ∀ n, (write n).value = Function.update settings.value key (.int n)) (new : Value) :
    ((naturalOf key new).map write).map value =
      if key.shape.takes new then .ok (Function.update settings.value key (key.shape.made new))
      else .error (key.shape.complaint key.label new) := by
  rw [hshape]
  cases new with
  | int n =>
      cases n with
      | ofNat n => exact congrArg Except.ok (hwrite n)
      | negSucc n => rfl
  | _ => rfl

/-- A setting takes the values of its shape and refuses all others; the other settings stay. -/
theorem map_value_set (settings : Settings) (key : Key) (new : Value) :
    (settings.set key new).map value =
      if key.shape.takes new then .ok (Function.update settings.value key (key.shape.made new))
      else .error (key.shape.complaint key.label new) := by
  cases key with
  | tolerantParsing =>
      refine congrArg Except.ok (funext fun other => ?_)
      cases other <;> rfl
  | pathAliases =>
      cases new with
      | table entries =>
          refine congrArg Except.ok (funext fun other => ?_)
          cases other <;> simp [value, Function.update, Shape.made, Key.shape]
      | _ => rfl
  | skipDirs =>
      cases new with
      | list items =>
          refine congrArg Except.ok (funext fun other => ?_)
          cases other <;> rfl
      | _ => rfl
  | _ =>
      refine map_value_naturalOf rfl (fun n => funext fun other => ?_) new
      cases other <;> rfl

theorem exists_set_of_takes (settings : Settings) {key : Key} {new : Value}
    (h : key.shape.takes new = true) :
    ∃ result, settings.set key new = .ok result ∧
      result.value = Function.update settings.value key (key.shape.made new) := by
  have hset := map_value_set settings key new
  rw [if_pos h] at hset
  cases hresult : settings.set key new with
  | error cause =>
      rw [hresult] at hset
      cases hset
  | ok result =>
      rw [hresult] at hset
      exact ⟨result, rfl, Except.ok.inj hset⟩

theorem set_of_not_takes (settings : Settings) {key : Key} {new : Value}
    (h : key.shape.takes new = false) :
    settings.set key new = .error (key.shape.complaint key.label new) := by
  have hset := map_value_set settings key new
  rw [h] at hset
  cases hresult : settings.set key new with
  | error cause =>
      rw [hresult] at hset
      exact congrArg Except.error (Except.error.inj hset)
  | ok result =>
      rw [hresult] at hset
      cases hset

/-- What is wrong with an entry of a table of overrides, if anything is. -/
def refusal? (entry : String × Value) : Option InvalidInput :=
  match Key.ofLabel? entry.1 with
  | some key =>
    if key.shape.takes entry.2 then none else some (key.shape.complaint key.label entry.2)
  | none => none

theorem refusal?_label (key : Key) (new : Value) :
    refusal? (key.label, new) =
      if key.shape.takes new then none else some (key.shape.complaint key.label new) := by
  rw [refusal?, Key.ofLabel?_eq_some_iff.2 rfl]

theorem refusal?_eq_some_iff {entry : String × Value} {cause : InvalidInput} :
    refusal? entry = some cause ↔
      ∃ key : Key, key.label = entry.1 ∧ key.shape.takes entry.2 = false ∧
        key.shape.complaint key.label entry.2 = cause := by
  cases hkey : Key.ofLabel? entry.1 with
  | none =>
      simp only [refusal?, hkey, reduceCtorEq, false_iff]
      rintro ⟨key, hlabel, -⟩
      rw [Key.ofLabel?_eq_some_iff.2 hlabel] at hkey
      cases hkey
  | some key =>
      have hlabel := Key.ofLabel?_eq_some_iff.1 hkey
      constructor
      · intro h
        simp only [refusal?, hkey] at h
        split at h
        · cases h
        next hnot => exact ⟨key, hlabel, Bool.not_eq_true _ ▸ hnot, Option.some.inj h⟩
      · rintro ⟨other, hother, hnot, rfl⟩
        have hsame : key = other := by
          rw [← hother, Key.ofLabel?_eq_some_iff.2 rfl] at hkey
          exact (Option.some.inj hkey).symm
        simp [refusal?, hkey, hsame, hnot]

/-- An entry is refused, or it changes the setting with its key and no other. -/
theorem applyEntry_cases (settings : Settings) (entry : String × Value) :
    (∃ cause, refusal? entry = some cause ∧ settings.applyEntry entry = .error cause) ∨
      refusal? entry = none ∧ ∃ result, settings.applyEntry entry = .ok result ∧
        ∀ key, result.value key =
          if key.label = entry.1 then key.shape.made entry.2 else settings.value key := by
  rw [refusal?, applyEntry]
  cases hkey : Key.ofLabel? entry.1 with
  | none =>
      right
      refine ⟨rfl, settings, rfl, ?_⟩
      intro key
      rw [if_neg]
      intro hlabel
      rw [Key.ofLabel?_eq_some_iff.2 hlabel] at hkey
      cases hkey
  | some key =>
      dsimp only
      cases htakes : key.shape.takes entry.2 with
      | false =>
          left
          exact ⟨_, rfl, set_of_not_takes settings htakes⟩
      | true =>
          right
          rcases exists_set_of_takes settings htakes with ⟨result, hset, hvalue⟩
          refine ⟨rfl, result, hset, ?_⟩
          intro other
          have hlabel : other.label = entry.1 ↔ other = key := by
            rw [← Key.ofLabel?_eq_some_iff, hkey, Option.some.injEq, eq_comm]
          rw [hvalue]
          by_cases hsame : other = key
          · rw [if_pos (hlabel.2 hsame), hsame, Function.update_self]
          · rw [if_neg (mt hlabel.1 hsame), Function.update_of_ne hsame]

/-! ## Tables of overrides -/

theorem override_cons (settings : Settings) (entry : String × Value) (table : Table) :
    settings.override (entry :: table) =
      (settings.applyEntry entry).bind fun changed => changed.override table :=
  List.foldlM_cons

/-- A table is refused exactly if one of its entries is, and the first of these decides why. -/
theorem override_eq_error_iff {settings : Settings} {table : Table} {cause : InvalidInput} :
    settings.override table = .error cause ↔ table.findSome? refusal? = some cause := by
  induction table generalizing settings with
  | nil =>
      constructor
      · intro h
        cases h
      · intro h
        cases h
  | cons entry table ih =>
      rw [override_cons, List.findSome?_cons]
      rcases applyEntry_cases settings entry with ⟨first, hrefusal, happly⟩ |
        ⟨hnone, result, happly, -⟩
      · rw [hrefusal, happly]
        simp [Except.bind]
      · rw [hnone, happly]
        exact ih

/-- A table that is not refused changes the settings it names, each to what the last entry for it
gives. -/
theorem exists_override (settings : Settings) {table : Table}
    (h : table.findSome? refusal? = none) :
    ∃ result, settings.override table = .ok result ∧
      ∀ key, result.value key =
        ((table.reverse.lookup key.label).map key.shape.made).getD (settings.value key) := by
  induction table generalizing settings with
  | nil => exact ⟨settings, rfl, fun key => rfl⟩
  | cons entry table ih =>
      rw [List.findSome?_cons] at h
      rcases applyEntry_cases settings entry with ⟨first, hrefusal, -⟩ |
        ⟨hnone, changed, happly, hchanged⟩
      · rw [hrefusal] at h
        cases h
      · rw [hnone] at h
        rcases ih changed h with ⟨result, hresult, hvalue⟩
        refine ⟨result, ?_, ?_⟩
        · rw [override_cons, happly]
          exact hresult
        · intro key
          rw [hvalue, hchanged, List.reverse_cons, List.lookup_append, List.lookup_cons,
            List.lookup_nil]
          cases table.reverse.lookup key.label with
          | some new => rfl
          | none =>
              by_cases hkey : key.label = entry.1
              · simp [hkey]
              · have hne : (key.label == entry.1) = false := beq_eq_false_iff_ne.2 hkey
                simp [hkey, hne]

/-- What a table does that is applied without failure. -/
theorem value_of_override {settings result : Settings} {table : Table}
    (h : settings.override table = .ok result) :
    table.findSome? refusal? = none ∧
      ∀ key, result.value key =
        ((table.reverse.lookup key.label).map key.shape.made).getD (settings.value key) := by
  have hnone : table.findSome? refusal? = none := by
    rw [Option.eq_none_iff_forall_ne_some]
    intro cause hcause
    rw [override_eq_error_iff.2 hcause] at h
    cases h
  rcases exists_override settings hnone with ⟨other, hother, hvalue⟩
  rw [hother] at h
  cases h
  exact ⟨hnone, hvalue⟩

/-- Applying one table and then another is applying the first updated with the second. -/
theorem override_updated {settings middle last : Settings} {first second : Table}
    (hkeys : (first.map Prod.fst).Nodup) (hfirst : settings.override first = .ok middle)
    (hsecond : middle.override second = .ok last) :
    settings.override (first.updated second) = .ok last := by
  rcases value_of_override hfirst with ⟨hnone, hmiddle⟩
  rcases value_of_override hsecond with ⟨hnone', hlast⟩
  have hupdated : (first.updated second).findSome? refusal? = none := by
    rw [List.findSome?_eq_none_iff] at hnone hnone' ⊢
    intro entry hentry
    rcases Table.mem_updated hentry with hentry | hentry
    · exact hnone entry hentry
    · exact hnone' entry hentry
  rcases exists_override settings hupdated with ⟨result, hresult, hvalue⟩
  rw [hresult]
  refine congrArg Except.ok (value_injective (funext fun key => ?_))
  rw [hvalue, hlast, hmiddle, Table.lookup_reverse (Table.nodup_updated second hkeys),
    Table.lookup_updated, Table.lookup_reverse hkeys]
  cases second.reverse.lookup key.label <;> rfl

/-- Entries without a known key have no effect. -/
theorem override_filter_known (settings : Settings) (table : Table) :
    settings.override (table.filter fun entry => (Key.ofLabel? entry.1).isSome) =
      settings.override table := by
  induction table generalizing settings with
  | nil => rfl
  | cons entry table ih =>
      rw [List.filter_cons]
      cases hkey : Key.ofLabel? entry.1 with
      | none =>
          rw [if_neg (by simp), ih, override_cons, applyEntry, hkey]
          rfl
      | some key =>
          rw [if_pos (by simp), override_cons, override_cons]
          exact congrArg _ (funext fun changed => ih changed)

/-! ## Records -/

/-- What becomes of a new value where another one is present: its kind decides. -/
def replaced (label : String) (present new : Value) : Except InvalidInput Value :=
  match Shape.of? present with
  | some shape =>
    if shape.takes new then .ok (shape.made new) else .error (shape.complaint label new)
  | none => .ok new

/-- Settings as a record of values. -/
abbrev Record := Key → Value

/-- A record with one entry of a table applied, where the values of `record` are present. -/
def Record.applyEntry (record changed : Record) (entry : String × Value) :
    Except InvalidInput Record :=
  match Key.ofLabel? entry.1 with
  | some key => (replaced key.label (record key) entry.2).map (Function.update changed key)
  | none => .ok changed

/-- A record with a table of overrides applied. -/
def Record.override (record : Record) (overrides : Table) : Except InvalidInput Record :=
  overrides.foldlM record.applyEntry record

/-- An entry changes the values of settings as it changes the settings. -/
theorem map_value_applyEntry (settings changed : Settings) (entry : String × Value) :
    (changed.applyEntry entry).map value =
      Record.applyEntry settings.value changed.value entry := by
  rw [applyEntry, Record.applyEntry]
  cases Key.ofLabel? entry.1 with
  | none => rfl
  | some key =>
      dsimp only
      rw [map_value_set, replaced, of?_value]
      by_cases htakes : key.shape.takes entry.2 = true
      · simp [htakes, Except.map]
      · simp [htakes, Except.map]

/-- Records are overridden as settings are. -/
theorem map_value_override (settings : Settings) (table : Table) :
    (settings.override table).map value = Record.override settings.value table := by
  have hfrom (changed : Settings) :
      (changed.override table).map value =
        table.foldlM (Record.applyEntry settings.value) changed.value := by
    induction table generalizing changed with
    | nil => rfl
    | cons entry table ih =>
        rw [override_cons, List.foldlM_cons, ← map_value_applyEntry settings]
        cases changed.applyEntry entry with
        | error cause => rfl
        | ok next => exact ih next
  exact hfrom settings

/-- Records are overridden as settings are, by any number of tables. -/
theorem map_value_foldlM (settings : Settings) (tables : List Table) :
    (tables.foldlM override settings).map value = tables.foldlM Record.override settings.value := by
  induction tables generalizing settings with
  | nil => rfl
  | cons table tables ih =>
      rw [List.foldlM_cons, List.foldlM_cons, ← map_value_override]
      cases settings.override table with
      | error cause => rfl
      | ok next => exact ih next

/-! ## Settings that are reached -/

theorem default_holds (key : Key) : key.shape.Holds (default.value key) := by
  cases key with
  | tolerantParsing => exact ⟨_, rfl⟩
  | pathAliases => exact ⟨default.pathAliases, rfl, by decide⟩
  | skipDirs => exact ⟨default.skipDirs, rfl, by decide⟩
  | _ => exact ⟨_, rfl⟩

/-- A table leaves every setting in its shape. -/
theorem holds_of_override {settings result : Settings} {table : Table} (hdistinct : table.Distinct)
    (hsettings : ∀ key : Key, key.shape.Holds (settings.value key))
    (h : settings.override table = .ok result) (key : Key) :
    key.shape.Holds (result.value key) := by
  rcases value_of_override h with ⟨hnone, hvalue⟩
  rw [hvalue]
  cases hfound : table.reverse.lookup key.label with
  | none => exact hsettings key
  | some new =>
      have hmem : (key.label, new) ∈ table := by
        rcases List.lookup_eq_some_iff.1 hfound with ⟨before, after, hsplit, -⟩
        rw [← List.mem_reverse, hsplit]
        exact List.mem_append_right _ List.mem_cons_self
      have htaken := List.findSome?_eq_none_iff.1 hnone _ hmem
      rw [refusal?_label, ite_eq_left_iff] at htaken
      refine Shape.made_holds ?_ ?_
      · by_contra hnot
        cases htaken hnot
      · rintro entries rfl
        exact hdistinct.inner key.label entries hmem

/-- Tables leave every setting in its shape. -/
theorem holds_of_foldlM {settings result : Settings} {tables : List Table}
    (hdistinct : ∀ table ∈ tables, table.Distinct)
    (hsettings : ∀ key : Key, key.shape.Holds (settings.value key))
    (h : tables.foldlM override settings = .ok result) (key : Key) :
    key.shape.Holds (result.value key) := by
  induction tables generalizing settings with
  | nil =>
      cases h
      exact hsettings key
  | cons table tables ih =>
      rw [List.foldlM_cons] at h
      cases hnext : settings.override table with
      | error cause =>
          rw [hnext] at h
          cases h
      | ok next =>
          rw [hnext] at h
          refine ih (fun other hmem => hdistinct other (List.mem_cons_of_mem _ hmem)) ?_ h
          exact holds_of_override (hdistinct table List.mem_cons_self) hsettings hnext

/-- A table is refused exactly if it gives a setting a value that its shape does not take. -/
theorem exists_error_iff {settings : Settings} {table : Table} :
    (∃ cause, settings.override table = .error cause) ↔
      ∃ (key : Key) (new : Value), (key.label, new) ∈ table ∧ key.shape.takes new = false := by
  constructor
  · rintro ⟨cause, hcause⟩
    rcases List.exists_of_findSome?_eq_some (override_eq_error_iff.1 hcause) with
      ⟨⟨label, new⟩, hmem, hrefusal⟩
    rcases refusal?_eq_some_iff.1 hrefusal with ⟨key, rfl, hnot, -⟩
    exact ⟨key, new, hmem, hnot⟩
  · rintro ⟨key, new, hmem, hnot⟩
    cases hfirst : table.findSome? refusal? with
    | some cause => exact ⟨cause, override_eq_error_iff.2 hfirst⟩
    | none =>
        have htaken := List.findSome?_eq_none_iff.1 hfirst _ hmem
        rw [refusal?_label, hnot] at htaken
        cases htaken

/-- The first value that a setting does not take is the one that is complained about. -/
theorem override_eq_error_of_first {settings : Settings} {before after : Table} {key : Key}
    {new : Value}
    (hbefore : ∀ (earlier : Key) (taken : Value), (earlier.label, taken) ∈ before →
      earlier.shape.takes taken = true)
    (hnot : key.shape.takes new = false) :
    settings.override (before ++ (key.label, new) :: after) =
      .error (key.shape.complaint key.label new) := by
  rw [override_eq_error_iff, List.findSome?_eq_some_iff]
  refine ⟨before, (key.label, new), after, rfl, ?_, ?_⟩
  · rw [refusal?_label, hnot]
    rfl
  · rintro ⟨label, taken⟩ hmem
    rw [Option.eq_none_iff_forall_ne_some]
    intro cause hcause
    rcases refusal?_eq_some_iff.1 hcause with ⟨earlier, rfl, hrefused, -⟩
    rw [hbefore earlier taken hmem] at hrefused
    cases hrefused

/-- The laws of overrides.

Whatever tables are applied to the default settings, one after the other, it comes to the same
whether the kinds of the present values or the fixed shapes decide, and every setting that is
reached has a value of its shape.

A table is refused exactly if it gives a setting a value that its shape does not take, and the
first such entry decides the message.  If one table and then another can be applied, the first
updated with the second does the same, and entries without a known key have no effect. -/
theorem overrides_keep_shapes_and_compose :
    (∀ tables : List Table, (∀ table ∈ tables, table.Distinct) →
      tables.foldlM Record.override default.value = (tables.foldlM override default).map value ∧
        ∀ settings, tables.foldlM override default = .ok settings →
          ∀ key : Key, key.shape.Holds (settings.value key)) ∧
      (∀ (settings : Settings) (table : Table),
        ((∃ cause, settings.override table = .error cause) ↔
          ∃ (key : Key) (new : Value), (key.label, new) ∈ table ∧ key.shape.takes new = false) ∧
        ∀ (before after : Table) (key : Key) (new : Value),
          table = before ++ (key.label, new) :: after →
          (∀ (earlier : Key) (taken : Value), (earlier.label, taken) ∈ before →
            earlier.shape.takes taken = true) →
          key.shape.takes new = false →
          ∃ cause, settings.override table = .error cause ∧
            cause.message = "Setting '" ++ key.label ++ "' must be " ++ key.shape.demand new) ∧
      (∀ (settings middle last : Settings) (first second : Table), first.Distinct →
        settings.override first = .ok middle → middle.override second = .ok last →
        settings.override (first.updated second) = .ok last) ∧
      ∀ (settings : Settings) (table : Table),
        settings.override (table.filter fun entry => (Key.ofLabel? entry.1).isSome) =
          settings.override table := by
  refine ⟨?_, ?_, ?_, override_filter_known⟩
  · intro tables hdistinct
    exact ⟨(map_value_foldlM default tables).symm,
      fun settings h => holds_of_foldlM hdistinct default_holds h⟩
  · intro settings table
    refine ⟨exists_error_iff, ?_⟩
    rintro before after key new rfl hbefore hnot
    exact ⟨_, override_eq_error_of_first hbefore hnot, Shape.message_complaint _ _ _⟩
  · intro settings middle last first second hdistinct hfirst hsecond
    exact override_updated hdistinct.keys hfirst hsecond

/-- A table of overrides with a key that is not known. -/
def patience : Table :=
  [("max_cycles", .int 3), ("colour", .text "red"), ("path_aliases", .table [("~/", .int 1)])]

theorem patience_distinct : patience.Distinct where
  keys := by decide
  inner := by
    intro key entries hmem
    simp only [patience, List.mem_cons, Prod.mk.injEq, Value.table.injEq, reduceCtorEq, and_false,
      List.not_mem_nil, or_false, false_or] at hmem
    rw [hmem.2]
    decide

/-- One table after another, the two as one, and a table that a truth value spoils. -/
theorem overrides_keep_shapes_and_compose_patience :
    default.override (patience.updated [("max_cycles", .int 5), ("tolerant_parsing", .int 1)]) =
        .ok { default with
          maxCycles := 5, tolerantParsing := true, pathAliases := [("~/", "1")] } ∧
      (∀ settings, default.override patience = .ok settings →
        ∀ key : Key, key.shape.Holds (settings.value key)) ∧
      ∃ cause, default.override (patience ++ [("max_parameters", .bool true)]) = .error cause ∧
        cause.message = "Setting 'max_parameters' must be a non-negative integer, got True" := by
  have hlaws := overrides_keep_shapes_and_compose
  refine ⟨?_, ?_, ?_⟩
  · exact hlaws.2.2.1 default { default with maxCycles := 3, pathAliases := [("~/", "1")] } _
      patience _ patience_distinct (by decide) (by decide)
  · intro settings h
    refine (hlaws.1 [patience] ?_).2 settings ?_
    · intro table hmem
      rw [List.mem_singleton.1 hmem]
      exact patience_distinct
    · rw [List.foldlM_cons, h]
      rfl
  · refine (hlaws.2.1 default (patience ++ [("max_parameters", .bool true)])).2 patience []
      .maxParameters (.bool true) rfl ?_ rfl
    intro earlier taken hmem
    simp only [patience, List.mem_cons, Prod.mk.injEq, List.not_mem_nil, or_false] at hmem
    rcases hmem with ⟨hlabel, rfl⟩ | ⟨hlabel, rfl⟩ | ⟨hlabel, rfl⟩
    · revert hlabel
      cases earlier <;> decide
    · revert hlabel
      cases earlier <;> decide
    · revert hlabel
      cases earlier <;> decide

end Settings
end CodeAtlas
