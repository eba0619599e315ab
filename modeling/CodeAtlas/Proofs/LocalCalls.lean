import CodeAtlas.Proofs.FileOrder
import CodeAtlas.Proofs.MethodCalls

/-!
# Calls inside a file

A call means an entity of the caller's own file wherever that file has one to offer.  A bare name
is looked for in the scopes around the caller, from the innermost outwards, and then by itself; a
call on the receiver is looked for in the class; any other name is looked for as it stands.  What
other files define decides only about calls that the own file leaves open.

Main results:

- Theorem {lit}`QualifiedName.mem_enclosingNames_iff`: the names that are tried as scopes are those
  that the name of the caller starts with.
- Theorem {lit}`Resolver.localTarget?_eq_some_iff`: what a call means in its own file.
- Theorem {lit}`Resolver.own_file_decides_first`: other files matter only where the own file is
  silent, and then only a single entity of the name is called.
-/

namespace CodeAtlas

/-! ## Enclosing names -/

namespace QualifiedName

open CodeAtlas.Call.Resolver

/-- A scope encloses a name: it is the whole name, or all that stands before one of its dots. -/
def Encloses (scope name : String) : Prop := name = scope ∨ ∃ rest, name = within scope rest

/-- A joined text goes on with a separator after the first of its parts. -/
theorem intercalate_eq_take_append (parts : List (List Char)) {count : Nat} (hpos : 0 < count)
    (hcount : count < parts.length) :
    ['.'].intercalate parts =
      ['.'].intercalate (parts.take count) ++ '.' :: ['.'].intercalate (parts.drop count) := by
  have htake : parts.take count ≠ [] := by
    rw [← List.length_pos_iff, List.length_take]
    omega
  have hdrop : parts.drop count ≠ [] := by
    rw [← List.length_pos_iff, List.length_drop]
    omega
  rw [← Text.intercalate_append '.' htake hdrop, List.take_append_drop]

/-- The names that are tried as scopes are those that enclose the name. -/
theorem mem_enclosingNames_iff (scope name : String) :
    scope ∈ enclosingNames name ↔ Encloses scope name := by
  have hname := Text.intercalate_segments '.' name.toList
  simp only [enclosingNames, List.mem_map, List.mem_range]
  constructor
  · rintro ⟨dropped, hdropped, rfl⟩
    by_cases hall : dropped = 0
    · left
      simp [hall, hname]
    · right
      rw [intercalate_eq_take_append _ (Nat.sub_pos_of_lt hdropped) (by omega)] at hname
      refine ⟨String.ofList (['.'].intercalate ((Text.segments '.' name.toList).drop
        ((Text.segments '.' name.toList).length - dropped))), ?_⟩
      apply String.toList_injective
      simpa [within] using hname.symm
  · rintro (rfl | ⟨rest, rfl⟩)
    · refine ⟨0, List.length_pos_iff.2 (Text.segments_ne_nil _ _), ?_⟩
      simp [hname]
    · have hsegments : Text.segments '.' (within scope rest).toList =
          Text.segments '.' scope.toList ++ Text.segments '.' rest.toList := by
        simpa [within] using Text.segments_append_cons '.' scope.toList rest.toList
      have hpos : 0 < (Text.segments '.' scope.toList).length :=
        List.length_pos_iff.2 (Text.segments_ne_nil _ _)
      refine ⟨(Text.segments '.' rest.toList).length, ?_, ?_⟩
      · simp [hsegments, hpos]
      · simp [hsegments, Text.intercalate_segments]

/-- Enclosing names are tried from the longest to the shortest. -/
theorem enclosingNames_falling (name : String) :
    (enclosingNames name).Pairwise fun inner outer => outer.length < inner.length := by
  rw [enclosingNames, List.pairwise_map]
  apply List.pairwise_lt_range.imp_of_mem
  intro i j _ hj hij
  have hj := List.mem_range.1 hj
  -- the longer name goes on after the shorter one with a dot
  have hlonger := intercalate_eq_take_append
    ((Text.segments '.' name.toList).take ((Text.segments '.' name.toList).length - i))
    (Nat.sub_pos_of_lt hj) (by rw [List.length_take]; omega)
  rw [List.take_take, Nat.min_eq_left (by omega)] at hlonger
  simp only [String.length_ofList, hlonger, List.length_append, List.length_cons]
  omega

end QualifiedName

/-- Among candidates of falling size, the first one that leads to something is the largest that
does. -/
theorem findSome?_eq_some_iff_of_falling {α β : Type} {size : α → Nat} {candidates : List α}
    (hfalling : candidates.Pairwise fun a b => size b < size a) (f : α → Option β) (found : β) :
    candidates.findSome? f = some found ↔
      ∃ a ∈ candidates, f a = some found ∧ ∀ b ∈ candidates, size a < size b → f b = none := by
  constructor
  · intro h
    rcases List.findSome?_eq_some_iff.1 h with ⟨before, a, after, rfl, ha, hbefore⟩
    refine ⟨a, by simp, ha, ?_⟩
    intro b hb hlarger
    rcases List.mem_append.1 hb with hb | hb
    · exact hbefore b hb
    · rcases List.mem_cons.1 hb with rfl | hb
      · omega
      · have hsmaller := List.rel_of_pairwise_cons (List.pairwise_append.1 hfalling).2.1 hb
        omega
  · rintro ⟨a, ha, hfound, hlarger⟩
    rcases List.append_of_mem ha with ⟨before, after, rfl⟩
    refine List.findSome?_eq_some_iff.2 ⟨before, a, after, rfl, hfound, ?_⟩
    intro b hb
    exact hlarger b (by simp [hb]) ((List.pairwise_append.1 hfalling).2.2 b hb a (by simp))

namespace Call

open CodeAtlas.QualifiedName

namespace Resolver

/-! ## What a file defines -/

/-- A file defines a name. -/
def Defines (resolver : Resolver) (file name : String) : Prop :=
  ∃ entity ∈ resolver.entities, entity.1.file = file ∧ entity.1.name = name

/-- An entity is the first that a file defines under a name. -/
def FirstDefined (resolver : Resolver) (file name : String) (ref : EntityRef) : Prop :=
  ref.file = file ∧ ref.name = name ∧ ∃ before kind after,
    resolver.entities = before ++ (ref, kind) :: after ∧
      ∀ entity ∈ before, ¬(entity.1.file = file ∧ entity.1.name = name)

/-- A scope around a caller: a function or a method of the caller's file whose name encloses that
of the caller. -/
def HasScope (resolver : Resolver) (caller : EntityRef) (scope : String) : Prop :=
  Encloses scope caller.name ∧ ∃ entity ∈ resolver.entities,
    entity.1.file = caller.file ∧ entity.1.name = scope ∧
      (entity.2 = .function ∨ entity.2 = .method)

theorem inFile?_eq_some_iff (resolver : Resolver) (file name : String) (ref : EntityRef) :
    resolver.inFile? file name = some ref ↔ resolver.FirstDefined file name ref := by
  rw [inFile?, Option.map_eq_some_iff]
  constructor
  · rintro ⟨entity, hfind, rfl⟩
    rcases List.find?_eq_some_iff_append.1 hfind with ⟨htest, before, after, hsplit, hbefore⟩
    simp only [Bool.and_eq_true, beq_iff_eq] at htest
    refine ⟨htest.1, htest.2, before, entity.2, after, hsplit, ?_⟩
    simpa [imp_iff_not_or] using hbefore
  · rintro ⟨hfile, hname, before, kind, after, hsplit, hbefore⟩
    refine ⟨(ref, kind), List.find?_eq_some_iff_append.2 ⟨?_, before, after, hsplit, ?_⟩, rfl⟩
    · simp [hfile, hname]
    · simpa [imp_iff_not_or] using hbefore

theorem inFile?_eq_none_iff (resolver : Resolver) (file name : String) :
    resolver.inFile? file name = none ↔ ¬resolver.Defines file name := by
  simp [inFile?, Defines]

theorem mem_scopes_iff (resolver : Resolver) (caller : EntityRef) (scope : String) :
    scope ∈ (enclosingNames caller.name).filter (resolver.isScope caller.file) ↔
      resolver.HasScope caller scope := by
  rw [List.mem_filter, mem_enclosingNames_iff, HasScope, isScope, List.any_eq_true]
  simp only [EntityKind.isCallable, Bool.and_eq_true, Bool.or_eq_true, beq_iff_eq, and_assoc,
    and_left_comm, and_comm]

/-! ## What a call means -/

/-- What a call means in the caller's own file. -/
inductive MeansLocally (resolver : Resolver) (caller : EntityRef) :
    Option String → String → EntityRef → Prop where
  /-- A call on the receiver means the member of the caller's class, and nothing else. -/
  | onReceiver {className raw member : String} {ref : EntityRef} (hraw : raw = within "this" member)
      (hmember : isDotted member = false) (hclass : className ≠ "")
      (hfirst : resolver.FirstDefined caller.file (within className member) ref) :
      MeansLocally resolver caller (some className) raw ref
  /-- A bare name means what the innermost scope around the caller defines that does so. -/
  | inScope {className : Option String} {raw scope : String} {ref : EntityRef}
      (hbare : isDotted raw = false) (hscope : resolver.HasScope caller scope)
      (hfirst : resolver.FirstDefined caller.file (within scope raw) ref)
      (hinner : ∀ inner, resolver.HasScope caller inner → scope.length < inner.length →
        ¬resolver.Defines caller.file (within inner raw)) :
      MeansLocally resolver caller className raw ref
  /-- A bare name that no scope defines means the entity of that name. -/
  | bare {className : Option String} {raw : String} {ref : EntityRef}
      (hbare : isDotted raw = false)
      (hscopes : ∀ scope, resolver.HasScope caller scope →
        ¬resolver.Defines caller.file (within scope raw))
      (hfirst : resolver.FirstDefined caller.file raw ref) :
      MeansLocally resolver caller className raw ref
  /-- Any other name means the entity of that name. -/
  | dotted {className : Option String} {raw : String} {ref : EntityRef}
      (hdotted : isDotted raw = true)
      (hother : ∀ member, raw = within "this" member → isDotted member = true)
      (hfirst : resolver.FirstDefined caller.file raw ref) :
      MeansLocally resolver caller className raw ref

/-- A call on the receiver names a member without dots. -/
theorem onReceiver?_eq_some_iff (raw member : String) :
    onReceiver? raw = some member ↔ raw = within "this" member ∧ isDotted member = false := by
  unfold onReceiver?
  dsimp only
  constructor
  · intro h
    split at h
    · rename_i htest
      simp only [Bool.and_eq_true, List.isPrefixOf_iff_prefix, beq_iff_eq] at htest
      rcases htest with ⟨⟨rest, hrest⟩, hcount⟩
      rw [← hrest] at h hcount
      have hdrop : rest = member.toList := by simpa using congrArg (Option.map String.toList) h
      subst hdrop
      constructor
      · apply String.toList_injective
        simpa [within] using hrest.symm
      · simpa [isDotted, List.count_eq_zero] using hcount
    · cases h
  · rintro ⟨rfl, hmember⟩
    have hcount : member.toList.count '.' = 0 := by
      apply List.count_eq_zero.2
      simpa [isDotted] using hmember
    simp [within, hcount]

theorem onReceiver?_eq_none_iff (raw : String) :
    onReceiver? raw = none ↔ ∀ member, raw = within "this" member → isDotted member = true := by
  simp only [Option.eq_none_iff_forall_ne_some, ne_eq, onReceiver?_eq_some_iff, not_and,
    Bool.not_eq_false]

section LocalTargets

variable {resolver : Resolver} {caller : EntityRef} {className : Option String} {raw : String}
  {ref : EntityRef}

/-- A call on the receiver is looked for in the class of the caller. -/
theorem localTarget?_receiver_iff {member : String} (hraw : raw = within "this" member)
    (hmember : isDotted member = false) :
    resolver.localTarget? caller className raw = some ref ↔
      ∃ scope, className = some scope ∧ scope ≠ "" ∧
        resolver.FirstDefined caller.file (within scope member) ref := by
  rw [localTarget?, localNames, (onReceiver?_eq_some_iff raw member).2 ⟨hraw, hmember⟩]
  cases className with
  | none => simp
  | some scope =>
      by_cases hempty : scope = ""
      · simp [hempty]
      · simp [hempty, inFile?_eq_some_iff]

/-- A dotted name that is no call on the receiver is looked for as it stands. -/
theorem localTarget?_dotted_iff (hdotted : isDotted raw = true)
    (hother : ∀ member, raw = within "this" member → isDotted member = true) :
    resolver.localTarget? caller className raw = some ref ↔
      resolver.FirstDefined caller.file raw ref := by
  have hreceiver := (onReceiver?_eq_none_iff raw).2 hother
  simp [localTarget?, localNames, hreceiver, hdotted, inFile?_eq_some_iff]

/-- A bare name is looked for in the scopes around the caller, from the innermost on, and then by
itself. -/
theorem localTarget?_bare_iff (hbare : isDotted raw = false) :
    resolver.localTarget? caller className raw = some ref ↔
      (∃ scope, resolver.HasScope caller scope ∧
        resolver.FirstDefined caller.file (within scope raw) ref ∧
        ∀ inner, resolver.HasScope caller inner → scope.length < inner.length →
          ¬resolver.Defines caller.file (within inner raw)) ∨
      (∀ scope, resolver.HasScope caller scope →
        ¬resolver.Defines caller.file (within scope raw)) ∧
        resolver.FirstDefined caller.file raw ref := by
  have hreceiver : onReceiver? raw = none := by
    apply (onReceiver?_eq_none_iff raw).2
    rintro member rfl
    simp at hbare
  have hfalling := (enclosingNames_falling caller.name).filter (resolver.isScope caller.file)
  rw [localTarget?, localNames, hreceiver]
  simp only [hbare, Bool.false_eq_true, if_false, List.findSome?_append, List.findSome?_map,
    List.findSome?_singleton, Option.or_eq_some_iff, List.findSome?_eq_none_iff,
    Function.comp_apply, findSome?_eq_some_iff_of_falling hfalling, mem_scopes_iff,
    inFile?_eq_some_iff, inFile?_eq_none_iff]

end LocalTargets

/-- What is found for a call in the caller's own file is what the call means there. -/
theorem localTarget?_eq_some_iff (resolver : Resolver) (caller : EntityRef)
    (className : Option String) (raw : String) (ref : EntityRef) :
    resolver.localTarget? caller className raw = some ref ↔
      resolver.MeansLocally caller className raw ref := by
  constructor
  · intro h
    cases hdotted : isDotted raw with
    | false =>
        rcases (localTarget?_bare_iff hdotted).1 h with ⟨scope, hscope, hfirst, hinner⟩ | hrest
        · exact .inScope hdotted hscope hfirst hinner
        · exact .bare hdotted hrest.1 hrest.2
    | true =>
        by_cases hreceiver : ∃ member, raw = within "this" member ∧ isDotted member = false
        · rcases hreceiver with ⟨member, hraw, hmember⟩
          rcases (localTarget?_receiver_iff hraw hmember).1 h with ⟨scope, rfl, hclass, hfirst⟩
          exact .onReceiver hraw hmember hclass hfirst
        · have hother : ∀ member, raw = within "this" member → isDotted member = true := by
            intro member hraw
            by_contra hbare
            exact hreceiver ⟨member, hraw, Bool.not_eq_true _ ▸ hbare⟩
          exact .dotted hdotted hother ((localTarget?_dotted_iff hdotted hother).1 h)
  · intro h
    cases h with
    | onReceiver hraw hmember hclass hfirst =>
        exact (localTarget?_receiver_iff hraw hmember).2 ⟨_, rfl, hclass, hfirst⟩
    | inScope hbare hscope hfirst hinner =>
        exact (localTarget?_bare_iff hbare).2 (.inl ⟨_, hscope, hfirst, hinner⟩)
    | bare hbare hscopes hfirst => exact (localTarget?_bare_iff hbare).2 (.inr ⟨hscopes, hfirst⟩)
    | dotted hdotted hother hfirst => exact (localTarget?_dotted_iff hdotted hother).2 hfirst

/-! ## What other files define -/

/-- A call that means nothing in its own file leads to the only entity of its name, and nowhere if
there is none or more than one. -/
theorem resolve_of_localTarget?_eq_none {resolver : Resolver} {caller : EntityRef}
    {className : Option String} {raw : String}
    (h : resolver.localTarget? caller className raw = none) :
    (resolver.entities.countP (·.1.name == raw) = 1 →
      ∃ entity ∈ resolver.entities, entity.1.name = raw ∧
        resolver.resolve caller className raw = .resolved entity.1) ∧
    (resolver.entities.countP (·.1.name == raw) ≠ 1 →
      resolver.resolve caller className raw = .unresolved raw) := by
  rw [List.countP_eq_length_filter]
  constructor
  · intro hone
    rcases List.length_eq_one_iff.1 hone with ⟨entity, hentity⟩
    have hmem : entity ∈ resolver.entities.filter (·.1.name == raw) := by simp [hentity]
    rcases List.mem_filter.1 hmem with ⟨hmem, hname⟩
    refine ⟨entity, hmem, by simpa using hname, ?_⟩
    simp [resolve, h, named, hentity]
  · intro hother
    simp only [resolve, h]
    split
    · rename_i ref hnamed
      have hlength := congrArg List.length hnamed
      simp only [named, List.length_map, List.length_singleton] at hlength
      exact absurd hlength hother
    · rfl

/-- Two resolvers that know the same entities of the caller's file find the same entity for a call
that means one there.  A call that means none leads, under either of them, to the only entity of
its name, and nowhere if there is none or more than one. -/
theorem own_file_decides_first (resolver other : Resolver) (caller : EntityRef)
    (className : Option String) (raw : String)
    (hown : resolver.entities.filter (·.1.file == caller.file) =
      other.entities.filter (·.1.file == caller.file)) :
    (∀ ref, resolver.localTarget? caller className raw = some ref →
      resolver.resolve caller className raw = .resolved ref ∧
        other.resolve caller className raw = .resolved ref) ∧
    (resolver.localTarget? caller className raw = none → ∀ either ∈ [resolver, other],
      (either.entities.countP (·.1.name == raw) = 1 →
        ∃ entity ∈ either.entities, entity.1.name = raw ∧
          either.resolve caller className raw = .resolved entity.1) ∧
      (either.entities.countP (·.1.name == raw) ≠ 1 →
        either.resolve caller className raw = .unresolved raw)) ∧
    ∀ either ∈ [resolver, other], ∀ ref,
      either.localTarget? caller className raw = some ref ↔
        either.MeansLocally caller className raw ref := by
  have hsame := localTarget?_congr hown className raw
  refine ⟨?_, ?_, ?_⟩
  · intro ref hlocal
    have hother := hsame ▸ hlocal
    exact ⟨by simp [resolve, hlocal], by simp [resolve, hother]⟩
  · intro hsilent either heither
    apply resolve_of_localTarget?_eq_none
    simp only [List.mem_cons, List.not_mem_nil, or_false] at heither
    rcases heither with rfl | rfl
    · exact hsilent
    · exact hsame ▸ hsilent
  · intro either _ ref
    exact localTarget?_eq_some_iff either caller className raw ref

/-- A file with a function in a function, a helper beside the inner one and another on its own, and
what other files define. -/
def besideForeign (foreign : List (EntityRef × EntityKind)) : Resolver :=
  ⟨[(⟨"a.ts", "outer", 1⟩, .function), (⟨"a.ts", "outer.helper", 2⟩, .function),
    (⟨"a.ts", "outer.inner", 3⟩, .function), (⟨"a.ts", "helper", 9⟩, .function)] ++ foreign⟩

/-- The inner function calls the helper beside it, whatever stands in other files, and a remote
function only as long as there is one of that name. -/
theorem own_file_decides_first_helper :
    let resolver := besideForeign [(⟨"b.ts", "remote", 1⟩, .function)]
    let other := besideForeign [(⟨"c.ts", "remote", 1⟩, .variable),
      (⟨"c.ts", "outer.inner.helper", 2⟩, .function), (⟨"d.ts", "remote", 1⟩, .function)]
    let caller : EntityRef := ⟨"a.ts", "outer.inner", 3⟩
    resolver.entities.filter (·.1.file == caller.file) =
        other.entities.filter (·.1.file == caller.file) ∧
      resolver.localTarget? caller none "helper" = some ⟨"a.ts", "outer.helper", 2⟩ ∧
      other.resolve caller none "helper" = .resolved ⟨"a.ts", "outer.helper", 2⟩ ∧
      resolver.localTarget? caller none "remote" = none ∧
      (∃ entity ∈ resolver.entities, entity.1.name = "remote" ∧
        resolver.resolve caller none "remote" = .resolved entity.1) ∧
      other.resolve caller none "remote" = .unresolved "remote" := by
  intro resolver other caller
  have hown : resolver.entities.filter (·.1.file == caller.file) =
      other.entities.filter (·.1.file == caller.file) := by decide
  have hlocal : resolver.localTarget? caller none "helper" =
      some ⟨"a.ts", "outer.helper", 2⟩ := by decide
  have hsilent : resolver.localTarget? caller none "remote" = none := by decide
  have hhelper := own_file_decides_first resolver other caller none "helper" hown
  have hremote := (own_file_decides_first resolver other caller none "remote" hown).2.1 hsilent
  exact ⟨hown, hlocal, (hhelper.1 _ hlocal).2, hsilent, (hremote resolver (by simp)).1 (by decide),
    (hremote other (by simp)).2 (by decide)⟩

end Resolver
end Call
end CodeAtlas
