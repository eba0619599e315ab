import CodeAtlas.Proofs.MethodCalls

/-!
# Calls as found by a scan

A call graph answers from indexes: one by the names of what is called, one that adds the members
that dotted names end in, and one by the callers.  A call stands under several names, which may
coincide in any way, and equal calls may stand in the graph more than once.  Every answer is
nevertheless what a scan of the calls finds: each that fits, once, in the order of the graph.

Main results:

- Theorem {lit}`Call.Edge.mem_namesFor_iff`: the names under which a call is kept are those that it
  answers to.
- Theorem {lit}`Call.Graph.callers_callees_scan`: both questions are answered as by a scan.
-/

namespace CodeAtlas

/-! ## Members of dotted names -/

namespace QualifiedName

/-- A dotted name ends in a member: the member is all that follows its last dot. -/
def EndsIn (name member : String) : Prop :=
  isDotted member = false ∧ ∃ scope, name = within scope member

theorem endsIn_iff (name member : String) :
    EndsIn name member ↔ isDotted name = true ∧ last name = member := by
  have hsegment := Text.lastSegment_eq_iff '.' name.toList member.toList
  constructor
  · rintro ⟨hmember, scope, rfl⟩
    refine ⟨isDotted_within scope member, ?_⟩
    have hsplit := hsegment.2 ⟨scope.toList, by simp [within], by simpa [isDotted] using hmember⟩
    rw [last, hsplit.2, String.ofList_toList]
  · rintro ⟨hname, rfl⟩
    obtain ⟨scope, hscope, hmember⟩ := hsegment.1 ⟨by simpa [isDotted] using hname, by simp [last]⟩
    refine ⟨by simpa [isDotted] using hmember, String.ofList scope, ?_⟩
    apply String.toList_injective
    simpa [within] using hscope

instance (name member : String) : Decidable (EndsIn name member) :=
  decidable_of_iff _ (endsIn_iff name member).symm

end QualifiedName

namespace Call

open CodeAtlas.QualifiedName

/-! ## Names of calls -/

namespace Edge

/-- A call answers to a name: it is what is called, as resolved or as written, or, where members
count, the member that one of the two ends in. -/
def AnswersTo (edge : Edge) (name : String) (members : Bool) : Prop :=
  name = edge.callee.name ∨ name = edge.raw ∨
    members = true ∧ (EndsIn edge.callee.name name ∨ EndsIn edge.raw name)

instance (edge : Edge) (name : String) (members : Bool) :
    Decidable (edge.AnswersTo name members) :=
  inferInstanceAs (Decidable (_ ∨ _ ∨ _ ∧ (_ ∨ _)))

theorem mem_calleeNames_iff (edge : Edge) (name : String) :
    name ∈ edge.calleeNames ↔ name = edge.callee.name ∨ name = edge.raw := by
  simp [calleeNames]

theorem mem_memberNames_iff (edge : Edge) (name : String) :
    name ∈ edge.memberNames ↔ EndsIn edge.callee.name name ∨ EndsIn edge.raw name := by
  simp only [memberNames, List.mem_eraseDups, List.mem_map, List.mem_filter, mem_calleeNames_iff,
    endsIn_iff]
  constructor
  · rintro ⟨written, ⟨rfl | rfl, hdotted⟩, hlast⟩
    · exact .inl ⟨hdotted, hlast⟩
    · exact .inr ⟨hdotted, hlast⟩
  · rintro (⟨hdotted, hlast⟩ | ⟨hdotted, hlast⟩)
    · exact ⟨_, ⟨.inl rfl, hdotted⟩, hlast⟩
    · exact ⟨_, ⟨.inr rfl, hdotted⟩, hlast⟩

/-- The names under which a call is kept are those that it answers to. -/
theorem mem_namesFor_iff (edge : Edge) (name : String) (members : Bool) :
    name ∈ edge.namesFor members ↔ edge.AnswersTo name members := by
  cases members with
  | false => simp [namesFor, AnswersTo, mem_calleeNames_iff]
  | true =>
      simp [namesFor, allNames, AnswersTo, mem_calleeNames_iff, mem_memberNames_iff, or_assoc]

end Edge

/-! ## Answers -/

namespace Graph

variable {edges : List Edge} {known : List EntityRef} {graph : Graph}

/-- The calls of something are found as by a scan. -/
theorem callers_eq (hbuild : build edges known = .ok graph) {name : String}
    (hname : Text.isBlank name = false) (file : Option String) (members : Bool) :
    graph.callers name file members =
      .ok (edges.filter fun edge =>
        decide (edge.AnswersTo name members) && file.all (edge.caller.file == ·)) := by
  have hfound : (if members then graph.byMember.find name else graph.byCallee.find name) =
      edges.filter fun edge => decide (edge.AnswersTo name members) := by
    rw [(find_of_build hbuild).2 members name]
    apply List.filter_congr
    intro edge _
    rw [Bool.eq_iff_iff, List.contains_iff_mem, edge.mem_namesFor_iff, decide_eq_true_iff]
  rw [callers, hname, if_neg Bool.false_ne_true, hfound]
  cases file with
  | none => simp
  | some path =>
      simp only [List.filter_filter, Option.all_some]
      congr 2
      funext edge
      exact Bool.and_comm _ _

/-- The calls made under a name are found as by a scan. -/
theorem callees_eq (hbuild : build edges known = .ok graph) {name : String}
    (hname : Text.isBlank name = false) :
    graph.callees name = .ok (edges.filter fun edge => decide (edge.caller.name = name)) := by
  have hfound : graph.byCaller.find name =
      edges.filter fun edge => decide (edge.caller.name = name) := by
    unfold build at hbuild
    split at hbuild
    · cases hbuild
    · cases hbuild
      rw [Index.find_build _ _ _ fun edge => List.nodup_singleton edge.caller.name]
      apply List.filter_congr
      intro edge _
      rw [Bool.eq_iff_iff, List.contains_iff_mem, List.mem_singleton, decide_eq_true_iff, eq_comm]
  rw [callees, hname, if_neg Bool.false_ne_true, hfound]

/-- Both questions to a call graph are answered as by a scan of its calls.  Those of something are
the calls that answer to its name, made in the given file if there is one; those under a name are
the calls whose caller has it.  Each is listed once for each time it stands in the graph, in the
order of the graph. -/
theorem callers_callees_scan (hbuild : build edges known = .ok graph) {name : String}
    (hname : Text.isBlank name = false) :
    (∀ (file : Option String) (members : Bool),
      graph.callers name file members =
        .ok (edges.filter fun edge =>
          decide (edge.AnswersTo name members) && file.all (edge.caller.file == ·))) ∧
      graph.callees name = .ok (edges.filter fun edge => decide (edge.caller.name = name)) :=
  ⟨callers_eq hbuild hname, callees_eq hbuild hname⟩

/-- Calls from {lit}`run` and {lit}`save`: one to a method that is written in another way and ends
in the same member, twice, one to a function, and one whose name ends in a dot. -/
def savingCalls : List Edge :=
  let run : EntityRef := ⟨"a.ts", "run", 1⟩
  let save : EntityRef := ⟨"b.ts", "save", 3⟩
  let repeated : Edge := ⟨run, .resolved ⟨"a.ts", "Repo.save", 2⟩, "this.save", ⟨"a.ts", 1, 4⟩⟩
  [repeated, ⟨save, .unresolved "save", "save", ⟨"b.ts", 3, 0⟩⟩, repeated,
    ⟨save, .unresolved "save.", "save.", ⟨"b.ts", 4, 0⟩⟩]

/-- Where members count, the call that ends in the member under both of its names is found as often
as it stands in the graph; where they do not, only the call of the function is. -/
theorem callers_callees_scan_saving :
    ∃ graph,
      build savingCalls [⟨"a.ts", "run", 1⟩, ⟨"b.ts", "save", 3⟩, ⟨"a.ts", "Repo.save", 2⟩] =
          .ok graph ∧
        Text.isBlank "save" = false ∧
        graph.callers "save" none true = .ok (savingCalls.take 3) ∧
        graph.callers "save" (some "b.ts") true = .ok (savingCalls.take 2).tail ∧
        graph.callers "save" none false = .ok (savingCalls.take 2).tail ∧
        graph.callees "save" = .ok [savingCalls[1], savingCalls[3]] := by
  obtain ⟨graph, hbuild, -⟩ : ∃ graph,
      build savingCalls [⟨"a.ts", "run", 1⟩, ⟨"b.ts", "save", 3⟩, ⟨"a.ts", "Repo.save", 2⟩] =
          .ok graph ∧ graph.edges = savingCalls :=
    build_ok (by decide) (by simp [savingCalls])
  have hname : Text.isBlank "save" = false := by decide
  obtain ⟨hcallers, hcallees⟩ := callers_callees_scan hbuild hname
  refine ⟨graph, hbuild, hname, ?_, ?_, ?_, ?_⟩
  · rw [hcallers]
    decide +kernel
  · rw [hcallers]
    decide +kernel
  · rw [hcallers]
    decide +kernel
  · rw [hcallees]
    decide +kernel

end Graph
end Call
end CodeAtlas
