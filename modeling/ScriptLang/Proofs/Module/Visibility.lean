import Mathlib.Data.List.Basic
import ScriptLang.Proofs.Eval.Run

/-!
# What a module shows

A module sorts its members by their names alone: those that begin with a capital can be read from
outside, the others are private. What the outside is told of a name depends on nothing else. It is given
the member, or told that the member is private, or that there is none; a name is never looked up in the
scopes of the program that reads it, or among the built-ins.

## Main definitions

* `Module.SortsByName`: exports and private names are the two halves of a module
* `Module.Reading`: the three ways in which a name can be read
* `Module.Answers`: what a module answers when a name is read from outside

## Main results

* `isExported_iff`: which names are exported
* `Module.sortsByName`: every module sorts its members in this way
* `Module.answers_evalExpr`: a member of a module is what the module answers
-/

namespace ScriptLang

/-- A name is exported if its first character is a capital. As an underscore is none, no name with a
reserved beginning is exported. -/
theorem isExported_iff (name : String) :
    isExported name = true ↔
      (∃ c, name.toList.head? = some c ∧ Text.isCapital c = true) ∧ ¬['_', '_'] <+: name.toList := by
  rw [isExported]
  cases name.toList with
  | nil => simp
  | cons c rest =>
    have hunderscore : Text.isCapital '_' = false := by decide
    dsimp only [List.head?_cons]
    constructor
    · intro hcapital
      refine ⟨⟨c, rfl, hcapital⟩, fun hreserved => ?_⟩
      obtain ⟨rfl, -⟩ := List.cons_prefix_cons.1 hreserved
      exact absurd hcapital (Bool.eq_false_iff.1 hunderscore)
    · rintro ⟨⟨d, hd, hcapital⟩, -⟩
      cases hd
      exact hcapital

namespace Module

variable {module : Module} {name : String}

/-- Exports and private names are the two halves of a module, each in the order of definition, and a name
is in one or the other for what it is. -/
structure SortsByName (module : Module) : Prop where
  exports : module.exports.Sublist module.members.names
  privates : module.privates.Sublist module.members.names
  disjoint : module.exports.Disjoint module.privates
  perm : (module.exports ++ module.privates).Perm module.members.names
  mem_exports_iff (name : String) : name ∈ module.exports ↔ name ∈ module.members.names ∧
    (∃ c, name.toList.head? = some c ∧ Text.isCapital c = true) ∧ ¬['_', '_'] <+: name.toList

theorem mem_exports_iff :
    name ∈ module.exports ↔ name ∈ module.members.names ∧ isExported name = true :=
  List.mem_filter

theorem mem_privates_iff :
    name ∈ module.privates ↔ name ∈ module.members.names ∧ isExported name = false := by
  rw [privates, List.mem_filter, Bool.not_eq_true']

theorem sortsByName (module : Module) : module.SortsByName where
  exports := List.filter_sublist
  privates := List.filter_sublist
  disjoint name hexport hprivate := by
    have hhidden := (mem_privates_iff.1 hprivate).2
    rw [(mem_exports_iff.1 hexport).2] at hhidden
    cases hhidden
  perm := List.filter_append_perm isExported module.members.names
  mem_exports_iff name := by rw [mem_exports_iff, isExported_iff]

/-- What comes of reading a name from outside. -/
inductive Reading (module : Module) (name : String) : Except Fault Value → Prop where
  | value {v : Value} : name ∈ module.exports → module.members.get? name = some v →
    Reading module name (.ok v)
  | hidden {fault : Fault} : name ∈ module.privates → fault.kind = .visibility →
    Reading module name (.error fault)
  | missing {fault : Fault} : name ∉ module.members.names → fault.kind = .name →
    Reading module name (.error fault)

theorem read?_reading (module : Module) (name : String) : module.Reading name (module.read? name) := by
  have hnames := module.members.mem_names_iff name
  rw [read?]
  cases hmember : module.members.get? name with
  | none =>
    have hmissing : name ∉ module.members.names := by rw [hnames, hmember]; exact Bool.false_ne_true
    exact .missing hmissing rfl
  | some v =>
    have hbound : name ∈ module.members.names := by rw [hnames, hmember]; rfl
    dsimp only
    cases hexported : isExported name with
    | true => exact .value (mem_exports_iff.2 ⟨hbound, hexported⟩) hmember
    | false => exact .hidden (mem_privates_iff.2 ⟨hbound, hexported⟩) rfl

/-- What a module answers when a name is read from outside, by a computation that changes nothing: the
member if it is exported, and otherwise a report that tells private members from those that do not
exist. -/
structure Answers (module : Module) (name : String) (m : Machine)
    (result : EStateM.Result Diagnostic Machine Value) : Prop where
  value_iff (v : Value) (m' : Machine) : result = .ok v m' ↔
    name ∈ module.exports ∧ module.members.get? name = some v ∧ m' = m
  visibility_iff : (∃ d m', result = .error d m' ∧ d.kind = .visibility) ↔ name ∈ module.privates
  name_iff : (∃ d m', result = .error d m' ∧ d.kind = .name) ↔ name ∉ module.members.names
  unchanged (d : Diagnostic) (m' : Machine) : result = .error d m' → m' = m

/-- A name is read in one of three ways, and each excludes the other two. -/
theorem Reading.answers {result : Except Fault Value} (h : module.Reading name result) (span : Span)
    (m : Machine) : module.Answers name m (Eval.ofExceptAt span result m) := by
  have hsorts := module.sortsByName
  cases h with
  | @value v hexport hmember =>
    have hprivate : name ∉ module.privates := hsorts.disjoint hexport
    have hbound : name ∈ module.members.names := hsorts.exports.subset hexport
    change module.Answers name m (.ok v m)
    constructor
    · simp [hexport, hmember, eq_comm]
    · simp [hprivate]
    · simp [hbound]
    · simp
  | @hidden fault hprivate hkind =>
    have hexport : name ∉ module.exports := fun h => hsorts.disjoint h hprivate
    have hbound : name ∈ module.members.names := hsorts.privates.subset hprivate
    change module.Answers name m (.error (fault.at span) m)
    constructor
    · simp [hexport]
    · simp [hprivate, hkind]
    · simp [hbound, hkind]
    · simp [eq_comm]
  | @missing fault hmissing hkind =>
    have hexport : name ∉ module.exports := fun h => hmissing (hsorts.exports.subset h)
    have hprivate : name ∉ module.privates := fun h => hmissing (hsorts.privates.subset h)
    change module.Answers name m (.error (fault.at span) m)
    constructor
    · simp [hexport]
    · simp [hprivate, hkind]
    · simp [hmissing, hkind]
    · simp [eq_comm]

/-- A member of a module is what the module answers, wherever it is read. -/
theorem answers_evalExpr {host : Host} {scope : ScopeId} {object : Expr} {ref : ModuleRef}
    {m m' : Machine} (hobject : evalExpr host scope object m = .ok (.module ref) m')
    (hmodule : m'.store.module? ref = some module) (span : Span) (member : Ident) :
    module.Answers member.name m' (evalExpr host scope (.member span object member) m) := by
  have hread : evalExpr host scope (.member span object member) m =
      Eval.ofExceptAt member.span (module.read? member.name) m' := by
    rw [evalExpr, Eval.bind_eq, hobject]
    have hstore : Eval.readStore (·.module? ref) m' = .ok (some module) m' := by rw [← hmodule]; rfl
    change readExport ref member m' = _
    rw [readExport, Eval.bind_eq, hstore]
  rw [hread]
  exact (module.read?_reading member.name).answers member.span m'

end Module

end ScriptLang
