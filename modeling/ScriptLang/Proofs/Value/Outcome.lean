import ScriptLang.Module.Basic
import ScriptLang.Value.Builtin

/-!
# What operators and built-ins compute

An operator computes data from its operands, or meets a fault that lies in them: it gives back no
function that it was not given, and refuses no call. A built-in may also want another number of
arguments.

## Main definitions

* `DiagnosticKind.isOfValues`: the kinds of the faults that lie in the values code works on
* `Value.isData`: values that hold no function
* `Outcome`: what a computation gives back, and of which kind its fault is

## Main results

* `Value.negate?_outcome`, `Value.binary?_outcome`: what operators compute
* `Builtin.outcome?_outcome`: what built-ins compute
-/

namespace ScriptLang

/-- Whether a fault of this kind lies in the values that code works on, and not in a call, in a load
or in the text. -/
def DiagnosticKind.isOfValues : DiagnosticKind → Bool
  | name | type | zeroDivision | overflow | visibility => true
  | lexing | parsing | arity | moduleNotFound | circularImport | stackExhausted => false

/-- Whether a value holds no function. -/
def Value.isData : Value → Bool
  | int _ | float _ | string _ | bool _ | nil | builtin _ | module _ => true
  | function _ | method _ | ofClass _ | object _ => false

/-- The computation gives back something good, or a fault whose kind is one of some. -/
inductive Outcome {α : Type} (good : α → Prop) (kinds : DiagnosticKind → Prop) :
    Except Fault α → Prop where
  | ok {a : α} : good a → Outcome good kinds (.ok a)
  | error {fault : Fault} : kinds fault.kind → Outcome good kinds (.error fault)

namespace Outcome

variable {α β : Type} {good good' : α → Prop} {follow : β → Prop}
  {kinds kinds' : DiagnosticKind → Prop} {result : Except Fault α}

theorem mono (h : Outcome good kinds result) (hgood : ∀ a, good a → good' a)
    (hkinds : ∀ kind, kinds kind → kinds' kind) : Outcome good' kinds' result := by
  cases h with
  | ok ha => exact .ok (hgood _ ha)
  | error hkind => exact .error (hkinds _ hkind)

theorem bind {k : α → Except Fault β} (h : Outcome good kinds result)
    (hk : ∀ a, good a → Outcome follow kinds (k a)) : Outcome follow kinds (result >>= k) := by
  cases h with
  | ok ha => exact hk _ ha
  | error hkind => exact .error hkind

theorem map {f : α → β} (h : Outcome good kinds result) (hf : ∀ a, good a → follow (f a)) :
    Outcome follow kinds (result.map f) := by
  cases h with
  | ok ha => exact .ok (hf _ ha)
  | error hkind => exact .error hkind

end Outcome

namespace Value

/-- What an operator computes. -/
abbrev Computed : Except Fault Value → Prop := Outcome (·.isData = true) (·.isOfValues = true)

theorem ofInt?_outcome {fault : Fault} (hkind : fault.kind.isOfValues = true) (n : Int) :
    Computed (ofInt? fault n) := by
  unfold ofInt?
  split
  · exact .ok rfl
  · exact .error hkind

theorem quotient?_outcome (x y : Float) : Computed (quotient? x y) := by
  unfold quotient?
  split
  · exact .error rfl
  · exact .ok rfl

theorem remainder?_outcome (a b : Int64) : Computed (remainder? a b) := by
  unfold remainder?
  split
  · exact .error rfl
  split
  · exact .error rfl
  · exact ofInt?_outcome rfl _

theorem floatRemainder?_outcome (x y : Float) : Computed (floatRemainder? x y) := by
  unfold floatRemainder?
  split
  · exact .error rfl
  · exact .ok rfl

theorem order?_outcome (op : BinaryOp) (left right : Value) :
    Outcome (fun _ => True) (·.isOfValues = true) (order? op left right) := by
  unfold order?
  split
  · exact .ok trivial
  split
  · exact .ok trivial
  · split
    · exact .ok trivial
    split
    · exact .ok trivial
    split
    · exact .ok trivial
    · exact .error rfl
  · exact .error rfl

theorem arithmetic?_outcome (op : BinaryOp) (left right : Value) :
    Computed (arithmetic? op left right) := by
  unfold arithmetic?
  split
  -- Two integers: sums, differences and products are integers, a quotient is not.
  iterate 3 exact ofInt?_outcome rfl _
  · exact quotient?_outcome _ _
  · exact remainder?_outcome _ _
  iterate 3 exact .ok rfl
  · exact quotient?_outcome _ _
  · exact floatRemainder?_outcome _ _
  · exact .error rfl

theorem binary?_outcome (op : BinaryOp) (left right : Value) :
    Computed (binary? op left right) := by
  cases op with
  | eq | ne => exact .ok rfl
  | lt | gt | le | ge => exact (order?_outcome _ left right).map fun _ _ => rfl
  | and | or => exact .error rfl
  | add =>
    unfold binary?
    dsimp only
    split
    · exact .ok rfl
    · exact arithmetic?_outcome _ _ _
  | sub | mul | div | mod => exact arithmetic?_outcome _ _ _

theorem negate?_outcome (v : Value) : Computed v.negate? := by
  cases v with
  | int n => exact ofInt?_outcome rfl _
  | float x => exact .ok rfl
  | _ => exact .error rfl

theorem length?_outcome (v : Value) : Computed v.length? := by
  cases v with
  | string s => exact .ok rfl
  | _ => exact .error rfl

theorem truncate?_outcome (x : Float) : Computed (truncate? x) := by
  unfold truncate?
  split
  · exact ofInt?_outcome rfl _
  · exact .error rfl

theorem toInt?_outcome (v : Value) : Computed v.toInt? := by
  cases v with
  | int n => exact .ok rfl
  | bool b => exact .ok rfl
  | float x => exact truncate?_outcome x
  | string s =>
    unfold toInt?
    dsimp only
    split
    · exact .ok rfl
    · exact .error rfl
  | _ => exact .error rfl

end Value

theorem Module.read?_outcome (module : Module) (name : String) :
    Outcome (fun v => module.members.get? name = some v) (·.isOfValues = true)
      (module.read? name) := by
  unfold read?
  split
  · next hmember =>
    split
    · exact .ok hmember
    · exact .error rfl
  · exact .error rfl

namespace Builtin

theorem argument?_outcome (b : Builtin) (args : List Value) :
    Outcome (fun _ => True) (fun kind => kind.isOfValues = true ∨ kind = .arity)
      (b.argument? args) := by
  unfold argument?
  split
  · exact .ok trivial
  · exact .error (.inr rfl)

/-- A built-in wants one argument, which may be one it cannot work on. -/
theorem outcome?_outcome (b : Builtin) (args : List Value) :
    Outcome (·.1.isData = true) (fun kind => kind.isOfValues = true ∨ kind = .arity)
      (b.outcome? args) := by
  have hargument := b.argument?_outcome args
  have hcomputed {result : Except Fault Value} (h : Value.Computed result) :
      Outcome (·.isData = true) (fun kind => kind.isOfValues = true ∨ kind = .arity) result :=
    h.mono (fun _ hv => hv) fun _ => .inl
  cases b with
  | print => exact .ok rfl
  | str | bool | type => exact hargument.bind fun _ _ => .ok rfl
  | len => exact hargument.bind fun v _ => (hcomputed v.length?_outcome).bind fun _ hn => .ok hn
  | int => exact hargument.bind fun v _ => (hcomputed v.toInt?_outcome).bind fun _ hn => .ok hn

end Builtin

end ScriptLang
