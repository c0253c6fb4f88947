import ScriptLang.Decimal.Text
import ScriptLang.Syntax.Tree
import ScriptLang.Table
import ScriptLang.Text.Quoted

/-!
# Values

What expressions evaluate to. A value is plain data: what can change while a program runs (the
bindings of scopes, the fields of objects) and what is shared (modules) is held by the store, and
values refer to it by number. Functions and classes carry a number of their own, since two of them
are the same only if one evaluation made both.

## Main definitions

* `Value`: the kinds of values
* `Value.typeName`, `Value.isTruthy`: the name of its kind, and whether it counts as true
* `Value.text`, `Value.literalText`: how it is shown, and how it is shown among program text
-/

namespace ScriptLang

/-- A scope, by its place in the store. -/
abbrev ScopeId := Nat

/-- A module, by its place in the store. -/
abbrev ModuleId := Nat

/-- A function or a class, by the order in which they were made. -/
abbrev ObjectId := Nat

/-- A function and the scope it was made in. -/
structure Closure where
  id : ObjectId
  /-- The name it was declared with, if any. -/
  name? : Option String
  function : Lambda
  /-- The scope that its body sees. -/
  scope : ScopeId
  /-- The unit that it was declared in. -/
  origin : String

namespace Closure

/-- How a function is spoken of. -/
def name (f : Closure) : String := f.name?.getD "anonymous"

/-- How many parameters a function declares, the receiver included. -/
def arity (f : Closure) : Nat := f.function.arity

end Closure

/-- A class: a name and its methods. -/
structure Class where
  id : ObjectId
  name : String
  methods : Table Closure

/-- An object made by calling a class. Its fields are a scope without parent, and its identity. -/
structure Instance where
  ofClass : Class
  fields : ScopeId

/-- A method together with the object it was read from. -/
structure BoundMethod where
  receiver : Instance
  method : Closure

/-- The functions of the language itself. -/
inductive Builtin where
  | print
  | len
  | str
  | int
  | bool
  | type
  deriving DecidableEq, Repr

namespace Builtin

/-- Every built-in, in the order they are listed. -/
def all : List Builtin := [print, len, str, int, bool, type]

/-- The name of a built-in. -/
def name : Builtin → String
  | print => "print"
  | len => "len"
  | str => "str"
  | int => "int"
  | bool => "bool"
  | type => "type"

/-- The built-in with a given name. -/
def ofName? (name : String) : Option Builtin := all.find? (·.name = name)

theorem ofName?_name (b : Builtin) : ofName? b.name = some b := by
  cases b <;> decide +kernel

end Builtin

/-- A loaded module: its place in the store and the name it shows. -/
structure ModuleRef where
  id : ModuleId
  name : String
  deriving DecidableEq, Repr

/-- What an expression evaluates to. -/
inductive Value where
  | int (n : Int64)
  | float (x : Float)
  | string (s : String)
  | bool (b : Bool)
  | nil
  | function (f : Closure)
  | method (m : BoundMethod)
  | builtin (b : Builtin)
  | ofClass (c : Class)
  | object (i : Instance)
  | module (m : ModuleRef)

instance : Inhabited Value := ⟨.nil⟩

namespace Value

/-- The name of the kind of a value, as programs see it. -/
def typeName : Value → String
  | int _ => "integer"
  | float _ => "float"
  | string _ => "string"
  | bool _ => "boolean"
  | nil => "nil"
  | function _ => "function"
  | method _ => "bound_method"
  | builtin _ => "builtin"
  | ofClass _ => "class"
  | object _ => "instance"
  | module _ => "module"

/-- Whether a value counts as true: all do but `nil` and `false`. -/
def isTruthy : Value → Bool
  | nil | bool false => false
  | _ => true

/-- Whether a value is `nil`. -/
def isNil : Value → Bool
  | nil => true
  | _ => false

/-- How a value is shown. -/
def text : Value → String
  | int n => int64Text n
  | float x => floatText x
  | string s => s
  | bool b => if b then "true" else "false"
  | nil => "nil"
  | function f => s!"<fx {f.name}>"
  | method m => s!"<bound fx {m.receiver.ofClass.name}.{m.method.name}>"
  | builtin b => s!"<builtin {b.name}>"
  | ofClass c => s!"<clx {c.name}>"
  | object i => s!"<{i.ofClass.name} instance>"
  | module m => s!"<module {m.name}>"

/-- How a value is shown so that a string is seen to be one. -/
def literalText : Value → String
  | string s => Text.quoted s
  | v => v.text

end Value

end ScriptLang
