import ScriptLang.Diagnostic.Fault
import ScriptLang.Text.Letter
import ScriptLang.Value.Basic

/-!
# Modules

A module is what the top level of a unit bound by the end of its evaluation. A name that begins with
a capital can be read from outside, any other is private to the module.

## Main definitions

* `isExported`: whether a name can be read from outside
* `bareName`: the name that a load path is bound to
* `Module`: the members of a unit
* `Module.read?`: a member, as seen from outside
-/

namespace ScriptLang

/-- What the names of source files end in. -/
def sourceSuffix : String := ".zen"

/-- A text without a given end. -/
def withoutSuffix (suffix s : String) : String :=
  if suffix.toList.isSuffixOf s.toList then
    String.ofList (s.toList.take (s.length - suffix.length))
  else s

/-- Whether a name can be read from outside its module: it begins with a capital. -/
def isExported (name : String) : Bool :=
  match name.toList with
  | c :: _ => Text.isCapital c
  | [] => false

/-- The last part of a path, without the ending of source files: the name a module is bound to. -/
def bareName (path : String) : String :=
  withoutSuffix sourceSuffix
    (String.ofList (path.toList.reverse.takeWhile (· != '/')).reverse)

/-- The members of a unit, once it has been evaluated. -/
structure Module where
  /-- The name it is bound to and shows. -/
  name : String
  /-- What tells it from other modules. -/
  key : String
  /-- The package it declares, or its name. -/
  package : String
  /-- Its bindings, in order of definition. -/
  members : Table Value

namespace Module

/-- The names that can be read from outside, in order of definition. -/
def exports (m : Module) : List String := m.members.names.filter isExported

/-- The names that are private, in order of definition. -/
def privates (m : Module) : List String := m.members.names.filter fun name => !isExported name

/-- A member as seen from outside. A private one is told from one that does not exist. -/
def read? (m : Module) (name : String) : Except Fault Value :=
  match m.members.get? name with
  | some v => if isExported name then .ok v else .error (.notExported name m.name)
  | none => .error (.noMember name m.name)

end Module

end ScriptLang
