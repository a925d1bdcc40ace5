/-!
The kinds of things that declarations tell apart: types, parameters and
accessors, each with the keyword that names it.
-/

namespace Conformance

/-- What a type declaration declares. -/
inductive TypeKind where
  | classType
  | structType
  | interfaceType
deriving DecidableEq, Repr

namespace TypeKind

/-- The keyword of a kind of type. -/
def keyword : TypeKind → String
  | classType => "class"
  | structType => "struct"
  | interfaceType => "interface"

/-- All kinds of types. -/
def all : List TypeKind := [classType, structType, interfaceType]

end TypeKind

/-- How an argument is passed to a parameter. -/
inductive RefKind where
  | byValue
  | byRef
  | byOut
  | byIn
deriving DecidableEq, Repr

namespace RefKind

instance : Inhabited RefKind := ⟨byValue⟩

/-- The word for a way of passing in declarations. -/
def keyword : RefKind → String
  | byValue => "none"
  | byRef => "ref"
  | byOut => "out"
  | byIn => "in"

/-- The keyword written in front of a parameter, if one is. -/
def modifier? : RefKind → Option String
  | byValue => none
  | kind => some kind.keyword

/-- All ways of passing, in their order. -/
def all : List RefKind := [byValue, byRef, byOut, byIn]

/-- The place of a way of passing in their order. -/
def rank : RefKind → Nat
  | byValue => 0
  | byRef => 1
  | byOut => 2
  | byIn => 3

end RefKind

/-- The four clauses that properties, indexers and events are made of. -/
inductive AccessorKind where
  | get
  | set
  | add
  | remove
deriving DecidableEq, Repr

namespace AccessorKind

/-- The keyword of an accessor. -/
def keyword : AccessorKind → String
  | get => "get"
  | set => "set"
  | add => "add"
  | remove => "remove"

/-- The name of an accessor as a member: that of its property or event, marked
by the keyword. -/
def memberName (kind : AccessorKind) (parent : String) : String :=
  kind.keyword ++ "_" ++ parent

/-- The place of an accessor in their order. -/
def rank : AccessorKind → Nat
  | get => 0
  | set => 1
  | add => 2
  | remove => 3

end AccessorKind

end Conformance
