import Conformance.Symbol.Table

/-!
The names of members in diagnostics: `I1.M1(int, ref string)`, `I1.P`,
`I1.this[int]`, `I1.P.get`, and `T.I1.M1()` for an explicit implementation.
-/

namespace Conformance

/-- A parameter as it is displayed. -/
def Parameter.display (parameter : Parameter) : String :=
  match parameter.refKind.modifier? with
  | some keyword => keyword ++ " " ++ parameter.type
  | none => parameter.type

/-- Parameters as they are displayed. -/
def displayParameters (parameters : List Parameter) : String :=
  ", ".intercalate (parameters.map Parameter.display)

namespace MemberSymbol

/-- The name of a member that is no accessor, in a type of the given name. -/
def displayIn (member : MemberSymbol) (owner : String) : String :=
  let named := match member.explicitInterface with
    | some interface => owner ++ "." ++ interface ++ "."
    | none => owner ++ "."
  match member.kind with
  | .method => named ++ member.name ++ "(" ++ displayParameters member.signature.parameters ++ ")"
  | .property true _ _ => named ++ "this[" ++ displayParameters member.signature.parameters ++ "]"
  | _ => named ++ member.name

/-- The name of an accessor of the member with the given name. -/
def displayClause (parent : String) (kind : AccessorKind) : String :=
  parent ++ "." ++ kind.keyword

end MemberSymbol

namespace SymbolTable

/-- The name of a type, or nothing for an id without a type. -/
def displayType (table : SymbolTable) (id : TypeId) : String :=
  ((table.type? id).map TypeSymbol.name).getD ""

/-- The name of a member. -/
def displayMember (table : SymbolTable) (member : MemberSymbol) : String :=
  match member.clause? with
  | some (kind, parent) =>
    match table.member? parent with
    | some parent =>
      MemberSymbol.displayClause (parent.displayIn (table.displayType parent.owner)) kind
    | none => member.displayIn (table.displayType member.owner)
  | none => member.displayIn (table.displayType member.owner)

/-- The name of the member with an id, or nothing for an id without a member. -/
def display (table : SymbolTable) (id : MemberId) : String :=
  ((table.member? id).map table.displayMember).getD ""

end SymbolTable

end Conformance
