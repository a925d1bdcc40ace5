import Conformance.Declaration.Basic
import Conformance.Diagnostic.Basic
import Conformance.Symbol.Display

/-!
Base types and interface lists.

The names of a declaration are looked up among the types of its assembly and of
the assemblies that it references. Then the links that close a cycle are taken
out: first those to base types, then those from interfaces to interfaces.
-/

namespace Conformance

/-! ## Looking names up -/

/-- What a type inherits from, and what is wrong with it. -/
structure Heritage where
  base : Option TypeId := none
  interfaces : List TypeId := []
  diagnostics : List Diagnostic := []
deriving DecidableEq, Repr

namespace Heritage

/-- Adds a diagnostic. -/
def report (heritage : Heritage) (diagnostic : Diagnostic) : Heritage :=
  { heritage with diagnostics := heritage.diagnostics ++ [diagnostic] }

/-- Adds an interface at the end of the list, unless it is listed. -/
def list (heritage : Heritage) (interface : TypeId) : Heritage :=
  if interface ∈ heritage.interfaces then heritage
  else { heritage with interfaces := heritage.interfaces ++ [interface] }

end Heritage

/-- The diagnostic for a name that means no type. -/
def nameNotFound (name : String) (span : Span) : Diagnostic :=
  .breach .nameNotFound span [.type name]

/-- A name together with the type that it means, if it means one. -/
def SymbolTable.resolve? (table : SymbolTable) (assembly : AssemblyId) (name : String) :
    Option (TypeId × TypeSymbol) := do
  let id ← table.typeSeenFrom? assembly name
  let type ← table.type? id
  return (id, type)

namespace TypeDecl

/-- Where the heritage of a type is reported. -/
def heritageSpan (decl : TypeDecl) : Span := decl.interfaceListSpan.orElse decl.span

/-- What the base of a declaration adds. A class can be derived from a class
that is not sealed, and every type can name an interface in this place. A
sealed class is reported and yet taken. -/
def bindBase (decl : TypeDecl) (name : String) (id : TypeId) (type : TypeSymbol) : Heritage :=
  let sealedBase : Diagnostic :=
    .breach .sealedBase decl.heritageSpan [.type decl.name, .type type.name]
  match decl.kind, type.kind with
  | _, .interfaceType => { interfaces := [id] }
  | .classType, .classType =>
    { base := some id
      diagnostics := if type.isSealed then [sealedBase] else [] }
  | .classType, .structType => { diagnostics := [sealedBase] }
  | _, _ => { diagnostics := [.breach .listedNotInterface decl.heritageSpan [.type name]] }

/-- What an entry of the interface list adds. -/
def bindInterface (decl : TypeDecl) (resolve? : String → Option (TypeId × TypeSymbol))
    (heritage : Heritage) (name : String) : Heritage :=
  match resolve? name with
  | none => heritage.report (nameNotFound name decl.heritageSpan)
  | some (id, type) =>
    if type.isInterface then heritage.list id
    else heritage.report (.breach .listedNotInterface decl.heritageSpan [.type name])

/-- What a type inherits from, given what names mean. -/
def bindHeritage (decl : TypeDecl) (resolve? : String → Option (TypeId × TypeSymbol)) :
    Heritage :=
  let base := match decl.base with
    | none => {}
    | some name =>
      match resolve? name with
      | none => { diagnostics := [nameNotFound name decl.heritageSpan] }
      | some (id, type) => decl.bindBase name id type
  decl.interfaces.foldl (decl.bindInterface resolve?) base

end TypeDecl

/-! ## Cycles -/

namespace SymbolTable

/-- Whether the walk along base types from `id` comes to `target` within a
number of steps. -/
def basesReach (table : SymbolTable) (target : TypeId) : Nat → TypeId → Except Fault Bool
  | steps, id =>
    if id = target then .ok true
    else
      match steps with
      | 0 => .ok false
      | steps + 1 =>
        match table.type? id with
        | none => .error (.unknownType id)
        | some type =>
          match type.base with
          | none => .ok false
          | some base => table.basesReach target steps base

/-- The number of links from types to interfaces. -/
def interfaceLinks (table : SymbolTable) : Nat :=
  (table.types.toList.flatMap TypeSymbol.interfaces).length

/-- Whether a search along interface lists that still has to look at `pending`
comes to `target`. A type that was looked at is not looked into again, so there
are at most as many steps as there are links. -/
def searchInterfaces (table : SymbolTable) (target : TypeId) :
    Nat → List TypeId → List TypeId → Except Fault Bool
  | 0, _, _ => .ok false
  | _ + 1, _, [] => .ok false
  | steps + 1, visited, id :: pending =>
    if id = target then .ok true
    else if id ∈ visited then table.searchInterfaces target steps visited pending
    else
      match table.type? id with
      | none => .error (.unknownType id)
      | some type =>
        table.searchInterfaces target steps (id :: visited) (type.interfaces.reverse ++ pending)

/-- Whether `target` is `id` or reached from it along interface lists. -/
def interfacesReach (table : SymbolTable) (target id : TypeId) : Except Fault Bool :=
  table.searchInterfaces target (table.interfaceLinks + 2) [] [id]

end SymbolTable

/-- A table whose cycles are being broken. -/
structure Untangling where
  table : SymbolTable
  diagnostics : List Diagnostic := []
  /-- A walk came to a type that does not exist. Nothing is changed after that. -/
  fault? : Option Fault := none

namespace Untangling

/-- Reports that a link from one type to another was taken out. -/
def report (state : Untangling) (rule : Rule) (id other : TypeId) : Untangling :=
  let span := ((state.table.type? id).map TypeSymbol.interfaceListSpan).getD .unknown
  let diagnostic : Diagnostic := .breach rule span
    [.type (state.table.displayType id), .type (state.table.displayType other)]
  { state with diagnostics := state.diagnostics ++ [diagnostic] }

/-- Takes one link out if it closes a cycle. -/
def cutIf (state : Untangling) (closes : Except Fault Bool) (rule : Rule) (id other : TypeId)
    (cut : TypeSymbol → TypeSymbol) : Untangling :=
  match closes with
  | .error fault => { state with fault? := some fault }
  | .ok false => state
  | .ok true =>
    let reported := state.report rule id other
    { reported with table := reported.table.modifyType id cut }

/-- Takes out the link of a type to its base type if it closes a cycle. -/
def cutBase (state : Untangling) (id : TypeId) : Untangling :=
  if state.fault?.isSome then state
  else
    match (state.table.type? id).bind TypeSymbol.base with
    | none => state
    | some base =>
      state.cutIf (state.table.basesReach id SymbolTable.maxDepth base) .circularBase id base
        fun type => { type with base := none }

/-- Takes out one entry of the list of an interface if it closes a cycle. -/
def cutInterface (id : TypeId) (state : Untangling) (inherited : TypeId) : Untangling :=
  if state.fault?.isSome then state
  else
    state.cutIf (state.table.interfacesReach id inherited) .circularInterface id inherited
      fun type => { type with interfaces := type.interfaces.filter (· ≠ inherited) }

/-- Takes out the entries of the list of an interface that close cycles. -/
def cutInterfaces (state : Untangling) (id : TypeId) : Untangling :=
  match state.table.type? id with
  | none => state
  | some type =>
    if type.isInterface then type.interfaces.foldl (cutInterface id) state else state

end Untangling

/-- Breaks the cycles that the given types take part in. Types that were in the
table before cannot: they do not refer to the given ones. -/
def SymbolTable.breakCycles (table : SymbolTable) (types : List TypeId) : Untangling :=
  types.foldl Untangling.cutInterfaces (types.foldl Untangling.cutBase { table })

end Conformance
