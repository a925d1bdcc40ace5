import Conformance.Compilation.Basic
import Conformance.Symbol.Display

/-!
The implementation map: for every class and struct of an assembly, and every
member and accessor that it has to implement, the member that does.
-/

namespace Conformance

/-- What implements one interface member for one type. -/
structure ImplementationEntry where
  type : String
  interfaceMember : String
  implementation : Option String
  source : Option ImplementationSource
deriving DecidableEq, Repr

namespace Lookups

variable {m : Type → Type} [Monad m]

/-- The members and accessors of a type that types can implement. -/
def implementableMembers (table : SymbolTable) (type : TypeSymbol) : List MemberId :=
  ((table.membersOf type).flatMap fun member => member :: table.accessorsOf member.2).filterMap
    fun (id, member) => if table.isImplementable member then some id else none

/-- The entry for a type and an interface member. -/
def implementationEntry (lookups : Lookups m) (table : SymbolTable) (typeId : TypeId)
    (id : MemberId) : m ImplementationEntry := do
  let resolution ← lookups.resolve table typeId id
  return {
    type := table.displayType typeId
    interfaceMember := table.display id
    implementation := resolution.member?.map table.display
    source := resolution.source? }

/-- The entries for a type. Interfaces implement nothing themselves. -/
def implementationEntries (lookups : Lookups m) (table : SymbolTable) (typeId : TypeId) :
    m (List ImplementationEntry) := do
  if (table.type? typeId).any fun type => !type.isInterface then
    let interfaces ← lookups.interfaces typeId
    let members := (interfaces.filterMap table.type?).flatMap (implementableMembers table)
    members.mapM (lookups.implementationEntry table typeId)
  else return []

end Lookups

/-- The implementation map of a compilation. -/
def Compilation.implementationMap {m : Type → Type} [Monad m] (lookups : Lookups m)
    (compilation : Compilation) : m (List ImplementationEntry) := do
  let entries ← compilation.types.mapM (lookups.implementationEntries compilation.table)
  return entries.flatten

end Conformance
