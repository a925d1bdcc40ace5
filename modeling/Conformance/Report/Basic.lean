import Conformance.Compilation.ImplementationMap
import Conformance.Compilation.Schedule
import Conformance.Manifest.Basic

/-!
Reports: what is said about one assembly of a manifest.

The types of the assembly are checked side by side, and what the threads have remembered is used
again for the implementation map. So a report is a function of a schedule too.
-/

namespace Conformance

/-- What is said about an assembly. -/
structure Report where
  assembly : String
  diagnostics : List RenderedDiagnostic
  /-- The implementation map, if it was asked for. -/
  implementations : Option (List ImplementationEntry) := none
deriving DecidableEq, Repr

namespace Report

/-- The number of diagnostics of a category. -/
def count (report : Report) (category : Category) : Nat :=
  report.diagnostics.countP fun diagnostic => diagnostic.category = category

/-- The number of errors. -/
def errorCount (report : Report) : Nat := report.count .error

/-- The number of warnings. -/
def warningCount (report : Report) : Nat := report.count .warning

/-- Whether there is an error. -/
def hasErrors (report : Report) : Bool := decide (0 < report.errorCount)

end Report

/-- The report on a compilation, from a query for its diagnostics and by the given lookups. -/
def Compilation.reportWith {m : Type → Type} [Monad m] (lookups : Lookups m)
    (compilation : Compilation) (diagnostics : m (List RenderedDiagnostic))
    (implementations : Bool) : m Report := do
  let diagnostics ← diagnostics
  let entries ←
    if implementations then some <$> compilation.implementationMap lookups else pure none
  return { assembly := compilation.name, diagnostics, implementations := entries }

/-- The report on a compilation whose types are checked by a schedule. All queries share one
memory. -/
def Compilation.report (compilation : Compilation) (implementations : Bool)
    (schedule : List Nat) : Except Fault Report :=
  ((compilation.reportWith compilation.table.remembering (compilation.diagnosticsBy schedule)
    implementations).answer compilation.memory).1

namespace Manifest

/-- The compilation to report on: the first of a given name, or else the last. -/
def selected (compilations : List Compilation) :
    Option String → Except ManifestError Compilation
  | some name => match compilations.find? fun compilation => compilation.name = name with
    | some compilation => .ok compilation
    | none => .error (.assemblyUnknown name)
  | none => match compilations.getLast? with
    | some compilation => .ok compilation
    | none => .error .empty

/-- The report on one of several compilations. Without a schedule its types are checked one
after another. -/
def reportOn (compilations : List Compilation) (assembly : Option String)
    (implementations : Bool) (schedule : List Nat := []) : Except ManifestError Report := do
  let compilation ← selected compilations assembly
  (compilation.report implementations schedule).mapError .broken

end Manifest

end Conformance
