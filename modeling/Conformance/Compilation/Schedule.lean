import Conformance.Compilation.Check
import Conformance.Resolution.Sharing

/-!
Checks of types side by side.

Every type of an assembly is checked by a thread of its own, and the threads share the memory of
the compilation. Which diagnostics they find may depend on how the threads take turns; the order
in which the diagnostics are listed does not.
-/

namespace Conformance

namespace Compilation

/-- A thread for each type of an assembly, which checks it. -/
def checkThreads (compilation : Compilation) : List (Thread (List Diagnostic)) :=
  compilation.types.map
    (compilation.table.sharing.checkType compilation.table compilation.assembly)

/-- Checks the types of an assembly side by side. The token is looked at before each type, so it
stops all threads or none. -/
def checkTypesBy (compilation : Compilation) (schedule : List Nat) (token : CancellationToken) :
    QueryM (Except Cancelled (List Diagnostic)) := do
  if compilation.types.isEmpty then return .ok []
  match token.check with
  | .error stop => return .error stop
  | .ok () =>
    let diagnostics ← Thread.sideBySide compilation.checkThreads schedule
    return .ok diagnostics.flatten

/-- The diagnostics of a compilation whose types are checked side by side, with their
messages. -/
def diagnosticsBy (compilation : Compilation) (schedule : List Nat) :
    QueryM (List RenderedDiagnostic) := do
  match ← compilation.checkTypesBy schedule {} with
  | .ok diagnostics =>
    return (compilation.bindingDiagnostics ++ diagnostics).map Diagnostic.render
  | .error _ => return []

end Compilation

end Conformance
