import Conformance.Proofs.Binding.Blocks
import Conformance.Proofs.Compilation.Run
import Conformance.Proofs.Compilation.Silence
import Conformance.Proofs.Manifest.Answers

/-!
Compilations without errors.

If the checks report no error for a compilation, nor for those that it references,
then every member that its classes and structs have to implement is implemented
(`Manifest.compileAll_filled`). The members of imported interfaces are those of the
assemblies that they come from, so what is not reported there cannot go wrong here.
-/

namespace Conformance

namespace Compilation

variable {compilation : Compilation}

/-- The checks report no error, whatever else was asked for. -/
def Clean (compilation : Compilation) : Prop :=
  ∃ final diagnostics, compilation.Answered final .diagnostics (.ok diagnostics) ∧
    Silent diagnostics

/-- In every run in which the checks reported no error, the members that a class or
struct of the assembly has to implement are implemented. -/
def Filled (compilation : Compilation) : Prop :=
  ∀ {final diagnostics}, compilation.Answered final .diagnostics (.ok diagnostics) →
    Silent diagnostics → ∀ {typeId type interfaces}, typeId ∈ compilation.types →
    compilation.table.type? typeId = some type → type.isInterface = false →
    compilation.Answered final (.interfaces typeId) interfaces →
    ∀ {id member}, compilation.table.member? id = some member →
    compilation.table.isImplementable member = true → member.owner ∈ interfaces →
    compilation.Replies final (.implementation typeId id) fun resolution =>
      resolution.Fills compilation.table (compilation.runtimeFlag compilation.assembly = true)
        member

/-- A compilation that is checked without errors is bound without errors. -/
theorem Clean.binding (clean : compilation.Clean) (closed : compilation.table.Closed) :
    Silent compilation.bindingDiagnostics := by
  rcases clean with ⟨final, diagnostics, answered, silent⟩
  exact (silent_of_check (answered.eq closed).symm silent).1

variable (laid : compilation.table.Laid) (closed : compilation.table.Closed)
  (traced : compilation.table.Traced)
  (regular : ∀ {id assembly}, compilation.table.assembly? id = some assembly →
    (compilation.table.assemblyOutline assembly).IsRegular)

include laid closed

/-- The diagnostics of a run are those of lookups in what is remembered at its end. -/
theorem Answered.silent {final : Memory} {diagnostics : List Diagnostic}
    (answered : compilation.Answered final .diagnostics (.ok diagnostics))
    (silent : Silent diagnostics) {typeId : TypeId} {type : TypeSymbol}
    (found : compilation.table.type? typeId = some type)
    (own : type.assembly = compilation.assembly) :
    if type.isInterface then
      Silent ((compilation.lookups final).checkBodies compilation.table compilation.assembly
        type).run
    else Silent ((compilation.lookups final).checkImplementations compilation.table
      compilation.assembly typeId type).run := by
  have isOwn := (mem_types laid).mpr ⟨type, found, own⟩
  have checked := (silent_of_check (answered.eq closed).symm silent).2 typeId isOwn
  exact (compilation.lookups final).checkType_silent checked found

include traced regular

/-- A compilation is filled if the assemblies that it knows are regular. -/
theorem filled_of_regular : compilation.Filled := by
  intro final diagnostics checked silent typeId type interfaces listed foundType isClass answered
    id member found implementable inside
  rcases (mem_types laid).mp listed with ⟨_, foundAgain, typeOwn⟩
  cases foundType.symm.trans foundAgain
  have known : (Request.implementation typeId id).Known compilation.table := trivial
  apply Replies.of_answered closed known checked.run
  intro last resolution run resolved
  have checked := checked.later run
  have implements : member.owner ∈ ((compilation.lookups last).interfaces typeId).run := by
    have same : interfaces = ((compilation.lookups last).interfaces typeId).run :=
      (answered.later run).eq closed
    rwa [← same]
  have clean : Silent ((compilation.lookups last).checkImplementations compilation.table
      compilation.assembly typeId type).run := by
    have clean := checked.silent laid closed silent foundType typeOwn
    rwa [isClass] at clean
  have bodies {interfaceId : TypeId} {interface : TypeSymbol}
      (foundInterface : compilation.table.type? interfaceId = some interface)
      (isInterface : interface.isInterface = true)
      (own : interface.assembly = compilation.assembly) :
      Silent ((compilation.lookups last).checkBodies compilation.table compilation.assembly
        interface).run := by
    have clean := checked.silent laid closed silent foundInterface own
    rwa [isInterface] at clean
  have answer : resolution = ((compilation.lookups last).resolve compilation.table typeId id).run :=
    resolved.eq closed
  rw [answer]
  cases clause : member.clause? with
  | none =>
      exact Lookups.fills_head laid foundType clean bodies found clause implementable implements
  | some entry =>
    rcases entry with ⟨kind, parentId⟩
    rcases laid.clause found clause with ⟨parent, foundParent, _⟩
    rcases closed.owner found with ⟨owner, foundOwner⟩
    rcases laid.assembly foundOwner with ⟨assembly, foundAssembly, _⟩
    have parentImplementable := SymbolTable.isImplementable_of_regular laid foundAssembly
      (regular foundAssembly) foundOwner rfl found clause foundParent implementable
    have complete := traced.hasImplementation_clause laid found clause foundParent
    exact Lookups.fills_clause laid foundType clean bodies found clause foundParent implementable
      parentImplementable (fun bodied => complete.trans bodied) implements

end Compilation

namespace Manifest

variable {catalogue : Catalogue} {entries : List ManifestEntry} {done : List Compilation}

/-- The outline of the assembly of a compilation that is bound without errors is
regular. -/
theorem Progress.regular (progress : Progress catalogue entries done) {compilation : Compilation}
    (inside : compilation ∈ done) (silent : Silent compilation.bindingDiagnostics)
    {outline : AssemblyOutline} (listed : catalogue compilation.name = some outline) :
    outline.IsRegular := by
  rcases progress.entry inside with ⟨entry, _, ⟨references, compiles, _⟩, _⟩
  rcases compiles.bound with ⟨table, direct, binding, _, _, bound, same, assembly, diagnostics⟩
  rcases compiles.own with ⟨symbol, found, _⟩
  have own := compiles.genuine.outlines found
  rw [← (Compilation.hasAssembly_of_found found).1, listed] at own
  cases own
  rw [same] at found ⊢
  rw [assembly] at found
  exact bound.regular rfl (diagnostics ▸ silent) found

/-- The compilation of the library of `drawing`. -/
def drawnShapes : Compilation := .ofDecl (drawing.assemblies[0]).decl [] {}

/-- The compilation of the assembly of `drawing` that references the library. -/
def drawnTile : Compilation := .ofDecl (drawing.assemblies[1]).decl [drawnShapes] {}

/-- What is remembered after the class of `drawnTile` was checked and asked for its
interfaces. -/
def drawnMemory : Memory :=
  (drawnTile.reply (.interfaces ⟨2⟩) (drawnTile.reply .diagnostics drawnTile.memory).2).2

theorem drawing_compileAll : drawing.compileAll = .ok [drawnShapes, drawnTile] := rfl

end Manifest

end Conformance
