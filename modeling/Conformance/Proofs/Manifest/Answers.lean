import Conformance.Proofs.Manifest.Compiled
import Conformance.Proofs.Resolution.Transport
import Conformance.Proofs.Symbol.Transfer

/-!
Answers about assemblies that are imported.

A compilation that references another has a copy of everything that the other
knows, at the same places (`Compilation.AnswersAgree`). Asked about the copies, it
gives the copies of the answers, whatever the depth of the references
(`Manifest.compileAll_answersAgree`).
-/

namespace Conformance

/-- Two resolutions hold members at the same places, found in the same way. -/
structure Resolution.SamePlaces (s t : SymbolTable) (first second : Resolution) : Prop where
  implementation : Option.Rel (fun a b => s.memberImage? t a.member = some b.member ∧
    b.source = a.source) first.implementation second.implementation
  closeMismatch : Option.Rel (fun a b => s.memberImage? t a.candidate = some b.candidate ∧
    b.reason = a.reason) first.closeMismatch second.closeMismatch

namespace SymbolTable

variable {s t : SymbolTable} (first : s.Orderly) (second : t.Orderly)
  (corresponds : s.Corresponds t)

include first second corresponds

theorem Corresponds.typeImage? {id : TypeId} {type : TypeSymbol} (found : s.type? id = some type) :
    s.typeImage? t id = some (s.typeMap t id) ∧
      ∃ image, t.type? (s.typeMap t id) = some image := by
  obtain ⟨other, image, types⟩ := corresponds.type first second found
  have placed := (typeImage?_iff first second).mpr types.twins.place
  rw [types.twins.typeMap first second]
  exact ⟨placed, image, types.second⟩

theorem Corresponds.memberImage? {id : MemberId} {member : MemberSymbol}
    (found : s.member? id = some member) :
    s.memberImage? t id = some (s.memberMap t id) ∧
      ∃ image, t.member? (s.memberMap t id) = some image := by
  obtain ⟨other, image, members, _⟩ := corresponds.member first second found
  have placed := (memberImage?_iff first second).mpr members.place
  rw [members.memberMap first second]
  exact ⟨placed, image, members.second⟩

/-- The interface list of a copied type is the copy of its interface list. -/
theorem Corresponds.flatten {memory other : Memory} (fresh : memory.IsFresh)
    (freshOther : other.IsFresh) {id : TypeId} {type : TypeSymbol}
    (found : s.type? id = some type) :
    ∃ list images after afterOther, (s.flatten id).answer memory = (.ok list, after) ∧
      (t.flatten (s.typeMap t id)).answer other = (.ok images, afterOther) ∧
      List.Forall₂ (fun a b => s.typeImage? t a = some b) list images := by
  obtain ⟨list, after, answered, within⟩ := flatten_within first.wellFormed fresh found
  obtain ⟨list', images, _, afterOther, again, answeredOther, _, same⟩ :=
    (remembering_lockstep (corresponds.embedding first second)
      first.wellFormed.closed).interfaces found memory other (fresh.alike _ freshOther)
  cases answered.symm.trans again
  refine ⟨list, images, after, afterOther, answered, answeredOther, ?_⟩
  rw [same]
  refine List.forall₂_map_right_iff.mpr (List.forall₂_same.mpr fun item listed => ?_)
  obtain ⟨_, foundItem⟩ := within item listed
  exact (corresponds.typeImage? first second foundItem).1

/-- What implements a copied member for a copied type is the copy of what
implements the member for the type. -/
theorem Corresponds.resolve {memory other : Memory} (fresh : memory.IsFresh)
    (freshOther : other.IsFresh) {typeId : TypeId} {type : TypeSymbol}
    (found : s.type? typeId = some type) {id : MemberId} {member : MemberSymbol}
    (foundMember : s.member? id = some member) :
    ∃ resolution image after afterOther,
      (s.resolve typeId id).answer memory = (.ok resolution, after) ∧
      (t.resolve (s.typeMap t typeId) (s.memberMap t id)).answer other =
        (.ok image, afterOther) ∧ resolution.SamePlaces s t image := by
  obtain ⟨resolution, after, answered, within⟩ :=
    resolve_within first.wellFormed fresh found foundMember
  obtain ⟨resolution', image, _, afterOther, again, answeredOther, _, same⟩ :=
    (remembering_lockstep (corresponds.embedding first second) first.wellFormed.closed).resolve
      first.wellFormed.closed typeId id memory other (fresh.alike _ freshOther)
  cases answered.symm.trans again
  refine ⟨resolution, image, after, afterOther, answered, answeredOther, ?_, ?_⟩
  · rw [same, Resolution.map]
    cases known : resolution.implementation with
    | none => exact .none
    | some found =>
      obtain ⟨_, foundImplementation⟩ := within.implementation known
      exact .some ⟨(corresponds.memberImage? first second foundImplementation).1, rfl⟩
  · rw [same, Resolution.map]
    cases known : resolution.closeMismatch with
    | none => exact .none
    | some close =>
      obtain ⟨_, foundCandidate⟩ := within.closeMismatch known
      exact .some ⟨(corresponds.memberImage? first second foundCandidate).1, rfl⟩

end SymbolTable

namespace Compilation

/-- A compilation has a copy of all that another knows, at the same places, and
answers about the copies as the other does. Interface lists are compared as
lists, resolutions by the members that they hold. -/
structure AnswersAgree (lib app : Compilation) : Prop where
  assemblies : ∀ {id assembly}, lib.table.assembly? id = some assembly →
    ∃ image symbol, app.table.assemblyNamed? assembly.name = some image ∧
      app.table.assembly? image = some symbol ∧ symbol.name = assembly.name
  types : ∀ {id type}, lib.table.type? id = some type → ∃ image symbol,
    lib.table.typeImage? app.table id = some image ∧ app.table.type? image = some symbol
  members : ∀ {id member}, lib.table.member? id = some member → ∃ image symbol,
    lib.table.memberImage? app.table id = some image ∧ app.table.member? image = some symbol
  flatten : ∀ {memory other : Memory} {id image type}, memory.IsFresh → other.IsFresh →
    lib.table.type? id = some type → lib.table.typeImage? app.table id = some image →
      ∃ list images after afterOther, (lib.table.flatten id).answer memory = (.ok list, after) ∧
        (app.table.flatten image).answer other = (.ok images, afterOther) ∧
        List.Forall₂ (fun a b => lib.table.typeImage? app.table a = some b) list images
  resolve : ∀ {memory other : Memory} {typeId typeImage type id image member},
    memory.IsFresh → other.IsFresh → lib.table.type? typeId = some type →
      lib.table.typeImage? app.table typeId = some typeImage →
      lib.table.member? id = some member → lib.table.memberImage? app.table id = some image →
      ∃ resolution resolutionImage after afterOther,
        (lib.table.resolve typeId id).answer memory = (.ok resolution, after) ∧
        (app.table.resolve typeImage image).answer other = (.ok resolutionImage, afterOther) ∧
        resolution.SamePlaces lib.table app.table resolutionImage

/-- Compilations whose tables keep to one catalogue answer alike. -/
theorem answersAgree_of_genuine {catalogue : Catalogue} {lib app : Compilation}
    (first : SymbolTable.Genuine catalogue lib.table)
    (second : SymbolTable.Genuine catalogue app.table)
    (names : ∀ name, lib.table.HasAssembly name → app.table.HasAssembly name) :
    lib.AnswersAgree app := by
  have corresponds : lib.table.Corresponds app.table := first.corresponds second names
  refine ⟨fun {id assembly} found => ?_, fun found => ?_, fun found => ?_,
    fun {memory other id image type} fresh freshOther found placed => ?_,
    fun {memory other typeId typeImage type id image member} fresh freshOther found placed
      foundMember placedMember => ?_⟩
  · obtain ⟨image, symbol, foundImage, same, _⟩ := corresponds found
    have distinct : app.table.DistinctNames := second.orderly.distinct
    exact ⟨image, symbol, same ▸ distinct.assemblyNamed? foundImage, foundImage, same⟩
  · obtain ⟨placed, image, foundImage⟩ :=
      corresponds.typeImage? first.orderly second.orderly found
    exact ⟨_, image, placed, foundImage⟩
  · obtain ⟨placed, image, foundImage⟩ :=
      corresponds.memberImage? first.orderly second.orderly found
    exact ⟨_, image, placed, foundImage⟩
  · obtain ⟨again, _⟩ := corresponds.typeImage? first.orderly second.orderly found
    cases placed.symm.trans again
    exact corresponds.flatten first.orderly second.orderly fresh freshOther found
  · obtain ⟨again, _⟩ := corresponds.typeImage? first.orderly second.orderly found
    cases placed.symm.trans again
    obtain ⟨againMember, _⟩ := corresponds.memberImage? first.orderly second.orderly foundMember
    cases placedMember.symm.trans againMember
    exact corresponds.resolve first.orderly second.orderly fresh freshOther found foundMember

end Compilation

namespace Manifest

/-- The assemblies of a manifest that passes validation are compiled, one for each
entry, and a compilation answers about what it imports as the compilations do
that it references, directly or not. -/
theorem compileAll_answersAgree {manifest : Manifest} (valid : manifest.validate = .ok ()) :
    ∃ done, manifest.compileAll = .ok done ∧
      done.map Compilation.name = manifest.assemblies.map ManifestEntry.name ∧
      ∀ lib ∈ done, ∀ app ∈ done,
        Relation.TransGen (ManifestEntry.References manifest.assemblies) app.name lib.name →
          lib.AnswersAgree app := by
  obtain ⟨done, catalogue, compiled, progress⟩ := compileAll_progress valid
  refine ⟨done, compiled, progress.names, fun lib inside app insideApp path => ?_⟩
  exact Compilation.answersAgree_of_genuine (progress.genuine inside)
    (progress.genuine insideApp) (progress.knows insideApp inside path)

/-- A library with an interface that a class implements by a property and by a
method of its own, and an assembly that derives from the class. -/
def drawing : Manifest where
  assemblies :=
    [ { decl :=
          { name := "Shapes"
            types :=
              [ { name := "Shape"
                  kind := .interfaceType
                  members :=
                    [ .property { name := "Name", type := "string", getter := some {} },
                      .method { name := "Area", returnType := "int" } ] },
                { name := "Square"
                  kind := .classType
                  interfaces := ["Shape"]
                  members :=
                    [ .property
                        { name := "Name"
                          modifiers := .ofList [.publicAccess]
                          type := "string"
                          getter := some { hasBody := true } },
                      .method
                        { name := "Area"
                          explicitInterface := some "Shape"
                          returnType := "int"
                          hasBody := true } ] } ] } },
      { decl :=
          { name := "Drawing"
            references := ["Shapes"]
            types := [ { name := "Tile", kind := .classType, base := some "Square" } ] } } ]

/-- The assembly of `drawing` that imports the other answers about it as it does
itself. -/
theorem drawing_answersAgree : ∃ lib app, drawing.compileAll = .ok [lib, app] ∧
    lib.name = "Shapes" ∧ app.name = "Drawing" ∧ lib.AnswersAgree app := by
  have valid : drawing.validate = .ok () := by decide
  obtain ⟨done, compiled, names, agree⟩ := compileAll_answersAgree valid
  match done, names with
  | [lib, app], names =>
    have nameLib : lib.name = "Shapes" := congrArg (fun names => names.headD "") names
    have nameApp : app.name = "Drawing" := congrArg (fun names => names.tail.headD "") names
    refine ⟨lib, app, compiled, nameLib, nameApp, agree lib (by simp) app (by simp) ?_⟩
    rw [nameLib, nameApp]
    exact .single ⟨_, List.mem_cons_of_mem _ List.mem_cons_self, rfl, List.mem_cons_self⟩

end Manifest

end Conformance
