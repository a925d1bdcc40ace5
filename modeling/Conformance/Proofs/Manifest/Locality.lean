import Conformance.Proofs.Compilation.Schedules
import Conformance.Proofs.Manifest.Answers
import Conformance.Proofs.Manifest.Validation

/-!
What a report depends on.

Binding is a function of a declaration and of the compilations that it is compiled
against. So manifests that have the same entries for an assembly and for all that it
leads to compile it to one compilation, whatever else they list and in which order
(`Manifest.compilation_eq`), and by every schedule they report the same on it
(`Manifest.reportOn_eq_of_sameEntries`). The schedule itself makes a difference only where a path
is cut off (`Compilation.Built.report_of_short`).
-/

namespace Conformance

namespace Manifest

open Compilation (ofDecl)
open ManifestEntry (References)

/-- Two manifests list one entry for an assembly. -/
def SameEntry (first second : Manifest) (name : String) : Prop :=
  ∃ entry ∈ first.assemblies, entry.name = name ∧ entry ∈ second.assemblies

/-- Two manifests list the same entries for an assembly and for all that it references,
directly or not. -/
def SameEntries (first second : Manifest) (name : String) : Prop :=
  ∀ other, Relation.ReflTransGen (References first.assemblies) name other →
    first.SameEntry second other

variable {first second : Manifest} {done others : List Compilation}

theorem SameEntries.of_reference {name lib : String} (same : first.SameEntries second name)
    (referenced : References first.assemblies name lib) : first.SameEntries second lib :=
  fun _ path => same _ (.head referenced path)

/-- It suffices to look at names that lead to none but each other. -/
theorem sameEntries_of_closed {names : List String} {name : String} (inside : name ∈ names)
    (closed : ∀ entry ∈ first.assemblies, entry.name ∈ names → entry.decl.references ⊆ names)
    (same : ∀ other ∈ names, first.SameEntry second other) : first.SameEntries second name := by
  intro other path
  have reached : other ∈ names := by
    induction path with
    | refl => exact inside
    | tail _ step ih =>
      obtain ⟨entry, listed, called, referenced⟩ := step
      exact closed entry listed (called ▸ ih) referenced
  exact same other reached

/-- The entry that a compilation of some name is of. -/
theorem exists_entry {manifest : Manifest} (ordered : manifest.Ordered)
    (compiled : List.Forall₂ (IsCompiled done) manifest.assemblies done)
    {compilation : Compilation} (inside : compilation ∈ done) {entry : ManifestEntry}
    (listed : entry ∈ manifest.assemblies) (same : compilation.name = entry.name) :
    IsCompiled done entry compilation := by
  obtain ⟨own, isEntry, isCompiled⟩ :=
    exists_of_mem_forall₂ (List.Forall₂.flip compiled) inside
  have name : compilation.name = own.name := IsCompiled.name isCompiled
  have isOwn : own = entry :=
    List.inj_on_of_nodup_map ordered.distinct isEntry listed (name.symm.trans same)
  exact isOwn ▸ isCompiled

/-- Same entries are compiled to one compilation. -/
theorem compilation_eq (orderedFirst : first.Ordered) (orderedSecond : second.Ordered)
    (compiledFirst : List.Forall₂ (IsCompiled done) first.assemblies done)
    (compiledSecond : List.Forall₂ (IsCompiled others) second.assemblies others)
    {compilation other : Compilation} (inside : compilation ∈ done) (insideOther : other ∈ others)
    (called : other.name = compilation.name)
    (same : first.SameEntries second compilation.name) : compilation = other := by
  obtain ⟨entry, listed, name, listedSecond⟩ := same _ .refl
  obtain ⟨position, found⟩ := List.getElem?_of_mem listed
  -- By induction on the position of the entry: references stand before it.
  induction position using Nat.strongRecOn generalizing compilation other entry with
  | ind position ih =>
    obtain ⟨references, compiled, related⟩ :=
      exists_entry orderedFirst compiledFirst inside listed name.symm
    obtain ⟨images, compiledOther, relatedOther⟩ :=
      exists_entry orderedSecond compiledSecond insideOther listedSecond (called.trans name.symm)
    have sameReferences : references = images := by
      refine eq_of_forall₂ related relatedOther fun lib referenced reference image => ?_
      intro ⟨isDone, nameFirst⟩ ⟨isOther, nameSecond⟩
      obtain ⟨earlier, libEntry, below, foundLib, libName⟩ := orderedFirst.listed found referenced
      have reached : References first.assemblies compilation.name lib :=
        ⟨entry, listed, name, referenced⟩
      obtain ⟨shared, isShared, sharedName, sharedSecond⟩ := same lib (.single reached)
      have isLib : libEntry = shared := List.inj_on_of_nodup_map orderedFirst.distinct
        (List.mem_of_getElem? foundLib) isShared (libName.trans sharedName.symm)
      refine ih earlier below isDone isOther (nameSecond.trans nameFirst.symm) ?_ libEntry
        (List.mem_of_getElem? foundLib) (libName.trans nameFirst.symm) (isLib ▸ sharedSecond)
        foundLib
      exact nameFirst ▸ same.of_reference reached
    rw [compiled, compiledOther, sameReferences]

/-- The compilation that is selected for a name. -/
theorem selected_of_mem {compilation : Compilation} (inside : compilation ∈ done)
    (distinct : (done.map Compilation.name).Nodup) :
    selected done (some compilation.name) = .ok compilation := by
  simp only [selected]
  cases found : done.find? fun other => other.name = compilation.name with
  | none =>
    have absent := List.find?_eq_none.mp found compilation inside
    simp at absent
  | some other =>
    have name := List.find?_some (p := fun other : Compilation =>
      other.name = compilation.name) found
    rw [List.inj_on_of_nodup_map distinct (List.mem_of_find?_eq_some found) inside
      (of_decide_eq_true name)]

/-- The report on an assembly that is listed is that on its compilation. -/
theorem reportOn_of_mem {compilation : Compilation} (inside : compilation ∈ done)
    (distinct : (done.map Compilation.name).Nodup) {implementations : Bool} {schedule : List Nat}
    {report : Report} (reported : compilation.report implementations schedule = .ok report) :
    reportOn done (some compilation.name) implementations schedule = .ok report := by
  unfold reportOn
  rw [selected_of_mem inside distinct]
  show (compilation.report implementations schedule).mapError ManifestError.broken = _
  rw [reported]
  rfl

/-- By every schedule there is a report on each assembly of a manifest, and it depends only on the
entries of the assembly and of what it references, directly or not. -/
theorem reportOn_eq_of_sameEntries (validFirst : first.validate = .ok ())
    (validSecond : second.validate = .ok ()) {name : String}
    (same : first.SameEntries second name) (implementations : Bool) (schedule : List Nat) :
    ∃ report,
      (do reportOn (← first.compileAll) (some name) implementations schedule) = .ok report ∧
        (do reportOn (← second.compileAll) (some name) implementations schedule) =
          .ok report := by
  obtain ⟨done, _, compileFirst, progressFirst⟩ := compileAll_progress validFirst
  obtain ⟨others, _, compileSecond, progressSecond⟩ := compileAll_progress validSecond
  obtain ⟨compiledFirst, built⟩ := compileAll_isCompiled compileFirst
  obtain ⟨compiledSecond, _⟩ := compileAll_isCompiled compileSecond
  obtain ⟨entry, listed, rfl, listedSecond⟩ := same _ .refl
  obtain ⟨compilation, inside, isCompiled⟩ := exists_of_mem_forall₂ compiledFirst listed
  obtain ⟨other, insideOther, isCompiledOther⟩ :=
    exists_of_mem_forall₂ compiledSecond listedSecond
  have called : compilation.name = entry.name := IsCompiled.name isCompiled
  have calledOther : other.name = entry.name := IsCompiled.name isCompiledOther
  have one : compilation = other := compilation_eq (validate_iff_ordered.mp validFirst)
    (validate_iff_ordered.mp validSecond) compiledFirst compiledSecond inside insideOther
    (calledOther.trans called.symm) (called ▸ same)
  obtain ⟨report, reported⟩ :=
    (built compilation inside).exists_report implementations schedule
  refine ⟨report, ?_, ?_⟩
  · rw [compileFirst, ← called]
    exact reportOn_of_mem inside (progressFirst.names ▸ progressFirst.distinct) reported
  · rw [compileSecond, ← calledOther]
    exact reportOn_of_mem insideOther (progressSecond.names ▸ progressSecond.distinct)
      (one ▸ reported)

/-- The assemblies of `drawing`, and one with two classes that uses both. -/
def gallery : Manifest where
  assemblies :=
    drawing.assemblies ++
      [ { decl :=
            { name := "Gallery"
              references := ["Drawing", "Shapes"]
              types :=
                [ { name := "Hall", kind := .classType, base := some "Tile" },
                  { name := "Wing", kind := .classType, interfaces := ["Shape"] } ] } } ]

/-- The assemblies of `gallery` among others. -/
def museum : Manifest where
  assemblies :=
    [{ decl := { name := "Frames", types := [{ name := "Shape", kind := .structType }] } }] ++
      gallery.assemblies ++
      [{ decl := { name := "Museum", references := ["Frames", "Gallery"] } }]

/-- The others do not matter for the report on an assembly of `gallery`, whose two classes are
checked in turns. -/
theorem gallery_reportOn : ∃ report,
    (do reportOn (← gallery.compileAll) (some "Gallery") true [1, 0, 1, 0, 0]) = .ok report ∧
      (do reportOn (← museum.compileAll) (some "Gallery") true [1, 0, 1, 0, 0]) =
        .ok report := by
  have same : gallery.SameEntries museum "Gallery" := by
    have inside : "Gallery" ∈ ["Gallery", "Drawing", "Shapes"] := by decide
    refine sameEntries_of_closed inside (by decide) ?_
    intro other inside
    unfold SameEntry
    revert other inside
    decide
  exact reportOn_eq_of_sameEntries (by decide) (by decide) same true [1, 0, 1, 0, 0]

end Manifest

end Conformance
