import Conformance.Manifest.Basic
import Conformance.Proofs.Compilation.Copying
import Mathlib.Logic.Relation

/-!
Compilations of manifests.

The assemblies of a manifest that passes validation can all be compiled
(`Manifest.compileAll_progress`). Each of the compilations knows its own assembly
and those that it references, directly or not, and all of them agree on the
outline of the assembly of a name.
-/

namespace Conformance

namespace ManifestEntry

/-- An entry of a list names an assembly among its references. -/
def References (entries : List ManifestEntry) (app lib : String) : Prop :=
  ∃ entry ∈ entries, entry.name = app ∧ lib ∈ entry.decl.references

theorem References.mono {entries later : List ManifestEntry} (listed : entries ⊆ later)
    {app lib : String} (references : References entries app lib) : References later app lib := by
  obtain ⟨entry, inside, name, referenced⟩ := references
  exact ⟨entry, listed inside, name, referenced⟩

theorem References.path_mono {entries later : List ManifestEntry} (listed : entries ⊆ later)
    {app lib : String} (path : Relation.TransGen (References entries) app lib) :
    Relation.TransGen (References later) app lib :=
  Relation.TransGen.mono (fun _ _ => References.mono listed) _ _ path

end ManifestEntry

/-- A catalogue in which an assembly is listed anew. -/
def Catalogue.insert (catalogue : Catalogue) (name : String) (outline? : Option AssemblyOutline) :
    Catalogue := fun other => if other = name then outline? else catalogue other

theorem Catalogue.insert_self (catalogue : Catalogue) (name : String)
    (outline? : Option AssemblyOutline) : catalogue.insert name outline? name = outline? :=
  if_pos rfl

theorem Catalogue.insert_of_ne (catalogue : Catalogue) {name other : String}
    (apart : other ≠ name) (outline? : Option AssemblyOutline) :
    catalogue.insert name outline? other = catalogue other :=
  if_neg apart

namespace Compilation

variable {catalogue : Catalogue} {decl : AssemblyDecl} {references : List Compilation}
  {options : CompilationOptions} {compilation : Compilation}

/-- The assembly of a compilation is that of its declaration. -/
theorem Compiles.own (compiles : Compiles catalogue decl references options compilation) :
    ∃ assembly, compilation.table.assembly? compilation.assembly = some assembly ∧
      assembly.name = decl.name := by
  obtain ⟨_, _, _, _, _, bound, table, assembly, _⟩ := compiles.bound
  rw [table, assembly]
  exact ⟨_, bound.symbol, rfl⟩

theorem Compiles.hasOwn (compiles : Compiles catalogue decl references options compilation) :
    compilation.table.HasAssembly compilation.name := by
  obtain ⟨_, found, _⟩ := compiles.own
  exact (hasAssembly_of_found found).2

end Compilation

namespace Manifest

open Compilation (Compiles ofDecl ownOutline?)
open ManifestEntry (References)

section

variable {done references : List Compilation} {names : List String}
  (related : List.Forall₂ (fun name reference => reference ∈ done ∧ reference.name = name)
    names references)

include related

/-- Compilations that are taken by name are among those done, and have these names. -/
theorem mem_of_referenced {reference : Compilation} (inside : reference ∈ references) :
    reference ∈ done ∧ reference.name ∈ names := by
  obtain ⟨_, listed, isDone, rfl⟩ := exists_of_mem_forall₂ (List.Forall₂.flip related) inside
  exact ⟨isDone, listed⟩

theorem names_of_referenced : references.map Compilation.name = names :=
  (map_eq_of_forall₂ (List.Forall₂.flip (related.imp fun _ _ => And.right))).symm

end

/-- A compilation of an entry, against those that are done. -/
def Compiled (catalogue : Catalogue) (done : List Compilation) (entry : ManifestEntry)
    (compilation : Compilation) : Prop :=
  ∃ references, Compiles catalogue entry.decl references entry.options compilation ∧
    List.Forall₂ (fun name reference => reference ∈ done ∧ reference.name = name)
      entry.decl.references references

theorem Compiled.mono {catalogue later : Catalogue} {done more : List Compilation}
    {entry : ManifestEntry} {compilation : Compilation}
    (compiled : Compiled catalogue done entry compilation) (listed : catalogue.Extends later)
    (kept : done ⊆ more) : Compiled later more entry compilation := by
  obtain ⟨references, compiles, related⟩ := compiled
  exact ⟨references, compiles.mono listed,
    related.imp fun _ _ ⟨inside, name⟩ => ⟨kept inside, name⟩⟩

/-- What compiling entries has led to. -/
structure Progress (catalogue : Catalogue) (entries : List ManifestEntry)
    (done : List Compilation) : Prop where
  distinct : (entries.map ManifestEntry.name).Nodup
  compiled : List.Forall₂ (Compiled catalogue done) entries done
  listed : ∀ {name outline}, catalogue name = some outline →
    name ∈ entries.map ManifestEntry.name
  /-- A compilation knows no assembly that it does not reference. -/
  known : ∀ {compilation name}, compilation ∈ done → compilation.table.HasAssembly name →
    name = compilation.name ∨ ∃ lib ∈ done, lib.name = name ∧
      Relation.TransGen (References entries) compilation.name name

variable {catalogue : Catalogue} {entries : List ManifestEntry} {done : List Compilation}

theorem progress_nil : Progress (fun _ => none) [] [] where
  distinct := List.nodup_nil
  compiled := .nil
  listed := nofun
  known := nofun

namespace Progress

variable (progress : Progress catalogue entries done)

include progress

/-- Every compilation is that of an entry. -/
theorem entry {compilation : Compilation} (inside : compilation ∈ done) :
    ∃ entry ∈ entries,
      Compiled catalogue done entry compilation ∧ compilation.name = entry.name := by
  obtain ⟨entry, listed, compiled⟩ :=
    exists_of_mem_forall₂ (List.Forall₂.flip progress.compiled) inside
  obtain ⟨references, compiles, related⟩ := compiled
  exact ⟨entry, listed, ⟨references, compiles, related⟩, compiles.name⟩

theorem genuine {compilation : Compilation} (inside : compilation ∈ done) :
    SymbolTable.Genuine catalogue compilation.table := by
  obtain ⟨_, _, ⟨_, compiles, _⟩, _⟩ := progress.entry inside
  exact compiles.genuine

theorem hasOwn {compilation : Compilation} (inside : compilation ∈ done) :
    compilation.table.HasAssembly compilation.name := by
  obtain ⟨_, _, ⟨_, compiles, _⟩, _⟩ := progress.entry inside
  exact compiles.hasOwn

theorem names : done.map Compilation.name = entries.map ManifestEntry.name :=
  (map_eq_map_of_forall₂ progress.compiled fun _ _ ⟨_, compiles, _⟩ => compiles.name).symm

/-- There is one compilation of a name. -/
theorem unique {first second : Compilation} (inside : first ∈ done) (insideSecond : second ∈ done)
    (same : first.name = second.name) : first = second := by
  have distinct := progress.distinct
  rw [← progress.names] at distinct
  exact List.inj_on_of_nodup_map distinct inside insideSecond same

/-- A compilation knows all that the compilations that it references know. -/
theorem references {app : Compilation} (inside : app ∈ done) {name : String}
    (referenced : References entries app.name name) :
    ∃ lib ∈ done, lib.name = name ∧
      ∀ other, lib.table.HasAssembly other → app.table.HasAssembly other := by
  obtain ⟨entry, listed, same, isReference⟩ := referenced
  obtain ⟨own, listedOwn, ⟨references, compiles, related⟩, name⟩ := progress.entry inside
  obtain rfl : entry = own :=
    List.inj_on_of_nodup_map progress.distinct listed listedOwn (same.trans name)
  obtain ⟨lib, isDone, kept, called⟩ := exists_of_mem_forall₂ related isReference
  exact ⟨lib, kept, called, fun other has => (compiles.names other).mpr (.inr ⟨lib, isDone, has⟩)⟩

theorem knows {app lib : Compilation} (inside : app ∈ done) (insideLib : lib ∈ done)
    (path : Relation.TransGen (References entries) app.name lib.name) (name : String)
    (has : lib.table.HasAssembly name) : app.table.HasAssembly name := by
  generalize called : app.name = start at path
  induction path using Relation.TransGen.head_induction_on generalizing app with
  | single referenced =>
    obtain ⟨other, kept, same, more⟩ := progress.references inside (called ▸ referenced)
    obtain rfl := progress.unique kept insideLib same
    exact more name has
  | head referenced _ ih =>
    obtain ⟨other, kept, same, more⟩ := progress.references inside (called ▸ referenced)
    exact more name (ih kept same)

/-- The compilation of a name that is done. -/
theorem compiled? {name : String} (inside : name ∈ entries.map ManifestEntry.name) :
    ∃ compilation ∈ done, compilation.name = name ∧
      Manifest.compiled? done name = some compilation := by
  obtain ⟨entry, listed, rfl⟩ := List.mem_map.mp inside
  obtain ⟨compilation, isDone, _, compiles, _⟩ := exists_of_mem_forall₂ progress.compiled listed
  have some : (Manifest.compiled? done entry.name).isSome = true := by
    rw [Manifest.compiled?, List.find?_isSome]
    exact ⟨compilation, List.mem_reverse.mpr isDone, decide_eq_true compiles.name⟩
  obtain ⟨last, found⟩ := Option.isSome_iff_exists.mp some
  refine ⟨last, List.mem_reverse.mp (List.mem_of_find?_eq_some found), ?_, found⟩
  have same := List.find?_some (p := fun other : Compilation => other.name = entry.name) found
  exact of_decide_eq_true same

/-- The compilations that an entry references, if their entries have been
compiled. -/
theorem referencesOf {entry : ManifestEntry}
    (listed : ∀ name ∈ entry.decl.references, name ∈ entries.map ManifestEntry.name) :
    ∃ references, Manifest.referencesOf done entry = .ok references ∧
      List.Forall₂ (fun name reference => reference ∈ done ∧ reference.name = name)
        entry.decl.references references := by
  unfold Manifest.referencesOf
  generalize entry.decl.references = names at listed
  induction names with
  | nil => exact ⟨[], rfl, .nil⟩
  | cons name names ih =>
    obtain ⟨compilation, isDone, same, found⟩ := progress.compiled? (listed name List.mem_cons_self)
    obtain ⟨references, rest, related⟩ := ih fun other inside =>
      listed other (List.mem_cons_of_mem _ inside)
    refine ⟨compilation :: references, ?_, .cons ⟨isDone, same⟩ related⟩
    rw [List.mapM_cons, found, rest]
    rfl

section

variable {entry : ManifestEntry} {references : List Compilation}
  (isDone : ∀ reference ∈ references, reference ∈ done ∧
    reference.name ∈ entry.decl.references)

include isDone

/-- The compilation of an entry knows its own assembly and those that it references, directly
or not. -/
theorem known_step {later : Catalogue} {compilation : Compilation}
    (compiles : Compiles later entry.decl references entry.options compilation) {name : String}
    (has : compilation.table.HasAssembly name) :
    name = compilation.name ∨ ∃ lib ∈ done, lib.name = name ∧
      Relation.TransGen (References (entries ++ [entry])) compilation.name name := by
  rcases (compiles.names name).mp has with own | ⟨reference, inside, has⟩
  · exact .inl (own.trans compiles.name.symm)
  · obtain ⟨kept, referenced⟩ := isDone reference inside
    have direct : References (entries ++ [entry]) compilation.name reference.name :=
      ⟨entry, List.mem_append_right _ List.mem_cons_self, compiles.name.symm, referenced⟩
    rcases progress.known kept has with own | ⟨lib, keptLib, same, path⟩
    · exact .inr ⟨reference, kept, own.symm, own ▸ .single direct⟩
    · exact .inr ⟨lib, keptLib, same, .head direct
        (References.path_mono (List.subset_append_left entries [entry]) path)⟩

variable (fresh : entry.name ∉ entries.map ManifestEntry.name)

include fresh

omit isDone in
/-- What is listed before an entry stays listed. -/
theorem extends_insert (outline? : Option AssemblyOutline) :
    catalogue.Extends (catalogue.insert entry.name outline?) := by
  intro name outline known
  have apart : name ≠ entry.name := fun same => fresh (same ▸ progress.listed known)
  exact (catalogue.insert_of_ne apart outline?).trans known

/-- The compilation of an entry, with its outline listed. -/
theorem compiles : Compiles
    (catalogue.insert entry.name (ofDecl entry.decl references entry.options).ownOutline?)
    entry.decl references entry.options (ofDecl entry.decl references entry.options) := by
  refine Compilation.ofDecl_compiles entry.decl entry.options
    (fun reference inside => (progress.genuine (isDone reference inside).1).mono
      (progress.extends_insert fresh _))
    (fun reference inside => progress.hasOwn (isDone reference inside).1)
    (fun reference inside => ?_) (catalogue.insert_self entry.name _)
  rintro ⟨id, assembly, known, same⟩
  have outline := (progress.genuine (isDone reference inside).1).outlines known
  rw [same] at outline
  exact fresh (progress.listed outline)

end

/-- An entry is compiled after those that it references. -/
theorem step {entry : ManifestEntry}
    (listed : ∀ name ∈ entry.decl.references, name ∈ entries.map ManifestEntry.name)
    (fresh : entry.name ∉ entries.map ManifestEntry.name) :
    ∃ references later, Manifest.referencesOf done entry = .ok references ∧
      Progress later (entries ++ [entry])
        (done ++ [ofDecl entry.decl references entry.options]) := by
  obtain ⟨references, found, related⟩ := progress.referencesOf listed
  have isDone : ∀ reference ∈ references, reference ∈ done ∧
      reference.name ∈ entry.decl.references := fun _ => mem_of_referenced related
  have compiles := progress.compiles isDone fresh
  refine ⟨references, catalogue.insert entry.name
    (ofDecl entry.decl references entry.options).ownOutline?, found, ?_⟩
  generalize ofDecl entry.decl references entry.options = compilation at compiles ⊢
  refine ⟨?_, ?_, ?_, ?_⟩
  · rw [List.map_append]
    exact nodup_append_singleton progress.distinct fresh
  · have old := progress.compiled.imp fun _ _ compiled =>
      compiled.mono (progress.extends_insert fresh compilation.ownOutline?)
        (List.subset_append_left done [compilation])
    refine List.rel_append old (.cons ⟨references, compiles, ?_⟩ .nil)
    exact related.imp fun _ _ ⟨kept, same⟩ => ⟨List.mem_append_left _ kept, same⟩
  · intro name outline known
    rw [List.map_append]
    by_cases own : name = entry.name
    · exact List.mem_append_right _ (List.mem_singleton.mpr own)
    · exact List.mem_append_left _
        (progress.listed ((catalogue.insert_of_ne own _).symm.trans known))
  · intro other name inside has
    rcases List.mem_append.mp inside with old | new
    · rcases progress.known old has with own | ⟨lib, kept, same, path⟩
      · exact .inl own
      · exact .inr ⟨lib, List.mem_append_left _ kept, same,
          References.path_mono (List.subset_append_left entries [entry]) path⟩
    · obtain rfl := List.mem_singleton.mp new
      rcases progress.known_step isDone compiles has with own | ⟨lib, kept, known⟩
      · exact .inl own
      · exact .inr ⟨lib, List.mem_append_left _ kept, known⟩

end Progress

/-! ## Validation -/

theorem validateEntry_ok {earlier : List String} {entry : ManifestEntry}
    (valid : validateEntry earlier entry = .ok ()) :
    (∀ name ∈ entry.decl.references, name ∈ earlier) ∧ entry.name ∉ earlier := by
  unfold validateEntry at valid
  split at valid
  · cases valid
  · rename_i none
    split at valid
    · cases valid
    · rename_i fresh
      refine ⟨fun name inside => ?_, fresh⟩
      have present := List.find?_eq_none.mp none name inside
      simpa using present

/-- Entries that pass validation after those that have been compiled are compiled. -/
theorem compileEntries_progress {rest : List ManifestEntry} {earlier : List String}
    (valid : validateEntries earlier rest = .ok ())
    (names : ∀ name, name ∈ earlier ↔ name ∈ entries.map ManifestEntry.name)
    (progress : Progress catalogue entries done) :
    ∃ all later, compileEntries done rest = .ok all ∧ Progress later (entries ++ rest) all := by
  induction rest generalizing catalogue entries done earlier with
  | nil => exact ⟨done, catalogue, rfl, by rwa [List.append_nil]⟩
  | cons entry rest ih =>
    unfold validateEntries at valid
    cases first : validateEntry earlier entry with
    | error error =>
      rw [first] at valid
      cases valid
    | ok _ =>
      rw [first] at valid
      obtain ⟨listed, fresh⟩ := validateEntry_ok first
      obtain ⟨references, middle, found, next⟩ := progress.step
        (fun name inside => (names name).mp (listed name inside))
        (fun inside => fresh ((names _).mpr inside))
      have grown : ∀ name, name ∈ entry.name :: earlier ↔
          name ∈ (entries ++ [entry]).map ManifestEntry.name := by
        intro name
        rw [List.mem_cons, names, List.map_append, List.mem_append, or_comm, List.map_singleton,
          List.mem_singleton]
      obtain ⟨all, later, compiled, last⟩ := ih valid grown next
      refine ⟨all, later, ?_, ?_⟩
      · rw [compileEntries, found]
        exact compiled
      · rwa [List.append_assoc] at last

/-- A manifest that passes validation is compiled. -/
theorem compileAll_progress {manifest : Manifest} (valid : manifest.validate = .ok ()) :
    ∃ done catalogue, manifest.compileAll = .ok done ∧
      Progress catalogue manifest.assemblies done := by
  unfold validate at valid
  split at valid
  · cases valid
  · exact compileEntries_progress valid (fun _ => Iff.rfl) progress_nil

end Manifest

end Conformance
