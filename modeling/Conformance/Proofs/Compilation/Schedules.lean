import Conformance.Proofs.Compilation.Built
import Conformance.Proofs.Compilation.Faithful
import Conformance.Proofs.Resolution.Sharing

/-!
Reports by schedules.

The threads that check the types of an assembly share one memory, and where interface lists are
cut off the report may depend on how they take turns. Among the schedules are those that check the
types one after another in some order (`Pool.exists_schedule`,
`Compilation.Built.answer_checkType`). Three things are shown:

* two compilations that look the same from their assemblies have by every schedule the same
  report (`Compilation.Faithful.report`), and so there is a report by every schedule
  (`Compilation.Built.exists_report`);
* without a schedule the report is that of checks one after another
  (`Compilation.Built.report_nil`);
* where no path is cut off, all schedules lead to one report
  (`Compilation.Built.report_of_short`).
-/

namespace Conformance

/-! ## Lookups -/

namespace SymbolTable

variable {s t : SymbolTable} (e : Embedding s t) (own image : AssemblyId) (closed : s.Closed)

include closed

/-- Lookups of threads in two tables fit each other. -/
theorem sharing_relatedAt : Lookups.RelatedAt (Thread.together (Memory.AlikeAt e own image)) e own
    image s.sharing t.sharing where
  toRelated := sharing_together e closed
  ownRuntime := ownRuntimeSharing_together e

/-- Lookups with memory in two tables run in step. -/
theorem remembering_relatedAt (closedSecond : t.Closed) :
    Lookups.RelatedAt (Memory.inStep (Memory.AlikeAt e own image)) e own image s.remembering
      t.remembering where
  interfaces found := by
    obtain ⟨_, foundImage, _⟩ := e.type?_some found
    exact Thread.Together.queries ((sharing_together e closed).interfaces found)
      ((sharing_likeQueries closed).interfaces found)
      ((sharing_likeQueries closedSecond).interfaces foundImage)
  level found := by
    obtain ⟨_, foundImage, _⟩ := e.type?_some found
    exact Thread.Together.queries ((sharing_together e closed).level found)
      ((sharing_likeQueries closed).level found)
      ((sharing_likeQueries closedSecond).level foundImage)
  runtime _ _ := Thread.Together.queries (runtimeSharing_together e _ _)
    (runtimeSharing_likeQueries _) (runtimeSharing_likeQueries _)
  ownRuntime := Thread.Together.queries (ownRuntimeSharing_together e)
    (runtimeSharing_likeQueries _) (runtimeSharing_likeQueries _)

end SymbolTable

/-! ## Compilations that look the same -/

/-- A table looks the same from an assembly if nothing is moved. -/
theorem Embedding.Faithful.refl (table : SymbolTable) (own : AssemblyId) :
    (Embedding.refl table).Faithful own own where
  typeName found again := by cases found.symm.trans again; rfl
  interfaceListSpan found again := by cases found.symm.trans again; rfl
  assembly found again := by cases found.symm.trans again; rfl
  signature found again := by cases found.symm.trans again; rfl
  explicitInterface found again := by cases found.symm.trans again; rfl
  isPrivate found again := by cases found.symm.trans again; rfl
  span found again := by cases found.symm.trans again; rfl
  text found again _ _ := by cases found.symm.trans again; exact ⟨rfl, rfl, rfl, rfl⟩

namespace Compilation

namespace Faithful

theorem refl (compilation : Compilation) :
    compilation.Faithful compilation (Embedding.refl compilation.table) where
  symbols := .refl compilation.table compilation.assembly
  types := by rw [Embedding.refl_type, List.map_id]
  name := rfl
  bindingDiagnostics := rfl
  flag := rfl

variable {first second : Compilation} {e : Embedding first.table second.table}
  (faithful : first.Faithful second e) (wellFormed : first.table.WellFormed)

include faithful

theorem memory : Memory.AlikeAt e first.assembly second.assembly first.memory second.memory where
  toAlike := first.memory_isFresh.alike e second.memory_isFresh
  flag := faithful.flag

include wellFormed

/-- The threads that check the types of both fit each other. -/
theorem checkThreads : List.Forall₂
    (Thread.Together (Memory.AlikeAt e first.assembly second.assembly) Eq) first.checkThreads
      second.checkThreads := by
  have related :=
    SymbolTable.sharing_relatedAt e first.assembly second.assembly wellFormed.closed
  have checks := faithful.checkTypes related wellFormed
  exact List.forall₂_map_left_iff.mpr (List.forall₂_map_right_iff.mpr checks)

theorem diagnosticsBy (schedule : List Nat) :
    (Memory.inStep (Memory.AlikeAt e first.assembly second.assembly)).rel Eq
      (first.diagnosticsBy schedule) (second.diagnosticsBy schedule) := by
  let L := Memory.inStep (Memory.AlikeAt e first.assembly second.assembly)
  have types : L.rel Eq (first.checkTypesBy schedule {}) (second.checkTypesBy schedule {}) := by
    unfold checkTypesBy
    rw [faithful.types, List.isEmpty_map]
    split
    · exact L.pure rfl
    · have together := Thread.sideBySide_together (faithful.checkThreads wellFormed) schedule
      refine L.bind together fun diagnostics _ same => ?_
      rw [List.forall₂_eq_eq_eq] at same
      exact L.pure (by rw [same])
  refine L.bind types fun result _ same => ?_
  subst same
  rw [faithful.bindingDiagnostics]
  cases result <;> exact L.pure rfl

/-- By every schedule both compilations have one report. -/
theorem report (closedSecond : second.table.Closed) (implementations : Bool)
    (schedule : List Nat) : ∃ report, first.report implementations schedule = .ok report ∧
      second.report implementations schedule = .ok report := by
  have related := SymbolTable.remembering_relatedAt e first.assembly second.assembly
    wellFormed.closed closedSecond
  obtain ⟨report, other, _, _, answered, answeredSecond, _, equal⟩ :=
    faithful.reportWith related wellFormed (faithful.diagnosticsBy wellFormed schedule)
      implementations _ _ faithful.memory
  subst equal
  exact ⟨report, congrArg Prod.fst answered, congrArg Prod.fst answeredSecond⟩

end Faithful

/-- Threads that find what checks one after another find lead to the same diagnostics. -/
theorem diagnosticsBy_of_checks {n : Type → Type} [Monad n] [LawfulMonad n]
    (L : Lifting QueryM n) {compilation : Compilation} {lookups : Lookups n} {schedule : List Nat}
    (checks : L.rel Eq (Thread.sideBySide compilation.checkThreads schedule)
      (compilation.types.mapM (lookups.checkType compilation.table compilation.assembly))) :
    L.rel Eq (compilation.diagnosticsBy schedule) (compilation.diagnostics lookups) := by
  have types : L.rel Eq (compilation.checkTypesBy schedule {})
      (compilation.checkTypes lookups {}) := by
    unfold checkTypesBy checkTypes
    split
    · exact L.pure rfl
    · refine L.bind checks fun diagnostics _ same => ?_
      subst same
      exact L.pure rfl
  unfold diagnosticsBy diagnostics check
  rw [bind_assoc]
  refine L.bind types fun result _ same => ?_
  subst same
  rw [pure_bind]
  cases result <;> exact L.pure rfl

namespace Built

variable {compilation : Compilation} (built : compilation.Built)

include built

/-- By every schedule there is a report on a compilation that is built. -/
theorem exists_report (implementations : Bool) (schedule : List Nat) :
    ∃ report, compilation.report implementations schedule = .ok report := by
  obtain ⟨report, reported, _⟩ := (Faithful.refl compilation).report built.wellFormed built.closed
    implementations schedule
  exact ⟨report, reported⟩

/-! ## One type after another -/

/-- A check that no other interrupts is a request for the diagnostics of its type. -/
theorem answer_checkType (id : TypeId) (memory : Memory) :
    (compilation.table.sharing.checkType compilation.table compilation.assembly id).alone.answer
      memory = compilation.reply (.check id) memory := by
  have agree := SymbolTable.sharing_likeQueries built.closed
  obtain ⟨diagnostics, _, after, answered, replied, rfl⟩ :=
    agree.checkType built.closed compilation.assembly id memory
  exact answered.trans replied.symm

theorem diagnosticsBy_nil : (Memory.inStep Eq).rel Eq (compilation.diagnosticsBy [])
    (compilation.diagnostics compilation.table.remembering) := by
  let L := Memory.inStep Eq
  have agree := SymbolTable.sharing_likeQueries built.closed
  have threads : List.Forall₂ (fun thread id => thread =
      compilation.table.sharing.checkType compilation.table compilation.assembly id)
      compilation.checkThreads compilation.types :=
    List.forall₂_map_left_iff.mpr (List.forall₂_same.mpr fun _ _ => rfl)
  have checks : L.rel Eq (Thread.sideBySide compilation.checkThreads [])
      (compilation.types.mapM
        (compilation.table.remembering.checkType compilation.table compilation.assembly)) := by
    refine L.mapM_congr threads fun thread id same => ?_
    rw [same]
    exact Thread.alone_inStep (agree.checkType built.closed compilation.assembly id)
  exact diagnosticsBy_of_checks L checks

/-- Without a schedule, the report is that of checks one after another. -/
theorem report_nil (implementations : Bool) : compilation.report implementations [] =
    ((compilation.reportWith compilation.table.remembering
      (compilation.diagnostics compilation.table.remembering) implementations).answer
        compilation.memory).1 := by
  obtain ⟨diagnostics, _, after, _, answered, answeredToo, rfl, rfl⟩ :=
    built.diagnosticsBy_nil compilation.memory _ rfl
  unfold report reportWith
  rw [QueryM.answer_bind_ok answered, QueryM.answer_bind_ok answeredToo]

/-! ## Short paths -/

section

variable (short : compilation.table.PathsWithin SymbolTable.longestPath)

include short

theorem diagnosticsBy_of_short (schedule : List Nat) :
    (Memory.coherent compilation.table compilation.runtimeFlag).rel Eq
      (compilation.diagnosticsBy schedule)
      (compilation.diagnostics (compilation.table.pureLookups compilation.runtimeFlag)) := by
  let L := Memory.coherent compilation.table compilation.runtimeFlag
  let lookups := compilation.table.pureLookups compilation.runtimeFlag
  have agree := SymbolTable.sharing_gives built.closed short compilation.runtimeFlag
  have given : List.Forall₂ (fun thread value =>
      Thread.Gives (Memory.Coherent compilation.table compilation.runtimeFlag) Eq value thread)
      compilation.checkThreads (compilation.types.mapM (m := Id)
        (lookups.checkType compilation.table compilation.assembly)) := by
    rw [show compilation.types.mapM (m := Id) _ = compilation.types.map _ from List.idRun_mapM]
    refine List.forall₂_map_left_iff.mpr (List.forall₂_map_right_iff.mpr ?_)
    exact List.forall₂_same.mpr fun id _ =>
      agree.checkType built.closed compilation.assembly id
  have checks := Thread.sideBySide_gives given schedule
  rw [List.forall₂_eq_eq_eq] at checks
  exact diagnosticsBy_of_checks L checks

/-- Where no path is cut off, the report is the same by every schedule: that which is made
without memory. -/
theorem report_of_short (implementations : Bool) (schedule : List Nat) :
    compilation.report implementations schedule = .ok (Id.run
      (compilation.reportWith (compilation.table.pureLookups compilation.runtimeFlag)
        (compilation.diagnostics (compilation.table.pureLookups compilation.runtimeFlag))
        implementations)) := by
  have agree := SymbolTable.remembering_coherent built.closed short compilation.runtimeFlag
  have related : Lookups.RelatedAt (Memory.coherent compilation.table compilation.runtimeFlag)
      (Embedding.refl compilation.table) compilation.assembly compilation.assembly
      compilation.table.remembering (compilation.table.pureLookups compilation.runtimeFlag) :=
    { toRelated := agree.related
      ownRuntime := agree.runtime compilation.assembly }
  obtain ⟨report, after, answered, _, rfl⟩ := (Faithful.refl compilation).reportWith related
    built.wellFormed (built.diagnosticsBy_of_short short schedule) implementations _
    compilation.coherent_memory
  exact congrArg Prod.fst answered

end

end Built

end Compilation

end Conformance
