import Conformance.Proofs.Binding.Intact
import Conformance.Proofs.Compilation.Built
import Conformance.Proofs.Compilation.Run
import Conformance.Proofs.Compilation.WithoutNew

/-!
Members that hide inherited ones, and say so.

Whether a member hides an inherited one does not depend on `new`, but whether that is reported
does. So where `new` is added to the members that are reported for hiding without it, and taken
out of those that are reported for hiding nothing, no member is left to report
(`Compilation.hidingReports_amended`).
-/

namespace Conformance

/-! ## Reports -/

/-- Whether a member has to say that it hides others. Members of interfaces, explicit
implementations and overrides do not. -/
def TypeSymbol.mayHide (type : TypeSymbol) (member : MemberSymbol) : Bool :=
  !type.isInterface && !member.isExplicit && !member.modifiers.isOverride

namespace SymbolTable

variable (table : SymbolTable) (type : TypeSymbol)

/-- The inherited member that a member hides. -/
def hiddenBy? (member : MemberSymbol) : Option MemberId :=
  Lookups.hiddenMember? table member ((type.base.map table.baseChain).getD [])

/-- What is reported of a member that hides another without `new`, or none with it. -/
def hidingReport? (entry : MemberId × MemberSymbol) : Option Diagnostic :=
  if type.mayHide entry.2 then
    match table.hiddenBy? type entry.2, entry.2.isNew with
    | some hidden, false =>
      some (.breach .hidesInheritedMember entry.2.span
        [table.memberArgument entry.1, table.memberArgument hidden])
    | none, true => some (.breach .hidesNothing entry.2.span [table.memberArgument entry.1])
    | _, _ => none
  else none

variable {table type}

/-- Nothing is reported of a member that says just what it does. -/
theorem hidingReport?_eq_none {entry : MemberId × MemberSymbol}
    (fits : type.mayHide entry.2 = true →
      entry.2.isNew = (table.hiddenBy? type entry.2).isSome) :
    table.hidingReport? type entry = none := by
  unfold hidingReport?
  split
  · rename_i may
    rw [fits may]
    cases table.hiddenBy? type entry.2 <;> rfl
  · rfl

theorem checkHiding_eq_reports (isClass : type.isInterface = false) :
    Lookups.checkHiding table type = (table.membersOf type).filterMap (table.hidingReport? type) := by
  refine List.filterMap_congr fun entry _ => ?_
  obtain ⟨id, member⟩ := entry
  unfold hidingReport? TypeSymbol.mayHide
  simp only [isClass]
  cases member.isExplicit <;> cases member.modifiers.isOverride <;> rfl

theorem filterMap_hidingReport?_interface (isInterface : type.isInterface = true) :
    (table.membersOf type).filterMap (table.hidingReport? type) = [] := by
  refine List.filterMap_eq_nil_iff.mpr fun entry _ => ?_
  unfold hidingReport? TypeSymbol.mayHide
  rw [isInterface]
  rfl

/-- What is reported of hiding about the members of a type. -/
def hidingReports (table : SymbolTable) (typeId : TypeId) : List Diagnostic :=
  match table.type? typeId with
  | none => []
  | some type => (table.membersOf type).filterMap (table.hidingReport? type)

end SymbolTable

theorem Lookups.filter_checkType_hiding (lookups : Lookups Id) (table : SymbolTable)
    (assembly : AssemblyId) (typeId : TypeId) :
    (lookups.checkType table assembly typeId).run.filter
        (fun diagnostic => diagnostic.Breaks Rule.ofHiding) = table.hidingReports typeId := by
  unfold SymbolTable.hidingReports
  cases found : table.type? typeId with
  | none =>
    unfold checkType
    rw [found]
    rfl
  | some type =>
    rw [lookups.checkType_run found]
    cases kind : type.isInterface with
    | true =>
      have bodies : Reports [.runtimeLacksDefaults] (lookups.checkBodies table assembly type).run :=
        lookups.checkBodies_report
      rw [if_pos rfl, bodies.filter_others (by decide)]
      exact (SymbolTable.filterMap_hidingReport?_interface kind).symm
    | false =>
      have explicit : Reports [.explicitNotListed] (lookups.checkExplicit table typeId type).run :=
        lookups.checkExplicit_report
      have implementations : Reports Rule.ofImplementations
          (lookups.checkImplementations table assembly typeId type).run :=
        lookups.checkImplementations_report
      have hides : Reports Rule.ofHiding (checkHiding table type) := checkHiding_report
      rw [if_neg Bool.false_ne_true, List.filter_append, List.filter_append,
        explicit.filter_others (by decide), implementations.filter_others (by decide),
        hides.filter_self, SymbolTable.checkHiding_eq_reports kind]
      rfl

namespace Compilation

/-- What is reported of hiding about the members of an assembly. -/
def hidingReports (compilation : Compilation) : List Diagnostic :=
  compilation.types.flatMap compilation.table.hidingReports

/-- Of hiding, a compilation reports what its members give cause to, whatever was asked
before. -/
theorem Built.filter_hiding {compilation : Compilation} (built : compilation.Built)
    {final : Memory} {diagnostics : List Diagnostic}
    (checked : compilation.Answered final .diagnostics (.ok diagnostics)) :
    diagnostics.filter (fun diagnostic => diagnostic.Breaks Rule.ofHiding) =
      compilation.hidingReports := by
  cases checked.diagnostics built.closed
  rw [List.filter_append, built.bindingDiagnostics_report.filter_others (by decide),
    List.nil_append, List.filter_flatMap]
  exact List.flatMap_congr fun typeId _ =>
    (compilation.lookups final).filter_checkType_hiding compilation.table compilation.assembly typeId

/-- Nothing is reported of hiding, whatever was asked before. -/
def SilentOnHiding (compilation : Compilation) : Prop :=
  ∀ final, compilation.Run compilation.memory final →
    compilation.Replies final .diagnostics fun result => ∃ diagnostics, result = .ok diagnostics ∧
      ∀ diagnostic ∈ diagnostics, ¬ diagnostic.Breaks Rule.ofHiding

theorem Built.silentOnHiding {compilation : Compilation} (built : compilation.Built)
    (silent : compilation.hidingReports = []) : compilation.SilentOnHiding := by
  intro final run
  have known : Request.diagnostics.Known compilation.table := trivial
  refine .of_answered built.closed known run fun {last value} _ answered => ?_
  obtain ⟨diagnostics, same⟩ : ∃ diagnostics, value = .ok diagnostics :=
    ⟨_, answered.diagnostics built.closed⟩
  refine ⟨diagnostics, same, fun diagnostic inside breaks => ?_⟩
  rw [same] at answered
  have reported := built.filter_hiding answered
  rw [silent, List.filter_eq_nil_iff] at reported
  exact reported diagnostic inside (decide_eq_true breaks)

end Compilation

/-! ## Amendments -/

/-- The declaration with or without `new`. -/
def MemberDecl.withNew (isNew : Bool) : MemberDecl → MemberDecl
  | method decl => method { decl with modifiers := { decl.modifiers with isNew } }
  | property decl => property { decl with modifiers := { decl.modifiers with isNew } }
  | indexer decl => indexer { decl with modifiers := { decl.modifiers with isNew } }
  | event decl => event { decl with modifiers := { decl.modifiers with isNew } }

namespace MemberDecl

variable (decl : MemberDecl) (isNew : Bool)

theorem isNew_withNew : (decl.withNew isNew).modifiers.isNew = isNew := by
  cases decl <;> rfl

theorem withoutNew_withNew : (decl.withNew isNew).withoutNew = decl.withoutNew := by
  cases decl <;> rfl

/-- The declaration, as a report asks for: with `new` if it is reported for hiding without it, and
without `new` if it is reported for hiding nothing. -/
def heed (report : Diagnostic) : MemberDecl :=
  if report.Breaks [.hidesInheritedMember] then decl.withNew true
  else if report.Breaks [.hidesNothing] then decl.withNew false
  else decl

theorem heed_hidesInheritedMember (span : Span) (arguments : List Argument) :
    decl.heed (.breach .hidesInheritedMember span arguments) = decl.withNew true :=
  if_pos (Diagnostic.breaks_breach (List.mem_singleton_self _) span arguments)

theorem heed_hidesNothing (span : Span) (arguments : List Argument) :
    decl.heed (.breach .hidesNothing span arguments) = decl.withNew false := by
  have nothing : (Diagnostic.breach .hidesNothing span arguments).Breaks [.hidesNothing] :=
    Diagnostic.breaks_breach (List.mem_singleton_self _) span arguments
  have other : ¬ (Diagnostic.breach .hidesNothing span arguments).Breaks
      [.hidesInheritedMember] := fun breaks => nothing.absurd breaks (by decide)
  rw [heed, if_neg other, if_pos nothing]

theorem withoutNew_heed (report : Diagnostic) :
    (decl.heed report).withoutNew = decl.withoutNew := by
  unfold heed
  split
  · exact decl.withoutNew_withNew true
  · split
    · exact decl.withoutNew_withNew false
    · rfl

end MemberDecl

namespace SymbolTable

/-- The declaration of a member, as what is reported of it asks for. -/
def amendMember (table : SymbolTable) (type : TypeSymbol) (id : MemberId) (decl : MemberDecl) :
    MemberDecl :=
  match (table.member? id).bind fun member => table.hidingReport? type (id, member) with
  | none => decl
  | some report => decl.heed report

/-- The declaration of a type, its members amended. -/
def amendType (table : SymbolTable) (id : TypeId) (decl : TypeDecl) : TypeDecl :=
  match table.type? id with
  | none => decl
  | some type =>
    { decl with members := List.zipWith (table.amendMember type) type.members decl.members }

end SymbolTable

/-- The declaration that is compiled, with `new` added to the members that are reported for
hiding without it, and taken out of those that are reported for hiding nothing. -/
def Compilation.amended (compilation : Compilation) (decl : AssemblyDecl) : AssemblyDecl :=
  { decl with types := List.zipWith compilation.table.amendType compilation.types decl.types }

namespace SymbolTable

theorem hiddenBy?_withoutNew (table : SymbolTable) (type : TypeSymbol) (member : MemberSymbol) :
    table.withoutNew.hiddenBy? type member.withoutNew = table.hiddenBy? type member := by
  have inside (other : TypeSymbol) :
      ((table.withoutNew.membersOf other).find? fun candidate =>
        decide (candidate.2.name = member.withoutNew.name) && !candidate.2.isPrivate &&
          !candidate.2.isExplicit && Lookups.hidesInherited (.ofMember member.withoutNew)
            (.ofMember candidate.2)).map Prod.fst =
        ((table.membersOf other).find? fun candidate =>
          decide (candidate.2.name = member.name) && !candidate.2.isPrivate &&
            !candidate.2.isExplicit && Lookups.hidesInherited (.ofMember member)
              (.ofMember candidate.2)).map Prod.fst := by
    rw [membersOf_withoutNew, List.find?_map, Option.map_map]
    rfl
  have chain : table.withoutNew.baseChain = table.baseChain :=
    funext (keepsTypes_withoutNew.baseChain table)
  unfold hiddenBy? Lookups.hiddenMember?
  simp only [inside, chain]
  rfl

variable (table : SymbolTable) (type : TypeSymbol) (id : MemberId) (decl : MemberDecl)

theorem withoutNew_amendMember : (table.amendMember type id decl).withoutNew = decl.withoutNew := by
  unfold amendMember
  split
  · rfl
  · exact decl.withoutNew_heed _

variable {table type id decl} {member : MemberSymbol}

/-- The declaration of a member is amended to have `new` just if the member hides another. -/
theorem isNew_amendMember (found : table.member? id = some member)
    (declared : member.declared = decl.modifiers) (may : type.mayHide member = true) :
    (table.amendMember type id decl).modifiers.isNew = (table.hiddenBy? type member).isSome := by
  have isNew : decl.modifiers.isNew = member.isNew := (congrArg Modifiers.isNew declared).symm
  unfold amendMember hidingReport?
  simp only [found, Option.bind_some, may, if_true]
  cases table.hiddenBy? type member with
  | none =>
    cases had : member.isNew with
    | true =>
      show (decl.heed _).modifiers.isNew = false
      rw [decl.heed_hidesNothing, decl.isNew_withNew]
    | false => exact isNew.trans had
  | some hidden =>
    cases had : member.isNew with
    | true => exact isNew.trans had
    | false =>
      show (decl.heed _).modifiers.isNew = true
      rw [decl.heed_hidesInheritedMember, decl.isNew_withNew]

/-- A member that is declared as amended is not reported, if nothing but `new` has changed. -/
theorem hidingReport?_amended {image : MemberSymbol} {changed : SymbolTable}
    (same : changed.withoutNew = table.withoutNew) (found : table.member? id = some member)
    (declared : member.declared = decl.modifiers) (foundImage : changed.member? id = some image)
    (amended : image.declared = (table.amendMember type id decl).modifiers) :
    changed.hidingReport? type (id, image) = none := by
  have alike : image.withoutNew = member.withoutNew := by
    have first := table.member?_withoutNew id
    have second := changed.member?_withoutNew id
    rw [found] at first
    rw [foundImage, same, first] at second
    exact (Option.some.inj second).symm
  have hidden : changed.hiddenBy? type image = table.hiddenBy? type member := by
    rw [← changed.hiddenBy?_withoutNew, same, alike, table.hiddenBy?_withoutNew]
  refine hidingReport?_eq_none fun may => ?_
  have mayMember : type.mayHide member = true := by
    have same : type.mayHide member.withoutNew = type.mayHide image.withoutNew := by rw [alike]
    exact same.trans may
  have isNew : (table.amendMember type id decl).modifiers.isNew =
      (table.hiddenBy? type member).isSome := isNew_amendMember found declared mayMember
  rwa [← amended, ← hidden] at isNew

theorem TypeStands.withoutNew_amendType {assembly : AssemblyId} {typeId : TypeId}
    {typeDecl : TypeDecl} (stands : table.TypeStands assembly typeId typeDecl) :
    (table.amendType typeId typeDecl).withoutNew = typeDecl.withoutNew := by
  obtain ⟨type, found, _, _, _, members⟩ := stands
  have kept : (List.zipWith (table.amendMember type) type.members typeDecl.members).map
      MemberDecl.withoutNew = typeDecl.members.map MemberDecl.withoutNew :=
    map_zipWith_of_forall₂ members fun {id decl} _ => table.withoutNew_amendMember type id decl
  unfold amendType
  rw [found]
  exact congrArg (fun members => { typeDecl with members }) kept

/-- Of the members of a type that is declared as amended, none is reported, if nothing but `new`
has changed. -/
theorem TypeStands.hidingReports_amended {assembly other : AssemblyId} {typeId : TypeId}
    {typeDecl : TypeDecl} {changed : SymbolTable} (same : changed.withoutNew = table.withoutNew)
    (stands : table.TypeStands assembly typeId typeDecl)
    (amended : changed.TypeStands other typeId (table.amendType typeId typeDecl)) :
    changed.hidingReports typeId = [] := by
  obtain ⟨type, found, _, _, _, members⟩ := stands
  obtain ⟨image, foundImage, _, _, _, membersAmended⟩ := amended
  have sameType : changed.type? = table.type? := by
    have known := congrArg SymbolTable.type? same
    exact known
  obtain rfl : type = image := by
    rw [sameType, found] at foundImage
    exact Option.some.inj foundImage
  unfold amendType at membersAmended
  rw [found] at membersAmended
  unfold hidingReports
  rw [foundImage]
  refine List.filterMap_eq_nil_iff.mpr fun entry inside => ?_
  -- Each member stands for its declaration before, and for the amended one after the change.
  obtain ⟨isMember, foundEntry⟩ := member?_of_mem_membersOf inside
  obtain ⟨_, before, after⟩ := exists_of_forall₂_zipWith members membersAmended isMember
  obtain ⟨member, foundMember, _, _, _, _, _, declared, _⟩ := before
  obtain ⟨memberAfter, foundAfter, _, _, _, _, _, declaredAfter, _⟩ := after
  cases foundEntry.symm.trans foundAfter
  exact hidingReport?_amended same foundMember declared foundEntry declaredAfter

end SymbolTable

namespace Compilation

/-- The types of a compilation stand for those of the declaration that is compiled. -/
theorem ofDecl_stands (decl : AssemblyDecl) (references : List Compilation)
    (options : CompilationOptions) :
    List.Forall₂ ((ofDecl decl references options).table.TypeStands
      (ofDecl decl references options).assembly) (ofDecl decl references options).types
        decl.types := by
  have made := (addReferences_binds references).1.made .empty
  unfold types ofDecl
  generalize references.foldl addReference (∅, []) = state at made ⊢
  have bound := SymbolTable.bind_bound made.wellFormed decl state.2 (.source options.version)
  have own := bound.symbol
  unfold SymbolTable.typesOf
  rw [own]
  exact bound.stands

variable {first second : Compilation} {decl : AssemblyDecl}
  (stands : List.Forall₂ (first.table.TypeStands first.assembly) first.types decl.types)

include stands

/-- Amending a declaration changes where `new` stands, and nothing else. -/
theorem withoutNew_amended : (first.amended decl).withoutNew = decl.withoutNew := by
  have kept : (List.zipWith first.table.amendType first.types decl.types).map TypeDecl.withoutNew =
      decl.types.map TypeDecl.withoutNew :=
    map_zipWith_of_forall₂ stands SymbolTable.TypeStands.withoutNew_amendType
  exact congrArg (fun types => { decl with types }) kept

/-- Of the amended declaration, nothing is reported of hiding. -/
theorem hidingReports_amended (same : second.withoutNew = first.withoutNew)
    (standsSecond : List.Forall₂ (second.table.TypeStands second.assembly) second.types
      (first.amended decl).types) : second.hidingReports = [] := by
  have sameTable : second.table.withoutNew = first.table.withoutNew :=
    congrArg Compilation.table same
  have sameTypes : second.types = first.types := by
    have known := congrArg Compilation.types same
    exact known
  rw [sameTypes] at standsSecond
  rw [hidingReports, sameTypes, List.flatMap_eq_nil_iff]
  intro typeId listed
  obtain ⟨typeDecl, before, after⟩ := exists_of_forall₂_zipWith stands standsSecond listed
  exact SymbolTable.TypeStands.hidingReports_amended sameTable before after

omit stands

/-- What is reported of hiding is reported of the members of an assembly, and to amend its
declaration for these reports changes where `new` stands, and nothing else. -/
structure Amendable (compilation : Compilation) (decl : AssemblyDecl) : Prop where
  reports : ∀ {final diagnostics}, compilation.Answered final .diagnostics (.ok diagnostics) →
    diagnostics.filter (fun diagnostic => diagnostic.Breaks Rule.ofHiding) =
      compilation.hidingReports
  amended : (compilation.amended decl).withoutNew = decl.withoutNew

end Compilation

end Conformance
