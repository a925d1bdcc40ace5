import Conformance.Proofs.Binding.Relabelling
import Conformance.Proofs.Compilation.Obligations
import Conformance.Proofs.Compilation.Porting
import Conformance.Proofs.Compilation.Run
import Conformance.Proofs.Resolution.Transport

/-!
What runtime flags make a difference to.

A compilation and a port of it that are asked for the same, in one order, give the same
answers; only diagnostics about the runtime may be in one and not in the other
(`Compilation.Ports.answersAlike`). Where the flag of its own assembly is set, a compilation
reports none of these (`Compilation.Built.trustsRuntime`).
-/

namespace Conformance

/-- What is reported of bodies that the runtime cannot call. -/
def Rule.ofRuntime : List Rule := [runtimeLacksDefaults, runtimeLacksDefaultFor]

/-- Two lists of diagnostics are the same, but for those about the runtime. -/
def AgreeButRuntime (first second : List Diagnostic) : Prop :=
  second.filter (fun diagnostic => ¬ diagnostic.Breaks Rule.ofRuntime) =
    first.filter fun diagnostic => ¬ diagnostic.Breaks Rule.ofRuntime

namespace AgreeButRuntime

theorem of_reports {first second : List Diagnostic} (report : Reports Rule.ofRuntime first)
    (reportSecond : Reports Rule.ofRuntime second) : AgreeButRuntime first second := by
  have none {diagnostics : List Diagnostic} (report : Reports Rule.ofRuntime diagnostics) :
      diagnostics.filter (fun diagnostic => ¬ diagnostic.Breaks Rule.ofRuntime) = [] :=
    List.filter_eq_nil_iff.mpr fun diagnostic inside => by simp [report diagnostic inside]
  rw [AgreeButRuntime, none report, none reportSecond]

theorem append {first second more moreSecond : List Diagnostic}
    (agree : AgreeButRuntime first second) (agreeMore : AgreeButRuntime more moreSecond) :
    AgreeButRuntime (first ++ more) (second ++ moreSecond) := by
  rw [AgreeButRuntime, List.filter_append, List.filter_append, agree, agreeMore]

theorem flatten {first second : List (List Diagnostic)}
    (agree : List.Forall₂ AgreeButRuntime first second) :
    AgreeButRuntime first.flatten second.flatten := by
  induction agree with
  | nil => rfl
  | cons head _ ih => exact head.append ih

end AgreeButRuntime

/-! ## Tables -/

namespace SymbolTable.Relabels

variable {s t : SymbolTable} (same : s.Relabels t)

include same

theorem withAssemblies : t = s.withAssemblies t.assemblies :=
  eq_withAssemblies same.types same.members

theorem isImplementable : t.isImplementable = s.isImplementable := by
  rw [same.withAssemblies]
  rfl

theorem membersOf : t.membersOf = s.membersOf := by
  rw [same.withAssemblies]
  rfl

theorem accessorsOf : t.accessorsOf = s.accessorsOf := by
  rw [same.withAssemblies]
  rfl

theorem displayType : t.displayType = s.displayType := by
  rw [same.withAssemblies]
  rfl

theorem display : t.display = s.display := by
  rw [same.withAssemblies]
  rfl

/-- To resolution, tables that differ in assemblies are the same. -/
def embedding : Embedding s t where
  type := id
  member := id
  type_injective := Function.injective_id
  member_injective := Function.injective_id
  types place := by
    show Option.Rel _ (s.type? place) (t.type? place)
    rw [same.type?]
    exact (Embedding.refl s).types place
  members place := by
    show Option.Rel _ (s.member? place) (t.member? place)
    have alike : Option.Rel _ (s.member? place) (s.member? place) :=
      (Embedding.refl s).members place
    rw [same.member?]
    cases found : s.member? place with
    | none => exact .none
    | some member =>
      rw [found] at alike
      cases alike with
      | some alike => exact .some { alike with implementable := by rw [same.isImplementable] }

theorem baseChain : t.baseChain = s.baseChain := by
  funext typeId
  have chain := same.embedding.baseChain typeId
  rwa [show same.embedding.type = id from rfl, List.map_id] at chain

theorem checkReturnType : Lookups.checkReturnType t = Lookups.checkReturnType s := by
  rw [same.withAssemblies]
  rfl

theorem notImplemented : Lookups.notImplemented t = Lookups.notImplemented s := by
  rw [same.withAssemblies]
  rfl

theorem checkHiding : Lookups.checkHiding t = Lookups.checkHiding s := by
  have hidden : Lookups.hiddenMember? t = Lookups.hiddenMember? s := by
    rw [same.withAssemblies]
    rfl
  funext type
  unfold Lookups.checkHiding SymbolTable.memberArgument
  rw [same.baseChain, same.membersOf, same.display, hidden]

end SymbolTable.Relabels

namespace Lookups

variable {m n : Type → Type} [Monad m] [Monad n] {L : Lifting m n} {s t : SymbolTable}
  {first : Lookups m} {second : Lookups n}

/-- Lookups have the same answers about types, and answers about runtimes. -/
structure AgreeOnTypes (L : Lifting m n) (table : SymbolTable) (first : Lookups m)
    (second : Lookups n) : Prop where
  interfaces : ∀ {id type}, table.type? id = some type →
    L.rel Eq (first.interfaces id) (second.interfaces id)
  level : ∀ {id type}, table.type? id = some type → L.rel Eq (first.level id) (second.level id)
  runtime : ∀ id, L.rel (fun _ _ => True) (first.runtime id) (second.runtime id)

namespace AgreeOnTypes

variable (agree : AgreeOnTypes L s first second) (same : s.Relabels t)

include agree same

theorem defaultBody (id : MemberId) (assembly : AssemblyId) :
    L.rel (fun _ _ => True) (first.defaultBody s id assembly)
      (second.defaultBody t id assembly) := by
  unfold Lookups.defaultBody
  rw [same.member?]
  split
  · refine L.bind (agree.runtime assembly) fun supported other _ => ?_
    split <;> split <;> exact L.pure trivial
  · exact L.pure trivial

theorem checkDefaultUse (assembly : AssemblyId) (type : TypeSymbol) (id : MemberId)
    (member : MemberSymbol) :
    L.rel AgreeButRuntime (first.checkDefaultUse s assembly type id member)
      (second.checkDefaultUse t assembly type id member) := by
  have used (table : SymbolTable) : Reports Rule.ofRuntime [table.useSite type member] :=
    fun diagnostic inside => by
      rw [List.mem_singleton.mp inside]
      exact (useSite_breaks member).mono (by decide)
  unfold Lookups.checkDefaultUse
  rw [same.type?]
  split
  · exact L.pure rfl
  · refine L.bind (agree.defaultBody same id assembly) fun body other _ => ?_
    split <;> split
    · exact L.pure (.of_reports (used s) (used t))
    · exact L.pure (.of_reports (used s) .nil)
    · exact L.pure (.of_reports .nil (used t))
    · exact L.pure rfl

theorem checkBodies (assembly : AssemblyId) (type : TypeSymbol) :
    L.rel AgreeButRuntime (first.checkBodies s assembly type)
      (second.checkBodies t assembly type) := by
  unfold Lookups.checkBodies
  rw [same.membersOf, same.accessorsOf]
  extract_lets bodied
  have sites : Reports Rule.ofRuntime (bodied.map fun entry => entry.2.declarationSite) :=
    .map fun entry _ => Diagnostic.breaks_breach (by decide) _ _
  split
  · exact L.pure rfl
  · refine L.bind (agree.runtime assembly) fun supported other _ => ?_
    split <;> split
    · exact L.pure rfl
    · exact L.pure (.of_reports .nil sites)
    · exact L.pure (.of_reports sites .nil)
    · exact L.pure (.of_reports sites sites)

theorem checkExplicit {typeId : TypeId} {type : TypeSymbol} (found : s.type? typeId = some type) :
    L.rel Eq (first.checkExplicit s typeId type) (second.checkExplicit t typeId type) := by
  unfold Lookups.checkExplicit SymbolTable.memberArgument SymbolTable.typeArgument
  rw [same.membersOf, same.display, same.displayType]
  refine L.bind (agree.interfaces found) ?_
  rintro interfaces _ rfl
  exact L.pure rfl

variable [LawfulMonad m] [LawfulMonad n]

omit same in
theorem related (same : s.Relabels t) : Related L same.embedding first second where
  interfaces found := L.mono (agree.interfaces found) fun a b equal => by
    rw [equal, show same.embedding.type = id from rfl, List.map_id]
  level found := L.mono (agree.level found) fun a b equal => by
    rw [equal, show same.embedding.member = id from rfl, LevelTable.map_id]
  runtime {_ symbol image} found foundImage := by
    have foundAgain : s.type? _ = some image := (same.type? _).symm.trans foundImage
    cases found.symm.trans foundAgain
    exact agree.runtime symbol.assembly

theorem resolve (closed : s.Closed) (typeId : TypeId) (id : MemberId) :
    L.rel Eq (first.resolve s typeId id) (second.resolve t typeId id) :=
  L.mono ((agree.related same).resolve closed typeId id) fun a b equal => by
    rw [equal, show same.embedding.member = fun id => id from rfl]
    exact (Resolution.map_id a).symm

theorem checkClause (closed : s.Closed) (assembly : AssemblyId) (typeId : TypeId)
    (type : TypeSymbol) (accessor : MemberId × MemberSymbol) :
    L.rel AgreeButRuntime (first.checkClause s assembly typeId type accessor)
      (second.checkClause t assembly typeId type accessor) := by
  unfold Lookups.checkClause
  rw [same.isImplementable, same.notImplemented]
  split
  · refine L.bind (agree.resolve same closed typeId accessor.1) ?_
    rintro resolution _ rfl
    cases resolution.source? with
    | none => exact L.pure rfl
    | some source =>
      cases source with
      | default => exact agree.checkDefaultUse same assembly type accessor.1 accessor.2
      | _ => exact L.pure rfl
  · exact L.pure rfl

theorem checkMember (closed : s.Closed) (assembly : AssemblyId) (typeId : TypeId)
    (type : TypeSymbol) (member : MemberId × MemberSymbol) :
    L.rel AgreeButRuntime (first.checkMember s assembly typeId type member)
      (second.checkMember t assembly typeId type member) := by
  have clauses : L.rel (List.Forall₂ AgreeButRuntime)
      ((s.accessorsOf member.2).mapM (first.checkClause s assembly typeId type))
      ((s.accessorsOf member.2).mapM (second.checkClause t assembly typeId type)) :=
    L.mapM_self fun accessor _ => agree.checkClause same closed assembly typeId type accessor
  unfold Lookups.checkMember
  rw [same.notImplemented, same.checkReturnType, same.accessorsOf]
  refine L.bind (agree.resolve same closed typeId member.1) ?_
  rintro resolution _ rfl
  cases resolution.implementation with
  | none => exact L.pure rfl
  | some implementation =>
    obtain ⟨found, source⟩ := implementation
    cases source with
    | default => exact agree.checkDefaultUse same assembly type member.1 member.2
    | _ =>
      refine L.bind clauses fun diagnostics others reported => ?_
      exact L.pure (.append rfl (.flatten reported))

theorem checkImplementations (closed : s.Closed) (assembly : AssemblyId) {typeId : TypeId}
    {type : TypeSymbol} (found : s.type? typeId = some type) :
    L.rel AgreeButRuntime (first.checkImplementations s assembly typeId type)
      (second.checkImplementations t assembly typeId type) := by
  unfold Lookups.checkImplementations
  rw [same.isImplementable, same.membersOf, funext same.type?]
  refine L.bind (agree.interfaces found) ?_
  rintro interfaces _ rfl
  refine L.bind (L.mapM_self fun member _ =>
    agree.checkMember same closed assembly typeId type member) ?_
  exact fun diagnostics others reported => L.pure (.flatten reported)

/-- Only diagnostics about the runtime depend on answers about runtimes. -/
theorem checkType (closed : s.Closed) (assembly : AssemblyId) (typeId : TypeId) :
    L.rel AgreeButRuntime (first.checkType s assembly typeId)
      (second.checkType t assembly typeId) := by
  unfold Lookups.checkType
  rw [same.type?, same.checkHiding]
  cases found : s.type? typeId with
  | none => exact L.pure rfl
  | some type =>
    simp only
    split
    · exact agree.checkBodies same assembly type
    · refine L.bind (agree.checkExplicit same found) ?_
      rintro explicit _ rfl
      refine L.bind (agree.checkImplementations same closed assembly found) ?_
      exact fun implementations others reported =>
        L.pure (.append (.append rfl reported) rfl)

theorem implementationEntry (closed : s.Closed) (typeId : TypeId) (id : MemberId) :
    L.rel Eq (first.implementationEntry s typeId id) (second.implementationEntry t typeId id) := by
  unfold Lookups.implementationEntry
  rw [same.displayType, same.display]
  refine L.bind (agree.resolve same closed typeId id) ?_
  rintro resolution _ rfl
  exact L.pure rfl

theorem implementationEntries (closed : s.Closed) (typeId : TypeId) :
    L.rel Eq (first.implementationEntries s typeId) (second.implementationEntries t typeId) := by
  have implementable : implementableMembers t = implementableMembers s := by
    rw [same.withAssemblies]
    rfl
  unfold Lookups.implementationEntries
  rw [implementable, funext same.type?]
  cases found : s.type? typeId with
  | none => exact L.pure rfl
  | some type =>
    split
    · refine L.bind (agree.interfaces found) ?_
      rintro interfaces _ rfl
      exact L.mapM_eq fun id _ => agree.implementationEntry same closed typeId id
    · exact L.pure rfl

end AgreeOnTypes

end Lookups

/-! ## Requests -/

/-- Two answers to a request are the same, but for what is said about runtimes. -/
def Request.Agrees {α : Type} : Request α → α → α → Prop
  | .check _, first, second => AgreeButRuntime first second
  | .diagnostics, .ok first, .ok second => AgreeButRuntime first second
  | .diagnostics, .error first, .error second => second = first
  | .diagnostics, _, _ => False
  | .runtime _, _, _ => True
  | _, first, second => second = first

/-- Two requests led to one fault, or to answers that agree. -/
inductive RepliesAgree {α : Type} (agrees : α → α → Prop) :
    Except Fault α → Except Fault α → Prop where
  | fault (fault : Fault) : RepliesAgree agrees (.error fault) (.error fault)
  | answer {first second : α} (agree : agrees first second) :
    RepliesAgree agrees (.ok first) (.ok second)

theorem SymbolTable.Relabels.remembering {s t : SymbolTable} (same : s.Relabels t)
    (closed : s.Closed) : Lookups.AgreeOnTypes (Memory.lockstep same.embedding) s s.remembering
      t.remembering where
  interfaces found :=
    Lifting.mono _ ((remembering_lockstep same.embedding closed).interfaces found)
      fun a b equal => by
        rw [equal, show same.embedding.type = id from rfl, List.map_id]
  level found :=
    Lifting.mono _ ((remembering_lockstep same.embedding closed).level found) fun a b equal => by
      rw [equal, show same.embedding.member = id from rfl, LevelTable.map_id]
  runtime id := readRuntime_lockstep same.embedding id id

namespace Compilation

/-- Two compilations were asked for the same, in one order. -/
inductive AskedAlike (first second : Compilation) : Memory → Memory → Prop where
  | start : AskedAlike first second first.memory second.memory
  | ask {memory other : Memory} (before : AskedAlike first second memory other) {α : Type}
    (request : Request α) :
    AskedAlike first second (first.reply request memory).2 (second.reply request other).2

/-- Two compilations that were asked for the same give answers that agree. -/
def AnswersAlike (first second : Compilation) : Prop :=
  ∀ {memory other : Memory}, AskedAlike first second memory other →
    ∀ {α : Type} (request : Request α),
      RepliesAgree request.Agrees (first.reply request memory).1 (second.reply request other).1

namespace Ports

variable {first second : Compilation} (ports : first.Ports second)

include ports

theorem types : second.types = first.types := by
  rw [Compilation.types, Compilation.types, ports.assembly, ports.table.relabels.typesOf]

section

variable {m n : Type → Type} [Monad m] [Monad n] [LawfulMonad m] [LawfulMonad n]
  {L : Lifting m n} {lookups : Lookups m} {others : Lookups n}
  (agree : Lookups.AgreeOnTypes L first.table lookups others) (closed : first.table.Closed)

include agree closed

theorem checkTypes (token : CancellationToken) :
    L.rel Request.diagnostics.Agrees (first.checkTypes lookups token)
      (second.checkTypes others token) := by
  unfold Compilation.checkTypes
  rw [ports.types, ports.assembly]
  split
  · exact L.pure rfl
  · cases token.check with
    | error stop => exact L.pure rfl
    | ok =>
      refine L.bind (L.mapM_self fun typeId _ =>
        agree.checkType ports.table.relabels closed first.assembly typeId) ?_
      exact fun diagnostics others reported => L.pure (AgreeButRuntime.flatten reported)

theorem check (token : CancellationToken) :
    L.rel Request.diagnostics.Agrees (first.check lookups token) (second.check others token) := by
  refine L.bind (ports.checkTypes agree closed token) fun result other agrees => ?_
  rw [ports.bindingDiagnostics]
  cases result <;> cases other
  · exact L.pure agrees
  · exact agrees.elim
  · exact agrees.elim
  · exact L.pure (AgreeButRuntime.append rfl agrees)

theorem implementationMap :
    L.rel Eq (first.implementationMap lookups) (second.implementationMap others) := by
  unfold Compilation.implementationMap
  rw [ports.types]
  refine L.bind (L.mapM_eq fun typeId _ =>
    agree.implementationEntries ports.table.relabels closed typeId) ?_
  rintro entries _ rfl
  exact L.pure rfl

theorem perform {α : Type} {request : Request α} (known : request.Known first.table) :
    L.rel request.Agrees (first.perform lookups request) (second.perform others request) := by
  have flip {α : Type} {query : m α} {other : n α} (related : L.rel Eq query other) :
      L.rel (fun a b => b = a) query other := L.mono related fun _ _ equal => equal.symm
  cases request with
  | interfaces id =>
    rcases known with ⟨_, found⟩
    exact flip (agree.interfaces found)
  | implementation typeId id =>
    exact flip (agree.resolve ports.table.relabels closed typeId id)
  | implementationMap => exact flip (ports.implementationMap agree closed)
  | check id =>
    unfold Compilation.perform
    rw [ports.assembly]
    exact agree.checkType ports.table.relabels closed first.assembly id
  | diagnostics => exact ports.check agree closed {}
  | runtime id => exact agree.runtime id

end

/-- From memories that are alike, requests lead to answers that agree and to memories that
are alike. -/
theorem reply (closed : first.table.Closed) {memory other : Memory}
    (alike : Memory.Alike ports.table.relabels.embedding memory other) {α : Type}
    (request : Request α) :
    RepliesAgree request.Agrees (first.reply request memory).1 (second.reply request other).1 ∧
      Memory.Alike ports.table.relabels.embedding (first.reply request memory).2
        (second.reply request other).2 := by
  by_cases known : request.Known first.table
  · have agree := ports.table.relabels.remembering closed
    rcases ports.perform agree closed known memory other alike with
      ⟨value, image, after, afterOther, answered, answeredOther, kept, agrees⟩
    have answer : first.reply request memory = _ := answered
    have answerOther : second.reply request other = _ := answeredOther
    rw [answer, answerOther]
    exact ⟨.answer agrees, kept⟩
  · cases request with
    | interfaces id =>
      have missing : first.table.type? id = none :=
        Option.eq_none_iff_forall_ne_some.mpr fun type found => known ⟨type, found⟩
      have missingImage : second.table.type? id = none :=
        (ports.table.relabels.type? id).trans missing
      have image : other.interfaces.find? id.index = memory.interfaces.find? id.index := by
        have mapped : other.interfaces.find? id.index =
            (memory.interfaces.find? id.index).map (List.map fun id => id) := alike.interfaces id
        simpa using mapped
      rw [reply_missing missing, reply_missing missingImage, image]
      refine ⟨?_, alike⟩
      cases memory.interfaces.find? id.index with
      | some list => exact .answer rfl
      | none => exact .fault _
    | _ => exact absurd trivial known

theorem alike (closed : first.table.Closed) {memory other : Memory}
    (asked : AskedAlike first second memory other) :
    Memory.Alike ports.table.relabels.embedding memory other := by
  induction asked with
  | start => exact first.memory_isFresh.alike _ second.memory_isFresh
  | ask _ request ih => exact (ports.reply closed ih request).2

/-- A compilation and a port of it give answers that agree. -/
theorem answersAlike (closed : first.table.Closed) : first.AnswersAlike second :=
  fun asked _ request => (ports.reply closed (ports.alike closed asked) request).1

end Ports

end Compilation

/-! ## Flags that are set -/

namespace Lookups

variable (lookups : Lookups Id) {table : SymbolTable} {assembly : AssemblyId} {typeId : TypeId}
  {type : TypeSymbol} (supported : (lookups.runtime assembly).run = true)

include supported

theorem checkDefaultUse_supported (id : MemberId) (member : MemberSymbol) :
    (lookups.checkDefaultUse table assembly type id member).run = [] := by
  unfold checkDefaultUse
  split
  · rfl
  · rw [Id.run_bind, defaultBody_run, supported]
    split <;> rfl

theorem checkBodies_supported : (lookups.checkBodies table assembly type).run = [] := by
  rw [checkBodies_run, supported, if_pos rfl, ite_self]

theorem checkClause_supported (entry : MemberId × MemberSymbol) :
    Reports Rule.ofMissing (lookups.checkClause table assembly typeId type entry).run := by
  rw [checkClause_run]
  split
  · split
    · intro diagnostic inside
      rw [List.mem_singleton.mp inside]
      exact notImplemented_breaks _ _
    · rw [lookups.checkDefaultUse_supported supported]
      exact .nil
    · exact .nil
  · exact .nil

theorem checkMember_supported (entry : MemberId × MemberSymbol) :
    Reports (.candidateReturnType :: Rule.ofMissing)
      (lookups.checkMember table assembly typeId type entry).run := by
  rw [checkMember_run]
  split
  · intro diagnostic inside
    rw [List.mem_singleton.mp inside]
    exact (notImplemented_breaks _ _).mono (by decide)
  · rw [lookups.checkDefaultUse_supported supported]
    exact .nil
  · refine .append ?_ ?_
    · split
      · exact (checkReturnType_report _ _ _).mono (by decide)
      · exact .nil
    · rw [← List.flatMap_def]
      exact .flatMap fun accessor _ =>
        (lookups.checkClause_supported supported accessor).mono (by decide)

/-- What the checks report of a type where the runtime can call bodies of interfaces. -/
theorem checkType_supported :
    Reports (.explicitNotListed :: .candidateReturnType :: (Rule.ofMissing ++ Rule.ofHiding))
      (lookups.checkType table assembly typeId).run := by
  cases found : table.type? typeId with
  | none =>
    unfold checkType
    rw [found]
    exact .nil
  | some type =>
    rw [lookups.checkType_run found, lookups.checkBodies_supported supported]
    split
    · exact .nil
    · refine .append (.append ?_ ?_) (checkHiding_report.mono (by decide))
      · exact lookups.checkExplicit_report.mono (by decide)
      · rw [checkImplementations_run, ← List.flatMap_def]
        exact .flatMap fun entry _ =>
          (lookups.checkMember_supported supported entry).mono (by decide)

end Lookups

namespace Compilation

/-- Nothing about the runtime is reported, whatever was asked before. -/
structure TrustsRuntime (compilation : Compilation) : Prop where
  diagnostics : ∀ {final}, compilation.Run compilation.memory final →
    compilation.Replies final .diagnostics fun result => ∃ diagnostics, result = .ok diagnostics ∧
      ∀ diagnostic ∈ diagnostics, ¬ diagnostic.Breaks Rule.ofRuntime
  check : ∀ {final}, compilation.Run compilation.memory final → ∀ typeId,
    compilation.Replies final (.check typeId) fun diagnostics =>
      ∀ diagnostic ∈ diagnostics, ¬ diagnostic.Breaks Rule.ofRuntime

/-- A compilation whose flag is set reports nothing about the runtime. -/
theorem Built.trustsRuntime {compilation : Compilation} (built : compilation.Built)
    (supported : compilation.runtimeFlag compilation.assembly = true) :
    compilation.TrustsRuntime := by
  have quiet (final : Memory) (typeId : TypeId) : ∀ diagnostic ∈
      ((compilation.lookups final).checkType compilation.table compilation.assembly typeId).run,
      ¬ diagnostic.Breaks Rule.ofRuntime := fun diagnostic inside breaks =>
    ((compilation.lookups final).checkType_supported supported diagnostic inside).absurd breaks
      (by decide)
  refine ⟨fun {final} run => ?_, fun {final} run typeId => ?_⟩
  · have known : Request.diagnostics.Known compilation.table := trivial
    refine .of_answered built.closed known run fun {last value} _ answered => ?_
    rw [answered.diagnostics built.closed]
    refine ⟨_, rfl, fun diagnostic inside => ?_⟩
    rcases List.mem_append.mp inside with bound | checked
    · exact fun breaks =>
        (built.bindingDiagnostics_report diagnostic bound).absurd breaks (by decide)
    · rcases List.mem_flatMap.mp checked with ⟨typeId, _, reported⟩
      exact quiet last typeId diagnostic reported
  · have known : (Request.check typeId).Known compilation.table := trivial
    refine .of_answered built.closed known run fun {last value} _ answered => ?_
    have value_eq : value = ((compilation.lookups last).checkType compilation.table
      compilation.assembly typeId).run := answered.eq built.closed
    rw [value_eq]
    exact quiet last typeId

end Compilation

end Conformance
