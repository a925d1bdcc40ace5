import Conformance.Proofs.Declaration.Fields

/-!
Declarations that are written and read again.

The tree that a declaration is written as carries it, whether it is decoded as its text is read or
after it was collected (`AssemblyDecl.carried`). Its texts are read as the tree again, so they hold
the declaration too (`AssemblyDecl.read_written`). Other texts may say the same in other ways; what
is written of them is their normal form (`AssemblyDecl.normalise`).
-/

namespace Conformance

open Json (Carries Manner)
open Json.Layout (Fills)

variable {depth : Nat} (manner : Manner)

/-! ## Words -/

theorem Modifiers.ofList_toList (modifiers : Modifiers) : ofList modifiers.toList = modifiers := by
  refine ext_has fun modifier => ?_
  have known : modifier ∈ Modifier.all := by cases modifier <;> decide
  simp [ofList, toList, known]

theorem Modifiers.carried (modifiers : Modifiers) :
    Carries (depth + 1) (decode manner) modifiers.encode modifiers := by
  have words : Carries (depth + 1)
      (Json.decodeList (Json.decodeKeyword Modifier.spellings manner))
      (.array (modifiers.toList.map fun modifier => .string modifier.keyword))
      modifiers.toList :=
    .list fun modifier _ => .keyword manner (by cases modifier <;> rfl)
  rw [encode, Json.strings, List.map_map]
  refine ⟨words.fits, ?_⟩
  have reads := congrArg (Except.map ofList) words.decodes
  rw [Except.map, modifiers.ofList_toList] at reads
  exact reads

theorem RefKind.carried (kind : RefKind) :
    Carries depth (decode manner) (.string kind.keyword) kind :=
  .keyword manner (by cases kind <;> rfl)

theorem TypeKind.carried (kind : TypeKind) :
    Carries depth (decode manner) (.string kind.keyword) kind :=
  .keyword manner (by cases kind <;> rfl)

theorem MemberTag.decode_keyword (tag : MemberTag) :
    decode manner (.string tag.keyword) = .ok tag := by
  cases tag <;> rfl

/-! ## Parts of members -/

theorem Span.carried (span : Span) : Carries (depth + 1) layout.decode span.encode span := by
  have fills : layout.Fills depth ["file", "start", "length"] _ layout.start span :=
    .field rfl (.string span.file) <| .field rfl (.nat span.start) <|
      .field rfl (.nat span.length) <| .nil span
  exact fills.carries (by decide) rfl (List.nil_subset _)

theorem CoreLibrary.carried (library : CoreLibrary) :
    Carries (depth + 2) layout.decode library.encode library := by
  have fills : layout.Fills (depth + 1) ["name", "runtimeFeatures"] _ layout.start library :=
    .field rfl (.string library.name) <| .field rfl (.strings library.runtimeFeatures) <|
      .nil library
  exact fills.carries (by decide) rfl (by simp [layout, Json.field])

theorem Parameter.carried (decl : Parameter) :
    Carries (depth + 1) layout.decode decl.encode decl := by
  have fills : layout.Fills depth ["type", "refKind"] _ layout.start decl :=
    .field rfl (.string decl.type) <| .field rfl (decl.refKind.carried .collected) <| .nil decl
  exact fills.carries (by decide) rfl (by simp [layout, Json.field])

theorem AccessorDecl.carried (decl : AccessorDecl) :
    Carries (depth + 2) layout.decode decl.encode decl := by
  have fills : layout.Fills (depth + 1) ["modifiers", "hasBody", "span"] _ layout.start decl :=
    .field rfl (decl.modifiers.carried .collected) <| .field rfl (.bool decl.hasBody) <|
      .field rfl decl.span.carried <| .nil decl
  exact fills.carries (by decide) rfl (List.nil_subset _)

/-! ## Members -/

/-- A member carries itself if its fields fill it and none of them has the name of the tag. -/
theorem MemberTag.carried (tag : MemberTag) {α : Type} {layout : Json.Layout α}
    {wrap : α → MemberDecl} {names : List String} {fields : List (String × Json)} {decl : α}
    (reads : ∀ rest, tag.decodeRest rest = do return wrap (← layout.decode rest))
    (fills : layout.Fills depth names fields layout.start decl)
    (distinct : (memberTag :: names).Nodup) (complete : layout.required ⊆ fields.map Prod.fst) :
    Carries (depth + 1) (MemberDecl.decode manner) (tag.encode fields) (wrap decl) := by
  obtain ⟨other, distinct⟩ := List.nodup_cons.mp distinct
  have others : ∀ field ∈ fields, field.1 ≠ memberTag := fun field listed same =>
    other (same ▸ fills.sublist.subset (List.mem_map_of_mem listed))
  have fits : Json.Fits (depth + 1) (tag.encode fields) := by
    cases fills.fits with
    | object each => exact .object (List.forall_mem_cons.mpr ⟨.string tag.keyword, each⟩)
  have first : ((memberTag, Json.string tag.keyword) :: fields).filter
      (fun field => field.1 = memberTag) = [(memberTag, .string tag.keyword)] := by
    rw [List.filter_cons_of_pos (by simp), List.filter_eq_nil_iff.mpr (by simpa using others)]
  have rest : ((memberTag, Json.string tag.keyword) :: fields).filter
      (fun field => field.1 ≠ memberTag) = fields := by
    rw [List.filter_cons_of_neg (by simp), List.filter_eq_self.mpr (by simpa using others)]
  refine ⟨fits, ?_⟩
  have held : ¬(!(tag.encode fields).isReadable) = true := by rw [fits.isReadable]; decide
  show MemberDecl.decode manner (.object ((memberTag, .string tag.keyword) :: fields)) = _
  rw [MemberDecl.decode, first, rest]
  refine (if_neg held).trans ?_
  show Except.bind (MemberTag.decode manner (.string tag.keyword)) _ = _
  rw [tag.decode_keyword manner]
  show tag.decodeRest (.object fields) = _
  rw [reads, (fills.carries distinct rfl complete).decodes]
  rfl

theorem MethodDecl.fills (decl : MethodDecl) :
    layout.Fills (depth + 2)
      ["name", "explicitInterface", "modifiers", "parameters", "returnType", "returnsByRef",
        "hasBody", "span"] decl.encodeFields layout.start decl := by
  rw [← List.append_nil decl.encodeFields, encodeFields]
  simp only [List.append_assoc]
  exact .field rfl (.string decl.name) <|
    .fieldOf rfl (fun name => (Carries.string name).nullable nofun) rfl <|
    .field rfl (decl.modifiers.carried .collected) <|
    .field rfl (.list fun parameter _ => parameter.carried) <|
    .field rfl (.string decl.returnType) <|
    .flag rfl rfl <|
    .field rfl (.bool decl.hasBody) <| .field rfl decl.span.carried <| .nil decl

theorem PropertyDecl.fills (decl : PropertyDecl) :
    layout.Fills (depth + 2)
      ["name", "explicitInterface", "modifiers", "type", "parameters", "returnsByRef", "getter",
        "setter", "span"] decl.encodeFields layout.start decl := by
  rw [← List.append_nil decl.encodeFields, encodeFields]
  simp only [List.append_assoc]
  exact .field rfl (.string decl.name) <|
    .fieldOf rfl (fun name => (Carries.string name).nullable nofun) rfl <|
    .field rfl (decl.modifiers.carried .collected) <| .field rfl (.string decl.type) <|
    .items rfl (.list fun parameter _ => parameter.carried) rfl <|
    .flag rfl rfl <|
    .fieldOf rfl (fun accessor => accessor.carried.nullable nofun) rfl <|
    .fieldOf rfl (fun accessor => accessor.carried.nullable nofun) rfl <|
    .field rfl decl.span.carried <| .nil decl

theorem EventDecl.fills (decl : EventDecl) :
    layout.Fills (depth + 2)
      ["name", "explicitInterface", "modifiers", "type", "adder", "remover", "span"]
      decl.encodeFields layout.start decl := by
  rw [← List.append_nil decl.encodeFields, encodeFields]
  simp only [List.append_assoc]
  exact .field rfl (.string decl.name) <|
    .fieldOf rfl (fun name => (Carries.string name).nullable nofun) rfl <|
    .field rfl (decl.modifiers.carried .collected) <| .field rfl (.string decl.type) <|
    .fieldOf rfl (fun accessor => accessor.carried.nullable nofun) rfl <|
    .fieldOf rfl (fun accessor => accessor.carried.nullable nofun) rfl <|
    .field rfl decl.span.carried <| .nil decl

theorem MemberDecl.carried (decl : MemberDecl) :
    Carries (depth + 3) (decode manner) decl.encode decl := by
  cases decl with
  | method decl =>
    refine MemberTag.method.carried manner (fun _ => rfl) decl.fills (by decide) ?_
    simp [MethodDecl.layout, MethodDecl.encodeFields, Json.field]
  | property decl =>
    refine MemberTag.property.carried manner (fun _ => rfl) decl.fills (by decide) ?_
    simp [PropertyDecl.layout, PropertyDecl.encodeFields, Json.field]
  | indexer decl =>
    refine MemberTag.indexer.carried manner (fun _ => rfl) decl.fills (by decide) ?_
    simp [PropertyDecl.layout, PropertyDecl.encodeFields, Json.field]
  | event decl =>
    refine MemberTag.event.carried manner (fun _ => rfl) decl.fills (by decide) ?_
    simp [EventDecl.layout, EventDecl.encodeFields, Json.field]

/-! ## Types and assemblies -/

theorem TypeDecl.carried (decl : TypeDecl) :
    Carries (depth + 5) (layout manner).decode decl.encode decl := by
  rw [encode, ← List.append_nil (_ ++ Json.field "interfaceListSpan" _)]
  simp only [List.append_assoc]
  refine Fills.carries (?_ : (layout manner).Fills (depth + 4)
    ["name", "kind", "modifiers", "base", "interfaces", "members", "span", "interfaceListSpan"]
    _ (layout manner).start decl) (by decide) rfl (by simp [layout, Json.field])
  exact .field rfl (.string decl.name) <| .field rfl (decl.kind.carried manner) <|
    .field rfl (decl.modifiers.carried manner) <|
    .fieldOf rfl (fun name => (Carries.string name).nullable nofun) rfl <|
    .items rfl (.strings decl.interfaces) rfl <|
    .field rfl (.list fun member _ => member.carried manner) <|
    .field rfl decl.span.carried <| .field rfl decl.interfaceListSpan.carried <| .nil decl

theorem AssemblyDecl.carried (decl : AssemblyDecl) :
    Carries (depth + 7) (layout manner).decode decl.encode decl := by
  rw [encode, ← List.append_nil (_ ++ Json.field "types" _)]
  simp only [List.append_assoc]
  refine Fills.carries (?_ : (layout manner).Fills (depth + 6)
    ["name", "coreLibrary", "references", "types"] _ (layout manner).start decl)
    (by decide) rfl (by simp [layout, Json.field])
  exact .field rfl (.string decl.name) <|
    .fieldOf rfl (fun library => library.carried.nullable nofun) rfl <|
    .items rfl (.strings decl.references) rfl <|
    .field rfl (.list fun type _ => type.carried manner) <| .nil decl

/-! ## Texts -/

namespace AssemblyDecl

/-- The text that is written of the assembly that a text holds. -/
def normalise (text : String) : Except DecodeError String := do
  return (← read text).encode.compact

theorem normalise_eq {text : String} {decl : AssemblyDecl} (reads : read text = .ok decl) :
    normalise text = .ok decl.encode.compact := by
  rw [normalise, reads]
  rfl

/-- What can be written and decoded is read from each text that is written of it. -/
theorem read_written (decl : AssemblyDecl) :
    read decl.encode.compact = .ok decl ∧ read decl.encode.pretty = .ok decl := by
  have carries : Carries (0 + 7) (layout .streamed).decode decl.encode decl :=
    decl.carried .streamed
  obtain ⟨compact, pretty⟩ := (carries.fits.mono (by decide)).read
  have decodes : Json.decodeDocument (layout .streamed).decode decl.encode true = .ok decl := by
    rw [Json.decodeDocument, carries.decodes]
    rfl
  exact ⟨by rw [read, compact]; exact decodes, by rw [read, pretty]; exact decodes⟩

/-- Only one declaration is written as a text. -/
theorem written_injective {decl other : AssemblyDecl}
    (same : decl.encode.compact = other.encode.compact) : decl = other := by
  have reads := decl.read_written.1
  rw [same, other.read_written.1] at reads
  exact (Except.ok.inj reads).symm

/-- Every assembly is read back from what is written of it: from its tree, also where the tree is
collected before it is decoded, and from its text, on one line or over several. And of every text
that is read as an assembly, the text that is written is a normal form: it is read as the same
assembly and written as itself, and it is what is written of those texts only that are read as this
assembly. -/
theorem reads_normalForm :
    (∀ decl : AssemblyDecl,
      (∀ manner, (layout manner).decode decl.encode = .ok decl) ∧
        read decl.encode.compact = .ok decl ∧ read decl.encode.pretty = .ok decl) ∧
    ∀ (text : String) (decl : AssemblyDecl), read text = .ok decl →
      ∃ normal, normalise text = .ok normal ∧ read normal = .ok decl ∧
        normalise normal = .ok normal ∧
        ∀ other, normalise other = .ok normal ↔ read other = .ok decl := by
  have trees (decl : AssemblyDecl) (manner : Manner) :
      Carries (0 + 7) (layout manner).decode decl.encode decl := decl.carried manner
  refine ⟨fun decl => ⟨fun manner => (trees decl manner).decodes, decl.read_written⟩,
    fun text decl reads => ?_⟩
  have again := decl.read_written.1
  refine ⟨decl.encode.compact, normalise_eq reads, again, normalise_eq again, fun other =>
    ⟨fun written => ?_, normalise_eq⟩⟩
  cases held : read other with
  | error fault =>
    rw [normalise, held] at written
    cases written
  | ok found =>
    rw [normalise_eq held, Except.ok.injEq] at written
    rw [written_injective written]

/-- A text with white space, an unknown field, a keyword that stands twice, the other spelling of a
keyword, a truth value in quotes, a tag behind the other fields, and arrays in the place of a
member and of a span. -/
def looseText : String :=
  "\x7b\"types\": [\x7b\"name\": \"Desk\", \"kind\": \"class\", \"members\": [\x7b" ++
  "\n\"modifiers\": [\"async\", \"protectedInternal\", \"async\"], \"hasBody\": \"TRUE\"," ++
  "\n\"age\": 1.5, \"name\": \"Open\", \"member\": \"method\"\x7d," ++
  "\n[\"event\", \"Shut\", null, [], \"Action\"]], \"span\": [\"desk.cs\", 4]\x7d]," ++
  "\n\"name\": \"Hall\"\x7d\n"

/-- What the text says. -/
def looseHall : AssemblyDecl where
  name := "Hall"
  types := [{
    name := "Desk"
    kind := .classType
    members :=
      [ .method
          { name := "Open", modifiers := .ofList [.protectedInternalAccess, .async],
            hasBody := true },
        .event { name := "Shut", type := "Action" } ]
    span := { file := "desk.cs", start := 4, length := 0 } }]

theorem read_looseText : read looseText = .ok looseHall := by
  decide +kernel

theorem looseText_normalForm :
    read looseText = .ok looseHall ∧
      ∃ normal, normalise looseText = .ok normal ∧ read normal = .ok looseHall ∧
        normalise normal = .ok normal ∧
        ∀ other, normalise other = .ok normal ↔ read other = .ok looseHall :=
  ⟨read_looseText, reads_normalForm.2 looseText looseHall read_looseText⟩

end AssemblyDecl

end Conformance
