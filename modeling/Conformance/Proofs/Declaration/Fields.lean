import Conformance.Declaration.Decoding
import Conformance.Proofs.Json.Texts

/-!
Trees that carry values.

A tree carries a value if it can be written and is decoded to the value (`Json.Carries`). An object
carries the value that its fields make, one after another, of the value of an object without fields
(`Json.Layout.Fills.carries`); a field may be left out where its part is the one that an object
without it has.
-/

namespace Conformance

namespace Json

/-! ## Trees that are held as a whole -/

theorem areReadable_iff (items : List Json) :
    areReadable items = true ↔ ∀ item ∈ items, item.isReadable = true := by
  induction items with
  | nil => simp [areReadable]
  | cons item items ih => simp [areReadable, ih]

theorem haveReadable_iff (fields : List (String × Json)) :
    haveReadable fields = true ↔ ∀ field ∈ fields, field.2.isReadable = true := by
  induction fields with
  | nil => simp [haveReadable]
  | cons field fields ih => simp [haveReadable, ih]

/-- A tree that can be written is held as a whole. -/
theorem Fits.isReadable {depth : Nat} {tree : Json} (fits : Fits depth tree) :
    tree.isReadable = true := by
  induction fits with
  | array _ ih => exact (areReadable_iff _).mpr ih
  | object _ ih => exact (haveReadable_iff _).mpr ih
  | _ => rfl

/-- A tree that can be written can be written with more room. -/
theorem Fits.mono {depth room : Nat} {tree : Json} (fits : Fits depth tree) (le : depth ≤ room) :
    Fits room tree := by
  induction fits generalizing room with
  | null => exact .null
  | bool value => exact .bool value
  | nat small => exact .nat small
  | string text => exact .string text
  | array _ ih =>
    obtain ⟨room, rfl⟩ := Nat.exists_eq_add_of_le' (Nat.le_of_add_left_le le)
    exact .array fun item listed => ih item listed (Nat.le_of_add_le_add_right le)
  | object _ ih =>
    obtain ⟨room, rfl⟩ := Nat.exists_eq_add_of_le' (Nat.le_of_add_left_le le)
    exact .object fun field listed => ih field listed (Nat.le_of_add_le_add_right le)

variable {α β : Type} {depth : Nat}

/-! ## Values -/

/-- A tree that can be written, and that a decoder reads as a value. -/
structure Carries (depth : Nat) (decode : Decoder α) (tree : Json) (value : α) : Prop where
  fits : Fits depth tree
  decodes : decode tree = .ok value

namespace Carries

theorem string (text : String) : Carries depth decodeString (string text) text :=
  ⟨.string text, rfl⟩

theorem bool (value : Bool) : Carries depth decodeBool (bool value) value :=
  ⟨.bool value, rfl⟩

theorem nat (n : UInt32) : Carries depth decodeUInt32 (nat n.toNat) n := by
  refine ⟨.nat n.toNat_lt, ?_⟩
  show (if n.toNat < UInt32.size then _ else _) = _
  rw [if_pos n.toNat_lt, UInt32.ofNat_toNat]

theorem list {decode : Decoder α} {encode : α → Json} {items : List α}
    (each : ∀ item ∈ items, Carries depth decode (encode item) item) :
    Carries (depth + 1) (decodeList decode) (array (items.map encode)) items where
  fits := .array <| List.forall_mem_map.mpr fun item listed => (each item listed).fits
  decodes := by
    show decodeItems decode (items.map encode) = _
    induction items with
    | nil => rfl
    | cons item items ih =>
      obtain ⟨first, each⟩ := List.forall_mem_cons.mp each
      rw [List.map_cons, decodeItems, first.decodes, ih each]
      rfl

theorem strings (texts : List String) :
    Carries (depth + 1) (decodeList decodeString) (strings texts) texts :=
  list fun text _ => string text

/-- What is not null may stand in the place of an optional part. -/
theorem nullable {decode : Decoder α} {tree : Json} {value : α}
    (carries : Carries depth decode tree value) (held : tree ≠ null) :
    Carries depth (decodeNullable decode) tree (some value) where
  fits := carries.fits
  decodes := by
    rw [decodeNullable, carries.decodes]
    · rfl
    · exact held

/-- A word of a table in which no word stands twice. -/
theorem keyword {table : List (String × α)} (manner : Manner) {word : String} {value : α}
    (known : table.lookup word = some value) :
    Carries depth (decodeKeyword table manner) (.string word) value :=
  ⟨.string word, by rw [decodeKeyword, known]⟩

end Carries

/-! ## Objects -/

namespace Layout

/-- A field whose tree can be written, and which makes one value of another. -/
structure Puts (layout : Layout α) (depth : Nat) (name : String) (tree : Json)
    (value result : α) : Prop where
  fits : Fits depth tree
  sets : ∃ set, layout.field? name = some set ∧ set tree value = .ok result

/-- Fields that stand in the order of some names, and make one value of another, one after
another. -/
inductive Fills (layout : Layout α) (depth : Nat) :
    List String → List (String × Json) → α → α → Prop where
  | nil (value : α) : Fills layout depth [] [] value value
  | skip {names : List String} {fields : List (String × Json)} {value result : α} (name : String)
    (later : Fills layout depth names fields value result) :
    Fills layout depth (name :: names) fields value result
  | cons {names : List String} {fields : List (String × Json)} {value middle result : α}
    {name : String} {tree : Json} (puts : layout.Puts depth name tree value middle)
    (later : Fills layout depth names fields middle result) :
    Fills layout depth (name :: names) ((name, tree) :: fields) value result

variable {layout : Layout α} {names : List String} {fields : List (String × Json)}
  {value result : α} {name : String} {tree : Json}

/-- A field whose tree is decoded and put into its part. -/
theorem Puts.of_decode {decode : Decoder β} {put : β → α → α} {part : β}
    (known : layout.field? name = some fun tree value => do return put (← decode tree) value)
    (carries : Carries depth decode tree part) :
    layout.Puts depth name tree value (put part value) :=
  ⟨carries.fits, _, known, by rw [carries.decodes]; rfl⟩

namespace Fills

/-- A field that is always written. -/
theorem field {decode : Decoder β} {put : β → α → α} {part : β}
    (known : layout.field? name = some fun tree value => do return put (← decode tree) value)
    (carries : Carries depth decode tree part)
    (later : layout.Fills depth names fields (put part value) result) :
    layout.Fills depth (name :: names) (Json.field name tree ++ fields) value result :=
  .cons (.of_decode known carries) later

/-- A field that is written only if a condition holds, and otherwise leaves its part as it is. -/
theorem fieldIf {condition : Bool} {decode : Decoder β} {put : β → α → α} {part : β}
    (known : layout.field? name = some fun tree value => do return put (← decode tree) value)
    (carries : condition = true → Carries depth decode tree part)
    (leaves : condition = false → put part value = value)
    (later : layout.Fills depth names fields (put part value) result) :
    layout.Fills depth (name :: names) (Json.fieldIf condition name tree ++ fields)
      value result := by
  cases condition with
  | true => exact .cons (.of_decode known (carries rfl)) later
  | false =>
    rw [leaves rfl] at later
    exact .skip name later

/-- A flag that is written only if it is set. -/
theorem flag {put : Bool → α → α} {part : Bool}
    (known : layout.field? name = some fun tree value => do return put (← decodeBool tree) value)
    (leaves : put false value = value)
    (later : layout.Fills depth names fields (put part value) result) :
    layout.Fills depth (name :: names) (Json.fieldIf part name (.bool true) ++ fields)
      value result := by
  refine fieldIf known (fun set => ?_) (fun unset => ?_) later
  · rw [set]
    exact .bool true
  · rw [unset]
    exact leaves

/-- A list that is written only if it has items. -/
theorem items {decode : Decoder (List β)} {put : List β → α → α} {part : List β}
    (known : layout.field? name = some fun tree value => do return put (← decode tree) value)
    (carries : Carries depth decode tree part) (leaves : put [] value = value)
    (later : layout.Fills depth names fields (put part value) result) :
    layout.Fills depth (name :: names) (Json.fieldIf (!part.isEmpty) name tree ++ fields)
      value result := by
  refine fieldIf known (fun _ => carries) (fun empty => ?_) later
  rw [Bool.not_eq_false', List.isEmpty_iff] at empty
  rw [empty]
  exact leaves

/-- A field that is written if its part is there. -/
theorem fieldOf {encode : β → Json} {decode : Decoder (Option β)} {put : Option β → α → α}
    {part : Option β}
    (known : layout.field? name = some fun tree value => do return put (← decode tree) value)
    (carries : ∀ part, Carries depth decode (encode part) (some part))
    (leaves : put none value = value)
    (later : layout.Fills depth names fields (put part value) result) :
    layout.Fills depth (name :: names) (Json.fieldOf name encode part ++ fields)
      value result := by
  cases part with
  | some part => exact .cons (.of_decode known (carries part)) later
  | none =>
    rw [leaves] at later
    exact .skip name later

variable (fills : layout.Fills depth names fields value result)

include fills

theorem fits : Fits (depth + 1) (object fields) := by
  refine .object ?_
  induction fills with
  | nil => exact nofun
  | skip _ _ ih => exact ih
  | cons puts _ ih => exact List.forall_mem_cons.mpr ⟨puts.fits, ih⟩

theorem sublist : (fields.map Prod.fst).Sublist names := by
  induction fills with
  | nil => exact .slnil
  | skip name _ ih => exact ih.cons name
  | cons _ _ ih => exact ih.cons_cons _

/-- The fields are read one after another. -/
theorem readFields (distinct : names.Nodup) (seen : List String)
    (fresh : ∀ name ∈ names, name ∉ seen) :
    layout.readFields seen value fields =
      .ok ((fields.map Prod.fst).reverse ++ seen, result) := by
  induction fills generalizing seen with
  | nil => rfl
  | skip name _ ih =>
    exact ih (List.nodup_cons.mp distinct).2 seen
      fun other listed => fresh other (List.mem_cons_of_mem _ listed)
  | @cons names fields value middle result name tree puts _ ih =>
    obtain ⟨absent, distinct⟩ := List.nodup_cons.mp distinct
    obtain ⟨set, known, sets⟩ := puts.sets
    have later : layout.readFields (name :: seen) middle fields =
        .ok ((fields.map Prod.fst).reverse ++ name :: seen, result) := by
      refine ih distinct (name :: seen) fun other listed => ?_
      rw [List.mem_cons, not_or]
      exact ⟨fun same => absent (same ▸ listed), fresh other (List.mem_cons_of_mem _ listed)⟩
    have step : layout.readFields seen value ((name, tree) :: fields) =
        layout.readFields (name :: seen) middle fields := by
      rw [Layout.readFields]
      · rw [known]
        show (if name ∈ seen then _ else _) = _
        rw [if_neg (fresh name List.mem_cons_self), sets]
        rfl
      · rintro rfl
        cases puts.fits
    rw [step, later, List.map_cons, List.reverse_cons, List.append_assoc, List.singleton_append]

/-- An object that has all fields that it must have is read as what its fields make of the value
of an object without fields. -/
theorem decodeFields (distinct : names.Nodup) (starts : value = layout.start)
    (complete : layout.required ⊆ fields.map Prod.fst) :
    layout.decodeFields fields = .ok result := by
  have reads := fills.readFields distinct [] fun _ _ => List.not_mem_nil
  have found : (layout.required.find? fun name =>
      name ∉ (fields.map Prod.fst).reverse ++ []) = none := by
    rw [List.find?_eq_none]
    intro name listed
    simpa using complete listed
  rw [Layout.decodeFields, ← starts, reads]
  simp only [bind, Except.bind, found]

/-- An object whose fields fill a value carries it, if it has all fields that it must have. -/
theorem carries (distinct : names.Nodup) (starts : value = layout.start)
    (complete : layout.required ⊆ fields.map Prod.fst) :
    Carries (depth + 1) layout.decode (object fields) result :=
  ⟨fills.fits, fills.decodeFields distinct starts complete⟩

end Fills

end Layout

end Conformance.Json
