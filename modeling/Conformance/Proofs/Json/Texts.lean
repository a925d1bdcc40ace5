import Conformance.Json.Reader
import Conformance.Json.Writer
import Mathlib.Data.List.Basic
import Mathlib.Data.Option.Basic

/-!
Texts of JSON trees.

A tree is spelled by texts that differ in the space between their parts (`Json.Spells`). Reading
any of them gives the tree (`Json.Spells.read`), and both ways of writing a tree spell it
(`Json.Fits.spells_compact`, `Json.Fits.spells_indented`), if the tree does not nest too deep and
holds no numbers but small ones.
-/

namespace Conformance.Json

/-! ## Space -/

/-- Nothing but space. -/
def IsSpace (s : List Char) : Prop := ∀ c ∈ s, isSpace c = true

theorem skipSpace_append {space : List Char} (blank : IsSpace space) (s : List Char) :
    skipSpace (space ++ s) = skipSpace s :=
  List.dropWhile_append_of_pos blank

theorem skipSpace_cons {c : Char} (solid : isSpace c = false) (s : List Char) :
    skipSpace (c :: s) = c :: s := by
  rw [skipSpace, List.dropWhile_cons, solid]
  rfl

theorem skipSpace_append_cons {space : List Char} (blank : IsSpace space) {c : Char}
    (solid : isSpace c = false) (s : List Char) : skipSpace (space ++ c :: s) = c :: s := by
  rw [skipSpace_append blank, skipSpace_cons solid]

/-- Reading begins behind space. -/
theorem readValue_append {space : List Char} (blank : IsSpace space) (fuel depth : Nat)
    (s : List Char) : readValue fuel depth (space ++ s) = readValue fuel depth s := by
  cases fuel with
  | zero => rw [readValue, readValue]
  | succ fuel => rw [readValue, readValue, skipSpace_append blank]

/-- What may follow a value: nothing, or a character that no number goes on with. -/
def Ends (s : List Char) : Prop :=
  ∀ c ∈ s.head?, c = ',' ∨ c = ']' ∨ c = '}' ∨ isSpace c = true

theorem ends_nil : Ends [] := nofun

theorem ends_cons {c : Char} (ends : c = ',' ∨ c = ']' ∨ c = '}') (s : List Char) :
    Ends (c :: s) := by
  intro other found
  cases found
  rcases ends with comma | bracket | brace
  · exact .inl comma
  · exact .inr (.inl bracket)
  · exact .inr (.inr (.inl brace))

theorem ends_append {space : List Char} (blank : IsSpace space) {s : List Char} (ends : Ends s) :
    Ends (space ++ s) := by
  cases space with
  | nil => exact ends
  | cons c space =>
    intro other found
    cases found
    exact .inr (.inr (.inr (blank c List.mem_cons_self)))

/-! ## Strings -/

theorem hexUnit?_hexDigit {n : Nat} (small : n < 0x20) :
    hexUnit? '0' '0' (hexDigit (n / 16)) (hexDigit (n % 16)) = some n := by
  have all : ∀ n < 0x20, hexUnit? '0' '0' (hexDigit (n / 16)) (hexDigit (n % 16)) = some n := by
    decide
  exact all n small

/-- A character is written as one part, which stands for it. -/
theorem readParts_escape (c : Char) : ∃ part,
    (∀ s, readParts (escape c ++ s) = (readParts s).map fun read => (part :: read.1, read.2)) ∧
    ∀ parts, joinParts (part :: parts) = (joinParts parts).map (c :: ·) := by
  have letter {letter c : Char} (known : escaped? letter = some c) (other : letter ≠ 'u')
      (s : List Char) : readParts (['\\', letter] ++ s) =
        (readParts s).map fun read => (.char c :: read.1, read.2) := by
    rw [List.cons_append, List.cons_append, List.nil_append, readParts]
    · rw [known]
      cases readParts s <;> rfl
    · rintro _ _ _ _ _ rfl
      exact absurd rfl other
  unfold escape
  split
  · exact ⟨.char '"', letter rfl (by decide), fun _ => rfl⟩
  · exact ⟨.char '\\', letter rfl (by decide), fun _ => rfl⟩
  · exact ⟨.char '\x08', letter rfl (by decide), fun _ => rfl⟩
  · exact ⟨.char '\x0c', letter rfl (by decide), fun _ => rfl⟩
  · exact ⟨.char '\n', letter rfl (by decide), fun _ => rfl⟩
  · exact ⟨.char '\r', letter rfl (by decide), fun _ => rfl⟩
  · exact ⟨.char '\t', letter rfl (by decide), fun _ => rfl⟩
  · rename_i quote backslash _ _ _ _ _
    by_cases control : c.toNat < 0x20
    · rw [if_pos control]
      refine ⟨.unit c.toNat, fun s => ?_, fun parts => ?_⟩
      · simp only [List.cons_append, List.nil_append]
        rw [readParts, hexUnit?_hexDigit control]
        cases readParts s <;> rfl
      · have low : isLowSurrogate c.toNat = false := by
          rw [isLowSurrogate, decide_eq_false (by omega), Bool.false_and]
        have high : isHighSurrogate c.toNat = false := by
          rw [isHighSurrogate, decide_eq_false (by omega), Bool.false_and]
        rw [joinParts.eq_def]
        simp only [low, high, Bool.false_eq_true, if_false, Char.ofNat_toNat]
    · rw [if_neg control]
      refine ⟨.char c, fun s => ?_, fun _ => rfl⟩
      rw [List.cons_append, List.nil_append, readParts]
      · have plain : (guard (c ≠ '\\' ∧ 0x20 ≤ c.toNat) : Option Unit) = some () :=
          if_pos ⟨backslash, Nat.le_of_not_lt control⟩
        rw [plain]
        cases readParts s <;> rfl
      all_goals
        intros
        simp_all

/-- A quoted text is read as the text. -/
theorem readString_quoted (text : String) (s : List Char) :
    readString (text.toList.flatMap escape ++ '"' :: s) = some (some text, s) := by
  have chars (cs : List Char) : ∃ parts,
      readParts (cs.flatMap escape ++ '"' :: s) = some (parts, s) ∧ joinParts parts = some cs := by
    induction cs with
    | nil => exact ⟨[], rfl, rfl⟩
    | cons c cs ih =>
      obtain ⟨parts, reads, joins⟩ := ih
      obtain ⟨part, readsPart, joinsPart⟩ := readParts_escape c
      refine ⟨part :: parts, ?_, ?_⟩
      · rw [List.flatMap_cons, List.append_assoc, readsPart, reads]
        rfl
      · rw [joinsPart, joins]
        rfl
  obtain ⟨parts, reads, joins⟩ := chars text.toList
  rw [readString, reads]
  simp only [Option.bind_eq_bind, Option.bind_some, joins, Option.map_some, String.ofList_toList]
  rfl

/-! ## Numbers -/

theorem digitsValue_toDigits (n : Nat) : digitsValue (Nat.toDigits 10 n) = n := by
  have value := @Nat.ofDigitChars_ten_toDigits n
  rw [Nat.ofDigitChars_eq_foldl] at value
  refine Eq.trans ?_ value
  rw [digitsValue]
  congr 1
  funext sum c
  rw [Nat.mul_comm]
  rfl

/-- Only nought is written with a nought in front. -/
theorem toDigits_lead (n : Nat) {c : Char} {rest : List Char}
    (digits : Nat.toDigits 10 n = '0' :: c :: rest) : False := by
  have lead (n : Nat) (positive : 0 < n) : (Nat.toDigits 10 n).head? ≠ some '0' := by
    induction n using Nat.strongRecOn with
    | ind n ih =>
      by_cases small : n < 10
      · rw [Nat.toDigits_of_lt_base small]
        have digits : ∀ n < 10, 0 < n → [n.digitChar].head? ≠ some '0' := by decide
        exact digits n small positive
      · rw [Nat.toDigits_of_base_le (by decide) (Nat.le_of_not_lt small),
          List.head?_append_of_ne_nil _ Nat.toDigits_ne_nil]
        exact ih (n / 10) (by omega) (by omega)
  cases n with
  | zero => cases digits
  | succ n =>
    refine lead (n + 1) (Nat.succ_pos n) ?_
    rw [digits]
    rfl

theorem le_foldl_digits (digits : List Char) (n : Nat) :
    n ≤ digits.foldl (fun n c => n * 10 + digitValue c) n := by
  induction digits generalizing n with
  | nil => exact Nat.le_refl n
  | cons c digits ih => exact Nat.le_trans (show n ≤ n * 10 + digitValue c by omega) (ih _)

theorem appendDigits_eq {digits : List Char} {n : Nat}
    (small : digits.foldl (fun n c => n * 10 + digitValue c) n < UInt64.size) :
    appendDigits n digits = (digits.foldl (fun n c => n * 10 + digitValue c) n, 0) := by
  induction digits generalizing n with
  | nil => rfl
  | cons c digits ih =>
    rw [List.foldl_cons] at small ⊢
    rw [appendDigits, if_pos (Nat.lt_of_le_of_lt (le_foldl_digits digits _) small), ih small]

/-- A number of 32 bits is its own double. -/
theorem nearestDouble_of_lt {n : Nat} (small : n < UInt32.size) : nearestDouble n = n := by
  have step : n.log2 - 52 = 0 := by
    by_cases zero : n = 0
    · rw [zero]
      rfl
    · have := (Nat.log2_lt zero).mpr (show n < 2 ^ 32 from small)
      omega
  simp only [nearestDouble, step, Nat.shiftLeft_zero, Nat.div_one, Nat.mod_one, Nat.mul_one]
  rw [if_neg (by omega)]

theorem exceedsDouble_of_lt {digits : List Char} (small : digitsValue digits < UInt32.size) :
    exceedsDouble digits [] 0 = false := by
  have fits : digitsValue digits < UInt64.size := Nat.lt_trans small (by decide)
  have whole : appendDigits 0 digits = (digitsValue digits, 0) := appendDigits_eq fits
  simp only [exceedsDouble, whole, appendDigits]
  have one : nearestDouble (Nat.pow 10 (0 : Int).toNat) = 1 := by decide
  have bound : ¬ doubleBound ≤ digitsValue digits * 1 := by
    rw [Nat.mul_one, Nat.not_le]
    exact Nat.lt_trans small (by decide)
  have power : (0 : Int) + (0 : Nat) - ((List.length ([] : List Char) - 0 : Nat) : Int) = 0 := rfl
  rw [power]
  split
  · rfl
  · rw [if_neg (by decide), nearestDouble_of_lt small, one, decide_eq_false bound]

theorem ends_not_digit {s : List Char} (ends : Ends s) :
    s.takeWhile Char.isDigit = [] ∧ s.dropWhile Char.isDigit = s ∧ readFraction s = some ([], s) ∧
      readExponent s = some ([], 0, s) := by
  cases s with
  | nil => exact ⟨rfl, rfl, rfl, rfl⟩
  | cons c s =>
    have apart : c.isDigit = false ∧ c ≠ '.' ∧ (c == 'e' || c == 'E') = false := by
      rcases ends c rfl with rfl | rfl | rfl | space
      · decide
      · decide
      · decide
      · simp only [isSpace, Bool.or_eq_true, beq_iff_eq] at space
        rcases space with ((rfl | rfl) | rfl) | rfl <;> decide
    obtain ⟨digit, point, power⟩ := apart
    refine ⟨?_, ?_, ?_, ?_⟩
    · rw [List.takeWhile_cons, digit]
      rfl
    · rw [List.dropWhile_cons, digit]
      rfl
    · rw [readFraction]
      rintro _ same
      cases same
      exact point rfl
    · rw [readExponent, power]
      rfl

/-- The digits of a small number are read as the number. -/
theorem readNumber_nat {n : Nat} (small : n < UInt32.size) {s : List Char} (ends : Ends s) :
    readNumber (Nat.toDigits 10 n ++ s) = some (nat n, s) := by
  have all : ∀ c ∈ Nat.toDigits 10 n, c.isDigit = true := fun c listed =>
    Nat.isDigit_of_mem_toDigits (by decide) (by decide) listed
  obtain ⟨takes, drops, fraction, exponent⟩ := ends_not_digit ends
  have whole : (Nat.toDigits 10 n ++ s).takeWhile Char.isDigit = Nat.toDigits 10 n := by
    rw [List.takeWhile_append_of_pos all, takes, List.append_nil]
  have rest : (Nat.toDigits 10 n ++ s).dropWhile Char.isDigit = s := by
    rw [List.dropWhile_append_of_pos all, drops]
  have value := digitsValue_toDigits n
  have fits := exceedsDouble_of_lt (value.symm ▸ small)
  have unsigned (rest : List Char) : Nat.toDigits 10 n ++ s ≠ '-' :: rest := by
    intro same
    obtain ⟨c, cs, digits⟩ := List.exists_cons_of_ne_nil (@Nat.toDigits_ne_nil n 10)
    rw [digits, List.cons_append] at same
    cases same
    exact absurd (all '-' (digits ▸ List.mem_cons_self)) (by decide)
  unfold readNumber
  split
  rename_i sign text signed
  split at signed
  · rename_i start
    exact absurd start (unsigned _)
  · cases signed
    simp only [whole, rest]
    split
    · rename_i digits
      exact absurd digits Nat.toDigits_ne_nil
    · rename_i digits
      exact (toDigits_lead n digits).elim
    · simp only [Option.bind_eq_bind, fraction, Option.bind_some, exponent, fits,
        Bool.false_eq_true, if_false, List.isEmpty_nil, Bool.and_self, if_true, value]

/-! ## Texts that spell a tree -/

/-- Texts between brackets, with space around each and commas between them. -/
def enclosed (opening closing : Char) (inner outer : List Char) : List (List Char) → List Char
  | [] => [opening, closing]
  | first :: rest =>
    opening :: (inner ++ first ++ rest.flatMap (fun text => ',' :: (inner ++ text)) ++ outer ++
      [closing])

/-- The texts that spell a tree in which at most `depth` arrays and objects stand inside each
other. -/
inductive Spells : Nat → Json → List Char → Prop where
  | null {depth : Nat} : Spells depth null "null".toList
  | bool {depth : Nat} (value : Bool) :
    Spells depth (bool value) (if value then "true" else "false").toList
  | nat {depth n : Nat} (small : n < UInt32.size) : Spells depth (nat n) (Nat.toDigits 10 n)
  | string {depth : Nat} (text : String) : Spells depth (string text) (quote text).toList
  | array {depth : Nat} {items : List Json} {inner outer : List Char}
    (blankInner : IsSpace inner) (blankOuter : IsSpace outer) (spell : Json → List Char)
    (each : ∀ item ∈ items, Spells depth item (spell item)) :
    Spells (depth + 1) (array items) (enclosed '[' ']' inner outer (items.map spell))
  | object {depth : Nat} {fields : List (String × Json)} {inner outer gap : List Char}
    (blankInner : IsSpace inner) (blankOuter : IsSpace outer) (blankGap : IsSpace gap)
    (spell : Json → List Char) (each : ∀ field ∈ fields, Spells depth field.2 (spell field.2)) :
    Spells (depth + 1) (object fields) (enclosed '{' '}' inner outer
      (fields.map fun field => (quote field.1).toList ++ ':' :: (gap ++ spell field.2)))

theorem toList_quote (text : String) :
    (quote text).toList = '"' :: (text.toList.flatMap escape ++ ['"']) := by
  have letters : (String.ofList (text.toList.flatMap escape)).toList =
      text.toList.flatMap escape := String.toList_ofList
  rw [quote, String.toList_append, String.toList_append, letters]
  rfl

/-- What a text that spells a tree begins with. -/
theorem Spells.head {depth : Nat} {tree : Json} {s : List Char} (spells : Spells depth tree s) :
    ∃ c rest, s = c :: rest ∧ isSpace c = false ∧ c ≠ ']' := by
  cases spells with
  | null => exact ⟨'n', _, rfl, rfl, by decide⟩
  | bool value => cases value <;> exact ⟨_, _, rfl, rfl, by decide⟩
  | @nat _ n small =>
    obtain ⟨c, rest, digits⟩ := List.exists_cons_of_ne_nil (@Nat.toDigits_ne_nil n 10)
    have digit : c.isDigit = true :=
      Nat.isDigit_of_mem_toDigits (by decide) (by decide) (digits ▸ List.mem_cons_self)
    refine ⟨c, rest, digits, ?_, ?_⟩
    · by_contra space
      simp only [isSpace, Bool.not_eq_false, Bool.or_eq_true, beq_iff_eq] at space
      rcases space with ((rfl | rfl) | rfl) | rfl <;> exact absurd digit (by decide)
    · rintro rfl
      exact absurd digit (by decide)
  | string text => exact ⟨'"', _, toList_quote text, rfl, by decide⟩
  | @array _ items => cases items <;> exact ⟨'[', _, rfl, rfl, by decide⟩
  | @object _ fields => cases fields <;> exact ⟨'{', _, rfl, rfl, by decide⟩

/-- A text is read as a tree, whatever follows it. -/
def ReadAs (depth : Nat) (tree : Json) (s : List Char) : Prop :=
  ∀ fuel rest, 2 * s.length ≤ fuel → Ends rest →
    readValue fuel depth (s ++ rest) = (tree, some rest)

section

variable {inner outer gap : List Char} (blankInner : IsSpace inner) (blankOuter : IsSpace outer)
  {spell : Json → List Char} {depth : Nat}

include blankInner blankOuter

/-- The items of an array are read up to its bracket. -/
theorem readItems_spelled {first : Json} {items : List Json}
    (each : ∀ item ∈ first :: items, ReadAs depth item (spell item)) (fuel : Nat)
    (rest : List Char)
    (enough : 2 * (enclosed '[' ']' inner outer ((first :: items).map spell)).length ≤ fuel + 1) :
    readItems fuel depth (inner ++ spell first ++
      (items.map spell).flatMap (fun text => ',' :: (inner ++ text)) ++ outer ++ ']' :: rest) =
        (first :: items, some rest) := by
  have reads := each first List.mem_cons_self
  induction items generalizing first fuel with
  | nil =>
    simp only [List.map_cons, List.map_nil, enclosed, List.flatMap_nil, List.append_nil,
      List.length_cons, List.length_append] at enough ⊢
    obtain ⟨fuel, rfl⟩ : ∃ less, fuel = less + 1 := ⟨fuel - 1, by omega⟩
    rw [List.append_assoc, List.append_assoc, readItems, readValue_append blankInner,
      reads fuel _ (by omega) (ends_append blankOuter (ends_cons (.inr (.inl rfl)) rest))]
    simp only [skipSpace_append_cons blankOuter (show isSpace ']' = false from rfl)]
  | cons second items ih =>
    simp only [List.map_cons, enclosed, List.flatMap_cons, List.length_cons,
      List.length_append] at enough ⊢
    obtain ⟨fuel, rfl⟩ : ∃ less, fuel = less + 1 := ⟨fuel - 1, by omega⟩
    have later := ih (fun item listed => each item (List.mem_cons_of_mem _ listed)) fuel ?_
      (each second (List.mem_cons_of_mem _ List.mem_cons_self))
    · simp only [List.append_assoc, List.cons_append] at later ⊢
      rw [readItems, readValue_append blankInner,
        reads fuel _ (by omega) (ends_cons (.inl rfl) _)]
      simp only [skipSpace_cons (show isSpace ',' = false from rfl), later]
    · simp only [List.map_cons, enclosed, List.length_cons, List.length_append]
      omega

omit blankOuter in
/-- A field is read like the item of an array, behind its name. -/
theorem readFields_field (blankGap : IsSpace gap) (name : String) (fuel : Nat) (s : List Char) :
    readFields (fuel + 1) depth (inner ++ ((quote name).toList ++ ':' :: (gap ++ s))) =
      match readValue fuel depth s with
      | (value, none) => ([(name, value), ("", malformed)], none)
      | (value, some rest) =>
        match skipSpace rest with
        | ',' :: rest =>
          let (fields, rest) := readFields fuel depth rest
          ((name, value) :: fields, rest)
        | '}' :: rest => ([(name, value)], some rest)
        | _ => ([(name, value), ("", malformed)], none) := by
  rw [toList_quote, readFields, List.cons_append, List.append_assoc,
    skipSpace_append_cons blankInner rfl]
  simp only [List.cons_append, List.nil_append, readString_quoted,
    skipSpace_cons (show isSpace ':' = false from rfl), readValue_append blankGap]
  rfl

/-- The fields of an object are read up to its brace. -/
theorem readFields_spelled (blankGap : IsSpace gap) {first : String × Json}
    {fields : List (String × Json)}
    (each : ∀ field ∈ first :: fields, ReadAs depth field.2 (spell field.2)) (fuel : Nat)
    (rest : List Char)
    (enough : 2 * (enclosed '{' '}' inner outer ((first :: fields).map fun field =>
      (quote field.1).toList ++ ':' :: (gap ++ spell field.2))).length ≤ fuel + 1) :
    readFields fuel depth (inner ++ ((quote first.1).toList ++ ':' :: (gap ++ spell first.2)) ++
      (fields.map fun field => (quote field.1).toList ++ ':' :: (gap ++ spell field.2)).flatMap
        (fun text => ',' :: (inner ++ text)) ++ outer ++ '}' :: rest) =
        (first :: fields, some rest) := by
  have reads := each first List.mem_cons_self
  induction fields generalizing first fuel with
  | nil =>
    simp only [List.map_cons, List.map_nil, enclosed, List.flatMap_nil, List.append_nil,
      List.length_cons, List.length_append] at enough ⊢
    obtain ⟨fuel, rfl⟩ : ∃ less, fuel = less + 1 := ⟨fuel - 1, by omega⟩
    simp only [List.append_assoc, List.cons_append]
    rw [readFields_field blankInner blankGap,
      reads fuel _ (by omega) (ends_append blankOuter (ends_cons (.inr (.inr rfl)) rest))]
    simp only [skipSpace_append_cons blankOuter (show isSpace '}' = false from rfl)]
  | cons second fields ih =>
    simp only [List.map_cons, enclosed, List.flatMap_cons, List.length_cons,
      List.length_append] at enough ⊢
    obtain ⟨fuel, rfl⟩ : ∃ less, fuel = less + 1 := ⟨fuel - 1, by omega⟩
    have later := ih (fun field listed => each field (List.mem_cons_of_mem _ listed)) fuel ?_
      (each second (List.mem_cons_of_mem _ List.mem_cons_self))
    · simp only [List.append_assoc, List.cons_append] at later ⊢
      rw [readFields_field blankInner blankGap, reads fuel _ (by omega) (ends_cons (.inl rfl) _)]
      simp only [skipSpace_cons (show isSpace ',' = false from rfl), later]
    · simp only [List.map_cons, enclosed, List.length_cons, List.length_append]
      omega

end

/-- Reading a value takes a step, so that there are steps to count on. -/
theorem Spells.readAs_of_step {depth : Nat} {tree : Json} {s : List Char}
    (spells : Spells depth tree s)
    (reads : ∀ fuel rest, 2 * s.length ≤ fuel + 1 → Ends rest →
      readValue (fuel + 1) depth (s ++ rest) = (tree, some rest)) : ReadAs depth tree s := by
  intro fuel rest enough ends
  obtain ⟨c, cs, same, _⟩ := spells.head
  obtain ⟨less, rfl⟩ : ∃ less, fuel = less + 1 := by
    refine ⟨fuel - 1, ?_⟩
    rw [same, List.length_cons] at enough
    omega
  exact reads less rest enough ends

/-- A text that spells a tree is read as the tree. -/
theorem Spells.readAs {depth : Nat} {tree : Json} {s : List Char} (spells : Spells depth tree s) :
    ReadAs depth tree s := by
  induction spells with
  | null => exact Spells.null.readAs_of_step fun fuel rest _ _ => rfl
  | bool value =>
    refine (Spells.bool value).readAs_of_step fun fuel rest _ _ => ?_
    cases value <;> rfl
  | @nat depth n small =>
    refine (Spells.nat small).readAs_of_step fun fuel rest _ ends => ?_
    obtain ⟨c, cs, digits, solid, _⟩ := (Spells.nat small : Spells depth _ _).head
    have digit : c.isDigit = true :=
      Nat.isDigit_of_mem_toDigits (by decide) (by decide) (digits ▸ List.mem_cons_self)
    have number := readNumber_nat small ends
    rw [digits, List.cons_append] at number ⊢
    rw [readValue, skipSpace_cons solid]
    split
    case h_7 => rw [number]
    all_goals
      rename_i start
      cases start
      exact absurd digit (by decide)
  | string text =>
    refine (Spells.string text).readAs_of_step fun fuel rest _ _ => ?_
    rw [toList_quote, readValue, List.cons_append, List.append_assoc, skipSpace_cons rfl]
    simp only [List.cons_append, List.nil_append, readString_quoted]
  | @array depth items inner outer blankInner blankOuter spell each ih =>
    refine (Spells.array blankInner blankOuter spell each).readAs_of_step fun fuel rest enough _ => ?_
    cases items with
    | nil => rfl
    | cons first items =>
      have inside := readItems_spelled blankInner blankOuter ih fuel rest enough
      obtain ⟨c, cs, same, solid, other⟩ := (each first List.mem_cons_self).head
      simp only [List.map_cons, enclosed, List.cons_append, List.append_assoc, List.nil_append]
        at inside ⊢
      rw [readValue, skipSpace_cons rfl]
      simp only
      split
      · rename_i start
        rw [same, List.cons_append, skipSpace_append_cons blankInner solid] at start
        cases start
        exact absurd rfl other
      · rw [Nat.add_sub_cancel, inside]
        rfl
  | @object depth fields inner outer gap blankInner blankOuter blankGap spell each ih =>
    refine (Spells.object blankInner blankOuter blankGap spell each).readAs_of_step
      fun fuel rest enough _ => ?_
    cases fields with
    | nil => rfl
    | cons first fields =>
      have inside := readFields_spelled blankInner blankOuter blankGap ih fuel rest enough
      simp only [List.map_cons, enclosed, List.cons_append, List.append_assoc, List.nil_append]
        at inside ⊢
      rw [readValue, skipSpace_cons rfl]
      simp only
      split
      · rename_i start
        rw [toList_quote, List.cons_append, skipSpace_append_cons blankInner rfl] at start
        cases start
      · rw [Nat.add_sub_cancel, inside]
        rfl

/-- A text that spells a tree is read as the tree, and as nothing else. -/
theorem Spells.read {tree : Json} {text : String} (spells : Spells maxDepth tree text.toList) :
    Json.read text = ⟨tree, true⟩ := by
  have value := spells.readAs (2 * text.toList.length + 2) [] (by omega) ends_nil
  rw [List.append_nil] at value
  rw [Json.read]
  simp only [value]
  rfl

/-! ## Writing -/

/-- A tree that can be written: at most `depth` arrays and objects stand inside each other, and
numbers are those of 32 bits. -/
inductive Fits : Nat → Json → Prop where
  | null {depth : Nat} : Fits depth null
  | bool {depth : Nat} (value : Bool) : Fits depth (bool value)
  | nat {depth n : Nat} (small : n < UInt32.size) : Fits depth (nat n)
  | string {depth : Nat} (text : String) : Fits depth (string text)
  | array {depth : Nat} {items : List Json} (each : ∀ item ∈ items, Fits depth item) :
    Fits (depth + 1) (array items)
  | object {depth : Nat} {fields : List (String × Json)}
    (each : ∀ field ∈ fields, Fits depth field.2) : Fits (depth + 1) (object fields)

theorem compactItems_eq (items : List Json) : compactItems items = items.map compact := by
  induction items with
  | nil => rfl
  | cons item items ih => rw [compactItems, ih, List.map_cons]

theorem compactFields_eq (fields : List (String × Json)) :
    compactFields fields = fields.map fun field => quote field.1 ++ ":" ++ compact field.2 := by
  induction fields with
  | nil => rfl
  | cons field fields ih => rw [compactFields, ih, List.map_cons]

theorem indentedItems_eq (indent : Nat) (items : List Json) :
    indentedItems indent items = items.map (indented indent) := by
  induction items with
  | nil => rfl
  | cons item items ih => rw [indentedItems, ih, List.map_cons]

theorem indentedFields_eq (indent : Nat) (fields : List (String × Json)) :
    indentedFields indent fields =
      fields.map fun field => quote field.1 ++ ": " ++ indented indent field.2 := by
  induction fields with
  | nil => rfl
  | cons field fields ih => rw [indentedFields, ih, List.map_cons]

/-- Texts with commas between them. -/
theorem intercalate_comma (inner first : List Char) (rest : List (List Char)) :
    List.intercalate (',' :: inner) (first :: rest) =
      first ++ rest.flatMap fun text => ',' :: (inner ++ text) := by
  induction rest generalizing first with
  | nil => simp [List.intercalate]
  | cons second rest ih =>
    rw [List.flatMap_cons, ← List.cons_append, List.append_assoc, ← ih second]
    simp [List.intercalate]

theorem isSpace_newLine (indent : Nat) : IsSpace (newLine indent).toList := by
  have blanks : (String.ofList (List.replicate (2 * indent) ' ')).toList =
      List.replicate (2 * indent) ' ' := String.toList_ofList
  intro c listed
  rw [newLine, String.toList_append, blanks] at listed
  rcases List.mem_append.mp listed with line | blank
  · cases List.mem_singleton.mp line
    rfl
  · rw [(List.mem_replicate.mp blank).2]
    rfl

theorem toList_compact_nat (n : Nat) : (nat n).compact.toList = Nat.toDigits 10 n := by
  show (toString n).toList = _
  rw [Nat.toString_eq_ofList_toDigits]
  exact String.toList_ofList

section

variable {opening closing : String} {o c : Char} (opens : opening.toList = [o])
  (closes : closing.toList = [c])

include opens closes

theorem toList_line (texts : List String) :
    (opening ++ ",".intercalate texts ++ closing).toList =
      enclosed o c [] [] (texts.map String.toList) := by
  rw [String.toList_append, String.toList_append, String.toList_intercalate, opens, closes]
  cases texts with
  | nil => rfl
  | cons first rest =>
    rw [List.map_cons, show ",".toList = [','] from rfl, intercalate_comma, enclosed]
    simp

theorem toList_block (indent : Nat) (texts : List String) :
    (block opening closing indent texts).toList =
      enclosed o c (newLine (indent + 1)).toList (newLine indent).toList
        (texts.map String.toList) := by
  cases texts with
  | nil =>
    rw [block, List.isEmpty_nil, if_pos rfl, String.toList_append, opens, closes]
    rfl
  | cons first rest =>
    have comma : ("," ++ newLine (indent + 1)).toList = ',' :: (newLine (indent + 1)).toList := by
      rw [String.toList_append]
      rfl
    rw [block, List.isEmpty_cons, if_neg Bool.false_ne_true]
    simp only [String.toList_append, String.toList_intercalate, opens, closes, comma, List.map_cons,
      intercalate_comma, enclosed, List.append_assoc, List.cons_append, List.nil_append]

end

/-- A tree on one line spells the tree. -/
theorem Fits.spells_compact {depth : Nat} {tree : Json} (fits : Fits depth tree) :
    Spells depth tree tree.compact.toList := by
  have blank : IsSpace [] := nofun
  induction fits with
  | null => exact .null
  | bool value => exact .bool value
  | @nat _ n small => exact toList_compact_nat n ▸ .nat small
  | string text => exact .string text
  | @array depth items each ih =>
    have spells := Spells.array blank blank _ ih
    rw [compact, compactItems_eq, toList_line rfl rfl, List.map_map]
    exact spells
  | @object depth fields each ih =>
    have spells := Spells.object blank blank blank (fun value => value.compact.toList) ih
    rw [compact, compactFields_eq, toList_line (o := '{') (c := '}') rfl rfl, List.map_map]
    convert spells using 3
    funext field
    rw [Function.comp_apply, String.toList_append, String.toList_append, List.append_assoc]
    rfl

/-- A tree over several lines spells the tree. -/
theorem Fits.spells_indented {depth : Nat} {tree : Json} (fits : Fits depth tree) (indent : Nat) :
    Spells depth tree (tree.indented indent).toList := by
  induction fits generalizing indent with
  | null => exact .null
  | bool value => exact .bool value
  | @nat _ n small => exact toList_compact_nat n ▸ .nat small
  | string text => exact .string text
  | @array depth items each ih =>
    have spells := Spells.array (isSpace_newLine (indent + 1)) (isSpace_newLine indent) _
      fun item listed => ih item listed (indent + 1)
    rw [indented, indentedItems_eq, toList_block rfl rfl, List.map_map]
    exact spells
  | @object depth fields each ih =>
    have gap : IsSpace [' '] := by
      intro c listed
      cases List.mem_singleton.mp listed
      rfl
    have spells := Spells.object (isSpace_newLine (indent + 1)) (isSpace_newLine indent) gap
      (fun value => (indented (indent + 1) value).toList)
      fun field listed => ih field listed (indent + 1)
    rw [indented, indentedFields_eq, toList_block (o := '{') (c := '}') rfl rfl, List.map_map]
    convert spells using 3
    funext field
    rw [Function.comp_apply, String.toList_append, String.toList_append, List.append_assoc]
    rfl

/-- What is written is read again, whichever way it is written. -/
theorem Fits.read {tree : Json} (fits : Fits maxDepth tree) :
    Json.read tree.compact = ⟨tree, true⟩ ∧ Json.read tree.pretty = ⟨tree, true⟩ :=
  ⟨fits.spells_compact.read, (fits.spells_indented 0).read⟩

end Conformance.Json
