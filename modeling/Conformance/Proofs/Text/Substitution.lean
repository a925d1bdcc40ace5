import Conformance.Text.Template
import Mathlib.Data.List.Infix

/-!
What successive replacement makes of a template.

A template asks for its arguments to be put in place of their placeholders
(`Text.substitute`). They are put in one after the other, though, so a placeholder in the text of
an argument is replaced by an argument that comes later. What stands for an argument in the end
is its settled text (`Text.settle`), in which all later arguments were put in. The texts between
the placeholders of a template keep all of this within the texts of the arguments: the result
is that of putting in the settled texts all at once (`Text.fill_eq_substitute`), and it is right
just if all texts that the template asks for are settled as they are
(`Text.fill_eq_substitute_iff`).
-/

namespace Conformance.Text

/-! ## Substitution -/

/-- What stands for a placeholder: its argument, or the placeholder if there is no such argument. -/
def put (arguments : List String) (index : Nat) : List Char :=
  (arguments[index]?.map String.toList).getD (placeholder index)

/-- The argument whose placeholder a text begins with. -/
def hole? (count : Nat) (s : List Char) : Option Nat :=
  (List.range count).find? fun index => (placeholder index).isPrefixOf s

/-- Puts arguments in place of their placeholders, without looking at what was put in. The
counter says how many characters of a placeholder are still to be passed over. -/
def substituteFrom (arguments : List String) : Nat → List Char → List Char
  | _, [] => []
  | skipped + 1, _ :: rest => substituteFrom arguments skipped rest
  | 0, c :: rest =>
    match hole? arguments.length (c :: rest) with
    | some index =>
      put arguments index ++ substituteFrom arguments ((placeholder index).length - 1) rest
    | none => c :: substituteFrom arguments 0 rest

/-- A template with its arguments in place of their placeholders. -/
def substitute (template : String) (arguments : List String) : String :=
  String.ofList (substituteFrom arguments 0 template.toList)

/-- The texts of the arguments after all later ones were put into them. -/
def settle (arguments : List String) : List String :=
  arguments.mapIdx fun index text =>
    String.ofList (fillFrom (index + 1) (arguments.drop (index + 1)) text.toList)

/-- Whether a template asks for the argument at an index. -/
def Places (template : String) (index : Nat) : Prop :=
  placeholder index <:+: template.toList

/-! ## Placeholders -/

/-- A character that is in no placeholder. -/
def isPlain (c : Char) : Bool := c != '{' && c != '}' && !c.isDigit

/-- A text that does not continue a placeholder that begins before it. -/
def StartsPlain (s : List Char) : Prop := ∀ c ∈ s.head?, isPlain c = true

theorem digits_placeholder {c : Char} {index : Nat} (inside : c ∈ (toString index).toList) :
    c.isDigit = true := by
  rw [show (toString index).toList = Nat.toDigits 10 index from Nat.toList_repr ..] at inside
  exact Nat.isDigit_of_mem_toDigits (by decide) (by decide) inside

theorem not_isPlain_of_mem {c : Char} {index : Nat} (inside : c ∈ placeholder index) :
    isPlain c = false := by
  rcases List.mem_append.mp inside with first | last
  · rcases List.mem_cons.mp first with rfl | digit
    · rfl
    · rw [isPlain, digits_placeholder digit]
      exact Bool.and_false _
  · rw [List.mem_singleton.mp last]
    rfl

theorem takeWhile_digits (index : Nat) (s : List Char) :
    ((toString index).toList ++ '}' :: s).takeWhile Char.isDigit = (toString index).toList := by
  rw [List.takeWhile_append_of_pos fun c inside => digits_placeholder inside,
    List.takeWhile_cons_of_neg (by decide), List.append_nil]

theorem placeholder_append (index : Nat) (s : List Char) :
    placeholder index ++ s = '{' :: ((toString index).toList ++ '}' :: s) := by
  simp [placeholder]

/-- A text begins with one placeholder at most. -/
theorem placeholder_prefix_iff {first second : Nat} {s : List Char} :
    placeholder second <+: placeholder first ++ s ↔ second = first := by
  constructor
  · rintro ⟨rest, same⟩
    rw [placeholder_append, placeholder_append, List.cons_inj_right] at same
    have digits := congrArg (List.takeWhile Char.isDigit) same
    rw [takeWhile_digits, takeWhile_digits] at digits
    have value := congrArg (fun digits => Nat.ofDigitChars 10 digits 0) digits
    simpa [Nat.ofDigitChars_ten_toDigits] using value
  · rintro rfl
    exact List.prefix_append _ _

/-- A placeholder begins with a brace, and has no other. -/
theorem not_prefix_cons {c : Char} (other : c ≠ '{') (index : Nat) (s : List Char) :
    ¬ placeholder index <+: c :: s := by
  intro isPrefix
  exact other (List.cons_prefix_cons.mp isPrefix).1.symm

theorem brace_not_mem_rest (index : Nat) : '{' ∉ (toString index).toList ++ ['}'] := by
  intro inside
  rcases List.mem_append.mp inside with digit | last
  · cases digits_placeholder digit
  · cases List.mem_singleton.mp last

/-- A placeholder does not begin before a plain text and end in it. -/
theorem prefix_append_iff {index : Nat} {s t : List Char} (plain : StartsPlain t) :
    placeholder index <+: s ++ t ↔ placeholder index <+: s := by
  constructor
  · intro isPrefix
    by_cases short : (placeholder index).length ≤ s.length
    · exact List.prefix_of_prefix_length_le isPrefix (List.prefix_append s t) short
    · obtain ⟨rest, same⟩ := List.prefix_of_prefix_length_le (List.prefix_append s t) isPrefix
        (Nat.le_of_not_le short)
      rw [← same, List.prefix_append_right_inj] at isPrefix
      cases rest with
      | nil => exact absurd (by rw [← same, List.append_nil]) short
      | cons c rest =>
        have inside : c ∈ placeholder index := by
          rw [← same]
          exact List.mem_append_right _ List.mem_cons_self
        obtain ⟨_, rfl⟩ := isPrefix
        have isPlain := plain c rfl
        rw [not_isPlain_of_mem inside] at isPlain
        cases isPlain
  · exact fun isPrefix => isPrefix.trans (List.prefix_append s t)

/-! ## Replacement -/

section

variable {index : Nat} {argument : List Char}

theorem replaceFrom_length (s : List Char) :
    replaceFrom (placeholder index) argument s.length s = [] := by
  induction s with
  | nil => rfl
  | cons c s ih => exact ih

/-- A text without the placeholder is left as it is. -/
theorem replaceAll_of_not_infix {s : List Char} (absent : ¬ placeholder index <:+: s) :
    replaceAll (placeholder index) argument s = s := by
  induction s with
  | nil => rfl
  | cons c s ih =>
    rw [List.infix_cons_iff, not_or] at absent
    have rest : replaceFrom (placeholder index) argument 0 s = s := ih absent.2
    rw [replaceAll, replaceFrom, if_neg (mt List.isPrefixOf_iff_prefix.mp absent.1), rest]

/-- What comes before the first brace is left as it is. -/
theorem replaceAll_append_left {s : List Char} (noBrace : '{' ∉ s) (t : List Char) :
    replaceAll (placeholder index) argument (s ++ t) =
      s ++ replaceAll (placeholder index) argument t := by
  induction s with
  | nil => rfl
  | cons c s ih =>
    rw [List.mem_cons, not_or] at noBrace
    have rest : replaceFrom (placeholder index) argument 0 (s ++ t) = _ := ih noBrace.2
    have other := mt List.isPrefixOf_iff_prefix.mp
      (not_prefix_cons (Ne.symm noBrace.1) index (s ++ t))
    rw [List.cons_append, replaceAll, replaceFrom, if_neg other, rest]
    rfl

theorem replaceFrom_append {s t : List Char} (plain : StartsPlain t) {skipped : Nat}
    (inside : skipped ≤ s.length) : replaceFrom (placeholder index) argument skipped (s ++ t) =
      replaceFrom (placeholder index) argument skipped s ++
        replaceFrom (placeholder index) argument 0 t := by
  induction s generalizing skipped with
  | nil =>
    obtain rfl := Nat.le_zero.mp inside
    rfl
  | cons c s ih =>
    cases skipped with
    | succ skipped => exact ih (Nat.le_of_succ_le_succ inside)
    | zero =>
      have alike : (placeholder index).isPrefixOf (c :: (s ++ t)) =
          (placeholder index).isPrefixOf (c :: s) := by
        rw [Bool.eq_iff_iff, List.isPrefixOf_iff_prefix, List.isPrefixOf_iff_prefix]
        exact prefix_append_iff (s := c :: s) plain
      rw [List.cons_append, replaceFrom, replaceFrom, alike]
      split
      · rename_i isPrefix
        have length := (List.isPrefixOf_iff_prefix.mp isPrefix).length_le
        rw [List.length_cons] at length
        rw [ih (by omega), List.append_assoc]
      · rw [ih (Nat.zero_le _), List.cons_append]

/-- A text and a plain one after it are replaced in apart. -/
theorem replaceAll_append {s t : List Char} (plain : StartsPlain t) :
    replaceAll (placeholder index) argument (s ++ t) =
      replaceAll (placeholder index) argument s ++ replaceAll (placeholder index) argument t :=
  replaceFrom_append plain (Nat.zero_le _)

theorem replaceAll_of_noBrace {s : List Char} (noBrace : '{' ∉ s) :
    replaceAll (placeholder index) argument s = s := by
  have whole : replaceAll (placeholder index) argument (s ++ []) = s ++ [] :=
    replaceAll_append_left noBrace []
  rwa [List.append_nil] at whole

/-- A plain text begins as before. -/
theorem replaceAll_cons {c : Char} (plain : isPlain c = true) (s : List Char) :
    replaceAll (placeholder index) argument (c :: s) =
      c :: replaceAll (placeholder index) argument s := by
  have noBrace : '{' ∉ [c] := by
    intro inside
    rw [← List.mem_singleton.mp inside] at plain
    cases plain
  exact replaceAll_append_left noBrace s

/-- A placeholder is replaced by its own argument only. -/
theorem replaceAll_placeholder (other : Nat) :
    replaceAll (placeholder index) argument (placeholder other) =
      if other = index then argument else placeholder other := by
  have decided : (placeholder index).isPrefixOf ('{' :: ((toString other).toList ++ ['}'])) =
      decide (other = index) := by
    have one : placeholder index <+: placeholder other ++ [] ↔ index = other :=
      placeholder_prefix_iff
    rw [List.append_nil] at one
    rw [Bool.eq_iff_iff, List.isPrefixOf_iff_prefix, decide_eq_true_iff]
    exact one.trans eq_comm
  show replaceAll (placeholder index) argument ('{' :: ((toString other).toList ++ ['}'])) = _
  rw [replaceAll, replaceFrom, decided]
  by_cases same : other = index
  · rw [if_pos (decide_eq_true same), if_pos same, ← same,
      show (placeholder other).length - 1 = ((toString other).toList ++ ['}']).length from rfl,
      replaceFrom_length, List.append_nil]
  · rw [if_neg (by rw [decide_eq_false same]; exact Bool.false_ne_true), if_neg same]
    exact congrArg ('{' :: ·) (replaceAll_of_noBrace (brace_not_mem_rest other))

end

/-! ## Filling -/

section

variable {first : Nat} {arguments : List String}

theorem fillFrom_of_noBrace {s : List Char} (noBrace : '{' ∉ s) :
    fillFrom first arguments s = s := by
  induction arguments generalizing first with
  | nil => rfl
  | cons argument arguments ih => rw [fillFrom, replaceAll_of_noBrace noBrace, ih]

theorem fillFrom_append_left {s : List Char} (noBrace : '{' ∉ s) (t : List Char) :
    fillFrom first arguments (s ++ t) = s ++ fillFrom first arguments t := by
  induction arguments generalizing first t with
  | nil => rfl
  | cons argument arguments ih => rw [fillFrom, replaceAll_append_left noBrace, ih, fillFrom]

theorem StartsPlain.replaceAll {s argument : List Char} {index : Nat} (plain : StartsPlain s) :
    StartsPlain (replaceAll (placeholder index) argument s) := by
  cases s with
  | nil => exact plain
  | cons c s =>
    have first : isPlain c = true := plain c rfl
    rw [replaceAll_cons first]
    exact plain

theorem fillFrom_append {s t : List Char} (plain : StartsPlain t) :
    fillFrom first arguments (s ++ t) =
      fillFrom first arguments s ++ fillFrom first arguments t := by
  induction arguments generalizing first s t with
  | nil => rfl
  | cons argument arguments ih =>
    rw [fillFrom, fillFrom, fillFrom, replaceAll_append plain, ih plain.replaceAll]

/-- A plain text begins as before. -/
theorem fillFrom_cons {c : Char} (plain : isPlain c = true) (s : List Char) :
    fillFrom first arguments (c :: s) = c :: fillFrom first arguments s := by
  induction arguments generalizing first s with
  | nil => rfl
  | cons argument arguments ih => rw [fillFrom, replaceAll_cons plain, ih, fillFrom]

theorem StartsPlain.fillFrom {s : List Char} (plain : StartsPlain s) :
    StartsPlain (fillFrom first arguments s) := by
  induction arguments generalizing first s with
  | nil => exact plain
  | cons argument arguments ih => exact ih plain.replaceAll

theorem eq_nil_of_fillFrom {s : List Char} (plain : StartsPlain s)
    (empty : fillFrom first arguments s = []) : s = [] := by
  cases s with
  | nil => rfl
  | cons c s =>
    rw [fillFrom_cons (plain c rfl)] at empty
    cases empty

/-- A text without the placeholders of the arguments is left as it is. -/
theorem fillFrom_of_not_infix {s : List Char}
    (absent : ∀ index, first ≤ index → index < first + arguments.length →
      ¬ placeholder index <:+: s) : fillFrom first arguments s = s := by
  induction arguments generalizing first with
  | nil => rfl
  | cons argument arguments ih =>
    rw [List.length_cons] at absent
    rw [fillFrom, replaceAll_of_not_infix (absent first (Nat.le_refl _) (by omega))]
    exact ih fun index above below => absent index (by omega) (by omega)

/-- The argument that is put in place of a placeholder is one that all later arguments were
put into. -/
theorem fillFrom_placeholder (index : Nat) :
    fillFrom first arguments (placeholder (first + index)) =
      (arguments[index]?.map fun text =>
        fillFrom (first + index + 1) (arguments.drop (index + 1)) text.toList).getD
          (placeholder (first + index)) := by
  induction arguments generalizing first index with
  | nil => rfl
  | cons argument arguments ih =>
    rw [fillFrom, replaceAll_placeholder]
    cases index with
    | zero =>
      rw [if_pos (Nat.add_zero first)]
      rfl
    | succ index =>
      rw [if_neg (by omega), show first + (index + 1) = first + 1 + index by omega, ih]
      rfl

end

theorem put_settle (arguments : List String) (index : Nat) :
    put (settle arguments) index = fillFrom 0 arguments (placeholder index) := by
  have filled : fillFrom 0 arguments (placeholder (0 + index)) = _ := fillFrom_placeholder index
  rw [Nat.zero_add] at filled
  rw [filled, put, settle, List.getElem?_mapIdx, Option.map_map]
  congr 2
  funext text
  exact String.toList_ofList

/-- What is settled is what all later arguments were put into. -/
theorem put_settle_eq_fillFrom (arguments : List String) (index : Nat) :
    put (settle arguments) index =
      fillFrom (index + 1) (arguments.drop (index + 1)) (put arguments index) := by
  rw [put, put, settle, List.getElem?_mapIdx, Option.map_map]
  cases known : arguments[index]? with
  | some text => exact String.toList_ofList
  | none =>
    rw [List.drop_eq_nil_of_le (Nat.le_succ_of_le (List.getElem?_eq_none_iff.mp known))]
    rfl

/-! ## Templates -/

/-- A template: a text, and the indices of arguments with the texts after them. -/
structure Form where
  opening : List Char
  holes : List (Nat × List Char)

namespace Form

/-- The text of a template after its opening, given what stands for the arguments. -/
def writeHoles (text : Nat → List Char) (holes : List (Nat × List Char)) : List Char :=
  holes.flatMap fun hole => text hole.1 ++ hole.2

/-- The text of a template, given what stands for the arguments. -/
def write (form : Form) (text : Nat → List Char) : List Char :=
  form.opening ++ writeHoles text form.holes

/-- The texts of a template have no braces, and those after an argument do not begin like the rest
of a placeholder. -/
def IsPlain (form : Form) : Prop :=
  '{' ∉ form.opening ∧
    ∀ hole ∈ form.holes, '{' ∉ hole.2 ∧ hole.2.head?.any isPlain = true

instance (form : Form) : Decidable form.IsPlain := inferInstanceAs (Decidable (_ ∧ _))

variable {form : Form} {arguments : List String}

theorem writeHoles_cons (text : Nat → List Char) (index : Nat) (rest : List Char)
    (holes : List (Nat × List Char)) :
    writeHoles text ((index, rest) :: holes) = text index ++ (rest ++ writeHoles text holes) := by
  simp [writeHoles]

theorem startsPlain_append {s : List Char} (plain : s.head?.any isPlain = true) (t : List Char) :
    StartsPlain (s ++ t) := by
  cases s with
  | nil => cases plain
  | cons c s =>
    rintro _ ⟨⟩
    exact plain

/-- Arguments are put into what stands for arguments, and nowhere else. -/
theorem fillFrom_write (plain : form.IsPlain) (first : Nat) (text : Nat → List Char) :
    fillFrom first arguments (form.write text) =
      form.write fun index => fillFrom first arguments (text index) := by
  obtain ⟨opening, holes⟩ := form
  rw [write, write, fillFrom_append_left plain.1]
  refine congrArg (opening ++ ·) ?_
  replace plain := plain.2
  induction holes with
  | nil => exact fillFrom_of_noBrace List.not_mem_nil
  | cons hole holes ih =>
    obtain ⟨index, rest⟩ := hole
    obtain ⟨⟨noBrace, startsPlain⟩, others⟩ := List.forall_mem_cons.mp plain
    rw [writeHoles_cons, writeHoles_cons, fillFrom_append (startsPlain_append startsPlain _),
      fillFrom_append_left noBrace, ih others]

theorem fillFrom_eq_write (plain : form.IsPlain) :
    fillFrom 0 arguments (form.write placeholder) = form.write (put (settle arguments)) := by
  rw [fillFrom_write plain]
  refine congrArg form.write (funext fun index => ?_)
  exact (put_settle arguments index).symm

/-! ### Substitution in a template -/

theorem hole?_placeholder (count index : Nat) (s : List Char) :
    hole? count (placeholder index ++ s) = if index < count then some index else none := by
  have only (other : Nat) :
      (placeholder other).isPrefixOf (placeholder index ++ s) = decide (other = index) := by
    rw [Bool.eq_iff_iff, List.isPrefixOf_iff_prefix, placeholder_prefix_iff, decide_eq_true_iff]
  unfold hole?
  simp only [only]
  split
  · rename_i inside
    rw [List.find?_range_eq_some]
    refine ⟨decide_eq_true rfl, List.mem_range.mpr inside, fun other before => ?_⟩
    rw [decide_eq_false (Nat.ne_of_lt before), Bool.not_false]
  · rename_i outside
    refine List.find?_eq_none.mpr fun other listed => ?_
    rw [decide_eq_true_iff]
    rintro rfl
    exact outside (List.mem_range.mp listed)

theorem hole?_cons {c : Char} (other : c ≠ '{') (count : Nat) (s : List Char) :
    hole? count (c :: s) = none :=
  List.find?_eq_none.mpr fun index _ =>
    mt List.isPrefixOf_iff_prefix.mp (not_prefix_cons other index s)

theorem substituteFrom_append_left {s : List Char} (noBrace : '{' ∉ s) (t : List Char) :
    substituteFrom arguments 0 (s ++ t) = s ++ substituteFrom arguments 0 t := by
  induction s with
  | nil => rfl
  | cons c s ih =>
    rw [List.mem_cons, not_or] at noBrace
    rw [List.cons_append, substituteFrom, hole?_cons (Ne.symm noBrace.1)]
    exact congrArg (c :: ·) (ih noBrace.2)

theorem substituteFrom_length (s t : List Char) :
    substituteFrom arguments s.length (s ++ t) = substituteFrom arguments 0 t := by
  induction s with
  | nil => rfl
  | cons c s ih => exact ih

theorem substituteFrom_placeholder (index : Nat) (s : List Char) :
    substituteFrom arguments 0 (placeholder index ++ s) =
      put arguments index ++ substituteFrom arguments 0 s := by
  have found := hole?_placeholder arguments.length index s
  have unfolded : placeholder index ++ s = '{' :: ((toString index).toList ++ ['}'] ++ s) := rfl
  rw [unfolded] at found ⊢
  rw [substituteFrom, found]
  by_cases inside : index < arguments.length
  · rw [if_pos inside]
    exact congrArg (put arguments index ++ ·) (substituteFrom_length _ s)
  · rw [if_neg inside]
    have absent : put arguments index = placeholder index := by
      rw [put, List.getElem?_eq_none (Nat.le_of_not_lt inside)]
      rfl
    rw [absent]
    exact congrArg ('{' :: ·) (substituteFrom_append_left (brace_not_mem_rest index) s)

/-- Substitution puts arguments in place of placeholders, and nowhere else. -/
theorem substituteFrom_write (plain : form.IsPlain) :
    substituteFrom arguments 0 (form.write placeholder) = form.write (put arguments) := by
  obtain ⟨opening, holes⟩ := form
  rw [write, write, substituteFrom_append_left plain.1]
  refine congrArg (opening ++ ·) ?_
  replace plain := plain.2
  induction holes with
  | nil => rfl
  | cons hole holes ih =>
    obtain ⟨index, rest⟩ := hole
    obtain ⟨⟨noBrace, _⟩, others⟩ := List.forall_mem_cons.mp plain
    rw [writeHoles_cons, writeHoles_cons, substituteFrom_placeholder,
      substituteFrom_append_left noBrace, ih others]

/-- A template asks for the arguments whose placeholders it has. -/
theorem infix_write_iff (plain : form.IsPlain) (index : Nat) :
    placeholder index <:+: form.write placeholder ↔ ∃ rest, (index, rest) ∈ form.holes := by
  obtain ⟨opening, holes⟩ := form
  have skip {s t : List Char} (noBrace : '{' ∉ s) (inside : placeholder index <:+: s ++ t) :
      placeholder index <:+: t := by
    induction s with
    | nil => exact inside
    | cons c s ih =>
      rw [List.mem_cons, not_or] at noBrace
      rw [List.cons_append, List.infix_cons_iff] at inside
      exact ih noBrace.2 (inside.resolve_left (not_prefix_cons (Ne.symm noBrace.1) index _))
  constructor
  · intro inside
    replace inside := skip plain.1 inside
    replace plain := plain.2
    induction holes with
    | nil =>
      rw [writeHoles, List.flatMap_nil, List.infix_nil] at inside
      cases inside
    | cons hole holes ih =>
      obtain ⟨other, rest⟩ := hole
      obtain ⟨⟨noBrace, _⟩, others⟩ := List.forall_mem_cons.mp plain
      rw [writeHoles_cons] at inside
      rcases List.infix_cons_iff.mp (show _ <:+: '{' :: _ from inside) with here | later
      · obtain rfl : index = other := placeholder_prefix_iff.mp here
        exact ⟨rest, List.mem_cons_self⟩
      · obtain ⟨more, listed⟩ := ih (skip noBrace (skip (brace_not_mem_rest other) later)) others
        exact ⟨more, List.mem_cons_of_mem _ listed⟩
  · rintro ⟨rest, listed⟩
    obtain ⟨before, after, rfl⟩ := List.append_of_mem listed
    refine List.IsInfix.trans ?_ (List.suffix_append opening _).isInfix
    rw [writeHoles, List.flatMap_append, List.flatMap_cons, List.append_assoc]
    exact List.infix_append' _ _ _

/-! ### Texts that are settled as they are -/

theorem startsPlain_of_append_eq {s t x y : List Char} (plain : s.head?.any isPlain = true)
    (same : x ++ y = s ++ t) : StartsPlain x := by
  cases x with
  | nil => exact nofun
  | cons c x =>
    have whole := startsPlain_append plain t
    rw [← same] at whole
    exact whole

/-- What is put into a text cannot make up for plain texts that are missing around it: put in again
and again, it would make the text shorter each time. -/
theorem eq_nil_of_fillFrom_between {first : Nat} {s t x y : List Char} (noBrace : '{' ∉ s)
    (plain : s.head?.any isPlain = true) (plainBefore : StartsPlain x) (plainAfter : StartsPlain y)
    (same : s ++ t = x ++ (s ++ (fillFrom first arguments t ++ y))) : x = [] ∧ y = [] := by
  induction size : t.length using Nat.strongRecOn generalizing t x y with
  | ind length ih =>
    have lengths := congrArg List.length same
    simp only [List.length_append] at lengths
    by_cases shorter : (fillFrom first arguments t).length < t.length
    · have again := congrArg (fillFrom first arguments) same
      rw [fillFrom_append_left noBrace, fillFrom_append (startsPlain_append plain _),
        fillFrom_append_left noBrace, fillFrom_append plainAfter] at again
      obtain ⟨before, after⟩ := ih _ (size ▸ shorter) plainBefore.fillFrom plainAfter.fillFrom
        again rfl
      exact ⟨eq_nil_of_fillFrom plainBefore before, eq_nil_of_fillFrom plainAfter after⟩
    · exact ⟨List.eq_nil_of_length_eq_zero (by omega), List.eq_nil_of_length_eq_zero (by omega)⟩

/-- Texts that come out right are settled as they are. The induction is on the placeholders, from
left to right: what is left over on the side of the settled texts must be nothing. -/
theorem settled_of_writeHoles_eq {holes : List (Nat × List Char)}
    (plainHoles : ∀ hole ∈ holes, '{' ∉ hole.2 ∧ hole.2.head?.any isPlain = true)
    {s x : List Char} (noBrace : '{' ∉ s) (plain : s.head?.any isPlain = true)
    (same : x ++ (s ++ writeHoles (put (settle arguments)) holes) =
      s ++ writeHoles (put arguments) holes) :
    x = [] ∧ ∀ hole ∈ holes, put (settle arguments) hole.1 = put arguments hole.1 := by
  have plainBefore := startsPlain_of_append_eq plain same
  induction holes generalizing s x with
  | nil =>
    have lengths := congrArg List.length same
    simp only [writeHoles, List.flatMap_nil, List.append_nil, List.length_append] at lengths
    exact ⟨List.eq_nil_of_length_eq_zero (by omega), nofun⟩
  | cons hole holes ih =>
    obtain ⟨index, rest⟩ := hole
    obtain ⟨⟨noBraceRest, plainRest⟩, others⟩ := List.forall_mem_cons.mp plainHoles
    have filled := put_settle_eq_fillFrom arguments index
    rw [writeHoles_cons, writeHoles_cons, ← List.append_assoc s, ← List.append_assoc x,
      ← List.append_assoc s] at same
    rcases List.append_eq_append_iff.mp same with ⟨y, longer, left⟩ | ⟨y, shorter, left⟩
    · -- The settled texts are behind.
      have plainAfter := startsPlain_of_append_eq plainRest left.symm
      rw [filled, List.append_assoc, List.append_assoc] at longer
      obtain ⟨rfl, rfl⟩ := eq_nil_of_fillFrom_between noBrace plain plainBefore plainAfter longer
      rw [List.append_nil, List.nil_append] at longer
      rw [List.nil_append] at left
      obtain ⟨_, settled⟩ := ih others noBraceRest plainRest (x := []) left
        (startsPlain_of_append_eq plainRest left)
      exact ⟨rfl, List.forall_mem_cons.mpr
        ⟨filled.trans (List.append_cancel_left longer).symm, settled⟩⟩
    · -- They are ahead, or as far.
      obtain ⟨rfl, settled⟩ := ih others noBraceRest plainRest left.symm
        (startsPlain_of_append_eq plainRest left.symm)
      rw [List.append_nil] at shorter
      have whole : s ++ put arguments index = x ++ (s ++ (fillFrom (index + 1)
          (arguments.drop (index + 1)) (put arguments index) ++ [])) := by
        rw [← filled, List.append_nil, ← shorter]
      obtain ⟨rfl, _⟩ := eq_nil_of_fillFrom_between noBrace plain plainBefore
        (show StartsPlain [] from nofun) whole
      rw [List.nil_append] at shorter
      exact ⟨rfl, List.forall_mem_cons.mpr ⟨List.append_cancel_left shorter, settled⟩⟩

theorem write_settle_eq_iff (plain : form.IsPlain) :
    form.write (put (settle arguments)) = form.write (put arguments) ↔
      ∀ hole ∈ form.holes, put (settle arguments) hole.1 = put arguments hole.1 := by
  obtain ⟨opening, holes⟩ := form
  constructor
  · intro same
    have spaced : [] ++ ((' ' :: opening) ++ writeHoles (put (settle arguments)) holes) =
        (' ' :: opening) ++ writeHoles (put arguments) holes := congrArg (' ' :: ·) same
    have noBrace : '{' ∉ ' ' :: opening := by
      rw [List.mem_cons, not_or]
      exact ⟨by decide, plain.1⟩
    exact (settled_of_writeHoles_eq plain.2 noBrace rfl spaced).2
  · intro settled
    refine congrArg (opening ++ ·) (List.flatMap_congr fun hole listed => ?_)
    rw [settled hole listed]

/-! ### Reading a template -/

/-- Adds a character in front. A brace makes a placeholder of digits and a brace that follow. -/
def push (c : Char) (form : Form) : Form :=
  let digits := form.opening.takeWhile Char.isDigit
  match decide (c = '{'), form.opening.dropWhile Char.isDigit with
  | true, '}' :: rest => ⟨[], (Nat.ofDigitChars 10 digits 0, rest) :: form.holes⟩
  | _, _ => ⟨c :: form.opening, form.holes⟩

/-- The form of a text, read from its end. -/
def parse (s : List Char) : Form := s.foldr push ⟨[], []⟩

end Form

/-! ## Results -/

/-- A text is a template whose placeholders are kept apart from each other. -/
def IsTemplate (template : String) : Prop :=
  ∃ form : Form, form.IsPlain ∧ form.write placeholder = template.toList

variable {template : String} {arguments : List String} {index : Nat}

/-- An argument is settled as it is if it has no placeholder of a later one. -/
theorem settle_of_not_infix {text : String} (known : arguments[index]? = some text)
    (absent : ∀ later, index < later → later < arguments.length →
      ¬ placeholder later <:+: text.toList) :
    (settle arguments)[index]? = some text := by
  have untouched : fillFrom (index + 1) (arguments.drop (index + 1)) text.toList = text.toList := by
    refine fillFrom_of_not_infix fun later above below => absent later above ?_
    rw [List.length_drop] at below
    omega
  rw [settle, List.getElem?_mapIdx, known, Option.map_some, untouched, String.ofList_toList]

theorem put_settle_eq_iff :
    put (settle arguments) index = put arguments index ↔
      (settle arguments)[index]? = arguments[index]? := by
  constructor
  · intro same
    rw [put, put, settle, List.getElem?_mapIdx] at same
    rw [settle, List.getElem?_mapIdx]
    cases known : arguments[index]? with
    | none => rfl
    | some text =>
      rw [known] at same
      exact congrArg some (String.toList_injective same)
  · intro same
    rw [put, put, same]

/-- Putting arguments into a template one after the other is putting in their settled texts. -/
theorem fill_eq_substitute (isTemplate : IsTemplate template) (arguments : List String) :
    fill template arguments = substitute template (settle arguments) := by
  obtain ⟨form, plain, same⟩ := isTemplate
  rw [fill, substitute, ← same, Form.fillFrom_eq_write plain, Form.substituteFrom_write plain]

/-- It is putting in the arguments themselves just if all that the template asks for are settled
as they are. -/
theorem fill_eq_substitute_iff (isTemplate : IsTemplate template) (arguments : List String) :
    fill template arguments = substitute template arguments ↔
      ∀ index, Places template index → (settle arguments)[index]? = arguments[index]? := by
  obtain ⟨form, plain, same⟩ := isTemplate
  have settled : fill template arguments = substitute template arguments ↔
      ∀ hole ∈ form.holes, put (settle arguments) hole.1 = put arguments hole.1 := by
    rw [fill, substitute, ← same, Form.fillFrom_eq_write plain, Form.substituteFrom_write plain,
      String.ofList_inj]
    exact Form.write_settle_eq_iff plain
  have places (index : Nat) : Places template index ↔ ∃ rest, (index, rest) ∈ form.holes := by
    rw [Places, ← same]
    exact Form.infix_write_iff plain index
  simp only [settled, places, put_settle_eq_iff]
  exact ⟨fun each index ⟨rest, listed⟩ => each (index, rest) listed,
    fun each hole listed => each hole.1 ⟨hole.2, listed⟩⟩

end Conformance.Text
