import Mathlib.Data.List.Forall2
import Mathlib.Data.List.TakeWhile
import TaggedHeap.Proofs.Quotations
import TaggedHeap.Trace.Parser

/-!
# The grammar of operations

What the text of an operation may be, said without the reader, and that the reader goes by it.

* `Trims` is about blanks at the ends of a text, and `trims_iff` says that trimming removes just
  these.
* `Numeral.Spells` says which texts stand for a number, and `readDecimal_eq_some_iff` that they are
  read if the number is a word.
* `Operation.Written` has one constructor for each form of an operation.  `ofTrimmed?_eq_some_iff`
  says that what is read is what is written, and as a text is read in one way only, none has two
  meanings.
* `parse_exact` puts this together for texts with any blanks around them, and says what the error of
  any other text quotes.

The reader tries all three forms on every text, and takes arguments apart at every comma.  Neither
matters: the forms begin differently, and a numeral has no comma.
-/

namespace TaggedHeap

namespace Text

variable {c : Char} {text core before after : List Char}

/-! ## Blanks -/

/-- `core` is what is left of `text` without the blanks at its ends. -/
structure Trims (text core : List Char) : Prop where
  /-- There are only blanks around it. -/
  around : ∃ before after, text = before ++ core ++ after ∧
    (∀ c ∈ before, isBlank c = true) ∧ ∀ c ∈ after, isBlank c = true
  /-- It does not begin with a blank, -/
  first : ∀ c ∈ core.head?, isBlank c = false
  /-- and does not end with one. -/
  last : ∀ c ∈ core.getLast?, isBlank c = false

/-- What is left when blanks are dropped does not begin with one. -/
theorem head?_dropWhile_isBlank (h : c ∈ (text.dropWhile isBlank).head?) : isBlank c = false := by
  have first := List.head?_dropWhile_not isBlank text
  rw [Option.mem_def.mp h] at first
  exact first

/-- Blanks at the end of a text are trimmed. -/
theorem trimEnd_append (blank : ∀ c ∈ after, isBlank c = true) :
    trimEnd (text ++ after) = trimEnd text := by
  have dropped : after.reverse.dropWhile isBlank = [] :=
    List.dropWhile_eq_nil_iff.mpr fun c hc => blank c (List.mem_reverse.mp hc)
  rw [trimEnd, List.reverse_append, List.dropWhile_append, dropped]
  rfl

/-- **Blanks around a text are trimmed.** -/
theorem trim_around (blank : ∀ c ∈ before, isBlank c = true)
    (blank' : ∀ c ∈ after, isBlank c = true) : trim (before ++ text ++ after) = trim text := by
  rw [trim, List.append_assoc, List.dropWhile_append, List.dropWhile_eq_nil_iff.mpr blank,
    if_pos List.isEmpty_nil, List.dropWhile_append, trim]
  split
  next empty =>
    rw [List.isEmpty_iff.mp empty, List.dropWhile_eq_nil_iff.mpr blank']
  next => exact trimEnd_append blank'

/-- A text is trimmed of blanks. -/
theorem trims_trim (text : List Char) : Trims text (trim text) := by
  let rest := text.dropWhile isBlank
  let tail := (rest.reverse.takeWhile isBlank).reverse
  have split_end : trim text ++ tail = rest := by
    show (rest.reverse.dropWhile isBlank).reverse ++ tail = rest
    rw [← List.reverse_append, List.takeWhile_append_dropWhile, List.reverse_reverse]
  refine ⟨⟨text.takeWhile isBlank, tail, ?_, fun c => List.mem_takeWhile_imp, fun c hc => ?_⟩,
    ?_, ?_⟩
  · rw [List.append_assoc, split_end, List.takeWhile_append_dropWhile]
  · exact List.mem_takeWhile_imp (List.mem_reverse.mp hc)
  · -- what is left after trimming the end begins as what was there before
    intro c hc
    have begins : c ∈ rest.head? := by
      rw [← split_end, List.head?_append, Option.mem_def.mp hc]
      rfl
    exact head?_dropWhile_isBlank begins
  · intro c hc
    rw [trim, trimEnd, List.getLast?_reverse] at hc
    exact head?_dropWhile_isBlank hc

/-- **To trim is to remove the blanks at the ends.** -/
theorem trims_iff : Trims text core ↔ trim text = core := by
  constructor
  · rintro ⟨⟨before, after, rfl, blank, blank'⟩, first, last⟩
    rw [trim_around blank blank', trim_of_ends first last]
  · rintro rfl
    exact trims_trim text

end Text

open Text

namespace Numeral

variable {value : Nat} {text digits : List Char}

/-! ## Numerals -/

/-- A text stands for a number: ASCII digits, at least one of them, with any zeros in front, after a
plus sign or without one. -/
def Spells (value : Nat) (text : List Char) : Prop :=
  ∃ digits, (text = digits ∨ text = '+' :: digits) ∧ digits ≠ [] ∧
    (∀ c ∈ digits, c.isDigit = true) ∧ Nat.ofDigitChars 10 digits 0 = value

/-- What is left of a text without its sign. -/
theorem eq_or_cons_unsigned (text : List Char) :
    text = unsigned text ∨ text = '+' :: unsigned text := by
  unfold unsigned
  split
  · exact .inr rfl
  · exact .inl rfl

/-- A text of digits is read as their value, if that is a word. -/
theorem readDecimal_of_digits (some_digit : digits ≠ []) (all : ∀ c ∈ digits, c.isDigit = true)
    (same : unsigned text = digits) (fits : Nat.ofDigitChars 10 digits 0 < wordBound) :
    readDecimal text = some (Nat.ofDigitChars 10 digits 0) := by
  have regular : (digits.isEmpty || !digits.all Char.isDigit) = false := by
    simp [some_digit, List.all_eq_true.mpr all]
  rw [readDecimal, same]
  dsimp only
  rw [regular, if_neg Bool.false_ne_true, if_pos fits]

/-- **The texts that are read as a number are those that stand for it, if it is a word.** -/
theorem readDecimal_eq_some_iff :
    readDecimal text = some value ↔ Spells value text ∧ value < wordBound := by
  constructor
  · intro h
    unfold readDecimal at h
    dsimp only at h
    split at h
    next => cases h
    next regular =>
      split at h
      next fits =>
        cases h
        simp only [Bool.or_eq_true, Bool.not_eq_true', not_or, Bool.not_eq_true, Bool.not_eq_false,
          List.isEmpty_eq_false_iff, List.all_eq_true] at regular
        exact ⟨⟨unsigned text, eq_or_cons_unsigned text, regular.1, regular.2, rfl⟩, fits⟩
      next => cases h
  · rintro ⟨⟨digits, rfl | rfl, some_digit, all, rfl⟩, fits⟩
    · exact readDecimal_of_digits some_digit all (unsigned_of_forall_isDigit all) fits
    · exact readDecimal_of_digits some_digit all rfl fits

/-- A numeral of a word stands for it. -/
theorem spells_decimal (n : Nat) : Spells n (decimal n) :=
  ⟨decimal n, .inl rfl, decimal_ne_nil n, fun _ => isDigit_of_mem_decimal,
    Nat.ofDigitChars_toDigits (by decide) (by decide)⟩

/-- No digit is a comma, and no sign is. -/
theorem Spells.comma_not_mem (spells : Spells value text) : ',' ∉ text := by
  obtain ⟨digits, same, -, all, -⟩ := spells
  have no_digit : ',' ∉ digits := fun mem => absurd (all _ mem) (by decide)
  rcases same with rfl | rfl
  · exact no_digit
  · exact List.not_mem_cons_of_ne_of_not_mem (by decide) no_digit

/-- A digit is not a blank. -/
theorem isBlank_of_isDigit {c : Char} (h : c.isDigit = true) : isBlank c = false := by
  simp only [Char.isDigit, Bool.and_eq_true, decide_eq_true_eq] at h
  have low : 48 ≤ c.toNat := UInt32.le_iff_toNat_le.mp h.1
  have high : c.toNat ≤ 57 := UInt32.le_iff_toNat_le.mp h.2
  simp only [isBlank, Bool.or_eq_false_iff, Bool.and_eq_false_imp, decide_eq_true_eq,
    decide_eq_false_iff_not, beq_eq_false_iff_ne]
  omega

/-- A text of digits has no blanks to trim. -/
theorem trims_digits (all : ∀ c ∈ digits, c.isDigit = true) : Trims digits digits :=
  ⟨⟨[], [], by simp, nofun, nofun⟩,
    fun _ hc => isBlank_of_isDigit (all _ (List.mem_of_mem_head? hc)),
    fun _ hc => isBlank_of_isDigit (all _ (List.mem_of_getLast? hc))⟩

end Numeral

open Numeral

variable {text inner opening closing : List Char} {values : List Nat} {parts : List (List Char)}
  {op op' : Operation} {value : Nat}

/-! ## Arguments -/

/-- The text of an argument: a numeral of a word, with any blanks around it. -/
def Argument (value : Nat) (text : List Char) : Prop :=
  ∃ core, Trims text core ∧ Spells value core ∧ value < wordBound

/-- An argument is read when it is trimmed. -/
theorem argument_iff : Argument value text ↔ readDecimal (trim text) = some value := by
  rw [readDecimal_eq_some_iff]
  constructor
  · rintro ⟨core, trims, spelled⟩
    rwa [trims_iff.mp trims]
  · exact fun spelled => ⟨trim text, trims_trim text, spelled⟩

/-- An argument has no comma. -/
theorem Argument.comma_not_mem (argument : Argument value text) : ',' ∉ text := by
  obtain ⟨core, ⟨⟨before, after, rfl, blank, blank'⟩, -, -⟩, spells, -⟩ := argument
  have no_blank : isBlank ',' = false := rfl
  simp only [List.mem_append, not_or]
  refine ⟨⟨fun mem => ?_, spells.comma_not_mem⟩, fun mem => ?_⟩
  · exact absurd (blank _ mem) (by simp [no_blank])
  · exact absurd (blank' _ mem) (by simp [no_blank])

/-- A text between two others is what is between them. -/
theorem between?_eq_some_iff : between? opening closing text = some inner ↔
    text = opening ++ inner ++ closing := by
  simp only [between?, Option.bind_eq_bind, Option.bind_eq_some_iff,
    List.isPrefixOf?_eq_some_iff_append_eq, List.isSuffixOf?_eq_some_iff_append_eq]
  constructor
  · rintro ⟨rest, rfl, rfl⟩
    rw [List.append_assoc]
  · rintro rfl
    exact ⟨inner ++ closing, (List.append_assoc ..).symm, rfl⟩

/-- The fields of a text are what a split at its commas gives. -/
theorem fields_eq_splitOn (text : List Char) : fields text = text.splitOn ',' := by
  induction text with
  | nil => rfl
  | cons c text ih =>
    rw [fields, List.splitOn_cons_eq_if_modifyHead, ih]
    by_cases comma : c = ','
    · rw [if_pos comma, if_pos (beq_iff_eq.mpr comma)]
    · rw [if_neg comma, if_neg (by simpa using comma)]
      cases split : text.splitOn ',' with
      | nil => exact absurd split (List.splitOn_ne_nil _ _)
      | cons first others => rfl

/-- All items are read if each of them is. -/
theorem mapM_eq_some_iff {α β : Type} {f : α → Option β} {l : List α} {l' : List β} :
    l.mapM f = some l' ↔ List.Forall₂ (fun a b => f a = some b) l l' := by
  induction l generalizing l' with
  | nil => simp [eq_comm]
  | cons a l ih =>
    simp only [List.mapM_cons, Option.bind_eq_bind, Option.bind_eq_some_iff, ih,
      List.forall₂_cons_left_iff, Option.pure_def, Option.some.injEq]
    constructor
    · rintro ⟨b, first, bs, rest, rfl⟩
      exact ⟨b, bs, first, rest, rfl⟩
    · rintro ⟨b, bs, first, rest, rfl⟩
      exact ⟨b, first, bs, rest, rfl⟩

/-- **The arguments of an operation are the numbers that stand between its parentheses,** with
commas between them. -/
theorem arguments?_eq_some_iff {name : String} (some_value : values ≠ []) :
    arguments? name text = some values ↔
      ∃ parts, text = name.toList ++ ['('] ++ [','].intercalate parts ++ [')', ','] ∧
        List.Forall₂ (fun part value => Argument value part) parts values := by
  simp only [arguments?, Option.bind_eq_bind, Option.bind_eq_some_iff, between?_eq_some_iff,
    mapM_eq_some_iff, fields_eq_splitOn, ← argument_iff]
  constructor
  · rintro ⟨inner, same, read⟩
    exact ⟨inner.splitOn ',', by rw [same, List.intercalate_splitOn], read⟩
  · rintro ⟨parts, same, read⟩
    have some_part : parts ≠ [] := by
      rintro rfl
      cases read
      exact some_value rfl
    have no_comma : ∀ part ∈ parts, ',' ∉ part :=
      ((List.forall₂_and_left ..).mp (read.imp fun part value h => ⟨h.comma_not_mem, h⟩)).1
    exact ⟨_, same, by rwa [List.splitOn_intercalate _ no_comma some_part]⟩

/-- One argument. -/
theorem arguments?_eq_one {name : String} : arguments? name text = some [value] ↔
    ∃ x, text = name.toList ++ ['('] ++ x ++ [')', ','] ∧ Argument value x := by
  rw [arguments?_eq_some_iff (List.cons_ne_nil _ _)]
  constructor
  · rintro ⟨parts, rfl, read⟩
    obtain ⟨x, rest, argument, none_left, rfl⟩ := List.forall₂_cons_right_iff.mp read
    obtain rfl := List.forall₂_nil_right_iff.mp none_left
    exact ⟨x, by simp, argument⟩
  · rintro ⟨x, rfl, argument⟩
    exact ⟨[x], by simp, .cons argument .nil⟩

/-- Two arguments. -/
theorem arguments?_eq_two {name : String} {first second : Nat} :
    arguments? name text = some [first, second] ↔
      ∃ x y, text = name.toList ++ ['('] ++ x ++ [','] ++ y ++ [')', ','] ∧
        Argument first x ∧ Argument second y := by
  rw [arguments?_eq_some_iff (List.cons_ne_nil _ _)]
  constructor
  · rintro ⟨parts, rfl, read⟩
    obtain ⟨x, others, argument, read_others, rfl⟩ := List.forall₂_cons_right_iff.mp read
    obtain ⟨y, rest, argument', none_left, rfl⟩ := List.forall₂_cons_right_iff.mp read_others
    obtain rfl := List.forall₂_nil_right_iff.mp none_left
    exact ⟨x, y, by simp, argument, argument'⟩
  · rintro ⟨x, y, rfl, argument, argument'⟩
    exact ⟨[x, y], by simp, .cons argument (.cons argument' .nil)⟩

/-! ## Operations -/

/-- The forms of an operation, without blanks around it. -/
inductive Operation.Written : Operation → List Char → Prop
  /-- Its name, and how many bytes. -/
  | alloc {size : Nat} {x : List Char} (argument : Argument size x) :
      Written (.alloc size) ("Alloc(".toList ++ x ++ "),".toList)
  /-- Its name, and which allocation. -/
  | free {index : Nat} {x : List Char} (argument : Argument index x) :
      Written (.free index) ("Free(".toList ++ x ++ "),".toList)
  /-- Its name, and which allocation, and behind a comma how many bytes. -/
  | realloc {index size : Nat} {x y : List Char} (first : Argument index x)
      (second : Argument size y) :
      Written (.realloc index size) ("Realloc(".toList ++ x ++ [','] ++ y ++ "),".toList)

/-- All numbers of an operation are words. -/
def Operation.Fits (op : Operation) : Prop :=
  (∀ index ∈ op.index?, index < wordBound) ∧ ∀ size ∈ op.size?, size < wordBound

namespace Operation

/-- What begins with another letter than a name has no arguments of an operation with that name. -/
theorem arguments?_eq_none {name : String} {c d : Char} {rest : List Char}
    (named : name.toList = c :: rest) (differs : c ≠ d) (text : List Char) :
    arguments? name (d :: text) = none := by
  rw [arguments?, named, between?]
  simp [List.isPrefixOf?, differs]

/-- **The texts that are read as an operation are those that it may be written as.** -/
theorem ofTrimmed?_eq_some_iff : ofTrimmed? text = some op ↔ op.Written text := by
  constructor
  · intro h
    unfold ofTrimmed? at h
    split at h
    next size read =>
      cases h
      obtain ⟨x, rfl, argument⟩ := arguments?_eq_one.mp read
      exact .alloc argument
    next index read _ =>
      cases h
      obtain ⟨x, rfl, argument⟩ := arguments?_eq_one.mp read
      exact .free argument
    next index size read _ _ =>
      cases h
      obtain ⟨x, y, rfl, first, second⟩ := arguments?_eq_two.mp read
      exact .realloc first second
    next => cases h
  · -- an earlier form is not taken, as its name begins with another letter
    intro written
    cases written with
    | @alloc size x argument =>
      have read : arguments? "Alloc" ("Alloc(".toList ++ x ++ "),".toList) = some [size] :=
        arguments?_eq_one.mpr ⟨_, rfl, argument⟩
      unfold ofTrimmed?
      rw [read]
    | @free index x argument =>
      have read : arguments? "Free" ("Free(".toList ++ x ++ "),".toList) = some [index] :=
        arguments?_eq_one.mpr ⟨_, rfl, argument⟩
      have other : arguments? "Alloc" ("Free(".toList ++ x ++ "),".toList) = none :=
        arguments?_eq_none rfl (by decide) _
      unfold ofTrimmed?
      rw [other, read]
    | @realloc index size x y first second =>
      have read : arguments? "Realloc" ("Realloc(".toList ++ x ++ [','] ++ y ++ "),".toList)
          = some [index, size] :=
        arguments?_eq_two.mpr ⟨_, _, rfl, first, second⟩
      have other :
          arguments? "Alloc" ("Realloc(".toList ++ x ++ [','] ++ y ++ "),".toList) = none :=
        arguments?_eq_none rfl (by decide) _
      have other' :
          arguments? "Free" ("Realloc(".toList ++ x ++ [','] ++ y ++ "),".toList) = none :=
        arguments?_eq_none rfl (by decide) _
      unfold ofTrimmed?
      rw [other, other', read]

/-- No text has two meanings. -/
theorem Written.unique (written : op.Written text) (written' : op'.Written text) : op = op' := by
  rw [← ofTrimmed?_eq_some_iff] at written written'
  exact Option.some.inj (written.symm.trans written')

/-- A word is an argument as its numeral, -/
theorem argument_decimal (fits : value < wordBound) : Argument value (decimal value) :=
  ⟨decimal value, trims_digits fun _ => isDigit_of_mem_decimal, spells_decimal value, fits⟩

/-- and also behind a space. -/
theorem argument_space (fits : value < wordBound) : Argument value ([' '] ++ decimal value) := by
  have trims := trims_digits fun c (hc : c ∈ decimal value) => isDigit_of_mem_decimal hc
  refine ⟨decimal value, ⟨⟨[' '], [], by simp, ?_, nofun⟩, trims.first, trims.last⟩,
    spells_decimal value, fits⟩
  intro c hc
  rw [List.mem_singleton.mp hc]
  rfl

/-- **An operation is written as its text.** -/
theorem written_text (fits : op.Fits) : op.Written op.text := by
  cases op with
  | alloc size => exact .alloc (argument_decimal (fits.2 size rfl))
  | free index => exact .free (argument_decimal (fits.1 index rfl))
  | realloc index size =>
    have written :=
      Written.realloc (argument_decimal (fits.1 index rfl)) (argument_space (fits.2 size rfl))
    have form : (realloc index size).text =
        "Realloc(".toList ++ decimal index ++ ([','] ++ [' ']) ++ decimal size ++ "),".toList := rfl
    rw [form]
    simp only [List.append_assoc] at written ⊢
    exact written

/-- A written operation neither begins nor ends with a blank. -/
theorem Written.trim_eq (written : op.Written text) : trim text = text := by
  apply trim_of_ends
  · cases written <;> rintro _ ⟨⟩ <;> rfl
  · cases written <;> rw [List.getLast?_append] <;> rintro _ ⟨⟩ <;> rfl

/-! ## Texts of operations -/

/-- Reading an operation succeeds if it is written there, between blanks. -/
theorem parse_eq_ok_iff : parse text = .ok op ↔ op.Written (trim text) := by
  rw [← ofTrimmed?_eq_some_iff, parse]
  cases ofTrimmed? (trim text) with
  | none => simp
  | some op' => simp

/-- Otherwise what is there is no operation. -/
theorem parse_of_not_written (not_written : ∀ op : Operation, ¬ op.Written (trim text)) :
    parse text = .error ⟨none, trim text⟩ := by
  rw [parse]
  cases read : ofTrimmed? (trim text) with
  | none => rfl
  | some op => exact absurd (ofTrimmed?_eq_some_iff.mp read) (not_written op)

/-- **Exactly the written operations are read.**  A text, trimmed of the blanks at its ends, is read
as an operation if it has one of the three forms.  Otherwise the error holds what is left of it, and
its message ends in a quotation of that, which is read back and so is of no other text.  It has one
meaning at most.  And whatever blanks are put around the text of an operation, it is read back. -/
theorem parse_exact :
    (∀ s, ∃ t, Trims s t ∧ (∀ op, parse s = .ok op ↔ op.Written t) ∧
      ((∀ op : Operation, ¬ op.Written t) → ∃ error, parse s = .error error ∧ error.line = none ∧
        error.text = t ∧ error.message = "not an operation: " ++ Quoted.encode t ∧
        Quoted.Quotation t (Quoted.encode t)) ∧
      ∀ op op' : Operation, op.Written t → op'.Written t → op = op') ∧
    ∀ op : Operation, op.Fits → ∀ before after : List Char, (∀ c ∈ before, isBlank c = true) →
      (∀ c ∈ after, isBlank c = true) → parse (before ++ op.text ++ after) = .ok op := by
  constructor
  · intro s
    exact ⟨trim s, trims_trim s, fun op => parse_eq_ok_iff,
      fun not_written => ⟨_, parse_of_not_written not_written, rfl, rfl, rfl,
        Quoted.quotation_encode _⟩, fun op op' => Written.unique⟩
  · intro op fits before after blank blank'
    have written := written_text fits
    rw [parse_eq_ok_iff, trim_around blank blank', written.trim_eq]
    exact written

/-- The text of an operation is read back, between a tab and a carriage return with a line feed, and
what has no comma at its end is quoted. -/
theorem parse_exact_of_realloc :
    parse (['\t'] ++ (realloc 0 200).text ++ ['\r', '\n']) = .ok (realloc 0 200) ∧
      ∃ error, parse " Alloc(8)".toList = .error error ∧ error.text = "Alloc(8)".toList ∧
        error.message = "not an operation: " ++ Quoted.encode "Alloc(8)".toList ∧
        Quoted.decode (Quoted.encode "Alloc(8)".toList).toList = some "Alloc(8)".toList := by
  constructor
  · have fits : (realloc 0 200).Fits := ⟨by rintro _ ⟨⟩; decide, by rintro _ ⟨⟩; decide⟩
    exact parse_exact.2 _ fits _ _ (List.all_eq_true.mp rfl) (List.all_eq_true.mp rfl)
  · obtain ⟨t, trims, -, quoted, -⟩ := parse_exact.1 " Alloc(8)".toList
    obtain rfl := trims_iff.mp trims
    have not_written (op : Operation) : ¬ op.Written (trim " Alloc(8)".toList) := by
      have unread : ofTrimmed? (trim " Alloc(8)".toList) = none := by decide
      rw [← ofTrimmed?_eq_some_iff, unread]
      exact Option.some_ne_none op ∘ Eq.symm
    obtain ⟨error, failed, -, text, message, quotation⟩ := quoted not_written
    exact ⟨error, failed, text, message, quotation.read⟩

/-- Of blanks, signs and zeros there may be more than an operation is shown with. -/
example : parse " Realloc( +007 ,\u00a0200),\n".toList = .ok (realloc 7 200) := by decide

end Operation

end TaggedHeap
