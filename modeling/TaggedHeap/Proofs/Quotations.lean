import TaggedHeap.Text.Hexadecimal
import TaggedHeap.Text.Quoted

/-!
# What a quotation says

A message quotes a text that it speaks of.  Whoever reads the message gets the text back from the
quotation, whatever characters it has.

* `Reader` is a reader of quotations: it goes through one from character to character, and all that
  it knows is where in it it is.  `decode` is what it has read when it comes to the end.
* `run_encodeChar`: what stands for a character is read as that character.
* `Quotation` is what is asked of the quotation of a text: it is read as the text, all of it can be
  seen, and a text without anything to escape stands in it as it is.  By `quotation_encode` the one
  in a message is such a quotation, and by `Quotation.unique` no two texts have the same.
-/

namespace TaggedHeap

namespace CharSet

/-- Whether a character is in a set is told by the number of the bounds that it has reached. -/
theorem contains_eq {s : CharSet} {c : Char} (reached ahead : List Nat)
    (bounds : s.bounds.toList = reached ++ ahead) (below : ∀ b ∈ reached, b ≤ c.toNat)
    (above : ∀ b ∈ ahead, c.toNat < b) : s.contains c = (reached.length % 2 == 1) := by
  have all : reached.countP (· ≤ c.toNat) = reached.length :=
    List.countP_eq_length.mpr fun b hb => decide_eq_true (below b hb)
  have none : ahead.countP (· ≤ c.toNat) = 0 :=
    List.countP_eq_zero.mpr fun b hb => by simpa using above b hb
  rw [contains, ← Array.countP_toList, bounds, List.countP_append, all, none, Nat.add_zero]

end CharSet

namespace Quoted

variable {c letter : Char} {text text' : List Char} {quotation : String}

/-! ## What can be seen -/

/-- The sets of what cannot be seen begin with the controls, and go on behind the last character of
ASCII that can. -/
theorem bounds_behind_ascii :
    (∀ b ∈ CharSet.unprintable.bounds.toList.drop 2, 0x7e < b) ∧
      (∀ b ∈ CharSet.fillers.bounds.toList, 0x7e < b) ∧
      ∀ b ∈ CharSet.extending.bounds.toList, 0x7e < b := by
  decide +kernel

/-- The characters of ASCII from the space to the tilde can be seen. -/
theorem isHidden_of_ascii (low : 0x20 ≤ c.toNat) (high : c.toNat ≤ 0x7e) : isHidden c = false := by
  obtain ⟨unprintable, fillers, extending⟩ := bounds_behind_ascii
  have printable : CharSet.unprintable.contains c = false :=
    CharSet.contains_eq [0x0, 0x20] _ rfl (by simpa using low)
      fun b hb => Nat.lt_of_le_of_lt high (unprintable b hb)
  have filled : CharSet.fillers.contains c = false :=
    CharSet.contains_eq [] _ rfl nofun fun b hb => Nat.lt_of_le_of_lt high (fillers b hb)
  have alone : CharSet.extending.contains c = false :=
    CharSet.contains_eq [] _ rfl nofun fun b hb => Nat.lt_of_le_of_lt high (extending b hb)
  rw [isHidden, printable, filled, alone]
  rfl

/-- A control cannot be seen. -/
theorem isHidden_of_control (low : c.toNat < 0x20) : isHidden c = true := by
  have unprintable : CharSet.unprintable.contains c = true := by
    refine CharSet.contains_eq [0x0] (0x20 :: CharSet.unprintable.bounds.toList.drop 2) rfl
      (by simp) (List.forall_mem_cons.mpr ⟨low, fun b hb => ?_⟩)
    exact Nat.lt_trans low (Nat.lt_of_le_of_lt (by decide) (bounds_behind_ascii.1 b hb))
  rw [isHidden, unprintable]
  rfl

/-! ## Reading quotations -/

/-- What a letter behind a backslash stands for. -/
def named? : Char → Option Char
  | '0' => some '\x00'
  | 't' => some '\t'
  | 'r' => some '\r'
  | 'n' => some '\n'
  | '\\' => some '\\'
  | '"' => some '"'
  | _ => none

/-- Where in a quotation a reader is. -/
inductive Reader where
  /-- Before the quotation mark that opens it. -/
  | before
  /-- Between two characters of the text. -/
  | between
  /-- Behind a backslash. -/
  | escape
  /-- Behind a backslash and the letter for a code point, which stands in braces. -/
  | codePoint
  /-- Before the first digit of a code point. -/
  | brace
  /-- Behind a digit of a code point; those read so far have this value. -/
  | digits (value : Nat)
  /-- Behind the quotation mark that closes it. -/
  | behind
deriving DecidableEq

namespace Reader

/-- What a reader has read when it has seen one more character, and where it is then.  A character
that may not stand there is not read. -/
def step : Reader → Char → Option (List Char × Reader)
  | before, c => if c = '"' then some ([], between) else none
  | between, c =>
    if c = '"' then some ([], behind)
    else if c = '\\' then some ([], escape)
    else some ([c], between)
  | escape, c =>
    if c = 'u' then some ([], codePoint) else (named? c).map fun named => ([named], between)
  | codePoint, c => if c = '\x7b' then some ([], brace) else none
  | brace, c => (Hexadecimal.digit? c).map fun digit => ([], digits digit)
  | digits value, c =>
    if c = '\x7d' then
      if value.isValidChar then some ([Char.ofNat value], between) else none
    else (Hexadecimal.digit? c).map fun digit => ([], digits (16 * value + digit))
  | behind, _ => none

/-- What a reader has read when it has gone on along a text, and where it is then. -/
def run (place : Reader) : List Char → Option (List Char × Reader)
  | [] => some ([], place)
  | c :: rest =>
    match place.step c with
    | some (now, next) => (run next rest).map fun (later, last) => (now ++ later, last)
    | none => none

variable {place place' place'' : Reader} {first second read read' : List Char}

/-- A reader that has gone on along one character goes on from there. -/
theorem run_cons (stepped : place.step c = some (read, place')) (rest : List Char) :
    run place (c :: rest) = (run place' rest).map fun (later, last) => (read ++ later, last) := by
  rw [run, stepped]

/-- Along one character. -/
theorem run_one (stepped : place.step c = some (read, place')) :
    run place [c] = some (read, place') := by
  rw [run_cons stepped, run]
  simp

/-- A reader that has gone on along one text goes on along another. -/
theorem run_append (ran : run place first = some (read, place'))
    (ran' : run place' second = some (read', place'')) :
    run place (first ++ second) = some (read ++ read', place'') := by
  induction first generalizing place read with
  | nil =>
    cases ran
    exact ran'
  | cons c first ih =>
    cases stepped : place.step c with
    | none => simp [run, stepped] at ran
    | some seen =>
      rw [run_cons stepped, Option.map_eq_some_iff] at ran
      obtain ⟨⟨later, _⟩, ran, same⟩ := ran
      cases same
      rw [List.cons_append, run_cons stepped, ih ran, List.append_assoc]
      rfl

end Reader

open Reader

/-- The text of a quotation. -/
def decode (quotation : List Char) : Option (List Char) :=
  match before.run quotation with
  | some (text, .behind) => some text
  | _ => none

/-! ## Code points -/

/-- What holds of each digit alone, and stays true when one more is put behind, holds of the digits
of every number. -/
theorem toDigits_induction {motive : Nat → List Char → Prop}
    (one : ∀ digit < 16, motive digit [digit.digitChar])
    (more : ∀ n text, ∀ digit < 16, motive n text →
      motive (16 * n + digit) (text ++ [digit.digitChar])) (n : Nat) :
    motive n (Nat.toDigits 16 n) := by
  induction n using Nat.strongRecOn with
  | ind n ih =>
    rcases Nat.lt_or_ge n 16 with small | large
    · rw [Nat.toDigits_of_lt_base small]
      exact one n small
    · have longer := more _ _ (n % 16) (Nat.mod_lt n (by decide))
        (ih (n / 16) (Nat.div_lt_self (by omega) (by decide)))
      rw [Nat.toDigits_eq_if (by decide), if_neg (Nat.not_lt.mpr large)]
      rwa [Nat.div_add_mod] at longer

/-- The digits of a number are read as its value. -/
theorem run_toDigits (n : Nat) : brace.run (Nat.toDigits 16 n) = some ([], digits n) := by
  have valued : ∀ digit < 16, Hexadecimal.digit? digit.digitChar = some digit := by decide
  have no_end : ∀ digit < 16, digit.digitChar ≠ '\x7d' := by decide
  induction n using toDigits_induction with
  | one digit small =>
    apply run_one
    rw [step, valued digit small]
    rfl
  | more n text digit small ran =>
    have stepped : (digits n).step digit.digitChar = some ([], digits (16 * n + digit)) := by
      rw [step, if_neg (no_end digit small), valued digit small]
      rfl
    exact run_append ran (run_one stepped)

/-- The digits of a number can be seen. -/
theorem isHidden_of_mem_toDigits {n : Nat} : ∀ c ∈ Nat.toDigits 16 n, isHidden c = false := by
  have one : ∀ digit < 16, isHidden digit.digitChar = false := by
    have ascii : ∀ digit < 16,
        0x20 ≤ digit.digitChar.toNat ∧ digit.digitChar.toNat ≤ 0x7e := by decide
    exact fun digit small => isHidden_of_ascii (ascii digit small).1 (ascii digit small).2
  induction n using toDigits_induction with
  | one digit small => exact List.forall_mem_singleton.mpr (one digit small)
  | more n text digit small shown =>
    exact List.forall_mem_append.mpr ⟨shown, List.forall_mem_singleton.mpr (one digit small)⟩

/-! ## Characters -/

/-- How a character is escaped by its code point. -/
def byCodePoint (c : Char) : List Char :=
  ['\\', 'u', '\x7b'] ++ Nat.toDigits 16 c.toNat ++ ['\x7d']

/-- **What stands for a character**: a backslash and a letter, or its code point, or, if it can be
seen and is neither a backslash nor a quotation mark, the character itself. -/
theorem encodeChar_cases (c : Char) :
    (∃ letter, (encodeChar c).toList = ['\\', letter] ∧ letter ≠ 'u' ∧ named? letter = some c) ∨
      (isHidden c = true ∧ (encodeChar c).toList = byCodePoint c) ∨
      (isHidden c = false ∧ c ≠ '\\' ∧ c ≠ '"' ∧ (encodeChar c).toList = [c]) := by
  unfold encodeChar
  split
  · exact .inl ⟨'0', rfl, by decide, rfl⟩
  · exact .inl ⟨'t', rfl, by decide, rfl⟩
  · exact .inl ⟨'r', rfl, by decide, rfl⟩
  · exact .inl ⟨'n', rfl, by decide, rfl⟩
  · exact .inl ⟨'\\', rfl, by decide, rfl⟩
  · exact .inl ⟨'"', rfl, by decide, rfl⟩
  next no_slash no_mark =>
    split
    next hidden => exact .inr (.inl ⟨hidden, by simp [byCodePoint, Numeral.hexDigits]⟩)
    next shown => exact .inr (.inr ⟨Bool.eq_false_iff.mpr shown, no_slash, no_mark, by simp⟩)

/-- Letters name controls, the backslash and the quotation mark, and can be seen. -/
theorem named?_cases (named : named? letter = some c) :
    isHidden letter = false ∧ (c.toNat < 0x20 ∨ c = '\\' ∨ c = '"') := by
  unfold named? at named
  split at named <;> cases named <;>
    exact ⟨isHidden_of_ascii (by decide) (by decide), by decide⟩

/-- **What stands for a character is read as that character.** -/
theorem run_encodeChar (c : Char) : between.run (encodeChar c).toList = some ([c], between) := by
  rcases encodeChar_cases c with ⟨letter, same, no_code, named⟩ | ⟨-, same⟩ | ⟨-, slash, mark, same⟩
  · have opened : between.run ['\\'] = some ([], escape) := rfl
    have stepped : escape.step letter = some ([c], between) := by
      rw [step, if_neg no_code, named]
      rfl
    rw [same]
    exact run_append opened (run_one stepped)
  · have opened : between.run ['\\', 'u', '\x7b'] = some ([], brace) := rfl
    have valid : c.toNat.isValidChar := c.valid
    have stepped : (digits c.toNat).step '\x7d' = some ([c], between) := by
      rw [step, if_pos rfl, if_pos valid, Char.ofNat_toNat]
    rw [same]
    exact run_append (run_append opened (run_toDigits _)) (run_one stepped)
  · have stepped : between.step c = some ([c], between) := by
      rw [step, if_neg mark, if_neg slash]
    rw [same]
    exact run_one stepped

/-- What stands for a character can be seen. -/
theorem isHidden_of_mem_encodeChar : ∀ d ∈ (encodeChar c).toList, isHidden d = false := by
  have ascii {d : Char} : 0x20 ≤ d.toNat ∧ d.toNat ≤ 0x7e → isHidden d = false :=
    fun h => isHidden_of_ascii h.1 h.2
  rcases encodeChar_cases c with ⟨letter, same, -, named⟩ | ⟨-, same⟩ | ⟨shown, -, -, same⟩
  · rw [same, List.forall_mem_cons, List.forall_mem_singleton]
    exact ⟨ascii (by decide), (named?_cases named).1⟩
  · rw [same, byCodePoint, List.forall_mem_append, List.forall_mem_append]
    simp only [List.forall_mem_cons]
    exact ⟨⟨⟨ascii (by decide), ascii (by decide), ascii (by decide), nofun⟩,
      isHidden_of_mem_toDigits⟩, ascii (by decide), nofun⟩
  · rw [same, List.forall_mem_singleton]
    exact shown

/-- What can be seen and is neither a backslash nor a quotation mark stands for itself. -/
theorem encodeChar_of_plain (shown : isHidden c = false) (slash : c ≠ '\\') (mark : c ≠ '"') :
    (encodeChar c).toList = [c] := by
  rcases encodeChar_cases c with ⟨letter, -, -, named⟩ | ⟨hidden, -⟩ | ⟨-, -, -, same⟩
  · rcases (named?_cases named).2 with control | is_slash | is_mark
    · rw [isHidden_of_control control] at shown
      cases shown
    · exact absurd is_slash slash
    · exact absurd is_mark mark
  · rw [shown] at hidden
    cases hidden
  · exact same

/-! ## Texts -/

/-- What a quotation of a text is. -/
structure Quotation (text : List Char) (quotation : String) : Prop where
  /-- It is read as the text. -/
  read : decode quotation.toList = some text
  /-- All of it can be seen. -/
  visible : ∀ c ∈ quotation.toList, isHidden c = false
  /-- A text without anything to escape stands in it as it is. -/
  plain : (∀ c ∈ text, isHidden c = false ∧ c ≠ '\\' ∧ c ≠ '"') →
    quotation.toList = ['"'] ++ text ++ ['"']

/-- No two texts have the same quotation. -/
theorem Quotation.unique (quoted : Quotation text quotation)
    (quoted' : Quotation text' quotation) : text = text' :=
  Option.some.inj (quoted.read.symm.trans quoted'.read)

/-- What stands for the characters of a text is read as the text. -/
theorem run_flatMap (text : List Char) :
    between.run (text.flatMap fun c => (encodeChar c).toList) = some (text, between) := by
  induction text with
  | nil => rfl
  | cons c text ih =>
    rw [List.flatMap_cons]
    exact run_append (run_encodeChar c) ih

/-- **The quotation of a text in a message is a quotation of the text.** -/
theorem quotation_encode (text : List Char) : Quotation text (encode text) := by
  have toList : (encode text).toList
      = ['"'] ++ (text.flatMap fun c => (encodeChar c).toList) ++ ['"'] := by
    simp [encode, List.flatMap_map]
  refine ⟨?_, fun c mem => ?_, fun plain => ?_⟩
  · have opened : before.run ['"'] = some ([], between) := rfl
    have closed : between.run ['"'] = some ([], behind) := rfl
    rw [decode, toList, run_append (run_append opened (run_flatMap text)) closed,
      List.nil_append, List.append_nil]
  · have mark : isHidden '"' = false := isHidden_of_ascii (by decide) (by decide)
    simp only [toList, List.mem_append, List.mem_singleton, List.mem_flatMap] at mem
    rcases mem with (rfl | ⟨d, -, mem⟩) | rfl
    · exact mark
    · exact isHidden_of_mem_encodeChar c mem
    · exact mark
  · have same : text.map (fun c => (encodeChar c).toList) = text.map fun c => [c] :=
      List.map_congr_left fun c mem =>
        encodeChar_of_plain (plain c mem).1 (plain c mem).2.1 (plain c mem).2.2
    rw [toList, List.flatMap_def, same, ← List.flatMap_def, List.flatMap_singleton']

end Quoted

end TaggedHeap
