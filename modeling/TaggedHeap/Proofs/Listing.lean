import TaggedHeap.Proofs.Grammar

/-!
# Listings

A trace is read line by line.

* `Broken` says which lines a text has, without reading it, and `parse_of_broken` that the reader
  sees these.  Where a text may be broken in two ways, as a carriage return may be the end of a line
  or the first part of a line break, both are read alike.
* `Listing` says how a trace may be written: an operation on a line of its own, between blanks, and
  blank lines and comments anywhere.  `parseLines_listing` says that it is read back.
* `Bad` lines are the ones that are none of these.  By `parseLines_outcome` the first of them stops
  the reader, and nothing else does, with its number as the count of the lines before it goes on.
-/

namespace TaggedHeap.Trace

open Text Operation

variable {text line rest read : List Char} {ls : List (List Char)} {t : Trace} {op : Operation}
  {number : Nat}

/-! ## Lines of a text -/

/-- A text consists of these lines.  Each of them ends with a line feed, or with a carriage return
and a line feed, apart from the last, which needs no end. -/
inductive Broken : List (List Char) → List Char → Prop
  /-- No lines. -/
  | nil : Broken [] []
  /-- The last line, without an end. -/
  | last {line : List Char} (whole : '\n' ∉ line) : Broken [line] line
  /-- A line with its end, and the other lines. -/
  | line {line ending rest : List Char} {ls : List (List Char)} (whole : '\n' ∉ line)
      (ended : ending = ['\n'] ∨ ending = ['\r', '\n']) (others : Broken ls rest) :
      Broken (line :: ls) (line ++ ending ++ rest)

/-- What is read of a line goes on until its line feed. -/
theorem linesFrom_append (whole : '\n' ∉ line) :
    linesFrom read (line ++ rest) = linesFrom (line.reverse ++ read) rest := by
  induction line generalizing read with
  | nil => rfl
  | cons c line ih =>
    obtain ⟨differs, whole⟩ := not_or.mp (mt List.mem_cons.mpr whole)
    rw [List.cons_append, linesFrom, ih whole, List.reverse_cons, List.append_assoc,
      List.singleton_append]
    exact fun same => differs same.symm

/-- The first line of a text is what stands before its first line feed. -/
theorem lines_cons (whole : '\n' ∉ line) :
    lines (line ++ '\n' :: rest) = endLine line.reverse :: lines rest := by
  rw [lines, linesFrom_append whole, List.append_nil, linesFrom, lines]

/-- A line without an end is the last, if there is anything in it. -/
theorem lines_of_last (whole : '\n' ∉ line) : lines line = if line.isEmpty then [] else [line] := by
  have read_all : linesFrom [] (line ++ []) = linesFrom (line.reverse ++ []) [] :=
    linesFrom_append whole
  rw [List.append_nil, List.append_nil] at read_all
  rw [lines, read_all, linesFrom, List.isEmpty_reverse, List.reverse_reverse]

/-- **A text is broken into its lines.** -/
theorem broken_linesFrom (whole : '\n' ∉ read) :
    Broken (linesFrom read text) (read.reverse ++ text) := by
  have whole_line {read : List Char} (whole : '\n' ∉ read) : '\n' ∉ read.reverse := by
    rwa [List.mem_reverse]
  fun_induction linesFrom read text with
  | case1 read empty =>
    rw [List.isEmpty_iff.mp empty]
    exact .nil
  | case2 read some_read =>
    rw [List.append_nil]
    exact .last (whole_line whole)
  | case3 read rest ih =>
    have others := ih List.not_mem_nil
    unfold endLine
    split
    next line =>
      have parted :
          ('\r' :: line).reverse ++ '\n' :: rest = line.reverse ++ ['\r', '\n'] ++ rest := by simp
      rw [parted]
      exact .line (whole_line (List.not_mem_of_not_mem_cons whole)) (.inr rfl) others
    next =>
      have parted : read.reverse ++ '\n' :: rest = read.reverse ++ ['\n'] ++ rest := by simp
      rw [parted]
      exact .line (whole_line whole) (.inl rfl) others
  | case4 read c rest differs ih =>
    have parted : read.reverse ++ c :: rest = (c :: read).reverse ++ rest := by simp
    rw [parted]
    exact ih (List.not_mem_cons_of_ne_of_not_mem (fun same => differs same.symm) whole)

/-- Every text has lines. -/
theorem broken_lines (text : List Char) : Broken (lines text) text :=
  broken_linesFrom List.not_mem_nil

/-! ## Lines that are skipped -/

/-- Nothing is left of a text if there were only blanks. -/
theorem trim_eq_nil_iff : trim text = [] ↔ ∀ c ∈ text, isBlank c = true := by
  rw [← trims_iff]
  constructor
  · rintro ⟨⟨before, after, rfl, blank, blank'⟩, -, -⟩ c hc
    rw [List.append_nil, List.mem_append] at hc
    exact hc.elim (blank c) (blank' c)
  · intro blank
    exact ⟨⟨text, [], by simp, blank, nofun⟩, nofun, nofun⟩

/-- Blank lines and comments are skipped. -/
theorem isSkipped_iff :
    isSkipped line = true ↔ (∀ c ∈ line, isBlank c = true) ∨ line.head? = some '#' := by
  rw [isSkipped, Bool.or_eq_true, List.isEmpty_iff, trim_eq_nil_iff, beq_iff_eq]

/-- A carriage return at the end of a line does not matter, -/
theorem trim_append_return (line : List Char) : trim (line ++ ['\r']) = trim line := by
  have none_before : ∀ c ∈ ([] : List Char), isBlank c = true := nofun
  exact trim_around none_before (List.all_eq_true.mp rfl)

/-- and whether the line is skipped does not depend on it. -/
theorem isSkipped_append_return (line : List Char) :
    isSkipped (line ++ ['\r']) = isSkipped line := by
  cases line with
  | nil => rfl
  | cons c line =>
    rw [isSkipped, trim_append_return]
    rfl

/-- The end of a line is read alike with its carriage return and without it. -/
theorem parseLines_endLine (line : List Char) :
    parseLines number (endLine line.reverse :: ls) = parseLines number (line :: ls) := by
  unfold endLine
  split
  next start same =>
    obtain rfl := List.reverse_eq_cons_iff.mp same
    simp only [parseLines, isSkipped_append_return, trim_append_return]
  next => rw [List.reverse_reverse]

/-- The lines that a text is broken into are read. -/
theorem parseLines_of_broken (broken : Broken ls text) :
    parseLines number (lines text) = parseLines number ls := by
  induction broken generalizing number with
  | nil => rfl
  | @last line whole =>
    rw [lines_of_last whole]
    split
    next empty =>
      rw [List.isEmpty_iff.mp empty]
      rfl
    next => rfl
  | @line line ending rest ls whole ended others ih =>
    have read_on : parseLines number (line :: lines rest) = parseLines number (line :: ls) := by
      simp only [parseLines, ih]
    rcases ended with rfl | rfl
    · rw [List.append_assoc, List.singleton_append, lines_cons whole, parseLines_endLine, read_on]
    · have parted : line ++ ['\r', '\n'] ++ rest = (line ++ ['\r']) ++ '\n' :: rest := by simp
      have whole' : '\n' ∉ line ++ ['\r'] := by simpa using whole
      rw [parted, lines_cons whole', List.reverse_append]
      show parseLines number (line.reverse.reverse :: lines rest) = _
      rw [List.reverse_reverse, read_on]

/-- **A trace is read from the lines of its text.** -/
theorem parse_of_broken (broken : Broken ls text) : parse text = parseLines 1 ls :=
  parseLines_of_broken broken

/-! ## Listings of traces -/

/-- Lines that a trace may be written in. -/
inductive Listing : Trace → List (List Char) → Prop
  /-- No lines. -/
  | nil : Listing [] []
  /-- An operation, between blanks. -/
  | operation {op : Operation} {t : Trace} {ls : List (List Char)} {before after : List Char}
      (fits : op.Fits) (blank : ∀ c ∈ before, isBlank c = true)
      (blank' : ∀ c ∈ after, isBlank c = true)
      (others : Listing t ls) : Listing (op :: t) ((before ++ op.text ++ after) :: ls)
  /-- A blank line. -/
  | blank {line : List Char} {t : Trace} {ls : List (List Char)}
      (blank : ∀ c ∈ line, isBlank c = true) (others : Listing t ls) : Listing t (line :: ls)
  /-- A comment. -/
  | comment {line : List Char} {t : Trace} {ls : List (List Char)} (others : Listing t ls) :
      Listing t (('#' :: line) :: ls)

/-- A line that must hold an operation, and holds none. -/
structure Bad (line : List Char) : Prop where
  /-- It is not blank. -/
  some_char : ∃ c ∈ line, isBlank c = false
  /-- It is no comment. -/
  no_comment : line.head? ≠ some '#'
  /-- There is no operation on it. -/
  no_operation : ∀ op : Operation, ¬ op.Written (trim line)

/-- A written operation is not empty, and does not begin as a comment does. -/
theorem not_isSkipped_of_written (written : op.Written (trim line)) : isSkipped line = false := by
  rw [Bool.eq_false_iff, Ne, isSkipped_iff]
  rintro (blank | comment)
  · rw [trim_eq_nil_iff.mpr blank] at written
    cases written
  · -- a number sign in front is not trimmed, and no operation begins with it
    obtain ⟨line, rfl⟩ := List.head?_eq_some_iff.mp comment
    have first : isBlank '#' = false := rfl
    obtain ⟨⟨before, after, same, blank, -⟩, -, -⟩ := trims_trim ('#' :: line)
    cases before with
    | nil =>
      generalize trim ('#' :: line) = core at written same
      cases written <;> simp at same
    | cons c before =>
      obtain ⟨rfl, -⟩ := List.cons.inj same
      exact absurd (blank _ List.mem_cons_self) (by simp [first])

/-- A line is bad if the reader neither skips it nor finds an operation. -/
theorem bad_iff : Bad line ↔ isSkipped line = false ∧ ofTrimmed? (trim line) = none := by
  have skipped :
      isSkipped line = false ↔ (∃ c ∈ line, isBlank c = false) ∧ line.head? ≠ some '#' := by
    rw [Bool.eq_false_iff, Ne, isSkipped_iff]
    simp
  rw [skipped, Option.eq_none_iff_forall_ne_some]
  simp only [Ne, ofTrimmed?_eq_some_iff]
  exact ⟨fun h => ⟨⟨h.some_char, h.no_comment⟩, h.no_operation⟩, fun h => ⟨h.1.1, h.1.2, h.2⟩⟩

/-- A line that is skipped adds nothing. -/
theorem parseLines_skipped (skipped : isSkipped line = true) :
    parseLines number (line :: ls) = parseLines (number + 1) ls := by
  rw [parseLines, if_pos skipped]

/-- An operation is put in front of what the other lines hold. -/
theorem parseLines_written (written : op.Written (trim line)) :
    parseLines number (line :: ls) = (parseLines (number + 1) ls).map (op :: ·) := by
  rw [parseLines, not_isSkipped_of_written written, if_neg Bool.false_ne_true,
    ofTrimmed?_eq_some_iff.mpr written]

/-- At a bad line reading stops. -/
theorem parseLines_bad (bad : Bad line) :
    parseLines number (line :: ls) = .error ⟨some number, trim line⟩ := by
  obtain ⟨kept, unread⟩ := bad_iff.mp bad
  rw [parseLines, kept, if_neg Bool.false_ne_true, unread]

/-- Any other line leaves what comes of the rest as it is, apart from the trace itself. -/
theorem parseLines_of_not_bad (not_bad : ¬ Bad line) :
    ∃ add : Trace → Trace,
      ∀ number ls, parseLines number (line :: ls) = (parseLines (number + 1) ls).map add := by
  by_cases skipped : isSkipped line = true
  · refine ⟨id, fun number ls => ?_⟩
    rw [parseLines_skipped skipped]
    cases parseLines (number + 1) ls <;> rfl
  · have kept := Bool.eq_false_iff.mpr skipped
    obtain ⟨op, read⟩ : ∃ op, ofTrimmed? (trim line) = some op :=
      Option.ne_none_iff_exists'.mp fun unread => not_bad (bad_iff.mpr ⟨kept, unread⟩)
    exact ⟨(op :: ·), fun number ls => parseLines_written (ofTrimmed?_eq_some_iff.mp read)⟩

/-- **A listing is read back.** -/
theorem parseLines_listing (listing : Listing t ls) : parseLines number ls = .ok t := by
  induction listing generalizing number with
  | nil => rfl
  | @operation op t ls before after fits blank blank' others ih =>
    have written : op.Written (trim (before ++ op.text ++ after)) := by
      have here := written_text fits
      rwa [trim_around blank blank', here.trim_eq]
    rw [parseLines_written written, ih]
    rfl
  | blank blank others ih =>
    rw [parseLines_skipped (isSkipped_iff.mpr (.inl blank)), ih]
  | comment others ih =>
    rw [parseLines_skipped (isSkipped_iff.mpr (.inr rfl)), ih]

/-- **What comes of reading lines.**  Either none of them is bad, and there is a trace; or the first
bad one is named, by the count of the lines before it. -/
theorem parseLines_outcome (number : Nat) (ls : List (List Char)) :
    (∃ t, parseLines number ls = .ok t ∧ ∀ line ∈ ls, ¬ Bad line) ∨
      ∃ before line after, ls = before ++ line :: after ∧ (∀ line ∈ before, ¬ Bad line) ∧ Bad line ∧
        parseLines number ls = .error ⟨some (number + before.length), trim line⟩ := by
  induction ls generalizing number with
  | nil => exact .inl ⟨[], rfl, nofun⟩
  | cons line ls ih =>
    by_cases bad : Bad line
    · exact .inr ⟨[], line, ls, rfl, nofun, bad, parseLines_bad bad⟩
    · obtain ⟨add, read⟩ := parseLines_of_not_bad bad
      rcases ih (number + 1) with ⟨t, same, good⟩ | ⟨before, stop, after, rfl, good, bad', same⟩
      · refine .inl ⟨add t, by rw [read, same]; rfl, ?_⟩
        exact List.forall_mem_cons.mpr ⟨bad, good⟩
      · refine .inr
          ⟨line :: before, stop, after, rfl, List.forall_mem_cons.mpr ⟨bad, good⟩, bad', ?_⟩
        rw [read, same, List.length_cons, Nat.add_right_comm]
        rfl

/-- **Reading a trace undoes writing it, and the first bad line is named.**  However a text is
broken into lines: if a trace is listed in them, that trace is read; reading fails just if one of
them is bad; and then the error has the number of the first bad line among all of them, counted from
one, and quotes it. -/
theorem parse_listing :
    (∀ text, ∃ ls, Broken ls text) ∧
    ∀ text ls, Broken ls text →
      (∀ t, Listing t ls → parse text = .ok t) ∧
      ((∃ error, parse text = .error error) ↔ ∃ line ∈ ls, Bad line) ∧
      ∀ error, parse text = .error error → ∃ before line after, ls = before ++ line :: after ∧
        (∀ line ∈ before, ¬ Bad line) ∧ Bad line ∧ error.line = some (before.length + 1) ∧
        error.message = "line " ++ toString (before.length + 1) ++ ": " ++
          ("not an operation: " ++ Quoted.encode (trim line)) := by
  refine ⟨fun text => ⟨_, broken_lines text⟩, fun text ls broken => ?_⟩
  rw [parse_of_broken broken]
  refine ⟨fun t listing => parseLines_listing listing, ?_⟩
  rcases parseLines_outcome 1 ls with ⟨t, same, good⟩ | ⟨before, line, after, rfl, good, bad, same⟩
  · rw [same]
    refine ⟨⟨nofun, ?_⟩, nofun⟩
    rintro ⟨line, mem, bad⟩
    exact absurd bad (good line mem)
  · rw [same, Nat.add_comm 1]
    constructor
    · exact ⟨fun _ => ⟨line, List.mem_append_right _ List.mem_cons_self, bad⟩, fun _ => ⟨_, rfl⟩⟩
    · rintro _ ⟨⟩
      exact ⟨before, line, after, rfl, good, bad, rfl, rfl⟩

/-- Two operations are read back, behind a comment and a blank line, and a line without parentheses
is named. -/
theorem parse_listing_of_comment :
    parse "# grow\r\n\n\tAlloc(8),\r\nFree(0), ".toList = .ok [.alloc 8, .free 0] ∧
      ∃ error before after, parse "# grow\n\nAlloc 8\n".toList = .error error ∧
        lines "# grow\n\nAlloc 8\n".toList = before ++ "Alloc 8".toList :: after ∧
        error.line = some (before.length + 1) := by
  constructor
  · have broken := broken_lines "# grow\r\n\n\tAlloc(8),\r\nFree(0), ".toList
    have same : lines "# grow\r\n\n\tAlloc(8),\r\nFree(0), ".toList = ["# grow".toList, [],
        ['\t'] ++ (alloc 8).text ++ [], [] ++ (free 0).text ++ [' ']] := by decide
    rw [same] at broken
    have fits : (alloc 8).Fits := ⟨nofun, by rintro _ ⟨⟩; decide⟩
    have fits' : (free 0).Fits := ⟨by rintro _ ⟨⟩; decide, nofun⟩
    apply (parse_listing.2 _ _ broken).1
    apply Listing.comment
    apply Listing.blank (List.all_eq_true.mp (by rfl))
    apply Listing.operation fits (List.all_eq_true.mp (by rfl)) (List.all_eq_true.mp (by rfl))
    exact .operation fits' (List.all_eq_true.mp (by rfl)) (List.all_eq_true.mp (by rfl)) .nil
  · have broken := broken_lines "# grow\n\nAlloc 8\n".toList
    have same : lines "# grow\n\nAlloc 8\n".toList = ["# grow".toList, [], "Alloc 8".toList] := by
      decide
    rw [same] at broken ⊢
    obtain ⟨-, fails_iff, named⟩ := parse_listing.2 _ _ broken
    have bad : Bad "Alloc 8".toList := bad_iff.mpr (by decide)
    obtain ⟨error, failed⟩ := fails_iff.mpr ⟨_, by decide, bad⟩
    obtain ⟨before, line, after, parted, -, bad', number, -⟩ := named error failed
    -- the other lines are skipped
    have here : line = "Alloc 8".toList := by
      have mem : line ∈ ["# grow".toList, [], "Alloc 8".toList] := by
        rw [parted]
        exact List.mem_append_right _ List.mem_cons_self
      simp only [List.mem_cons, List.not_mem_nil, or_false] at mem
      rcases mem with rfl | rfl | same
      · exact absurd rfl bad'.no_comment
      · exact absurd bad'.some_char (by simp)
      · exact same
    rw [here] at parted
    exact ⟨error, before, after, failed, parted, number⟩

/-- Comments and blank lines count. -/
example : parse "# grow\n\nAlloc 8\n".toList = .error ⟨some 3, "Alloc 8".toList⟩ := by decide

end TaggedHeap.Trace
