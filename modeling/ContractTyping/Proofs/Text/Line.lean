import ContractTyping.Issue.Diagnostic
import Mathlib.Data.List.DropRight
import Mathlib.Data.List.TakeWhile

/-!
# Lines and carets

A text falls into lines in one way (`Lines`), and `lineAt?` finds the line that holds a byte: it
counts the line feeds before the byte, and the column is what the lines before leave of the offset
(`line_lookup_exact`).

An excerpt shows the line of a diagnostic without the blanks at its ends, and a caret below it. The
line is moved to the left by all blanks at its front, and the caret by the spaces that come first
there (`caret_column`).
-/

namespace ContractTyping

open List

open String (utf8EncodeChar)

variable {c : Char} {text line : List Char} {lines : List (List Char)} {k offset : Nat}
  {place : LinePlace} {p : Char → Bool}
variable {source : String} (d : Diagnostic) (file : String)

/-- How a text falls into lines: each ends with a line feed and has no other, but what is left at
the end of the text may have none. -/
inductive Lines : List Char → List (List Char) → Prop
  | nil : Lines [] []
  | last {body : List Char} (present : body ≠ []) (plain : '\n' ∉ body) : Lines body [body]
  | next {body rest : List Char} {lines : List (List Char)} (plain : '\n' ∉ body)
      (others : Lines rest lines) : Lines (body ++ ['\n'] ++ rest) ((body ++ ['\n']) :: lines)

theorem Lines.cons (other : c ≠ '\n') (falls : Lines text lines) :
    Lines (c :: text) (consLine c lines) := by
  have plain {body : List Char} (plain : '\n' ∉ body) : '\n' ∉ c :: body :=
    not_mem_cons_of_ne_of_not_mem other.symm plain
  cases falls with
  | nil => exact .last (cons_ne_nil c []) (plain not_mem_nil)
  | last _ noFeed => exact .last (cons_ne_nil c _) (plain noFeed)
  | next noFeed others => exact .next (plain noFeed) others

theorem lines_lineChars (text : List Char) : Lines text (lineChars text) := by
  induction text with
  | nil => exact .nil
  | cons c rest ih =>
    rw [lineChars]
    split
    · next feed =>
      cases feed
      exact .next not_mem_nil ih
    · next other => exact ih.cons other

theorem Lines.flatten_eq (falls : Lines text lines) : lines.flatten = text := by
  induction falls with
  | nil => rfl
  | last => exact append_nil _
  | next _ _ ih => rw [flatten_cons, ih]

/-! ## Bytes -/

/-- The bytes of a text. -/
def utf8Bytes (text : List Char) : List UInt8 := text.flatMap utf8EncodeChar

theorem utf8Bytes_append (text more : List Char) :
    utf8Bytes (text ++ more) = utf8Bytes text ++ utf8Bytes more :=
  flatMap_append

theorem utf8Bytes_toList (text : String) :
    utf8Bytes text.toList = text.toByteArray.data.toList := by
  simp [utf8Bytes, ← String.utf8Encode_toList, List.utf8Encode]

theorem utf8ByteSize_ofList (text : List Char) :
    (String.ofList text).utf8ByteSize = (utf8Bytes text).length := by
  simp [String.utf8ByteSize, List.utf8Encode, utf8Bytes]

/-- Only a line feed has the byte of one. -/
theorem eq_of_feed_mem (mem : 0x0A ∈ utf8EncodeChar c) : c = '\n' := by
  have code : c.val.toNat = 0x0A := by
    unfold utf8EncodeChar at mem
    dsimp only at mem
    repeat' split at mem
    all_goals
      simp only [mem_cons, not_mem_nil, or_false, ← UInt8.toNat_inj, UInt8.toNat_ofNat',
        UInt8.reduceToNat] at mem
      omega
  exact Char.ext (UInt32.toNat_inj.mp code)

theorem feed_not_mem_utf8Bytes (plain : '\n' ∉ text) : 0x0A ∉ utf8Bytes text := by
  intro mem
  obtain ⟨c, inText, inBytes⟩ := mem_flatMap.mp mem
  exact plain (eq_of_feed_mem inBytes ▸ inText)

theorem count_take_utf8Bytes (plain : '\n' ∉ text) (k : Nat) :
    ((utf8Bytes text).take k).count 0x0A = 0 :=
  count_eq_zero.mpr fun mem => feed_not_mem_utf8Bytes plain (mem_of_mem_take mem)

/-! ## Finding a line -/

/-- The number of bytes of the given lines together. -/
def bytesOf : List String → Nat
  | [] => 0
  | line :: lines => line.utf8ByteSize + bytesOf lines

theorem bytesOf_cons (line : String) (lines : List String) :
    bytesOf (line :: lines) = line.utf8ByteSize + bytesOf lines := rfl

theorem isSome_findLine (number : Nat) (lines : List String) (offset : Nat) :
    (findLine number lines offset).isSome = true ↔ offset < bytesOf lines := by
  fun_induction findLine number lines offset with
  | case1 => simp [bytesOf]
  | case2 number line rest offset inside =>
    rw [bytesOf_cons]
    exact iff_of_true rfl (Nat.lt_add_right _ inside)
  | case3 number line rest offset beyond ih =>
    rw [ih, bytesOf_cons]
    omega

theorem bytesOf_map_ofList (lines : List (List Char)) :
    bytesOf (lines.map String.ofList) = (utf8Bytes lines.flatten).length := by
  induction lines with
  | nil => rfl
  | cons line rest ih =>
    rw [map_cons, bytesOf_cons, ih, utf8ByteSize_ofList, flatten_cons, utf8Bytes_append,
      length_append]

/-- The line found, between the lines before it and those behind. -/
theorem split_of_findLine {number : Nat} {lines : List String}
    (found : findLine number lines offset = some place) :
    ∃ before behind, lines = before ++ place.line :: behind ∧
      place.number = number + before.length ∧
      bytesOf before + place.column = offset ∧ place.column < place.line.utf8ByteSize := by
  fun_induction findLine number lines offset with
  | case1 => cases found
  | case2 number line rest offset inside =>
    cases found
    exact ⟨[], rest, rfl, rfl, Nat.zero_add _, inside⟩
  | case3 number line rest offset beyond ih =>
    obtain ⟨before, behind, rfl, counted, place, column⟩ := ih found
    refine ⟨line :: before, behind, rfl, ?_, ?_, column⟩
    · rw [counted, length_cons]
      omega
    · rw [bytesOf_cons]
      omega

/-- Before a byte of a line there are as many line feeds as lines. -/
theorem Lines.count_feeds {before behind : List (List Char)} {column : Nat}
    (falls : Lines text (before ++ line :: behind)) (inside : column < (utf8Bytes line).length) :
    ((utf8Bytes text).take ((utf8Bytes before.flatten).length + column)).count 0x0A =
      before.length := by
  generalize whole : before ++ line :: behind = lines at falls
  induction falls generalizing before with
  | nil => exact absurd whole (by simp)
  | @last body _ plain =>
    obtain ⟨rfl, same⟩ : before = [] ∧ line = body := by
      cases before with
      | nil => exact ⟨rfl, (cons.inj whole).1⟩
      | cons first before => exact absurd (cons.inj whole).2 (by simp)
    rw [count_take_utf8Bytes plain]
    rfl
  | @next body rest lines plain _ ih =>
    have feed : utf8Bytes ['\n'] = [0x0A] := by decide
    cases before with
    | nil =>
      obtain ⟨rfl, -⟩ := cons.inj whole
      have short : column ≤ (utf8Bytes body).length := by
        rw [utf8Bytes_append, feed, length_append, length_singleton] at inside
        exact Nat.le_of_lt_succ inside
      show ((utf8Bytes (body ++ ['\n'] ++ rest)).take (0 + column)).count 0x0A = 0
      rw [Nat.zero_add, append_assoc, utf8Bytes_append, take_append_of_le_length short,
        count_take_utf8Bytes plain]
    | cons first before =>
      obtain ⟨rfl, others⟩ := cons.inj whole
      have one : (utf8Bytes (body ++ ['\n'])).count 0x0A = 1 := by
        rw [utf8Bytes_append, count_append, feed, count_eq_zero.mpr (feed_not_mem_utf8Bytes plain)]
        rfl
      rw [flatten_cons, utf8Bytes_append _ before.flatten, utf8Bytes_append _ rest, length_append,
        Nat.add_assoc,
        take_length_add_append, count_append, one, ih others, length_cons, Nat.add_comm]

theorem isSome_lineAt? (text : String) (offset : Nat) :
    (lineAt? text offset).isSome = true ↔ offset < text.utf8ByteSize := by
  have total : bytesOf (textLines text) = text.utf8ByteSize := by
    rw [textLines, bytesOf_map_ofList, (lines_lineChars _).flatten_eq, ← utf8ByteSize_ofList,
      String.ofList_toList]
  rw [← total]
  exact isSome_findLine 1 (textLines text) offset

/-- The line of an offset among the lines of the text. -/
theorem split_of_lineAt? {text : String} (found : lineAt? text offset = some place) :
    ∃ before behind, Lines text.toList (before ++ place.line.toList :: behind) ∧
      textLines text = before.map String.ofList ++ place.line :: behind.map String.ofList ∧
      place.number = before.length + 1 ∧ (utf8Bytes before.flatten).length + place.column = offset ∧
      place.column < (utf8Bytes place.line.toList).length := by
  obtain ⟨before, behind, lines, number, offset, inside⟩ := split_of_findLine found
  obtain ⟨before, rest, chars, rfl, split⟩ := map_eq_append_iff.mp lines
  obtain ⟨line, behind, rfl, same, rfl⟩ := map_eq_cons_iff.mp split
  have chars' : place.line.toList = line := by rw [← same, String.toList_ofList]
  refine ⟨before, behind, ?_, lines, ?_, bytesOf_map_ofList before ▸ offset, ?_⟩
  · rw [chars', ← chars]
    exact lines_lineChars text.toList
  · rw [number, length_map, Nat.add_comm]
  · rwa [← utf8ByteSize_ofList, String.ofList_toList]

/-- **Lines and offsets.** A line is found exactly for an offset below the number of bytes. As the
lines of the text are numbered from one, it is the line with one more than the number of line feeds
before the offset, and the bytes of the lines before it and the column in it add up to the
offset. -/
theorem line_lookup_exact (text : String) (offset : UInt32) :
    Lines text.toList ((textLines text).map String.toList) ∧
    ((lineAt? text offset.toNat).isSome = true ↔ offset.toNat < text.utf8ByteSize) ∧
    ∀ place, lineAt? text offset.toNat = some place →
      place.number = (text.toByteArray.data.toList.take offset.toNat).count 0x0A + 1 ∧
      (textLines text)[place.number - 1]? = some place.line ∧
      bytesOf ((textLines text).take (place.number - 1)) + place.column = offset.toNat ∧
      place.column < place.line.utf8ByteSize := by
  refine ⟨?_, isSome_lineAt? text offset.toNat, fun place found => ?_⟩
  · simpa [textLines, Function.comp_def] using lines_lineChars text.toList
  · obtain ⟨before, behind, falls, lines, number, offset, inside⟩ := split_of_lineAt? found
    have index : place.number - 1 = (before.map String.ofList).length := by
      rw [number, Nat.add_sub_cancel, length_map]
    refine ⟨?_, ?_, ?_, ?_⟩
    · rw [← offset, ← utf8Bytes_toList, falls.count_feeds inside, number]
    · rw [index, lines, getElem?_append_right (Nat.le_refl _), Nat.sub_self]
      rfl
    · rw [index, lines, take_left' rfl, bytesOf_map_ofList, offset]
    · rwa [← utf8ByteSize_ofList, String.ofList_toList] at inside

/-! ## Blanks at the ends -/

/-- A character that is kept is found at the same distance from the first one that is kept. -/
theorem getElem?_dropWhile (there : text[k]? = some c) (kept : p c = false) :
    (text.takeWhile p).length ≤ k ∧
    (text.dropWhile p)[k - (text.takeWhile p).length]? = some c := by
  rw [← takeWhile_append_dropWhile (p := p) (l := text), getElem?_append] at there
  split at there
  · exact absurd (mem_takeWhile_imp (mem_of_getElem? there)) (Bool.eq_false_iff.mp kept)
  · next beyond => exact ⟨Nat.le_of_not_lt beyond, there⟩

/-- A character that is not dropped stays where it is when others are dropped at the end. -/
theorem getElem?_rdropWhile (there : text[k]? = some c) (kept : p c = false) :
    (text.rdropWhile p)[k]? = some c := by
  rw [← rdropWhile_append_rtakeWhile (p := p) (l := text), getElem?_append] at there
  split at there
  · exact there
  · exact absurd (mem_rtakeWhile_imp (mem_of_getElem? there)) (Bool.eq_false_iff.mp kept)

/-- The number of blanks at the front of a line, but for the spaces that come first. -/
def tabs (line : List Char) : Nat := ((line.dropWhile (· == ' ')).takeWhile isBlank).length

theorem getElem?_trimBlanks (there : text[k]? = some c) (visible : isBlank c = false) :
    (text.takeWhile (· == ' ')).length + tabs text ≤ k ∧
      (trimBlanks (text.dropWhile (· == ' ')))[k - (text.takeWhile (· == ' ')).length - tabs
        text]? = some c := by
  have noSpace : (c == ' ') = false := by
    rw [beq_eq_false_iff_ne]
    rintro rfl
    cases visible
  obtain ⟨spaces, shown⟩ := getElem?_dropWhile (p := (· == ' ')) there noSpace
  obtain ⟨blanks, trimmed⟩ := getElem?_dropWhile shown visible
  refine ⟨?_, getElem?_rdropWhile trimmed visible⟩
  rw [tabs]
  omega

/-- A line feed at the end is trimmed. -/
theorem feed_not_mem_trimBlanks (plain : '\n' ∉ line.dropLast) (suffix : text <:+ line) :
    '\n' ∉ trimBlanks text := by
  obtain ⟨front, whole⟩ := (dropWhile_suffix isBlank).trans suffix
  rw [trimBlanks, ← rdropWhile]
  rcases eq_nil_or_concat' (text.dropWhile isBlank) with none | ⟨body, last, found⟩
  · rw [none]
    exact not_mem_nil
  · rw [found] at whole ⊢
    rw [← whole, ← append_assoc, dropLast_concat] at plain
    have plain : '\n' ∉ body := fun mem => plain (mem_append_right front mem)
    by_cases blank : isBlank last
    · rw [rdropWhile_concat_pos _ _ _ blank]
      exact fun mem => plain (( rdropWhile_prefix _ body).subset mem)
    · rw [rdropWhile_concat_neg _ _ _ blank]
      refine not_mem_append plain fun mem => ?_
      cases mem_singleton.mp mem
      exact blank rfl

/-! ## The last two lines -/

/-- The last line of an output that ends with a line feed. -/
def caretLine (output : String) : List Char := output.toList.dropLast.rtakeWhile (· != '\n')

/-- The line before the last one. -/
def excerptLine (output : String) : List Char :=
  (output.toList.dropLast.rdropWhile (· != '\n')).dropLast.rtakeWhile (· != '\n')

theorem rtakeWhile_line (plain : '\n' ∉ line) (before : List Char) :
    (before ++ '\n' :: line).rtakeWhile (· != '\n') = line ∧
      (before ++ '\n' :: line).rdropWhile (· != '\n') = before ++ ['\n'] := by
  have all : ∀ c ∈ line.reverse, (c != '\n') = true := by
    intro c mem
    rw [bne_iff_ne]
    rintro rfl
    exact plain (mem_reverse.mp mem)
  constructor
  · simp [rtakeWhile, takeWhile_append_of_pos all]
  · simp [rdropWhile, dropWhile_append_of_pos all]

theorem last_lines {output header shown caret : String} (plain : '\n' ∉ shown.toList)
    (plain' : '\n' ∉ caret.toList)
    (same : output = header ++ "\n" ++ shown ++ "\n" ++ caret ++ "\n") :
    excerptLine output = shown.toList ∧ caretLine output = caret.toList := by
  have chars : output.toList =
      (header.toList ++ '\n' :: shown.toList) ++ '\n' :: caret.toList ++ ['\n'] := by
    simp [same, String.toList_append]
  have last := rtakeWhile_line plain' (header.toList ++ '\n' :: shown.toList)
  rw [excerptLine, caretLine, chars, dropLast_concat, last.1, last.2, dropLast_concat]
  exact ⟨(rtakeWhile_line plain _).1, rfl⟩

theorem length_utf8Bytes (ascii : ∀ c ∈ text, c.toNat < 128) :
    (utf8Bytes text).length = text.length := by
  induction text with
  | nil => rfl
  | cons c text ih =>
    obtain ⟨first, others⟩ := forall_mem_cons.mp ascii
    have one : c.utf8Size = 1 := Char.utf8Size_eq_one_iff.mpr (Nat.le_of_lt_succ first)
    rw [← singleton_append, utf8Bytes_append, length_append, ih others, length_append]
    simp [utf8Bytes, one]

theorem Lines.feed_not_mem_dropLast (falls : Lines text lines) :
    ∀ line ∈ lines, '\n' ∉ line.dropLast := by
  induction falls with
  | nil => exact forall_mem_nil _
  | last _ plain => exact forall_mem_singleton.mpr fun mem => plain (dropLast_subset _ mem)
  | next plain _ ih => exact forall_mem_cons.mpr ⟨by rwa [dropLast_concat], ih⟩

/-- In a text of single bytes, the character at an offset is at the column of the line found. -/
theorem lineAt?_of_getElem? (ascii : ∀ c ∈ source.toList, c.toNat < 128)
    (there : source.toList[offset]? = some c) :
    ∃ place, lineAt? source offset = some place ∧ place.line.toList[place.column]? = some c ∧
      '\n' ∉ place.line.toList.dropLast := by
  have inside : offset < source.utf8ByteSize := by
    rw [← String.ofList_toList (s := source), utf8ByteSize_ofList, length_utf8Bytes ascii]
    exact (List.getElem?_eq_some_iff.mp there).1
  obtain ⟨place, found⟩ := Option.isSome_iff_exists.mp ((isSome_lineAt? source offset).mpr inside)
  obtain ⟨before, behind, falls, -, -, rfl, column⟩ := split_of_lineAt? found
  refine ⟨place, found, ?_, falls.feed_not_mem_dropLast _ (by simp)⟩
  rw [← falls.flatten_eq, flatten_append, flatten_cons] at ascii there
  have ascii {part : List Char} (inText : part ⊆ _) := length_utf8Bytes fun c mem =>
    ascii c (inText mem)
  rw [ascii (by simp)] at there column
  rwa [getElem?_append_right (Nat.le_add_right _ _), Nat.add_sub_cancel_left,
    getElem?_append_left column] at there

/-! ## Columns -/

namespace Diagnostic

/-- What stands before the caret. -/
def beforeCaret (place : LinePlace) : List Char :=
  replicate ((Nat.repr place.number).length + 1) ' ' ++ ['|', ' '] ++
    replicate (place.column - (place.line.toList.takeWhile (· == ' ')).length) '-'

theorem display_eq (found : lineAt? source d.span.start.offset.toNat = some place) :
    ∃ header, d.display file (some source) = header ++ "\n" ++ (Nat.repr place.number ++ " | " ++
      String.ofList (trimBlanks (place.line.toList.dropWhile (· == ' ')))) ++ "\n" ++
      String.ofList (beforeCaret place ++ ['^']) ++ "\n" := by
  have spaces : place.line.toList.length - (place.line.toList.dropWhile (· == ' ')).length =
      (place.line.toList.takeWhile (· == ' ')).length := by
    have whole :=
      congrArg length (takeWhile_append_dropWhile (p := (· == ' ')) (l := place.line.toList))
    rw [length_append] at whole
    omega
  refine ⟨d.display file none ++ padLeft ' ' ((Nat.repr place.number).length + 2) "|", ?_⟩
  have caret : String.ofList (beforeCaret place ++ ['^']) = padLeft ' '
      ((Nat.repr place.number).length + 2) "|" ++ " " ++
      padLeft '-' (place.column - (place.line.toList.takeWhile (· == ' ')).length + 1) "^" := by
    have bar : "|".length = 1 := by decide
    have caret : "^".length = 1 := by decide
    simp [beforeCaret, padLeft, ← String.toList_inj, bar, caret]
  rw [caret, ← spaces]
  simp [display, found, excerpt, String.append_assoc]

end Diagnostic

/-- **The caret.** Where a diagnostic starts at a character that is not blank, in a source of single
bytes, the display ends with an excerpt and a caret below it. The character is shown to the left of
the caret, by as many columns as there are blanks at the front of its line behind the spaces that
come first: in the column of the caret if there are none. -/
theorem caret_column (source : String) (c : Char) (ascii : ∀ c ∈ source.toList, c.toNat < 128)
    (starts : source.toList[d.span.start.offset.toNat]? = some c) (visible : isBlank c = false) :
    ∃ place front, lineAt? source d.span.start.offset.toNat = some place ∧
      caretLine (d.display file (some source)) = front ++ ['^'] ∧ '^' ∉ front ∧
      tabs place.line.toList ≤ front.length ∧
      (excerptLine (d.display file (some source)))[front.length - tabs place.line.toList]? =
        some c := by
  obtain ⟨place, found, there, plain⟩ := lineAt?_of_getElem? ascii starts
  obtain ⟨enough, shown⟩ := getElem?_trimBlanks there visible
  have noFeed := feed_not_mem_trimBlanks plain (dropWhile_suffix (· == ' '))
  obtain ⟨header, display⟩ := d.display_eq file found
  have digits : '\n' ∉ Nat.toDigits 10 place.number :=
    fun mem => absurd (Nat.isDigit_of_mem_toDigits (by decide) (by decide) mem) (by decide)
  obtain ⟨excerpt, caret⟩ :=
    last_lines (by simp [digits, noFeed]) (by simp [Diagnostic.beforeCaret]) display
  have length :
      (Diagnostic.beforeCaret place).length = (Nat.repr place.number ++ " | ").toList.length +
      (place.column - (place.line.toList.takeWhile (· == ' ')).length) := by
    simp [Diagnostic.beforeCaret, Nat.repr_eq_ofList_toDigits]
    omega
  refine ⟨place, Diagnostic.beforeCaret place, found, caret.trans String.toList_ofList, ?_, ?_, ?_⟩
  · simp [Diagnostic.beforeCaret]
  · omega
  · rw [excerpt, String.toList_append, String.toList_ofList, length, Nat.add_sub_assoc (by omega),
      getElem?_append_right (Nat.le_add_right _ _), Nat.add_sub_cancel_left]
    exact shown

/-- The issue that `x` is not declared, at a byte of a file. -/
def undeclaredAt (offset : UInt32) : Diagnostic :=
  ⟨.unresolvedReference "x", ⟨⟨offset, "t"⟩, ⟨offset + 1, "t"⟩⟩, .error⟩

/-- In a line with two spaces and a tab at the front, the caret is one column to the right. -/
theorem caret_column_indented : ∃ front,
    caretLine ((undeclaredAt 5).display "t" (some "y\n  \tx;\n")) = front ++ ['^'] ∧
      (excerptLine ((undeclaredAt 5).display "t" (some "y\n  \tx;\n")))[front.length - 1]? =
        some 'x' := by
  obtain ⟨place, front, found, caret, -, -, shown⟩ :=
    caret_column (undeclaredAt 5) "t" "y\n  \tx;\n" 'x' (by simp) (by decide) (by decide)
  have second : lineAt? "y\n  \tx;\n"
    (undeclaredAt 5).span.start.offset.toNat = some ⟨2, "  \tx;\n", 3⟩ := by decide
  cases second.symm.trans found
  have one : tabs "  \tx;\n".toList = 1 := by decide
  exact ⟨front, caret, one ▸ shown⟩

/-- Behind a tab, the caret is not below the character that the diagnostic starts at. -/
theorem caret_behind_tab :
    ¬ ∀ (d : Diagnostic) (file source : String) (c : Char), (∀ c ∈ source.toList, c.toNat < 128) →
      source.toList[d.span.start.offset.toNat]? = some c → isBlank c = false →
      ∃ column : Nat, (caretLine (d.display file (some source)))[column]? = some '^' ∧
        (excerptLine (d.display file (some source)))[column]? = some c := by
  intro below
  obtain ⟨column, caret, shown⟩ :=
    below (undeclaredAt 1) "t" "\tx" 'x' (by simp) (by decide) (by decide)
  have caretLine : caretLine ((undeclaredAt 1).display "t" (some "\tx")) = "  | -^".toList := by
    decide +kernel
  have excerptLine : excerptLine ((undeclaredAt 1).display "t" (some "\tx")) = "1 | x".toList := by
    decide +kernel
  rw [caretLine] at caret
  rw [excerptLine] at shown
  obtain ⟨inside, -⟩ := List.getElem?_eq_some_iff.mp shown
  have before : ∀ k < 5, "  | -^".toList[k]? ≠ some '^' := by decide
  exact before column inside caret

end ContractTyping
