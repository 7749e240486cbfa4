import ContractTyping.Check.Unit
import ContractTyping.Proofs.Recording
import ContractTyping.Proofs.Text.Line

/-!
# The size of a hex-string literal

A hex-string literal denotes bytes, and its type is that of the text that is read from them. So it
fits a type of fixed size if the text does, and the text may be larger: a malformed run of one or
two bytes is replaced by a character of three bytes. The literal of a single byte `ff` does not fit
a single byte (`hex_string_outgrows_byte`). The bytes of a text are read as they are, and for them
the sizes agree (`hex_string_size`).

* `Utf8.Form`: the bytes of each character by their ranges, which are exactly those of the encoding
  (`Utf8.Form.encode`, `Utf8.form_encode`).
* `Utf8.Under`: the invariant of a character under way.
* `Utf8.Reads`: how bytes are read, and by how much they grow. The reader does this
  (`Utf8.reads_decodeFrom`).
-/

namespace ContractTyping

open List

open String (utf8EncodeChar)

namespace Utf8

variable {a : UInt8} {code : Nat} {rest : List UInt8}

/-! ## Bytes of characters -/

/-- Whether a byte stands behind the first of a character. -/
abbrev Trails (byte : UInt8) : Prop := 0x80 ≤ byte.toNat ∧ byte.toNat ≤ 0xBF

/-- The bytes of a character by their ranges, and its code. -/
inductive Form : List UInt8 → Nat → Prop
  | one {a : UInt8} {code : Nat} (lead : a.toNat ≤ 0x7F) (same : code = a.toNat) : Form [a] code
  | two {a b : UInt8} {code : Nat} (lead : 0xC2 ≤ a.toNat ∧ a.toNat ≤ 0xDF) (second : Trails b)
      (same : code = a.toNat % 32 * 64 + b.toNat % 64) : Form [a, b] code
  | three {a b d : UInt8} {code : Nat} (lead : 0xE0 ≤ a.toNat ∧ a.toNat ≤ 0xEF) (second : Trails b)
      (least : a.toNat = 0xE0 → 0xA0 ≤ b.toNat) (most : a.toNat = 0xED → b.toNat ≤ 0x9F)
      (third : Trails d)
      (same : code = (a.toNat % 16 * 64 + b.toNat % 64) * 64 + d.toNat % 64) : Form [a, b, d] code
  | four {a b d e : UInt8} {code : Nat} (lead : 0xF0 ≤ a.toNat ∧ a.toNat ≤ 0xF4) (second : Trails b)
      (least : a.toNat = 0xF0 → 0x90 ≤ b.toNat) (most : a.toNat = 0xF4 → b.toNat ≤ 0x8F)
      (third : Trails d)
      (fourth : Trails e)
      (same : code = ((a.toNat % 8 * 64 + b.toNat % 64) * 64 + d.toNat % 64) * 64 + e.toNat % 64) :
      Form [a, b, d, e] code

theorem eq_ofNat {n : Nat} (same : a.toNat = n) : UInt8.ofNat n = a := by
  rw [← same, UInt8.ofNat_toNat]

theorem val_ofNat (valid : code.isValidChar) : (Char.ofNat code).val.toNat = code := by
  rw [Char.ofNat, dif_pos valid]
  rfl

/-- A form is that of the character with its code. -/
theorem Form.encode {bytes : List UInt8} (form : Form bytes code) :
    utf8EncodeChar (Char.ofNat code) = bytes := by
  have valid : code.isValidChar := by
    cases form <;> omega
  unfold utf8EncodeChar
  rw [val_ofNat valid]
  cases form with
  | one =>
    rw [if_pos (by omega), singleton_inj]
    exact eq_ofNat (by omega)
  | two =>
    rw [if_neg (by omega), if_pos (by omega)]
    simp only [List.cons.injEq, and_true]
    refine ⟨eq_ofNat ?_, eq_ofNat ?_⟩ <;> omega
  | three =>
    rw [if_neg (by omega), if_neg (by omega), if_pos (by omega)]
    simp only [List.cons.injEq, and_true]
    refine ⟨eq_ofNat ?_, eq_ofNat ?_, eq_ofNat ?_⟩ <;> omega
  | four =>
    rw [if_neg (by omega), if_neg (by omega), if_neg (by omega)]
    simp only [List.cons.injEq, and_true]
    refine ⟨eq_ofNat ?_, eq_ofNat ?_, eq_ofNat ?_, eq_ofNat ?_⟩ <;> omega

/-- Every character has a form. -/
theorem form_encode (c : Char) : Form (utf8EncodeChar c) c.val.toNat := by
  have valid : c.val.toNat.isValidChar := c.valid
  unfold utf8EncodeChar
  generalize c.val.toNat = v at valid ⊢
  have byte (n : Nat) (small : n < 256) : (UInt8.ofNat n).toNat = n := by
    rw [UInt8.toNat_ofNat']
    omega
  dsimp only
  split
  · have := byte v (by omega)
    exact .one (by omega) (by omega)
  · have last := byte (v % 64 + 128) (by omega)
    split
    · have first := byte (v / 64 % 32 + 192) (by omega)
      exact .two (by omega) (by omega) (by omega)
    · have third := byte (v / 64 % 64 + 128) (by omega)
      split
      · have first := byte (v / 4096 % 16 + 224) (by omega)
        exact .three (by omega) (by omega) (by omega) (by omega) (by omega) (by omega)
      · have second := byte (v / 4096 % 64 + 128) (by omega)
        have first := byte (v / 262144 % 8 + 240) (by omega)
        exact .four (by omega) (by omega) (by omega) (by omega) (by omega) (by omega) (by omega)

/-! ## First bytes -/

/-- The first byte of a character of two, three or four bytes, and the range of the second. -/
inductive Leads (a low high : UInt8) : Nat → Prop
  | two (lead : 0xC2 ≤ a.toNat ∧ a.toNat ≤ 0xDF) (range : low.toNat = 0x80 ∧ high.toNat = 0xBF) :
      Leads a low high 0
  | three (lead : 0xE0 ≤ a.toNat ∧ a.toNat ≤ 0xEF)
      (least : a.toNat = 0xE0 ∧ low.toNat = 0xA0 ∨ a.toNat ≠ 0xE0 ∧ low.toNat = 0x80)
      (most : a.toNat = 0xED ∧ high.toNat = 0x9F ∨ a.toNat ≠ 0xED ∧ high.toNat = 0xBF) :
      Leads a low high 1
  | four (lead : 0xF0 ≤ a.toNat ∧ a.toNat ≤ 0xF4)
      (least : a.toNat = 0xF0 ∧ low.toNat = 0x90 ∨ a.toNat ≠ 0xF0 ∧ low.toNat = 0x80)
      (most : a.toNat = 0xF4 ∧ high.toNat = 0x8F ∨ a.toNat ≠ 0xF4 ∧ high.toNat = 0xBF) :
      Leads a low high 2

theorem lead?_cases (a : UInt8) : lead? a = none ∧ (a.toNat < 0xC2 ∨ 0xF4 < a.toNat) ∨
    ∃ low high more, lead? a = some (low, high, more) ∧ Leads a low high more := by
  simp only [lead?, Bool.and_eq_true, decide_eq_true_eq, UInt8.le_iff_toNat_le, ← UInt8.toNat_inj,
    UInt8.reduceToNat]
  repeat' split
  on_goal 8 => exact .inl ⟨rfl, by omega⟩
  all_goals refine .inr ⟨_, _, _, rfl, ?_⟩
  · exact .two (by omega) ⟨rfl, rfl⟩
  · exact .three (by omega) (.inl ⟨by omega, rfl⟩) (.inr ⟨by omega, rfl⟩)
  · exact .three (by omega) (.inr ⟨by omega, rfl⟩) (.inl ⟨by omega, rfl⟩)
  · exact .three (by omega) (.inr ⟨by omega, rfl⟩) (.inr ⟨by omega, rfl⟩)
  · exact .four (by omega) (.inl ⟨by omega, rfl⟩) (.inr ⟨by omega, rfl⟩)
  · exact .four (by omega) (.inr ⟨by omega, rfl⟩) (.inr ⟨by omega, rfl⟩)
  · exact .four (by omega) (.inr ⟨by omega, rfl⟩) (.inl ⟨by omega, rfl⟩)

/-- The bytes of a character are as many as its first one says. -/
theorem Form.length_eq {low high : UInt8} {more : Nat} (form : Form (a :: rest) code)
    (leads : Leads a low high more) : rest.length = more + 1 := by
  cases form <;> cases leads <;> first | rfl | omega

theorem Form.trails (form : Form (a :: rest) code) : ∀ byte ∈ rest, Trails byte := by
  cases form <;> simp <;> omega

/-! ## Characters under way -/

/-- Whether bytes are the first of a character, or all of them. -/
def Begins (run : List UInt8) : Prop := ∃ c, run <+: utf8EncodeChar c

theorem Begins.form {run : List UInt8} (begins : Begins run) :
    ∃ more code, Form (run ++ more) code := by
  obtain ⟨c, more, same⟩ := begins
  exact ⟨more, c.val.toNat, same ▸ form_encode c⟩

/-- How a character comes to be under way: by its first byte, and each next one in its range. -/
inductive Under : List UInt8 → Pending → Prop
  | first {a low high : UInt8} {more : Nat} (leads : Leads a low high more) :
      Under [a] ⟨leadBits a (more + 1), low, high, more⟩
  | next {seen : List UInt8} {code more : Nat} {low high byte : UInt8}
      (under : Under seen ⟨code, low, high, more + 1⟩)
      (inside : low ≤ byte ∧ byte ≤ high) :
      Under (seen ++ [byte]) ⟨code * 64 + byte.toNat % 64, 0x80, 0xBF, more⟩

namespace Under

variable {seen rest : List UInt8} {p : Pending} {code more : Nat} {low high byte : UInt8}

/-- The first byte says how many there will be. -/
theorem leads (under : Under seen p) :
    ∃ a behind low high more, seen = a :: behind ∧ Leads a low high more ∧
      behind.length + p.more = more := by
  induction under with
  | first leads => exact ⟨_, [], _, _, _, rfl, leads, Nat.zero_add _⟩
  | @next seen code more low high byte under _ ih =>
    obtain ⟨a, behind, low, high, total, rfl, leads, size⟩ := ih
    refine ⟨a, behind ++ [byte], low, high, total, rfl, leads, ?_⟩
    rw [length_append, length_singleton, ← size, Nat.add_assoc, Nat.add_comm 1]

theorem length (under : Under seen p) : 1 ≤ seen.length ∧ seen.length + p.more ≤ 3 := by
  obtain ⟨a, behind, low, high, total, rfl, leads, size⟩ := under.leads
  rw [length_cons]
  cases leads <;> omega

/-- What is under way is not complete. -/
theorem incomplete (under : Under seen p) : ¬ Form seen code := by
  intro form
  obtain ⟨a, behind, low, high, total, rfl, leads, size⟩ := under.leads
  have complete := form.length_eq leads
  omega

/-- The last byte completes the character. -/
theorem form (under : Under seen ⟨code, low, high, 0⟩) (inside : low ≤ byte ∧ byte ≤ high) :
    Form (seen ++ [byte]) (code * 64 + byte.toNat % 64) := by
  rw [UInt8.le_iff_toNat_le, UInt8.le_iff_toNat_le] at inside
  cases under with
  | first leads =>
    cases leads with
    | two lead range => exact .two lead (by omega) rfl
  | next under second =>
    rw [UInt8.le_iff_toNat_le, UInt8.le_iff_toNat_le] at second
    cases under with
    | first leads =>
      cases leads with
      | three lead least most => exact .three lead (by omega) (by omega) (by omega) inside rfl
    | next under first =>
      rw [UInt8.le_iff_toNat_le, UInt8.le_iff_toNat_le] at first
      cases under with
      | first leads =>
        cases leads with
        | four lead least most =>
          exact .four lead (by omega) (by omega) (by omega) second inside rfl
      | next under =>
        have short := under.length
        dsimp only at short
        omega

/-- There is a byte to go on with. -/
theorem low_le_high (under : Under seen p) : p.low ≤ p.high := by
  rw [UInt8.le_iff_toNat_le]
  cases under with
  | first leads => cases leads <;> dsimp only <;> omega
  | next =>
    show (0x80 : UInt8).toNat ≤ (0xBF : UInt8).toNat
    decide

theorem begins (under : Under seen p) : Begins seen := by
  obtain ⟨code, low, high, more⟩ := p
  induction more generalizing seen code low high with
  | zero => exact ⟨_, [low], (under.form ⟨UInt8.le_refl low, under.low_le_high⟩).encode.symm⟩
  | succ more ih =>
    obtain ⟨c, starts⟩ := ih _ _ _ (under.next ⟨UInt8.le_refl low, under.low_le_high⟩)
    exact ⟨c, (prefix_append seen [low]).trans starts⟩

/-- Only the bytes in its range go on with a character. -/
theorem inside_of_begins (under : Under seen p) (goesOn : Begins (seen ++ [byte])) :
    p.low ≤ byte ∧ byte ≤ p.high := by
  obtain ⟨more, code, form⟩ := goesOn.form
  rw [UInt8.le_iff_toNat_le, UInt8.le_iff_toNat_le]
  cases under with
  | first leads =>
    dsimp only
    cases form <;> cases leads <;> omega
  | next under =>
    obtain ⟨a, behind, -, -, -, rfl, -⟩ := under.leads
    exact form.trails byte (by simp)

end Under

/-! ## Reading -/

/-- A run of bytes that is replaced, before the rest: a single byte or the longest run that begins a
character, but none that is one. -/
structure Malformed (run rest : List UInt8) : Prop where
  length : 1 ≤ run.length ∧ run.length ≤ 3
  begins : run.length = 1 ∨ Begins run
  incomplete : ∀ c, utf8EncodeChar c ≠ run
  longest : ∀ byte, rest.head? = some byte → ¬ Begins (run ++ [byte])

/-- How bytes are read as a text: character by character, and with malformed runs replaced. A
replacement takes three bytes itself, and the growth is what it takes beyond the bytes that it
replaces. -/
inductive Reads : List UInt8 → List Char → Nat → Prop
  | nil : Reads [] [] 0
  | character {rest : List UInt8} {text : List Char} {growth : Nat} (c : Char)
      (reads : Reads rest text growth) : Reads (utf8EncodeChar c ++ rest) (c :: text) growth
  | malformed {run rest : List UInt8} {text : List Char} {growth : Nat} (bad : Malformed run rest)
      (reads : Reads rest text growth) :
      Reads (run ++ rest) (replacement :: text) (3 - run.length + growth)

/-- What is read first of some bytes: a character, or a malformed run. -/
def ReadsFirst (bytes : List UInt8) (text : List Char) : Prop :=
  (∃ c rest, bytes = utf8EncodeChar c ++ rest ∧ text = c :: decodeFrom none rest) ∨
    ∃ run rest, bytes = run ++ rest ∧ Malformed run rest ∧
    text = replacement :: decodeFrom none rest

/-- What is under way is malformed if the next byte does not go on with it. -/
theorem Under.malformed {seen : List UInt8} {p : Pending} (under : Under seen p)
    (stops : ∀ byte, rest.head? = some byte → ¬ (p.low ≤ byte ∧ byte ≤ p.high)) :
    Malformed seen rest where
  length := ⟨under.length.1, Nat.le_trans (Nat.le_add_right _ _) under.length.2⟩
  begins := .inr under.begins
  incomplete c same := under.incomplete (same ▸ form_encode c)
  longest byte next goesOn := stops byte next (under.inside_of_begins goesOn)

theorem Under.readsFirst {seen : List UInt8} {p : Pending} (under : Under seen p)
    (bytes : List UInt8) : ReadsFirst (seen ++ bytes) (decodeFrom (some p) bytes) := by
  induction bytes generalizing seen p with
  | nil => exact .inr ⟨seen, [], rfl, under.malformed (by simp), rfl⟩
  | cons byte rest ih =>
    obtain ⟨code, low, high, more⟩ := p
    by_cases inside : low ≤ byte ∧ byte ≤ high
    · rw [← singleton_append, ← append_assoc]
      cases more with
      | zero =>
        refine .inl ⟨_, rest, congrArg (· ++ rest) (under.form inside).encode.symm, ?_⟩
        rw [singleton_append, decodeFrom, if_pos (by simpa using inside)]
      | succ more =>
        have goesOn := ih (under.next inside)
        rwa [singleton_append, decodeFrom, if_pos (by simpa using inside)]
    · refine .inr ⟨seen, byte :: rest, rfl, under.malformed fun next same => ?_, ?_⟩
      · cases same
        exact inside
      · conv_lhs => rw [decodeFrom]
        exact if_neg (by simpa using inside)

/-- The first bytes of some bytes are a character, or are malformed. -/
theorem readsFirst (byte : UInt8) (rest : List UInt8) :
    ReadsFirst (byte :: rest) (decodeFrom none (byte :: rest)) := by
  show ReadsFirst _ ((start byte).1 ++ decodeFrom (start byte).2 rest)
  by_cases ascii : byte < 0x80
  · have form : Form [byte] byte.toNat :=
      .one (Nat.le_of_lt_succ (UInt8.lt_iff_toNat_lt.mp ascii)) rfl
    rw [start, if_pos ascii]
    exact .inl ⟨_, rest, congrArg (· ++ rest) form.encode.symm, rfl⟩
  · rw [start, if_neg ascii]
    simp only [UInt8.lt_iff_toNat_lt, UInt8.reduceToNat] at ascii
    rcases lead?_cases byte with ⟨lead, outside⟩ | ⟨low, high, more, lead, leads⟩
    · rw [lead]
      refine .inr
        ⟨[byte], rest, rfl, ⟨by simp, .inl rfl, fun c same => ?_, fun next _ goesOn => ?_⟩, rfl⟩
      · have form := form_encode c
        rw [same] at form
        cases form
        omega
      · obtain ⟨more, code, form⟩ := goesOn.form
        cases form <;> omega
    · rw [lead]
      exact (Under.first leads).readsFirst rest

/-- All bytes are read. -/
theorem reads_decodeFrom (bytes : List UInt8) :
    ∃ growth, Reads bytes (decodeFrom none bytes) growth := by
  induction size : bytes.length using Nat.strongRecOn generalizing bytes with
  | ind n shorter =>
    cases bytes with
    | nil => exact ⟨0, .nil⟩
    | cons byte rest =>
      have fewer {piece tail : List UInt8} (same : byte :: rest = piece ++ tail)
          (some : piece ≠ []) : tail.length < n := by
        rw [← size, same, length_append]
        exact Nat.lt_add_of_pos_left (length_pos_iff.mpr some)
      rcases readsFirst byte rest with ⟨c, tail, same, text⟩ | ⟨run, tail, same, bad, text⟩
      · obtain ⟨growth, reads⟩ := shorter _ (fewer same String.utf8EncodeChar_ne_nil) tail rfl
        rw [text, same]
        exact ⟨growth, .character c reads⟩
      · obtain ⟨growth, reads⟩ := shorter _ (fewer same (length_pos_iff.mp bad.length.1)) tail rfl
        rw [text, same]
        exact ⟨_, .malformed bad reads⟩

/-- The bytes of a character are not the first of another's. -/
theorem eq_of_append_eq {c d : Char} {more : List UInt8}
    (same : utf8EncodeChar c ++ rest = utf8EncodeChar d ++ more) : c = d := by
  have decoded := congrArg (fun bytes => bytes.toByteArray.utf8DecodeChar? 0) same
  simpa [toByteArray_append, ByteArray.utf8DecodeChar?_utf8EncodeChar_append] using decoded

/-- No character is read from a malformed run. -/
theorem Malformed.ne_character {run more : List UInt8} {c : Char} (bad : Malformed run rest) :
    run ++ rest ≠ utf8EncodeChar c ++ more := by
  intro same
  rcases append_eq_append_iff.mp same with ⟨next, whole, tail⟩ | ⟨next, whole, tail⟩
  · cases next with
    | nil => exact bad.incomplete c (by simpa using whole)
    | cons byte next =>
      refine bad.longest byte (by rw [tail]; rfl) ⟨c, next, ?_⟩
      rw [whole, append_assoc, singleton_append]
  · have all : next = [] := by
      rcases bad.begins with single | ⟨d, others, begun⟩
      · rw [whole, length_append] at single
        have some := length_pos_iff.mpr (String.utf8EncodeChar_ne_nil (c := c))
        exact length_eq_zero_iff.mp (by omega)
      · rw [whole, append_assoc] at begun
        cases eq_of_append_eq (begun.trans (append_nil _).symm)
        exact (append_eq_nil_iff.mp (append_right_eq_self.mp begun)).1
    exact bad.incomplete c (by rw [whole, all, append_nil])

/-- A text is read back from its bytes, and grows by nothing. -/
theorem Reads.of_text {text read : List Char} {growth : Nat}
    (reads : Reads (utf8Bytes text) read growth) : read = text ∧ growth = 0 := by
  induction text generalizing read growth with
  | nil =>
    generalize same : utf8Bytes [] = bytes at reads
    cases reads with
    | nil => exact ⟨rfl, rfl⟩
    | character c => exact absurd (append_eq_nil_iff.mp same.symm).1 String.utf8EncodeChar_ne_nil
    | malformed bad =>
      exact absurd (append_eq_nil_iff.mp same.symm).1 (length_pos_iff.mp bad.length.1)
  | cons c text ih =>
    generalize same : utf8Bytes (c :: text) = bytes at reads
    cases reads with
    | nil => exact absurd (append_eq_nil_iff.mp same).1 String.utf8EncodeChar_ne_nil
    | character d reads =>
      cases eq_of_append_eq same
      obtain ⟨rfl, rfl⟩ := ih (append_cancel_left same ▸ reads)
      exact ⟨rfl, rfl⟩
    | malformed bad => exact absurd same.symm bad.ne_character

theorem Reads.size {bytes : List UInt8} {text : List Char} {growth : Nat}
    (reads : Reads bytes text growth) : (utf8Bytes text).length = bytes.length + growth := by
  induction reads with
  | nil => rfl
  | character c _ ih =>
    show (utf8EncodeChar c ++ utf8Bytes _).length = _
    rw [length_append, length_append, ih, Nat.add_assoc]
  | malformed bad _ ih =>
    have short := bad.length
    have three : (utf8EncodeChar replacement).length = 3 := by decide
    show (utf8EncodeChar replacement ++ utf8Bytes _).length = _
    rw [length_append, length_append, ih, three]
    omega

end Utf8

/-! ## Literals -/

namespace HexString

/-- The digits of a literal. -/
def digits (contents : String) : List Char := contents.toList.filter (· != '_')

/-- Digits in pairs denote half as many bytes. -/
theorem pairBytes?_eq_some {digits : List Char} (even : 2 ∣ digits.length)
    (hexadecimal : ∀ digit ∈ digits, (digit? 16 digit).isSome = true) :
    ∃ bytes, pairBytes? digits = some bytes ∧ 2 * bytes.length = digits.length := by
  fun_induction pairBytes? digits with
  | case1 => exact ⟨[], rfl, rfl⟩
  | case2 => exact absurd even (by simp)
  | case3 high low rest ih =>
    obtain ⟨isHigh, isLow, others⟩ := by simpa only [forall_mem_cons] using hexadecimal
    simp only [length_cons] at even ⊢
    obtain ⟨bytes, found, size⟩ := ih (by omega) others
    obtain ⟨first, isFirst⟩ := Option.isSome_iff_exists.mp isHigh
    obtain ⟨second, isSecond⟩ := Option.isSome_iff_exists.mp isLow
    refine ⟨_, by rw [isFirst, isSecond, found]; rfl, ?_⟩
    rw [length_cons]
    omega

end HexString

/-- **The size of a hex-string literal.** A literal whose digits come in pairs is typed. Its type
converts to one of fixed size exactly if this has room for its bytes, half as many as its digits,
and for what they grow by when malformed runs are replaced. The bytes of a text do not grow. -/
theorem hex_string_size (node : Node) (text : String) (unit : Option Denomination) (demand : Demand)
    (c : Context) (σ : Findings) (untyped : σ.expression? node.id = none)
    (even : 2 ∣ (HexString.digits text).length)
    (hexadecimal : ∀ digit ∈ HexString.digits text, (digit? 16 digit).isSome = true) :
    ∃ bytes read growth τ, HexString.bytes? text = some bytes ∧
      2 * bytes.length = (HexString.digits text).length ∧
      Check.expression (.literal node .hexString text unit)
        demand c σ = .ok (.stringLiteral read, τ) ∧
      Utf8.Reads bytes read.toList growth ∧
      (∀ size, (Ty.stringLiteral read).implicitlyConvertible (.fixedBytes size) = true ↔
        bytes.length + growth ≤ size) ∧
      ∀ written : String, bytes = utf8Bytes written.toList → read = written ∧ growth = 0 := by
  obtain ⟨bytes, found, length⟩ := HexString.pairBytes?_eq_some even hexadecimal
  have denoted : HexString.bytes? text = some bytes := found
  obtain ⟨τ, run⟩ : ∃ τ, Check.expression (.literal node .hexString text unit) demand c σ =
      .ok (.stringLiteral (Utf8.decodeLossy bytes), τ) := by
    have typed :
        literalType .hexString text unit = .ok (.stringLiteral (Utf8.decodeLossy bytes)) := by
      rw [literalType, HexString.text?, denoted]
      rfl
    unfold Check.expression
    simp only [typed]
    rw [Check.annotate_run, untyped]
    exact ⟨_, rfl⟩
  obtain ⟨growth, reads⟩ := Utf8.reads_decodeFrom bytes
  refine ⟨bytes, Utf8.decodeLossy bytes, growth, τ, denoted, length, run, ?_, fun size => ?_,
    fun written same => ?_⟩
  · rwa [Utf8.decodeLossy, String.toList_ofList]
  · show decide _ = true ↔ _
    rw [decide_eq_true_eq, Utf8.decodeLossy, utf8ByteSize_ofList, reads.size]
  · subst same
    obtain ⟨read, none⟩ := reads.of_text
    exact ⟨by rw [Utf8.decodeLossy, read, String.ofList_toList], none⟩

/-- A text with an accent has three bytes, and so has its literal. -/
theorem hex_string_size_accent :
    ∃ τ, Check.expression (.literal ⟨⟨1⟩, .unknown⟩ .hexString "68_c3a9" none) {}
        (Check.contextOf ⟨⟨⟨2⟩, .unknown⟩, "accent", none, []⟩ {})
          {} = .ok (.stringLiteral "hé", τ) ∧
      ∀ size, (Ty.stringLiteral "hé").implicitlyConvertible (.fixedBytes size) = true ↔
        3 ≤ size := by
  obtain ⟨bytes, read, growth, τ, denoted, -, run, -, fits, back⟩ :=
    hex_string_size ⟨⟨1⟩, .unknown⟩ "68_c3a9" none {}
      (Check.contextOf ⟨⟨⟨2⟩, .unknown⟩, "accent", none, []⟩ {}) {}
      rfl (by decide) (all_eq_true.mp (by decide))
  have three : HexString.bytes? "68_c3a9" = some [0x68, 0xC3, 0xA9] := by decide
  cases three.symm.trans denoted
  obtain ⟨rfl, rfl⟩ := back "hé" (by decide)
  exact ⟨τ, run, fits⟩

/-- The literal of the single byte `ff` does not convert to the type of a single byte. -/
theorem hex_string_outgrows_byte :
    ¬ ∀ (node : Node) (text : String) (bytes : List UInt8) (c : Context) (t : Ty) (τ :
      Findings) (size : Nat),
      HexString.bytes? text = some bytes → Check.expression (.literal node .hexString text none)
        {} c {} = .ok (t, τ) →
      1 ≤ size → size ≤ 32 →
        (t.implicitlyConvertible (.fixedBytes size) = true ↔ bytes.length ≤ size) := by
  intro law
  have fits :=
    law ⟨⟨1⟩, .unknown⟩ "ff" [0xFF] (Check.contextOf ⟨⟨⟨2⟩, .unknown⟩, "byte", none, []⟩ {})
    (.stringLiteral "\uFFFD") _ 1 (by decide) rfl (by decide) (by decide)
  exact absurd (fits.mpr (by decide)) (by decide)

end ContractTyping
