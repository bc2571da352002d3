import Mathlib.Data.List.DropRight
import Mathlib.Data.List.Forall2
import TableAccess.Config.Document
import TableAccess.Proofs.Settings

/-!
# Documents and the settings they make

A document lists entries: one to a line, between blank lines and comments, the spaces anywhere, and
every character of a string written as itself or with an escape. However it is written, the reader
finds the entries it lists, so a document and the settings its entries stand for come to the same
configuration, or to the same complaint.

## The model

* `Document.Spells` — the ways to write a character within double quotes.
* `Document.Lists` — the ways to write entries down.
* `Document.write` — one of the ways to write settings down; `Config.document` writes out a whole
  configuration.
-/

namespace TableAccess.Config

namespace Document

/-! ## Characters within double quotes -/

/-- A character is a digit of base sixteen, as a small letter or a capital one. -/
def HexDigit (d : Fin 16) (c : Char) : Prop :=
  "0123456789abcdef".toList[d.val]? = some c ∨ "0123456789ABCDEF".toList[d.val]? = some c

/-- The number that digits of base sixteen stand for. -/
def codePoint (digits : List (Fin 16)) : Nat := digits.foldl (fun n d => 16 * n + d.val) 0

/-- What a backslash and a letter stand for. -/
def escapes : List (Char × Char) :=
  [('b', '\x08'), ('t', '\t'), ('n', '\n'), ('f', '\x0c'), ('r', '\r'), ('"', '"'), ('\\', '\\')]

/-- How a character may be written within double quotes. -/
inductive Spells (c : Char) : List Char → Prop where
  /-- As itself, if it is no quote, no backslash and no control character but the tab. -/
  | itself (plain : isPlain c = true) (noQuote : c ≠ '"') (noBackslash : c ≠ '\\') : Spells c [c]
  /-- With an escape of its own. -/
  | escape {letter : Char} (stands : (letter, c) ∈ escapes) : Spells c ['\\', letter]
  /-- By the four digits of its code point. -/
  | four {digits : List (Fin 16)} {cs : List Char} (written : List.Forall₂ HexDigit digits cs)
      (four : digits.length = 4) (code : codePoint digits = c.toNat) : Spells c ('\\' :: 'u' :: cs)
  /-- By the eight digits of its code point. -/
  | eight {digits : List (Fin 16)} {cs : List Char} (written : List.Forall₂ HexDigit digits cs)
      (eight : digits.length = 8) (code : codePoint digits = c.toNat) : Spells c ('\\' :: 'U' :: cs)

/-- A text is written character by character. -/
inductive SpellsAll : List Char → List Char → Prop where
  /-- The empty text. -/
  | nil : SpellsAll [] []
  /-- A character, then the others. -/
  | cons {c : Char} {s cs rest : List Char} (first : Spells c cs) (others : SpellsAll s rest) :
      SpellsAll (c :: s) (cs ++ rest)

theorem hexDigit?_of_hexDigit {d : Fin 16} {c : Char} (h : HexDigit d c) : hexDigit? c = some d := by
  have small : ∀ d : Fin 16, "0123456789abcdef".toList[d.val]?.bind hexDigit? = some d.val := by
    decide
  have capital : ∀ d : Fin 16, "0123456789ABCDEF".toList[d.val]?.bind hexDigit? = some d.val := by
    decide
  rcases h with h | h
  · have read := small d
    rwa [h] at read
  · have read := capital d
    rwa [h] at read

theorem mapM_hexDigit? {digits : List (Fin 16)} {cs : List Char}
    (written : List.Forall₂ HexDigit digits cs) :
    cs.mapM hexDigit? = some (digits.map Fin.val) := by
  induction written with
  | nil => rfl
  | cons first _ ih => simp [List.mapM_cons, hexDigit?_of_hexDigit first, ih]

/-- The digits of a character's code point spell the character. -/
theorem scalar?_of_codePoint {digits : List (Fin 16)} {cs : List Char} {c : Char}
    (written : List.Forall₂ HexDigit digits cs) (code : codePoint digits = c.toNat) :
    scalar? cs = some c := by
  have value : (digits.map Fin.val).foldl (fun n d => 16 * n + d) 0 = c.toNat := by
    rw [List.foldl_map]
    exact code
  have valid : c.toNat.isValidChar := c.valid
  simp [scalar?, mapM_hexDigit? written, value, valid, Char.ofNat_toNat]

/-- The reader of a string takes any spelling of a character for the character. -/
theorem basic_of_spells {c : Char} {cs : List Char} (h : Spells c cs) (rest : List Char) :
    basic (cs ++ rest) = (basic rest).cons c := by
  cases h with
  | itself plain noQuote noBackslash => simp [basic, plain, noBackslash]
  | escape stands =>
    simp only [escapes, List.mem_cons, Prod.mk.injEq, List.not_mem_nil, or_false] at stands
    obtain ⟨rfl, rfl⟩ | ⟨rfl, rfl⟩ | ⟨rfl, rfl⟩ | ⟨rfl, rfl⟩ | ⟨rfl, rfl⟩ | ⟨rfl, rfl⟩ | ⟨rfl, rfl⟩ :=
        stands <;>
      simp [basic, shortEscape?]
  | four written four code =>
    have scalar := scalar?_of_codePoint written code
    obtain ⟨a, b, c, d, rfl⟩ := List.length_eq_four.1 (written.length_eq ▸ four)
    simp [basic, scalar]
  | @eight digits cs written eight code =>
    have scalar := scalar?_of_codePoint written code
    have len := written.length_eq ▸ eight
    match cs, len with
    | [a, b, c, d, e, f, g, h], _ => simp [basic, scalar]

theorem basic_of_spellsAll {s cs : List Char} (h : SpellsAll s cs) (rest : List Char) :
    basic (cs ++ '"' :: rest) = some (s, rest) := by
  induction h with
  | nil => simp [basic]
  | cons first _ ih =>
    rw [List.append_assoc, basic_of_spells first, ih]
    rfl

/-- No spelling starts with a quote. -/
theorem SpellsAll.head {s cs : List Char} (h : SpellsAll s cs) : cs.head? ≠ some '"' := by
  cases h with
  | nil => simp
  | cons first _ => cases first <;> simp_all

/-! ## The parts of a line -/

/-- Spaces and tabs. -/
def Spaces (cs : List Char) : Prop := ∀ c ∈ cs, isSpace c = true

/-- What may stand after everything else on a line: spaces, and then a comment. -/
inductive Trailing : List Char → Prop where
  /-- No comment. -/
  | spaces {pad : List Char} (pads : Spaces pad) : Trailing pad
  /-- A comment. -/
  | comment {pad note : List Char} (pads : Spaces pad) (plain : ∀ c ∈ note, isPlain c = true) :
      Trailing (pad ++ '#' :: note)

/-- The end of a line, followed by `rest`. -/
inductive LineEnd (rest : List Char) : List Char → Prop where
  /-- A line feed. -/
  | feed : LineEnd rest ('\n' :: rest)
  /-- A carriage return and a line feed. -/
  | returnFeed : LineEnd rest ('\r' :: '\n' :: rest)
  /-- The end of the text. -/
  | ended (nothing : rest = []) : LineEnd rest []

theorem skipSpaces_append {pad : List Char} (pads : Spaces pad) (cs : List Char) :
    skipSpaces (pad ++ cs) = skipSpaces cs :=
  List.dropWhile_append_of_pos pads

theorem skipSpaces_cons {c : Char} (h : isSpace c = false) (cs : List Char) :
    skipSpaces (c :: cs) = c :: cs :=
  List.dropWhile_cons_of_neg (by simp [h])

theorem skipSpaces_skipSpaces (cs : List Char) : skipSpaces (skipSpaces cs) = skipSpaces cs :=
  List.dropWhile_idempotent _ cs

theorem restOfLine?_skipSpaces (cs : List Char) : restOfLine? (skipSpaces cs) = restOfLine? cs := by
  unfold restOfLine?
  rw [skipSpaces_skipSpaces]

theorem LineEnd.skipSpaces {rest ending : List Char} (h : LineEnd rest ending) :
    Document.skipSpaces ending = ending := by
  cases h <;> rfl

theorem LineEnd.lineEnd? {rest ending : List Char} (h : LineEnd rest ending) :
    lineEnd? ending = some rest := by
  cases h with
  | feed => rfl
  | returnFeed => rfl
  | ended nothing => rw [nothing]; rfl

/-- The characters of a comment are skipped up to the end of the line. -/
theorem LineEnd.dropWhile_isPlain {rest ending : List Char} (h : LineEnd rest ending) :
    ending.dropWhile isPlain = ending := by
  cases h <;> rfl

theorem LineEnd.skipComment {rest ending : List Char} (h : LineEnd rest ending) :
    skipComment ending = ending := by
  cases h <;> rfl

/-- The reader passes over what trails on a line. -/
theorem restOfLine?_trailing {tail rest ending : List Char} (trailing : Trailing tail)
    (h : LineEnd rest ending) : restOfLine? (tail ++ ending) = some rest := by
  unfold restOfLine?
  cases trailing with
  | spaces pads => rw [skipSpaces_append pads, h.skipSpaces, h.skipComment, h.lineEnd?]
  | comment pads plain =>
    rw [List.append_assoc, skipSpaces_append pads, List.cons_append, skipSpaces_cons (by decide)]
    rw [skipComment, List.dropWhile_append_of_pos plain, h.dropWhile_isPlain, h.lineEnd?]

/-- What trails on a line, or the line's end, starts with a character that ends a word. -/
theorem endsWord_head {tail rest ending : List Char} (trailing : Trailing tail)
    (h : LineEnd rest ending) : ∀ c ∈ (tail ++ ending).head?, endsWord c = true := by
  have nothing : ∀ c ∈ ending.head?, endsWord c = true := by
    cases h <;> simp [endsWord]
  cases trailing with
  | spaces pads =>
    cases tail with
    | nil => exact nothing
    | cons c _ =>
      have space := pads c List.mem_cons_self
      simp [endsWord, space]
  | @comment pad _ pads _ =>
    cases pad with
    | nil => simp [endsWord]
    | cons c _ =>
      have space := pads c List.mem_cons_self
      simp [endsWord, space]

/-! ## Integers -/

/-- A number's digits do not start with a zero, unless it is zero. -/
theorem head_toDigits {n : Nat} (pos : 0 < n) : (Nat.toDigits 10 n).head? ≠ some '0' := by
  induction n using Nat.strongRecOn with
  | _ n ih =>
    rw [Nat.toDigits_eq_if (by decide)]
    split
    next small =>
      have digit : ∀ n < 10, 0 < n → n.digitChar ≠ '0' := by decide
      simpa using digit n small pos
    next large =>
      rw [List.head?_append_of_ne_nil _ Nat.toDigits_ne_nil]
      exact ih (n / 10) (by omega) (by omega)

theorem decimalDigit?_of_isDigit {c : Char} (h : c.isDigit = true) :
    decimalDigit? c = some (c.toNat - '0'.toNat) := by
  have range : '0' ≤ c ∧ c ≤ '9' := by simpa [Char.isDigit, Char.le_def] using h
  rw [decimalDigit?, if_pos range]

/-- Digits without underscores between them are read as they are. -/
theorem digits?_of_isDigit {cs : List Char} (digits : ∀ c ∈ cs, c.isDigit = true) (nonempty : cs ≠ [])
    (n : Nat) : digits? decimalDigit? 10 n cs = some (Nat.ofDigitChars 10 cs n) := by
  induction cs generalizing n with
  | nil => exact absurd rfl nonempty
  | cons c cs ih =>
    have digit := decimalDigit?_of_isDigit (digits c List.mem_cons_self)
    have others : ∀ c ∈ cs, c.isDigit = true := fun d mem => digits d (List.mem_cons_of_mem _ mem)
    cases cs with
    | nil => simp [digits?, digit, Nat.ofDigitChars]
    | cons d cs =>
      have noUnderscore : d ≠ '_' := by
        rintro rfl
        exact absurd (others '_' List.mem_cons_self) (by decide)
      rw [Nat.ofDigitChars_cons, ← ih others (by simp)]
      simp [digits?, digit, noUnderscore]

theorem integer?_toDigits {n : Nat} (fits : n < 0x8000000000000000) :
    integer? (Nat.toDigits 10 n) = some (Int.ofNat n) := by
  obtain rfl | pos := Nat.eq_zero_or_pos n
  · rfl
  have head := head_toDigits pos
  have digits : ∀ c ∈ Nat.toDigits 10 n, c.isDigit = true :=
    fun c mem => Nat.isDigit_of_mem_toDigits (by decide) (by decide) mem
  have value := digits?_of_isDigit digits Nat.toDigits_ne_nil 0
  rw [Nat.ofDigitChars_toDigits (by decide) (by decide)] at value
  generalize Nat.toDigits 10 n = cs at head digits value
  cases cs with
  | nil => simp [digits?] at value
  | cons c cs =>
    have noZero : c ≠ '0' := by simpa using head
    have digit := digits c List.mem_cons_self
    have noPlus : c ≠ '+' := by rintro rfl; exact absurd digit (by decide)
    have noMinus : c ≠ '-' := by rintro rfl; exact absurd digit (by decide)
    have decimal : decimal? (c :: cs) = some n := by simp [decimal?, noZero, value]
    have cast : Int.ofNat n = (n : Int) := rfl
    have range : -0x8000000000000000 ≤ Int.ofNat n ∧ Int.ofNat n < 0x8000000000000000 := by omega
    rw [integer?]
    · rw [decimal, Option.map_some, Option.bind_eq_bind, Option.bind_some]
      beta_reduce
      exact if_pos range
    all_goals simp [noZero, noPlus, noMinus]

/-! ## Entries -/

/-- How a key may be written. -/
inductive Names (key : String) : List Char → Prop where
  /-- By letters, digits, underscores and hyphens alone. -/
  | bare (inside : ∀ c ∈ key.toList, isKeyChar c = true) (nonempty : key.toList ≠ []) :
      Names key key.toList
  /-- Within quotes. -/
  | quoted {cs : List Char} (spelled : SpellsAll key.toList cs) : Names key ('"' :: cs ++ ['"'])

/-- How a value is written. -/
inductive Writes : Value → List Char → Prop where
  /-- An integer, in base ten and within the 63 bits of a document. -/
  | integer {n : Nat} (fits : n < 0x8000000000000000) :
      Writes (.integer (.ofNat n)) (Nat.toDigits 10 n)
  /-- A text, within quotes. -/
  | text {s : String} {cs : List Char} (spelled : SpellsAll s.toList cs) :
      Writes (.text s) ('"' :: cs ++ ['"'])

/-- How an entry is written: its key, an equals sign and its value, with spaces between them. -/
inductive Assigns (e : Entry) : List Char → Prop where
  /-- The parts of the line. -/
  | line {key before after value : List Char} (names : Names e.key key) (left : Spaces before)
      (right : Spaces after) (writes : Writes e.value value) :
      Assigns e (key ++ (before ++ '=' :: (after ++ value)))

/-- The text lists the entries: one to a line, in this order, with blank lines and comments
anywhere between them. -/
inductive Lists : List Entry → List Char → Prop where
  /-- Nothing is left. -/
  | nil : Lists [] []
  /-- A line without entry. -/
  | blank {es : List Entry} {tail ending rest : List Char} (trailing : Trailing tail)
      (ends : LineEnd rest ending) (others : Lists es rest) : Lists es (tail ++ ending)
  /-- A line with an entry. -/
  | entry {e : Entry} {es : List Entry} {pad line tail ending rest : List Char} (pads : Spaces pad)
      (assigns : Assigns e line) (trailing : Trailing tail) (ends : LineEnd rest ending)
      (others : Lists es rest) : Lists (e :: es) (pad ++ (line ++ (tail ++ ending)))

/-- A word goes up to the first character that cannot be in it. -/
theorem takeWhile_word {p : Char → Bool} {word rest : List Char} (inside : ∀ c ∈ word, p c = true)
    (stop : ∀ c ∈ rest.head?, p c = false) :
    (word ++ rest).takeWhile p = word ∧ (word ++ rest).dropWhile p = rest := by
  rw [List.takeWhile_append_of_pos inside, List.dropWhile_append_of_pos inside]
  cases rest with
  | nil => simp
  | cons c rest =>
    have outside := stop c rfl
    simp [outside]

theorem key?_names {key : String} {written rest : List Char} (names : Names key written)
    (stop : ∀ c ∈ rest.head?, isKeyChar c = false) :
    key? (written ++ rest) = some (key.toList, rest) := by
  cases names with
  | bare inside nonempty =>
    obtain ⟨taken, dropped⟩ := takeWhile_word inside stop
    generalize key.toList = cs at *
    cases cs with
    | nil => exact absurd rfl nonempty
    | cons c cs =>
      have keyChar := inside c List.mem_cons_self
      have noQuote : c ≠ '"' := by rintro rfl; exact absurd keyChar (by decide)
      have noMark : c ≠ '\'' := by rintro rfl; exact absurd keyChar (by decide)
      rw [List.cons_append] at *
      rw [key?]
      · simp [taken, dropped]
      · simpa using noQuote
      · simpa using noMark
  | quoted spelled =>
    have read := basic_of_spellsAll spelled rest
    simpa [key?] using read

/-- A digit does not end a word. -/
theorem endsWord_of_isDigit {c : Char} (digit : c.isDigit = true) : endsWord c = false := by
  rw [Bool.eq_false_iff]
  intro ends
  simp only [endsWord, isSpace, Bool.or_eq_true, decide_eq_true_eq] at ends
  obtain (((rfl | rfl) | rfl) | rfl) | rfl := ends <;> exact absurd digit (by decide)

/-- A string in single pairs of quotes is not taken for one that goes over several lines: after an
empty one no third quote follows. -/
theorem string?_of_spellsAll {s cs rest : List Char} (spelled : SpellsAll s cs)
    (stop : rest.head? ≠ some '"') : string? ('"' :: (cs ++ '"' :: rest)) = some (s, rest) := by
  rw [← basic_of_spellsAll spelled rest]
  have head := spelled.head
  cases cs with
  | nil =>
    have notThree : ∀ cs, rest ≠ '"' :: cs := by
      rintro cs rfl
      exact stop rfl
    rw [List.nil_append, string?]
    simpa using notThree
  | cons c cs =>
    have noQuote : c ≠ '"' := by simpa using head
    rw [List.cons_append, string?]
    simp [noQuote]

theorem value?_writes {v : Value} {written rest : List Char} (writes : Writes v written)
    (stop : ∀ c ∈ rest.head?, endsWord c = true) :
    value? (written ++ rest) = some (v, rest) := by
  cases writes with
  | @integer n fits =>
    have digits : ∀ c ∈ Nat.toDigits 10 n, c.isDigit = true :=
      fun c mem => Nat.isDigit_of_mem_toDigits (by decide) (by decide) mem
    have inside : ∀ c ∈ Nat.toDigits 10 n, (!endsWord c) = true :=
      fun c mem => by simp [endsWord_of_isDigit (digits c mem)]
    have stop : ∀ c ∈ rest.head?, (!endsWord c) = false := by simpa using stop
    obtain ⟨taken, dropped⟩ := takeWhile_word inside stop
    have read := integer?_toDigits fits
    have nonempty : Nat.toDigits 10 n ≠ [] := Nat.toDigits_ne_nil
    generalize Nat.toDigits 10 n = cs at *
    cases cs with
    | nil => exact absurd rfl nonempty
    | cons c cs =>
      have digit := digits c List.mem_cons_self
      have noQuote : c ≠ '"' := by rintro rfl; exact absurd digit (by decide)
      have noMark : c ≠ '\'' := by rintro rfl; exact absurd digit (by decide)
      rw [List.cons_append] at *
      rw [value?]
      · simp [taken, dropped, read]
      · simpa using noQuote
      · simpa using noMark
  | @text s cs spelled =>
    have noQuote : rest.head? ≠ some '"' := by
      intro quote
      exact absurd (stop '"' quote) (by decide)
    have read := string?_of_spellsAll spelled noQuote
    simp [value?, read]

/-- A value starts with no space. -/
theorem skipSpaces_writes {v : Value} {written : List Char} (writes : Writes v written)
    (rest : List Char) : skipSpaces (written ++ rest) = written ++ rest := by
  cases writes with
  | @integer n _ =>
    have digits : ∀ c ∈ Nat.toDigits 10 n, c.isDigit = true :=
      fun c mem => Nat.isDigit_of_mem_toDigits (by decide) (by decide) mem
    have nonempty : Nat.toDigits 10 n ≠ [] := Nat.toDigits_ne_nil
    generalize Nat.toDigits 10 n = cs at *
    cases cs with
    | nil => exact absurd rfl nonempty
    | cons c cs =>
      have word := endsWord_of_isDigit (digits c List.mem_cons_self)
      exact skipSpaces_cons (by simp_all [endsWord]) _
  | text _ => exact skipSpaces_cons (by decide) _

/-- The reader of a line finds the entry that is written on it. -/
theorem entry?_assigns {e : Entry} {line tail rest ending : List Char} (assigns : Assigns e line)
    (trailing : Trailing tail) (ends : LineEnd rest ending) :
    entry? (line ++ (tail ++ ending)) = some (e, rest) := by
  cases assigns with
  | @line key before after value names left right writes =>
    have equals : ∀ c ∈ (before ++ '=' :: (after ++ (value ++ (tail ++ ending)))).head?,
        isKeyChar c = false := by
      cases before with
      | nil => simp [isKeyChar]
      | cons c _ =>
        have space := left c List.mem_cons_self
        simp only [isSpace, Bool.or_eq_true, decide_eq_true_eq] at space
        obtain rfl | rfl := space <;> simp [isKeyChar]
    have readKey := key?_names names equals
    have readValue := value?_writes writes (endsWord_head trailing ends)
    have readRest := restOfLine?_trailing trailing ends
    have blankless := skipSpaces_writes writes (tail ++ ending)
    simp [readKey, entry?, skipSpaces_append left, skipSpaces_append right, skipSpaces_cons,
      isSpace, readValue, readRest, blankless]

/-- A line with an entry starts with no space and with no comment. -/
theorem Assigns.head {e : Entry} {line : List Char} (assigns : Assigns e line) (rest : List Char) :
    skipSpaces (line ++ rest) = line ++ rest ∧ restOfLine? (line ++ rest) = none := by
  have start : ∀ c cs, isKeyChar c = true ∨ c = '"' →
      skipSpaces (c :: cs) = c :: cs ∧ restOfLine? (c :: cs) = none := by
    intro c cs first
    have noSpace : isSpace c = false := by
      rw [Bool.eq_false_iff]
      intro space
      simp only [isSpace, Bool.or_eq_true, decide_eq_true_eq] at space
      obtain rfl | rfl := space <;> simp [isKeyChar] at first
    have noNote : c ≠ '#' := by rintro rfl; simp [isKeyChar] at first
    have noFeed : c ≠ '\n' := by rintro rfl; simp [isKeyChar] at first
    have noReturn : c ≠ '\r' := by rintro rfl; simp [isKeyChar] at first
    have stays := skipSpaces_cons noSpace cs
    refine ⟨stays, ?_⟩
    rw [restOfLine?, stays]
    simp [skipComment, lineEnd?, noNote, noFeed, noReturn]
  cases assigns with
  | line names _ _ _ =>
    cases names with
    | bare inside nonempty =>
      generalize e.key.toList = cs at *
      cases cs with
      | nil => exact absurd rfl nonempty
      | cons c cs => exact start c _ (.inl (inside c List.mem_cons_self))
    | quoted _ => exact start '"' _ (.inr rfl)

theorem Assigns.length_pos {e : Entry} {line : List Char} (assigns : Assigns e line) :
    0 < line.length := by
  cases assigns
  simp only [List.length_append, List.length_cons]
  omega

theorem LineEnd.length_le {rest ending : List Char} (ends : LineEnd rest ending) :
    rest.length ≤ ending.length := by
  cases ends with
  | feed => simp
  | returnFeed => simp; omega
  | ended nothing => simp [nothing]

theorem LineEnd.length_lt {tail rest ending : List Char} (ends : LineEnd rest ending)
    (nonempty : tail ++ ending ≠ []) : rest.length < (tail ++ ending).length := by
  cases ends with
  | feed => simp; omega
  | returnFeed => simp; omega
  | ended nothing => simpa [nothing, List.length_pos_iff] using nonempty

/-- The reader finds the entries that a text lists, however they are written. -/
theorem lines?_of_lists {es : List Entry} {cs : List Char} (lists : Lists es cs) :
    lines? cs = some es := by
  induction lists with
  | nil => simp [lines?, skipSpaces]
  | @blank es tail ending rest trailing ends _ ih =>
    have read := restOfLine?_trailing trailing ends
    rw [← restOfLine?_skipSpaces] at read
    rw [lines?]
    cases line : skipSpaces (tail ++ ending) with
    | nil =>
      rw [line] at read
      obtain rfl : [] = rest := Option.some.inj read
      rw [← ih]
      simp [lines?, skipSpaces]
    | cons c cs =>
      rw [line] at read
      have nonempty : tail ++ ending ≠ [] := by
        intro none
        rw [none] at line
        exact absurd line (by simp [skipSpaces])
      simp only [read, if_pos (ends.length_lt nonempty), ih]
  | @entry e es pad line tail ending rest pads assigns trailing ends _ ih =>
    have read := entry?_assigns assigns trailing ends
    obtain ⟨start, noRest⟩ := assigns.head (tail ++ ending)
    rw [lines?, skipSpaces_append pads, start]
    cases whole : line ++ (tail ++ ending) with
    | nil =>
      rw [whole] at noRest
      cases noRest
    | cons c cs =>
      rw [whole] at read noRest
      have shorter : rest.length < (pad ++ c :: cs).length := by
        have nonempty := assigns.length_pos
        have fewer := ends.length_le
        rw [← whole]
        simp
        omega
      simp only [read, noRest, if_pos shorter, ih, Option.map_some]

/-- A listing starts with no byte order mark. -/
theorem dropMark_of_lists {es : List Entry} {cs : List Char} (lists : Lists es cs) :
    dropMark cs = cs := by
  have read := lines?_of_lists lists
  unfold dropMark
  split
  next cs =>
    simp [lines?, skipSpaces, isSpace, restOfLine?, skipComment, lineEnd?, entry?, key?,
      isKeyChar] at read
  next => rfl

/-! ## Settings as entries -/

/-- The key of a field. -/
def keyOf : Field → String
  | .handOffTimeout => "handoff_timeout_ms"
  | .queueCapacity => "queue_capacity"
  | .threadName => "context_thread_name"

/-- The value that stands for a setting: a time is given in milliseconds. -/
def valueOf : Setting → Value
  | .handOffTimeout d => .integer (.ofNat (d.nanos / 1000000))
  | .queueCapacity n => .integer (.ofNat n)
  | .threadName s => .text s

theorem valueOf_ofMillis (ms : Nat) :
    valueOf (.handOffTimeout (.ofMillis ms)) = .integer (.ofNat ms) := by
  have whole : ms * 1000000 / 1000000 = ms := by omega
  rw [valueOf, Duration.ofMillis, whole]

/-- The entry that makes a setting. -/
def entryOf (s : Setting) : Entry := ⟨keyOf s.field, valueOf s⟩

/-- The setting can be written down: a time is a whole number of milliseconds, and an integer has
63 bits. -/
def Representable : Setting → Prop
  | .handOffTimeout d => ∃ ms < 0x8000000000000000, d = .ofMillis ms
  | .queueCapacity n => n < 0x8000000000000000
  | .threadName _ => True

/-- An entry makes the setting that it was written for. -/
theorem setting?_entryOf {s : Setting} (fits : Representable s) : (entryOf s).setting? = some s := by
  cases s with
  | handOffTimeout d =>
    obtain ⟨ms, -, rfl⟩ := fits
    rw [entryOf, valueOf_ofMillis]
    rfl
  | queueCapacity n => rfl
  | threadName s => rfl

/-- Two fields have two keys. -/
theorem keyOf_injective : Function.Injective keyOf := by
  intro f g
  cases f <;> cases g <;> decide

/-- A key needs no quotes. -/
theorem names_keyOf (f : Field) : Names (keyOf f) (keyOf f).toList := by
  refine .bare (List.all_eq_true.1 ?_) ?_ <;> cases f <;> decide

theorem settings?_map_entryOf {given : List Setting} (once : (given.map Setting.field).Nodup)
    (fits : ∀ s ∈ given, Representable s) : settings? (given.map entryOf) = some given := by
  have keys : ((given.map entryOf).map Entry.key).Nodup := by
    rw [List.Nodup, List.pairwise_map] at once
    rw [List.map_map, List.Nodup, List.pairwise_map]
    exact once.imp fun {_ _} apart same => apart (keyOf_injective same)
  rw [settings?, if_pos keys]
  clear once keys
  induction given with
  | nil => rfl
  | cons s given ih =>
    obtain ⟨first, others⟩ := List.forall_mem_cons.1 fits
    simp [List.mapM_cons, setting?_entryOf first, ih others]

/-! ## What can be read -/

/-- The value is a text, or an integer of 63 bits. -/
def Value.Fits : Value → Prop
  | .integer n => n < 0x8000000000000000
  | .text _ => True

theorem fits_of_integer? {cs : List Char} {n : Int} (read : integer? cs = some n) :
    n < 0x8000000000000000 := by
  have bounded : ∀ o : Option Int, (o.bind fun n =>
      if -0x8000000000000000 ≤ n ∧ n < 0x8000000000000000 then some n else none) = some n →
      n < 0x8000000000000000 := by
    intro o checked
    obtain ⟨n', -, checked⟩ := Option.bind_eq_some_iff.1 checked
    obtain ⟨range, e⟩ := Option.ite_none_right_eq_some.1 checked
    cases e
    exact range.2
  unfold integer? at read
  dsimp only at read
  split at read <;> exact bounded _ read

theorem fits_of_value? {cs rest : List Char} {v : Value} (read : value? cs = some (v, rest)) :
    v.Fits := by
  unfold value? at read
  split at read
  case h_3 =>
    obtain ⟨n, number, e⟩ := Option.map_eq_some_iff.1 read
    cases e
    exact fits_of_integer? number
  all_goals
    obtain ⟨text, -, e⟩ := Option.map_eq_some_iff.1 read
    cases e
    trivial

theorem fits_of_entry {cs rest : List Char} {e : Entry} (read : entry? cs = some (e, rest)) :
    e.value.Fits := by
  obtain ⟨⟨key, afterKey⟩, -, read⟩ := Option.bind_eq_some_iff.1 read
  dsimp only at read
  split at read
  · obtain ⟨⟨v, afterValue⟩, value, read⟩ := Option.bind_eq_some_iff.1 read
    obtain ⟨rest', -, read⟩ := Option.bind_eq_some_iff.1 read
    cases read
    exact fits_of_value? value
  · cases read

/-- What the reader finds on the lines of any text fits. -/
theorem fits_of_lines? {cs : List Char} {es : List Entry} (read : lines? cs = some es) :
    ∀ e ∈ es, e.value.Fits := by
  fun_induction lines? cs generalizing es with
  | case1 =>
    cases read
    simp
  | case2 _ _ _ _ _ ih => exact ih read
  | case4 _ e rest _ _ _ entry ih =>
    obtain ⟨others, found, e'⟩ := Option.map_eq_some_iff.1 read
    cases e'
    exact List.forall_mem_cons.2 ⟨fits_of_entry entry, ih found⟩
  | _ => cases read

theorem fits_of_entries? {source : String} {es : List Entry} (read : entries? source = some es) :
    ∀ e ∈ es, e.value.Fits :=
  fits_of_lines? read

/-- A setting that an entry makes can be written down. -/
theorem representable_of_setting? {e : Entry} {s : Setting} (fits : e.value.Fits)
    (made : e.setting? = some s) : Representable s := by
  unfold Entry.setting? at made
  split at made
  next ms =>
    cases made
    exact ⟨ms, Int.ofNat_lt.1 fits, rfl⟩
  next n =>
    cases made
    exact Int.ofNat_lt.1 fits
  next =>
    cases made
    trivial
  next => cases made

theorem representable_of_mapM {es : List Entry} {settings : List Setting}
    (fits : ∀ e ∈ es, e.value.Fits) (made : es.mapM Entry.setting? = some settings) :
    ∀ s ∈ settings, Representable s := by
  induction es generalizing settings with
  | nil =>
    cases made
    simp
  | cons e es ih =>
    obtain ⟨first, others⟩ := List.forall_mem_cons.1 fits
    rw [List.mapM_cons] at made
    obtain ⟨s, head, made⟩ := Option.bind_eq_some_iff.1 made
    obtain ⟨rest, tail, made⟩ := Option.bind_eq_some_iff.1 made
    cases made
    exact List.forall_mem_cons.2 ⟨representable_of_setting? first head, ih others tail⟩

/-! ## Writing settings down -/

/-- A digit of base sixteen. -/
def hexDigit (d : Nat) : Char := "0123456789abcdef".toList[d]?.getD '0'

/-- A character as it is written within double quotes. -/
def spell (c : Char) : List Char :=
  if isPlain c && c ≠ '"' && c ≠ '\\' then [c]
  else ['\\', 'u', '0', '0', hexDigit (c.toNat / 16), hexDigit (c.toNat % 16)]

/-- A value as it is written. -/
def Value.write : Value → List Char
  | .integer n => Nat.toDigits 10 n.toNat
  | .text s => '"' :: s.toList.flatMap spell ++ ['"']

/-- A line with an entry on it. -/
def Entry.write (e : Entry) : List Char := e.key.toList ++ " = ".toList ++ e.value.write ++ ['\n']

/-- A document that makes the settings. -/
def write (given : List Setting) : String :=
  String.ofList (given.flatMap fun s => (entryOf s).write)

/-- Only characters below 128 are not written as themselves, and these by their code points. -/
theorem spells_spell (c : Char) : Spells c (spell c) := by
  unfold spell
  split
  next plain =>
    simp only [Bool.and_eq_true, decide_eq_true_eq] at plain
    exact .itself plain.1.1 plain.1.2 plain.2
  next special =>
    have small : c.toNat < 128 := by
      by_contra large
      have high : ' ' ≤ c := by
        rw [Char.le_def, UInt32.le_iff_toNat_le]
        exact le_trans (by decide) (not_lt.1 large)
      have notDelete : c ≠ '\x7f' := by rintro rfl; exact large (by decide)
      have notQuote : c ≠ '"' := by rintro rfl; exact large (by decide)
      have notBackslash : c ≠ '\\' := by rintro rfl; exact large (by decide)
      simp [isPlain, high, notDelete, notQuote, notBackslash] at special
    have digit : ∀ d : Fin 16, HexDigit d (hexDigit d) := fun d => .inl (by decide +revert)
    have high : c.toNat / 16 < 16 := by omega
    have low : c.toNat % 16 < 16 := by omega
    have written : List.Forall₂ HexDigit [0, 0, ⟨_, high⟩, ⟨_, low⟩]
        ['0', '0', hexDigit (c.toNat / 16), hexDigit (c.toNat % 16)] :=
      .cons (digit 0) (.cons (digit 0) (.cons (digit ⟨_, high⟩) (.cons (digit ⟨_, low⟩) .nil)))
    have code : 16 * (c.toNat / 16) + c.toNat % 16 = c.toNat := by omega
    exact .four written rfl (by simpa [codePoint] using code)

theorem spellsAll_flatMap (s : List Char) : SpellsAll s (s.flatMap spell) := by
  induction s with
  | nil => exact .nil
  | cons c s ih => exact .cons (spells_spell c) ih

theorem assigns_entryOf {s : Setting} (fits : Representable s) :
    ∃ line, Assigns (entryOf s) line ∧ (entryOf s).write = line ++ ['\n'] := by
  have written : Writes (entryOf s).value (entryOf s).value.write := by
    cases s with
    | handOffTimeout d =>
      obtain ⟨ms, fits, rfl⟩ := fits
      rw [entryOf, valueOf_ofMillis]
      exact .integer fits
    | queueCapacity n => exact .integer fits
    | threadName s => exact .text (spellsAll_flatMap s.toList)
  have space : Spaces [' '] := by simp [Spaces, isSpace]
  exact ⟨_, .line (names_keyOf s.field) space space written, by simp [Entry.write, entryOf]⟩

/-- What is written down for settings lists their entries. -/
theorem lists_write {given : List Setting} (fits : ∀ s ∈ given, Representable s) :
    Lists (given.map entryOf) (write given).toList := by
  rw [write, String.toList_ofList]
  induction given with
  | nil => exact .nil
  | cons s given ih =>
    obtain ⟨first, others⟩ := List.forall_mem_cons.1 fits
    obtain ⟨line, assigns, written⟩ := assigns_entryOf first
    rw [List.map_cons, List.flatMap_cons, written, List.append_assoc]
    have noPad : Spaces [] := by simp [Spaces]
    have listed := Lists.entry noPad assigns (.spaces noPad) .feed (ih others)
    simpa using listed

end Document

/-- A configuration, written out. -/
def document (c : Config) : String := Document.write (Field.all.map c.get)

/-- A document that lists the entries of settings is read as these settings, in its order. -/
theorem ofDocument_of_lists {given : List Setting} {source : String}
    (once : (given.map Setting.field).Nodup) (fits : ∀ s ∈ given, Document.Representable s)
    (lists : Document.Lists (given.map Document.entryOf) source.toList) :
    ofDocument source = build given := by
  have entries : Document.entries? source = some (given.map Document.entryOf) := by
    rw [Document.entries?, Document.dropMark_of_lists lists, Document.lines?_of_lists lists]
  have settings := Document.settings?_map_entryOf once fits
  simp [ofDocument, entries, settings]

/-- A configuration that was read can be written down: its time is a whole number of milliseconds,
and its integers have 63 bits. -/
theorem representable_of_ofDocument {source : String} {c : Config}
    (read : ofDocument source = .ok c) : ∀ f, Document.Representable (c.get f) := by
  unfold ofDocument at read
  split at read
  next settings made =>
    obtain ⟨es, entries, made⟩ := Option.bind_eq_some_iff.1 made
    obtain ⟨-, made⟩ := Option.ite_none_right_eq_some.1 made
    have fits := Document.representable_of_mapM (Document.fits_of_entries? entries) made
    obtain ⟨rfl, -⟩ := validate_eq_ok_iff.1 read
    intro f
    rw [get_foldl]
    cases last : lastOf settings f with
    | some s => exact fits s (mem_of_lastOf last)
    | none =>
      cases f
      · exact ⟨500, by decide, rfl⟩
      · exact (by decide : 256 < 0x8000000000000000)
      · trivial
  next => cases read

/-- Settings that put every value of a configuration in make this configuration. -/
theorem build_map_get {c : Config} (valid : c.validate = .ok c) :
    build (Field.all.map c.get) = .ok c := by
  have whole : (Field.all.map c.get).foldl set default = c := by
    cases c
    rfl
  rw [build, whole, valid]

/-- Documents and settings construct the same configurations. Take values for some of the fields,
in any order. A document that lists their entries, however it is written, and any settings of which
these are the last come to the same: the configuration with the values and the defaults for the
rest, or the complaint about the first field, in the order of the fields, whose value cannot be run
with. There is such a document, and a configuration that is written out is read back. -/
theorem documents_agree_with_settings :
    (∀ (given settings : List Setting) (source : String),
      (given.map Setting.field).Nodup → (∀ s ∈ given, Document.Representable s) →
      Document.Lists (given.map Document.entryOf) source.toList →
      (∀ f, lastOf settings f = given.find? (·.field = f)) →
      build settings = ofDocument source ∧ Outcome given (ofDocument source)) ∧
    (∀ given : List Setting, (∀ s ∈ given, Document.Representable s) →
      Document.Lists (given.map Document.entryOf) (Document.write given).toList) ∧
    ∀ c : Config, c.validate = .ok c → (∀ f, Document.Representable (c.get f)) →
      ofDocument c.document = .ok c := by
  refine ⟨fun given settings source once fits lists last => ?_, fun given fits => ?_,
    fun c valid fits => ?_⟩
  · have same : lastOf settings = lastOf given :=
      funext fun f => (last f).trans (lastOf_of_once once f).symm
    rw [ofDocument_of_lists once fits lists]
    exact ⟨build_congr same, build_outcome once⟩
  · exact Document.lists_write fits
  · have once : ((Field.all.map c.get).map Setting.field).Nodup := by
      simp [Field.all]
    have fits : ∀ s ∈ Field.all.map c.get, Document.Representable s := by
      simpa [Field.all] using ⟨fits .handOffTimeout, fits .queueCapacity, fits .threadName⟩
    rw [document, ofDocument_of_lists once fits (Document.lists_write fits), build_map_get valid]

open Document

/-- A name with a quote, an accent and a tab in it, written with escapes after a comment, and no
final line end: settings with the same last values, the capacity set twice, make the same. A name
of a null byte and a backslash is written out and read back. -/
theorem documents_agree_with_settings_escaped :
    ofDocument "# names\r\n\ncontext_thread_name = \"\\\"\\u00E9\\t\"\n queue_capacity=8 # tasks" =
        .ok ⟨.ofMillis 500, 8, "\"é\t"⟩ ∧
      ofDocument (document ⟨.ofMillis 1, 2, "\x00\\"⟩) = .ok ⟨.ofMillis 1, 2, "\x00\\"⟩ := by
  have noPad : Spaces [] := by simp [Spaces]
  have space : Spaces [' '] := by simp [Spaces, isSpace]
  have quote : Spells '"' ['\\', '"'] := .escape (by decide)
  have accent : Spells 'é' ['\\', 'u', '0', '0', 'E', '9'] := by
    have digits : List.Forall₂ HexDigit [0, 0, 14, 9] ['0', '0', 'E', '9'] :=
      .cons (.inl rfl) (.cons (.inl rfl) (.cons (.inr rfl) (.cons (.inl rfl) .nil)))
    exact .four digits rfl rfl
  have tab : Spells '\t' ['\\', 't'] := .escape (by decide)
  have name : Writes (.text "\"é\t") _ := .text (.cons quote (.cons accent (.cons tab .nil)))
  have capacity : Writes (.integer (.ofNat 8)) _ := .integer (by decide)
  have names : Trailing ([] ++ '#' :: " names".toList) := .comment noPad (List.all_eq_true.1 (by decide))
  have tasks : Trailing ([' '] ++ '#' :: " tasks".toList) := .comment space (List.all_eq_true.1 (by decide))
  have named : Assigns (entryOf (.threadName "\"é\t")) _ :=
    .line (names_keyOf .threadName) space space name
  have sized : Assigns (entryOf (.queueCapacity 8)) _ :=
    .line (names_keyOf .queueCapacity) noPad noPad capacity
  have lists := Lists.blank names .returnFeed <| .blank (.spaces noPad) .feed <|
    .entry noPad named (.spaces noPad) .feed <| .entry space sized tasks (.ended rfl) .nil
  obtain ⟨agree, -, readBack⟩ := documents_agree_with_settings
  refine ⟨?_, readBack _ (by decide) fun f => ?_⟩
  · refine (agree [.threadName "\"é\t", .queueCapacity 8]
      [.queueCapacity 0, .threadName "\"é\t", .queueCapacity 8] _ (by decide)
      (by simp [Representable]) ?_ fun f => by cases f <;> decide).1.symm
    exact lists
  · cases f
    · exact ⟨1, by decide, rfl⟩
    · exact (by decide : 2 < 0x8000000000000000)
    · trivial

end TableAccess.Config
