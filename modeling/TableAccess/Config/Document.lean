import TableAccess.Config.Basic

/-!
# Configuration documents

A configuration is written as a TOML document. Its three keys stand at the top level and hold
integers or strings, so a document with anything else in it (a table, a dotted key, a value of
another type, a key twice) is no configuration, and the reader refuses it as it refuses one that is
not TOML at all.

## The model

* `Entry` — a key and its value, `Entries` read from a text by `entries?`, line by line.
* `basic`, `literal`, `multilineBasic`, `multilineLiteral` — the four kinds of string, each read up
  to its closing quotes.
* `integer?` — an integer in one of the four bases, within 64 bits with sign.
* `Config.ofDocument` — the configuration of the entries.
-/

namespace TableAccess.Config.Document

/-- A value of an entry. -/
inductive Value where
  /-- A whole number. -/
  | integer (n : Int)
  /-- A text. -/
  | text (s : String)
deriving DecidableEq, Repr

/-- A key and its value. -/
structure Entry where
  /-- The key, its quotes and escapes removed. -/
  key : String
  /-- The value. -/
  value : Value
deriving DecidableEq, Repr

/-! ## Blanks, comments and line ends -/

def isSpace (c : Char) : Bool := c = ' ' || c = '\t'

/-- A character that may stand in a comment or, quotes and backslashes apart, in a string. -/
def isPlain (c : Char) : Bool := c = '\t' || (' ' ≤ c && c ≠ '\x7f')

def skipSpaces (cs : List Char) : List Char := cs.dropWhile isSpace

def skipComment : List Char → List Char
  | '#' :: cs => cs.dropWhile isPlain
  | cs => cs

/-- What follows the end of a line; the end of the text ends a line too. -/
def lineEnd? : List Char → Option (List Char)
  | [] => some []
  | '\n' :: cs => some cs
  | '\r' :: '\n' :: cs => some cs
  | _ => none

/-- What follows a line of which only spaces and a comment are left. -/
def restOfLine? (cs : List Char) : Option (List Char) := lineEnd? (skipComment (skipSpaces cs))

/-! ## Strings -/

/-- What a text holds and what follows it. -/
abbrev Read := Option (List Char × List Char)

/-- Puts a character before what was read. -/
def Read.cons (c : Char) (r : Read) : Read := r.map fun (s, rest) => (c :: s, rest)

def hexDigit? (c : Char) : Option Nat :=
  if '0' ≤ c ∧ c ≤ '9' then some (c.toNat - '0'.toNat)
  else if 'a' ≤ c ∧ c ≤ 'f' then some (c.toNat - 'a'.toNat + 10)
  else if 'A' ≤ c ∧ c ≤ 'F' then some (c.toNat - 'A'.toNat + 10)
  else none

/-- The character whose code point the digits spell. -/
def scalar? (digits : List Char) : Option Char := do
  let ds ← digits.mapM hexDigit?
  let n := ds.foldl (fun n d => 16 * n + d) 0
  if n.isValidChar then some (Char.ofNat n) else none

/-- The character that a backslash and `c` stand for. -/
def shortEscape? (c : Char) : Option Char :=
  match c with
  | 'b' => some '\x08'
  | 't' => some '\t'
  | 'n' => some '\n'
  | 'f' => some '\x0c'
  | 'r' => some '\r'
  | '"' => some '"'
  | '\\' => some '\\'
  | _ => none

/-- The rest of a string in double quotes. -/
def basic : List Char → Read
  | [] => none
  | '"' :: cs => some ([], cs)
  | '\\' :: 'u' :: a :: b :: c :: d :: cs =>
    (scalar? [a, b, c, d]).bind fun x => (basic cs).cons x
  | '\\' :: 'U' :: a :: b :: c :: d :: e :: f :: g :: h :: cs =>
    (scalar? [a, b, c, d, e, f, g, h]).bind fun x => (basic cs).cons x
  | '\\' :: c :: cs => (shortEscape? c).bind fun x => (basic cs).cons x
  | c :: cs => if isPlain c && c ≠ '\\' then (basic cs).cons c else none

/-- The rest of a string in single quotes. -/
def literal : List Char → Read
  | [] => none
  | '\'' :: cs => some ([], cs)
  | c :: cs => if isPlain c then (literal cs).cons c else none

/-- Where the reader of a multi-line string in double quotes stands. -/
inductive Place where
  /-- In the text. -/
  | inText
  /-- After a backslash and spaces, where only the end of a line may follow. -/
  | beforeLineEnd
  /-- After a backslash at the end of a line, where spaces and line ends are skipped. -/
  | skipping
deriving DecidableEq, Repr

/-- The rest of a multi-line string in double quotes. Three to five quotes close it, those above
three being part of the text; a backslash at the end of a line joins the lines. -/
def multilineBasic : Place → List Char → Read
  | _, [] => none
  | .beforeLineEnd, c :: cs =>
    match c, cs with
    | '\n', cs => multilineBasic .skipping cs
    | '\r', '\n' :: cs => multilineBasic .skipping cs
    | c, cs => if isSpace c then multilineBasic .beforeLineEnd cs else none
  | .skipping, ' ' :: cs => multilineBasic .skipping cs
  | .skipping, '\t' :: cs => multilineBasic .skipping cs
  | .skipping, '\n' :: cs => multilineBasic .skipping cs
  | .skipping, '\r' :: '\n' :: cs => multilineBasic .skipping cs
  | _, '"' :: '"' :: '"' :: '"' :: '"' :: cs => some (['"', '"'], cs)
  | _, '"' :: '"' :: '"' :: '"' :: cs => some (['"'], cs)
  | _, '"' :: '"' :: '"' :: cs => some ([], cs)
  | _, '"' :: cs => (multilineBasic .inText cs).cons '"'
  | _, '\r' :: '\n' :: cs => (multilineBasic .inText cs).cons '\n'
  | _, '\n' :: cs => (multilineBasic .inText cs).cons '\n'
  | _, '\\' :: 'u' :: a :: b :: c :: d :: cs =>
    (scalar? [a, b, c, d]).bind fun x => (multilineBasic .inText cs).cons x
  | _, '\\' :: 'U' :: a :: b :: c :: d :: e :: f :: g :: h :: cs =>
    (scalar? [a, b, c, d, e, f, g, h]).bind fun x => (multilineBasic .inText cs).cons x
  | _, '\\' :: '\n' :: cs => multilineBasic .skipping cs
  | _, '\\' :: '\r' :: '\n' :: cs => multilineBasic .skipping cs
  | _, '\\' :: ' ' :: cs => multilineBasic .beforeLineEnd cs
  | _, '\\' :: '\t' :: cs => multilineBasic .beforeLineEnd cs
  | _, '\\' :: c :: cs => (shortEscape? c).bind fun x => (multilineBasic .inText cs).cons x
  | _, c :: cs => if isPlain c && c ≠ '\\' then (multilineBasic .inText cs).cons c else none

/-- The rest of a multi-line string in single quotes, closed like the other multi-line kind. -/
def multilineLiteral : List Char → Read
  | [] => none
  | '\'' :: '\'' :: '\'' :: '\'' :: '\'' :: cs => some (['\'', '\''], cs)
  | '\'' :: '\'' :: '\'' :: '\'' :: cs => some (['\''], cs)
  | '\'' :: '\'' :: '\'' :: cs => some ([], cs)
  | '\r' :: '\n' :: cs => (multilineLiteral cs).cons '\n'
  | '\n' :: cs => (multilineLiteral cs).cons '\n'
  | c :: cs => if isPlain c then (multilineLiteral cs).cons c else none

/-- A line end right after the opening quotes of a multi-line string is no part of it. -/
def dropFirstLineEnd : List Char → List Char
  | '\n' :: cs => cs
  | '\r' :: '\n' :: cs => cs
  | cs => cs

/-- A string of any kind. -/
def string? : List Char → Read
  | '"' :: '"' :: '"' :: cs => multilineBasic .inText (dropFirstLineEnd cs)
  | '\'' :: '\'' :: '\'' :: cs => multilineLiteral (dropFirstLineEnd cs)
  | '"' :: cs => basic cs
  | '\'' :: cs => literal cs
  | _ => none

/-! ## Integers -/

/-- The number that digits of a base spell; an underscore may stand between two digits. -/
def digits? (digit? : Char → Option Nat) (base : Nat) : Nat → List Char → Option Nat
  | _, [] => none
  | n, [c] => (digit? c).map fun d => base * n + d
  | n, c :: '_' :: cs => (digit? c).bind fun d => digits? digit? base (base * n + d) cs
  | n, c :: cs => (digit? c).bind fun d => digits? digit? base (base * n + d) cs

def decimalDigit? (c : Char) : Option Nat :=
  if '0' ≤ c ∧ c ≤ '9' then some (c.toNat - '0'.toNat) else none

/-- A digit below `base`. -/
def digitBelow? (base : Nat) (c : Char) : Option Nat :=
  (hexDigit? c).bind fun d => if d < base then some d else none

/-- A decimal number without sign; zero is the only one that starts with a zero. -/
def decimal? : List Char → Option Nat
  | ['0'] => some 0
  | '0' :: _ => none
  | cs => digits? decimalDigit? 10 0 cs

/-- An integer of a document: it has a sign only in base ten, and it fits 64 bits with sign. -/
def integer? (cs : List Char) : Option Int := do
  let n : Int ← match cs with
    | '0' :: 'x' :: ds => (digits? hexDigit? 16 0 ds).map Int.ofNat
    | '0' :: 'o' :: ds => (digits? (digitBelow? 8) 8 0 ds).map Int.ofNat
    | '0' :: 'b' :: ds => (digits? (digitBelow? 2) 2 0 ds).map Int.ofNat
    | '+' :: ds => (decimal? ds).map Int.ofNat
    | '-' :: ds => (decimal? ds).map fun n => - Int.ofNat n
    | ds => (decimal? ds).map Int.ofNat
  if -0x8000000000000000 ≤ n ∧ n < 0x8000000000000000 then some n else none

/-! ## Entries -/

/-- A character that ends an integer. -/
def endsWord (c : Char) : Bool := isSpace c || c = '\n' || c = '\r' || c = '#'

/-- A value and what follows it. -/
def value? (cs : List Char) : Option (Value × List Char) :=
  match cs with
  | '"' :: _ | '\'' :: _ => (string? cs).map fun (s, rest) => (.text (String.ofList s), rest)
  | _ =>
    (integer? (cs.takeWhile (!endsWord ·))).map fun n => (.integer n, cs.dropWhile (!endsWord ·))

/-- A character of a key without quotes. -/
def isKeyChar (c : Char) : Bool := c.isAlphanum || c = '_' || c = '-'

/-- A key of one part and what follows it. -/
def key? (cs : List Char) : Read :=
  match cs with
  | '"' :: rest => basic rest
  | '\'' :: rest => literal rest
  | _ =>
    let name := cs.takeWhile isKeyChar
    if name.isEmpty then none else some (name, cs.dropWhile isKeyChar)

/-- A key, an equals sign, a value, and the end of the line. -/
def entry? (cs : List Char) : Option (Entry × List Char) := do
  let (key, rest) ← key? cs
  match skipSpaces rest with
  | '=' :: rest =>
    let (value, rest) ← value? (skipSpaces rest)
    let rest ← restOfLine? rest
    some (⟨String.ofList key, value⟩, rest)
  | _ => none

/-- The entries of the lines of a text. A line without entry holds only spaces and a comment. -/
def lines? (cs : List Char) : Option (List Entry) :=
  match skipSpaces cs with
  | [] => some []
  | line =>
    match restOfLine? line with
    | some rest => if rest.length < cs.length then lines? rest else none
    | none =>
      match entry? line with
      | some (e, rest) => if rest.length < cs.length then (lines? rest).map (e :: ·) else none
      | none => none
termination_by cs.length

/-- A byte order mark at the start of a text is no part of it. -/
def dropMark : List Char → List Char
  | '\ufeff' :: cs => cs
  | cs => cs

/-- The entries of a document. -/
def entries? (source : String) : Option (List Entry) := lines? (dropMark source.toList)

/-! ## Settings -/

/-- The setting an entry makes, if its key is known and its value has the key's type. -/
def Entry.setting? : Entry → Option Setting
  | ⟨"handoff_timeout_ms", .integer (.ofNat ms)⟩ => some (.handOffTimeout (.ofMillis ms))
  | ⟨"queue_capacity", .integer (.ofNat n)⟩ => some (.queueCapacity n)
  | ⟨"context_thread_name", .text s⟩ => some (.threadName s)
  | _ => none

/-- The settings of entries, no two of one key. -/
def settings? (entries : List Entry) : Option (List Setting) :=
  if (entries.map Entry.key).Nodup then entries.mapM Entry.setting? else none

end Document

/-- The configuration that a document describes. -/
def ofDocument (source : String) : Except ConfigError Config :=
  match (Document.entries? source).bind Document.settings? with
  | some settings => build settings
  | none => .error .malformed

/-- What stands at a path. -/
inductive File where
  /-- Nothing. -/
  | missing
  /-- A directory. -/
  | directory
  /-- A file with these bytes. -/
  | bytes (content : ByteArray)

/-- The configuration in a file. -/
def load (path : String) : File → Except ConfigError Config
  | .missing => .error (.unreadable path .notFound "No such file or directory")
  | .directory => .error (.unreadable path .isADirectory "Is a directory")
  | .bytes content =>
    match String.fromUTF8? content with
    | some source => ofDocument source
    | none => .error (.unreadable path .invalidData "stream did not contain valid UTF-8")

end TableAccess.Config
