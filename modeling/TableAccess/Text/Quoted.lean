import TableAccess.Text.Extending
import TableAccess.Text.Printable

/-!
# Quoted text

A text between double quotes, in which a character that does not print, or that would join its
neighbour, is written as its code point. The quoted form of any text is a single line.

## The model

* `escape c` — what stands for the character `c` between the quotes.
* `quote s` — the quoted form of `s`.

The main statement is `newline_notMem_quote`: no quoted text holds a line break.
-/

namespace TableAccess.Text

/-- A number in base sixteen, lower case, without leading zeros. -/
def hex (n : Nat) : List Char := Nat.toDigits 16 n

/-- A character written as its code point. -/
def codePoint (c : Char) : List Char := ['\\', 'u', '\x7b'] ++ hex c.toNat ++ ['\x7d']

/-- What stands for `c` in a quoted text. -/
def escape (c : Char) : List Char :=
  if c = '\x00' then ['\\', '0']
  else if c = '\t' then ['\\', 't']
  else if c = '\r' then ['\\', 'r']
  else if c = '\n' then ['\\', 'n']
  else if c = '"' then ['\\', '"']
  else if c = '\\' then ['\\', '\\']
  else if ' ' ≤ c ∧ c ≤ '~' then [c]
  else if isExtending c || !isPrintable c then codePoint c
  else [c]

/-- A text in double quotes. -/
def quote (s : String) : String :=
  String.ofList ('"' :: s.toList.flatMap escape ++ ['"'])

theorem toList_quote (s : String) :
    (quote s).toList = '"' :: s.toList.flatMap escape ++ ['"'] := by
  simp [quote]

theorem newline_ne_digitChar : ∀ d < 16, Nat.digitChar d ≠ '\n' := by decide

theorem newline_notMem_toDigitsCore (fuel n : Nat) :
    ∀ ds : List Char, '\n' ∉ ds → '\n' ∉ Nat.toDigitsCore 16 fuel n ds := by
  induction fuel generalizing n with
  | zero => intro ds h; simpa [Nat.toDigitsCore] using h
  | succ fuel ih =>
    intro ds h
    have hc : '\n' ∉ Nat.digitChar (n % 16) :: ds := by
      simp [h, (newline_ne_digitChar (n % 16) (Nat.mod_lt n (by decide))).symm]
    unfold Nat.toDigitsCore
    dsimp only
    split
    · exact hc
    · exact ih _ _ hc

theorem newline_notMem_codePoint (c : Char) : '\n' ∉ codePoint c := by
  simp only [codePoint, hex, List.mem_append, not_or]
  exact ⟨⟨by decide, newline_notMem_toDigitsCore _ _ _ (by simp)⟩, by decide⟩

theorem newline_notMem_escape (c : Char) : '\n' ∉ escape c := by
  by_cases hn : c = '\n'
  · subst hn; decide
  · have hs : '\n' ∉ [c] := by simp [Ne.symm hn]
    unfold escape
    repeat' split
    all_goals first
      | exact newline_notMem_codePoint c
      | exact hs
      | decide

/-- A quoted text holds no line break, whatever text it quotes. -/
theorem newline_notMem_quote (s : String) : '\n' ∉ (quote s).toList := by
  rw [toList_quote]
  simp only [List.cons_append, List.mem_cons, List.mem_append, List.mem_flatMap, not_or]
  refine ⟨by decide, ?_, by decide⟩
  rintro ⟨c, -, hc⟩
  exact newline_notMem_escape c hc

end TableAccess.Text
