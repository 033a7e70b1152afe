import BuildLint.Text.Printable

/-!
# Text/Quoted — text shown in quotes inside a message

Messages show a name or a value in quotes.  The quotes are single, unless the text holds a single
quote and no double one.  The quote itself, the backslash and the three common controls have short
escapes; any other code point that is not printable is written by its number in two, four or eight
hexadecimal digits.
-/

namespace BuildLint

namespace Text

/-- One lower-case hexadecimal digit. -/
def hexDigit (n : Nat) : CodePoint := (Nat.digitChar (n % 16) : Char)

/-- The last `width` hexadecimal digits of a number. -/
def hex : Nat → Nat → Text
  | 0, _ => []
  | width + 1, n => hex width (n / 16) ++ [hexDigit n]

@[simp] theorem length_hex (width n : Nat) : (hex width n).length = width := by
  induction width generalizing n with
  | zero => rfl
  | succ width ih => simp [hex, ih]

/-- How one code point stands between quotes. -/
def quotedPoint (quote c : CodePoint) : Text :=
  if c = quote ∨ c = '\\' then ['\\', c]
  else if c = '\n' then "\\n"
  else if c = '\r' then "\\r"
  else if c = '\t' then "\\t"
  else if c.isPrintable then [c]
  else if c.val < 0x100 then "\\x" ++ hex 2 c.val
  else if c.val < 0x10000 then "\\u" ++ hex 4 c.val
  else "\\U" ++ hex 8 c.val

/-- The quote that a text is shown in. -/
def quoteFor (t : Text) : CodePoint :=
  if t.holds '\'' && !t.holds '"' then '"' else '\''

/-- **A text in quotes**. -/
def quoted (t : Text) : Text := quoteFor t :: t.flatMap (quotedPoint (quoteFor t)) ++ [quoteFor t]

example : quoted "it's" = "\"it's\"" := by decide

example : quoted "a\\b\n" = "'a\\\\b\\n'" := by decide

end Text

end BuildLint
