import ShellSurvey.Text.Printable

/-!
# Quotes

`quoted` shows a text between quotes on one line. Single quotes are used unless the text holds a
single quote and no double one. The backslash and the quote in use are written with a backslash, as
are tab, line feed and carriage return; any other character that is not printable is written
by its code point.

`unquote` removes one layer of quotes, where the same quote stands at both ends of a text.
-/

namespace ShellSurvey.Text

/-- The `width` hexadecimal digits of a number, lowest digits kept. -/
def hexDigits (width n : Nat) : List Char :=
  (List.range width).reverse.map (fun i => Nat.digitChar (n / Nat.pow 16 i % 16))

/-- The quote a text is shown in. -/
def quoteFor (cs : List Char) : Char :=
  if cs.contains '\'' && !cs.contains '"' then '"' else '\''

/-- One character between the given quotes. -/
def quotedChar (quote c : Char) : List Char :=
  if c = quote ∨ c = '\\' then ['\\', c]
  else if c = '\t' then ['\\', 't']
  else if c = '\n' then ['\\', 'n']
  else if c = '\r' then ['\\', 'r']
  else if isPrintable c then [c]
  else if c.toNat < 0x100 then '\\' :: 'x' :: hexDigits 2 c.toNat
  else if c.toNat < 0x10000 then '\\' :: 'u' :: hexDigits 4 c.toNat
  else '\\' :: 'U' :: hexDigits 8 c.toNat

/-- The text between quotes. -/
def quoted (cs : List Char) : List Char :=
  let quote := quoteFor cs
  quote :: cs.flatMap (quotedChar quote) ++ [quote]

/-- A text without one layer of matching quotes around it. -/
def unquote (text : List Char) : List Char :=
  match text with
  | q :: c :: rest =>
    if (q = '"' ∨ q = '\'') ∧ (c :: rest).getLast? = some q then (c :: rest).dropLast else text
  | _ => text

end ShellSurvey.Text
