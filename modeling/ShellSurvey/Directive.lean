import ShellSurvey.Text.Quoted

/-!
# Export directives

A function is handed to child processes by a directive `export -f name …` anywhere in a
script. The keyword stands at the front of the text or behind a character that may precede a
command; gaps of blanks and continued lines separate it from the flag and the names; the names
end at a character that ends a command.

`isExported` reads from left to right and goes on behind a directive that does not list the
name.
-/

namespace ShellSurvey.Directive

/-- The word that opens a directive. -/
def keyword : List Char := ['e', 'x', 'p', 'o', 'r', 't']

/-- The flag for functions. -/
def flag : List Char := ['-', 'f']

/-- Whether a command may start behind the character; no character stands for the front of the
text. -/
def startsCommand : Option Char → Bool
  | none => true
  | some c => [' ', '\t', '\r', '\n', ';', '&', '|', '(', '\x7b', '\x60'].contains c

/-- Whether a character ends a word. -/
def endsWord (c : Char) : Bool :=
  [' ', '\t', '\r', '\n', ';', '&', '|', '(', ')', '<', '>', '\x60'].contains c

/-- Whether a character in the place of a name ends the directive. -/
def endsDirective (c : Char) : Bool :=
  ['\r', '\n', ';', '&', '|', '(', ')', '<', '>', '\x60', '#'].contains c

/-- The text behind blanks and continued lines. -/
def dropGap : List Char → List Char
  | ' ' :: rest => dropGap rest
  | '\t' :: rest => dropGap rest
  | '\\' :: '\n' :: rest => dropGap rest
  | rest => rest

theorem length_dropGap_le (text : List Char) : (dropGap text).length ≤ text.length := by
  fun_induction dropGap text with
  | case1 rest ih => simp only [List.length_cons]; omega
  | case2 rest ih => simp only [List.length_cons]; omega
  | case3 rest ih => simp only [List.length_cons]; omega
  | case4 rest => exact Nat.le_refl _

/-- The word at the front of a text. -/
def word (text : List Char) : List Char :=
  text.takeWhile (fun c => !endsWord c)

/-- The text behind its first word. -/
def dropWord (text : List Char) : List Char :=
  text.dropWhile (fun c => !endsWord c)

theorem length_dropWord_le (text : List Char) : (dropWord text).length ≤ text.length :=
  (List.dropWhile_sublist _).length_le

/-- The names listed in a text, and what stands where the list ends. -/
def names (text : List Char) : List (List Char) × List Char :=
  let start := dropGap text
  match start with
  | [] => ([], [])
  | c :: _ =>
    if endsDirective c then ([], start)
    else if start.length = text.length then ([], text)
    else
      let more := names (dropWord start)
      (Text.unquote (word start) :: more.1, more.2)
termination_by text.length
decreasing_by
  have h₁ := length_dropGap_le text
  have h₂ := length_dropWord_le (dropGap text)
  have h₃ : (dropGap text).length ≠ text.length := by assumption
  show (dropWord (dropGap text)).length < text.length
  omega

/-- The names that a directive lists, given the text behind its keyword, and what stands where
the directive ends. -/
def read? (text : List Char) : Option (List (List Char) × List Char) :=
  let start := dropGap text
  if start.length = text.length then none
  else if word start = flag then some (names (dropWord start))
  else none

/-- Whether a directive for the name stands in a text, once `skip` characters have been passed
over. `before` is the character in front of the text. -/
def isExportedFrom (name : List Char) (skip : Nat) (before : Option Char) : List Char → Bool
  | [] => false
  | c :: rest =>
    match skip with
    | skip + 1 => isExportedFrom name skip (some c) rest
    | 0 =>
      if startsCommand before && keyword.isPrefixOf (c :: rest) then
        match read? ((c :: rest).drop keyword.length) with
        | some (listed, after) =>
          listed.contains name ||
            isExportedFrom name (rest.length - after.length) (some c) rest
        | none => isExportedFrom name 0 (some c) rest
      else isExportedFrom name 0 (some c) rest

/-- Whether a source exports the function of that name. -/
def isExported (name source : List Char) : Bool :=
  !name.isEmpty && isExportedFrom name 0 none source

end ShellSurvey.Directive
