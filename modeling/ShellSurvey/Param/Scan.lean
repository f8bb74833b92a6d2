import ShellSurvey.Param.Reference

/-!
# The references of a text

A text is read from left to right. Where a reference stands it is reported and reading goes on
behind it; anywhere else reading goes on with the next character.

`scan` does just that. `scanOnce` reports the same references, and remembers the place from
which a closing brace was sought in vain: no later search is made from there on, so that no
part of the text is searched twice without success.
-/

namespace ShellSurvey.Param

/-- A reference and its place in a text. -/
structure Occurrence where
  /-- The place of the `$`. -/
  start : Nat
  /-- How many characters the reference has. -/
  length : Nat
  /-- The reference itself. -/
  reference : Reference
  deriving DecidableEq, Repr

/-- The place right behind an occurrence. -/
def Occurrence.stop (o : Occurrence) : Nat :=
  o.start + o.length

/-- The references of a text whose first character has the given place, once `skip` characters
have been passed over. -/
def scanFrom (place skip : Nat) : List Char → List Occurrence
  | [] => []
  | c :: after =>
    match skip with
    | skip + 1 => scanFrom (place + 1) skip after
    | 0 =>
      match recognise? (c :: after) with
      | some (reference, length) =>
        ⟨place, length, reference⟩ :: scanFrom (place + 1) (length - 1) after
      | none => scanFrom (place + 1) 0 after

/-- The references of a text. -/
def scan (text : List Char) : List Occurrence :=
  scanFrom 0 0 text

/-- Whether a search from the given place is known to fail. -/
def isHopeless (unclosed : Option Nat) (start : Nat) : Bool :=
  match unclosed with
  | some place => decide (place ≤ start)
  | none => false

/-- The references of a text as in `scanFrom`, given a place from which on no search for a
closing brace succeeds. -/
def scanOnceFrom (unclosed : Option Nat) (place skip : Nat) : List Char → List Occurrence
  | [] => []
  | c :: after =>
    match skip with
    | skip + 1 => scanOnceFrom unclosed (place + 1) skip after
    | 0 =>
      match opening? (c :: after) with
      | some (.whole reference length) =>
        ⟨place, length, reference⟩ :: scanOnceFrom unclosed (place + 1) (length - 1) after
      | some (.default index length) =>
        if isHopeless unclosed (place + length) then scanOnceFrom unclosed (place + 1) 0 after
        else
          match closingBrace? ((c :: after).drop length) with
          | some fallback =>
            ⟨place, length + fallback.length + 1, .positional index (some fallback)⟩ ::
              scanOnceFrom unclosed (place + 1) (length + fallback.length) after
          | none => scanOnceFrom (some (place + length)) (place + 1) 0 after
      | none => scanOnceFrom unclosed (place + 1) 0 after

/-- The references of a text, without repeating a search that failed. -/
def scanOnce (text : List Char) : List Occurrence :=
  scanOnceFrom none 0 0 text

end ShellSurvey.Param
