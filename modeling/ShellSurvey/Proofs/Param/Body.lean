import Mathlib.Data.List.Basic
import ShellSurvey.Proofs.Param.Compose
import ShellSurvey.Proofs.Param.Index
import ShellSurvey.Proofs.Text.LineEnding
import ShellSurvey.Text.LineEnding

/-!
# Parameters of a normal body

A body is kept with unified line endings and without the blanks around it, and its parameters are
inferred from the text as it was captured. Both agree: the normal form of a body has the same
references, each with the normal form of its default text (`references_normalBody`).

A text is read token by token (`token_induction`), so it is enough to compare what stands at the
front of a text. Openings have no blank and no line ending in them. A default text may have any,
and a backslash in it may hide the carriage return of a pair: it then hides the line feed that is
left of the pair, and the two searches for the closing brace meet again behind it.
-/

namespace ShellSurvey.Param

/-! ### Reading token by token -/

/-- The references of a text in order. -/
def references (text : List Char) : List Reference :=
  (scan text).map (·.reference)

/-- Leaving out characters is scanning the rest. -/
theorem map_reference_scanFrom (place skip : Nat) (text : List Char) :
    (scanFrom place skip text).map (·.reference) = references (text.drop skip) := by
  induction text generalizing place skip with
  | nil => rw [List.drop_nil]; rfl
  | cons c after ih =>
    cases skip with
    | succ skip => exact ih (place + 1) skip
    | zero =>
      rw [List.drop_zero, references, scan, scanFrom, scanFrom]
      cases recognise? (c :: after) with
      | none => simp only [ih]
      | some found => simp only [List.map_cons, ih]

theorem references_cons {c : Char} {after : List Char} (h : recognise? (c :: after) = none) :
    references (c :: after) = references after := by
  rw [references, scan, scanFrom, h]
  exact map_reference_scanFrom (0 + 1) 0 after

/-- A reference that begins a text is its first one. -/
theorem references_token {token rest : List Char} {reference : Reference}
    (h : Token token rest reference) :
    references (token ++ rest) = reference :: references rest := by
  have hread := h.recognise?
  obtain ⟨c, more, rfl⟩ := List.exists_cons_of_length_pos h.length_pos
  rw [List.cons_append] at hread ⊢
  rw [references, scan, scanFrom, hread]
  simp only [List.map_cons, map_reference_scanFrom, List.length_cons, Nat.add_sub_cancel,
    List.drop_left]

/-- Texts are read token by token, and one by one where no token stands. -/
@[elab_as_elim]
theorem token_induction {motive : List Char → Prop} (nil : motive [])
    (token : ∀ token rest reference, Token token rest reference → motive rest →
      motive (token ++ rest))
    (other : ∀ c after, recognise? (c :: after) = none → motive after → motive (c :: after))
    (text : List Char) : motive text := by
  induction hn : text.length using Nat.strong_induction_on generalizing text with
  | _ n ih =>
    cases text with
    | nil => exact nil
    | cons c after =>
      cases hread : recognise? (c :: after) with
      | none => exact other c after hread (ih after.length (by simp [← hn]) after rfl)
      | some found =>
        obtain ⟨front, rest, hsplit, -, htoken⟩ := token_of_recognise? hread
        have hpos := htoken.length_pos
        have hlength : rest.length < n := by
          rw [← hn, hsplit, List.length_append]
          omega
        rw [hsplit]
        exact token front rest found.1 htoken (ih rest.length hlength rest rfl)

/-- What stands before a default text has no character that separates. -/
theorem exists_of_opening?_default {text : List Char} {n length : Nat}
    (h : opening? text = some (.default n length)) :
    ∃ front after, text = front ++ after ∧ length = front.length ∧
      ∀ c ∈ front, c.isDigit ∨ c ∈ marks := by
  obtain ⟨digits, rest, m, -, -, -, hopen⟩ | ⟨m, rest, -, hopen⟩ | ⟨rest, rfl, hbraced⟩ :=
    opening?_cases h
  · cases hopen
  · cases hopen
  · cases hbraced with
    | @default digits operator n hindex ho rest =>
      refine ⟨'$' :: '\x7b' :: (digits ++ operator), rest, by simp, by simp, fun c hc => ?_⟩
      simp only [List.mem_cons, List.mem_append] at hc
      rcases hc with rfl | rfl | hc | hc
      · exact .inr (by simp [marks])
      · exact .inr (by simp [marks])
      · exact .inl (hindex.ascii c hc)
      · exact .inr (mem_marks_of_mem_operators ho hc)

/-- No token is made of a text by changing what is behind an opening, as long as a default text
stays open. -/
theorem recognise?_eq_none_of_opening {text other : List Char} (h : recognise? text = none)
    (hopening : opening? other = opening? text)
    (hclosing : ∀ front after, text = front ++ after → (∀ c ∈ front, c.isDigit ∨ c ∈ marks) →
      closingBrace? after = none →
      ∃ behind, other = front ++ behind ∧ closingBrace? behind = none) :
    recognise? other = none := by
  cases hopen : opening? text with
  | none => rw [recognise?, hopening, hopen]
  | some opening =>
    cases opening with
    | whole reference length =>
      rw [recognise?_of_whole hopen] at h
      cases h
    | default n length =>
      obtain ⟨front, after, htext, rfl, hfront⟩ := exists_of_opening?_default hopen
      have hclose : closingBrace? after = none := by
        rw [recognise?_of_default hopen, htext, List.drop_left] at h
        exact Option.map_eq_none_iff.mp h
      obtain ⟨behind, hother, hbehind⟩ := hclosing front after htext hfront hclose
      rw [recognise?_of_default (hopening.trans hopen), hother, List.drop_left, hbehind]
      rfl

/-! ### Blanks around a text -/

/-- Every blank separates references. -/
theorem isSeparator_of_isBlank {c : Char} (h : Text.isBlank c) : isSeparator c := by
  rw [isSeparator, Bool.not_eq_true', Bool.or_eq_false_iff]
  constructor
  · by_contra hdigit
    rw [Text.Numeral.isBlank_of_isDigit (by simpa using hdigit)] at h
    cases h
  · by_contra hmark
    rw [Bool.not_eq_false, List.contains_iff_mem] at hmark
    simp only [marks, List.mem_cons, List.not_mem_nil, or_false] at hmark
    rcases hmark with rfl | rfl | rfl | rfl | rfl | rfl | rfl <;> exact absurd h (by decide)

theorem closingBrace?_concat {c : Char} (hc : c ≠ '\x7d') (text : List Char) :
    closingBrace? (text ++ [c]) = closingBrace? text := by
  induction text using escape_induction with
  | nil =>
    by_cases hslash : c = '\\'
    · subst hslash; rfl
    · simp [closingBrace?_cons hslash, hc, closingBrace?]
  | slash => rfl
  | hidden d text ih => simp [closingBrace?, ih]
  | plain d text hd ih => simp [closingBrace?_cons hd, ih]

section Separator

variable {c : Char} (hc : isSeparator c = true)
include hc

/-- A reference stays one if a separator comes last. -/
theorem Token.concat_separator {token rest : List Char} {reference : Reference}
    (h : Token token rest reference) : Token token (rest ++ [c]) reference := by
  cases h with
  | bare hindex hrest =>
    exact .bare hindex (Text.forall_head?_append_cons hrest (isDigit_separator hc) [])
  | marker m => exact .marker m _
  | braced _ hindex => exact .braced _ hindex
  | fallback _ hindex ho htext => exact .fallback _ hindex ho htext
  | bracedMarker m => exact .bracedMarker m _

/-- No reference comes to be by a separator at the end. -/
theorem recognise?_concat_separator {text : List Char} (h : recognise? text = none) :
    recognise? (text ++ [c]) = none := by
  have hbrace : c ≠ '\x7d' := by
    rintro rfl
    exact absurd hc (by decide)
  refine recognise?_eq_none_of_opening h (opening?_append_separator hc text [])
    fun front after htext _ hclose => ⟨after ++ [c], ?_, ?_⟩
  · rw [htext, List.append_assoc]
  · rw [closingBrace?_concat hbrace, hclose]

/-- A separator at the end of a text changes none of its references. -/
theorem references_concat_separator (text : List Char) :
    references (text ++ [c]) = references text := by
  induction text using token_induction with
  | nil => exact references_cons (recognise?_separator hc [])
  | token token rest reference htoken ih =>
    rw [List.append_assoc, references_token (htoken.concat_separator hc), references_token htoken,
      ih]
  | other d after hread ih =>
    have hconcat : recognise? (d :: (after ++ [c])) = none := recognise?_concat_separator hc hread
    rw [List.cons_append, references_cons hconcat, references_cons hread, ih]

end Separator

/-- Blanks around a text change none of its references. -/
theorem references_trim (text : List Char) : references (Text.trim text) = references text := by
  have hfront : references (Text.trimFront text) = references text := by
    rw [Text.trimFront]
    induction text with
    | nil => rfl
    | cons c text ih =>
      rw [List.dropWhile_cons]
      split_ifs with hc
      · rw [ih, references_cons (recognise?_separator (isSeparator_of_isBlank hc) text)]
      · rfl
  rw [Text.trim, ← hfront]
  generalize Text.trimFront text = front
  induction front using List.reverseRecOn with
  | nil => rfl
  | append_singleton front c ih =>
    rw [Text.trimBack] at ih ⊢
    rw [List.reverse_append, List.reverse_singleton, List.singleton_append, List.dropWhile_cons]
    split_ifs with hc
    · rw [ih, references_concat_separator (isSeparator_of_isBlank hc)]
    · simp

/-! ### Line endings in a text -/

theorem opening?_unify (text : List Char) : opening? (Text.unify text) = opening? text := by
  by_cases hreturn : '\r' ∈ text
  · -- nothing is opened across the first line ending that is changed
    obtain ⟨front, rest, rfl, hfront⟩ := List.eq_append_cons_of_mem hreturn
    obtain ⟨behind, hunify, -⟩ := Text.exists_unify_return rest
    have hsame : ∀ c : Char, isSeparator c → ∀ more,
        opening? (front ++ c :: more) = opening? front :=
      fun c hc more => opening?_append_separator hc front more
    rw [Text.unify_append hfront, hunify, hsame '\n' (by decide), hsame '\r' (by decide)]
  · rw [Text.unify_of_not_mem hreturn]

/-- A default text starts with a line feed if the text before its closing brace does. -/
theorem head?_of_closingBrace? {text before : List Char} (h : closingBrace? text = some before) :
    before.head? = some '\n' ↔ text.head? = some '\n' := by
  obtain ⟨-, rest, rfl⟩ := defaultText_of_closingBrace? h
  cases before with
  | nil => simp
  | cons c before => rfl

theorem closingBrace?_newline (text : List Char) :
    closingBrace? ('\n' :: text) = (closingBrace? text).map ('\n' :: ·) := rfl

/-- A line feed is passed over in the same way whether or not a backslash hides it. -/
theorem closingBrace?_slash_newline (text : List Char) :
    closingBrace? ('\\' :: '\n' :: text) = (closingBrace? ('\n' :: text)).map ('\\' :: ·) := by
  rw [closingBrace?_newline, Option.map_map, closingBrace?]
  rfl

/-- A carriage return within braces is unified with the rest. -/
theorem closingBrace?_unify_return {text : List Char}
    (h : closingBrace? (Text.unify text) = (closingBrace? text).map Text.unify) :
    closingBrace? (Text.unify ('\r' :: text)) =
      (closingBrace? text).map fun before => Text.unify ('\r' :: before) := by
  have hfeed : '\n' ≠ '\r' := by decide
  by_cases hhead : text.head? = some '\n'
  · obtain ⟨behind, rfl⟩ := List.head?_eq_some_iff.mp hhead
    rw [Text.unify_pair, ← Text.unify_cons hfeed, h]
    refine Option.map_congr fun before hbefore => ?_
    obtain ⟨more, rfl⟩ := List.head?_eq_some_iff.mp ((head?_of_closingBrace? hbefore).mpr hhead)
    rw [Text.unify_pair, Text.unify_cons hfeed]
  · rw [Text.unify_return hhead, closingBrace?_newline, h, Option.map_map]
    refine Option.map_congr fun before hbefore => ?_
    rw [Text.unify_return (mt (head?_of_closingBrace? hbefore).mp hhead)]
    rfl

/-- **The search for a closing brace does not depend on line endings.** -/
theorem closingBrace?_unify (text : List Char) :
    closingBrace? (Text.unify text) = (closingBrace? text).map Text.unify := by
  have hslash : '\\' ≠ '\r' := by decide
  induction text using escape_induction with
  | nil => rfl
  | slash => rfl
  | hidden c text ih =>
    rw [Text.unify_cons hslash, closingBrace?, Option.map_map]
    by_cases hc : c = '\r'
    · -- if it is a pair, the backslash now hides what is left of it
      subst hc
      obtain ⟨behind, hunify, -⟩ := Text.exists_unify_return text
      rw [hunify, closingBrace?_slash_newline, ← hunify, closingBrace?_unify_return ih,
        Option.map_map]
      refine Option.map_congr fun before _ => ?_
      exact (Text.unify_cons hslash ('\r' :: before)).symm
    · rw [Text.unify_cons hc, closingBrace?, ih, Option.map_map]
      refine Option.map_congr fun before _ => ?_
      simp only [Function.comp_apply, Text.unify_cons hslash, Text.unify_cons hc]
  | plain c text hplain ih =>
    rw [closingBrace?_cons hplain]
    by_cases hc : c = '\r'
    · subst hc
      rw [closingBrace?_unify_return ih, if_neg (by decide), Option.map_map]
      rfl
    · rw [Text.unify_cons hc, closingBrace?_cons hplain, ih]
      split_ifs
      · rfl
      · rw [Option.map_map, Option.map_map]
        refine Option.map_congr fun before _ => ?_
        exact (Text.unify_cons hc before).symm

/-- A default stays one when its line endings are unified. -/
theorem DefaultText.unify {text : List Char} (h : DefaultText text) :
    DefaultText (Text.unify text) := by
  have hclose := closingBrace?_unify (text ++ ['\x7d'])
  rw [closingBrace?_append h] at hclose
  exact (defaultText_of_closingBrace? hclose).1

/-- A reference whose default text has unified line endings. -/
def Reference.unified : Reference → Reference
  | .positional n fallback => .positional n (fallback.map Text.unify)
  | .rest m => .rest m

theorem Index.not_mem_return {digits : List Char} {n : Nat} (h : Index digits n) :
    '\r' ∉ digits := fun hmem => absurd (h.ascii _ hmem) (by decide)

/-- Only the default text of a token has line endings to unify. -/
theorem Token.exists_unify {token rest : List Char} {reference : Reference}
    (h : Token token rest reference) :
    ∃ other, Text.unify (token ++ rest) = other ++ Text.unify rest ∧
      Token other (Text.unify rest) reference.unified := by
  cases h with
  | @bare digits _ n hindex hrest =>
    have hreturn : '\r' ∉ '$' :: digits := by simpa using hindex.not_mem_return
    refine ⟨_, Text.unify_append hreturn rest, .bare hindex fun c hc => ?_⟩
    rw [Text.head?_unify, Option.mem_def] at hc
    obtain ⟨d, hd, rfl⟩ := Option.map_eq_some_iff.mp hc
    split_ifs
    · rfl
    · exact hrest d hd
  | marker m =>
    have hreturn : '\r' ∉ ['$', m.char] := by cases m <;> decide
    exact ⟨_, Text.unify_append hreturn rest, .marker m _⟩
  | @braced digits n _ hindex =>
    have hreturn : '\r' ∉ '$' :: '\x7b' :: (digits ++ ['\x7d']) := by
      simpa using hindex.not_mem_return
    exact ⟨_, Text.unify_append hreturn rest, .braced _ hindex⟩
  | @fallback digits operator text n _ hindex ho htext =>
    have hreturn : '\r' ∉ '$' :: '\x7b' :: (digits ++ operator) := by
      have hoperator : '\r' ∉ operator := fun hmem =>
        absurd (mem_marks_of_mem_operators ho hmem) (by decide)
      simpa using ⟨hindex.not_mem_return, hoperator⟩
    have hsplit : '$' :: '\x7b' :: (digits ++ operator ++ text ++ ['\x7d']) ++ rest =
        '$' :: '\x7b' :: (digits ++ operator) ++ (text ++ '\x7d' :: rest) := by simp
    refine ⟨'$' :: '\x7b' :: (digits ++ operator ++ Text.unify text ++ ['\x7d']), ?_,
      .fallback _ hindex ho htext.unify⟩
    rw [hsplit, Text.unify_append hreturn, Text.unify_append_cons (by decide) (by decide)]
    simp
  | bracedMarker m =>
    have hreturn : '\r' ∉ ['$', '\x7b', m.char, '\x7d'] := by cases m <;> decide
    exact ⟨_, Text.unify_append hreturn rest, .bracedMarker m _⟩

/-- No reference comes to be by unifying line endings. -/
theorem recognise?_unify {text : List Char} (h : recognise? text = none) :
    recognise? (Text.unify text) = none := by
  refine recognise?_eq_none_of_opening h (opening?_unify text)
    fun front after htext hfront hclose => ⟨Text.unify after, ?_, ?_⟩
  · have hreturn : '\r' ∉ front := separator_not_mem (by decide) hfront
    rw [htext, Text.unify_append hreturn]
  · rw [closingBrace?_unify, hclose]
    rfl

/-- **Unified line endings change the default texts of references and nothing else.** -/
theorem references_unify (text : List Char) :
    references (Text.unify text) = (references text).map Reference.unified := by
  induction text using token_induction with
  | nil => rfl
  | token token rest reference htoken ih =>
    obtain ⟨other, hunify, hother⟩ := htoken.exists_unify
    rw [hunify, references_token hother, references_token htoken, ih, List.map_cons]
  | other c after hread ih =>
    rw [references_cons hread, ← ih]
    have hnone := recognise?_unify hread
    by_cases hc : c = '\r'
    · subst hc
      by_cases hhead : after.head? = some '\n'
      · -- the pair becomes the line feed that is there already
        obtain ⟨behind, rfl⟩ := List.head?_eq_some_iff.mp hhead
        rw [Text.unify_pair, Text.unify_cons (by decide)]
      · rw [Text.unify_return hhead] at hnone ⊢
        rw [references_cons hnone]
    · rw [Text.unify_cons hc] at hnone ⊢
      rw [references_cons hnone]

/-- Normalizing a body changes its references only in the line endings of their defaults. -/
theorem references_normalBody (body : List Char) :
    references (Script.normalBody body) = (references body).map Reference.unified := by
  rw [Script.normalBody, references_trim, references_unify]

/-! ### Parameters -/

/-- A parameter whose default text has unified line endings. -/
def unified (p : Param) : Param :=
  { p with fallback := p.fallback.map fun text => String.ofList (Text.unify text.toList) }

theorem highestIndex_unified (found : List Reference) :
    highestIndex (found.map Reference.unified) = highestIndex found := by
  have hindex : Reference.index? ∘ Reference.unified = Reference.index? := by
    funext r
    cases r <;> rfl
  rw [highestIndex, List.filterMap_map, hindex, highestIndex]

theorem firstMarker?_unified (found : List Reference) :
    firstMarker? (found.map Reference.unified) = firstMarker? found := by
  have hmarker : Reference.marker? ∘ Reference.unified = Reference.marker? := by
    funext r
    cases r <;> rfl
  rw [firstMarker?, List.findSome?_map, hmarker, firstMarker?]

/-- No default text becomes empty, so the first one of an index stays the first. -/
theorem firstDefault?_unified (found : List Reference) (i : Nat) :
    firstDefault? (found.map Reference.unified) i = (firstDefault? found i).map Text.unify := by
  have hdefault : Reference.defaultFor? i ∘ Reference.unified =
      Option.map Text.unify ∘ Reference.defaultFor? i := by
    funext r
    cases r with
    | rest m => rfl
    | positional n text =>
      cases text with
      | none => rfl
      | some text =>
        simp only [Function.comp_apply, Reference.unified, Option.map_some, Reference.defaultFor?,
          ne_eq, Text.unify_eq_nil_iff]
        split_ifs <;> rfl
  rw [firstDefault?, List.findSome?_map, hdefault, firstDefault?, List.map_findSome?]

/-- Unifying line endings changes parameters only in their defaults. -/
theorem paramsOf_unified (found : List Reference) :
    paramsOf (found.map Reference.unified) = (paramsOf found).map unified := by
  have hpositional : ∀ i, positionalOf (found.map Reference.unified) i =
      (positionalOf found i).unified := by
    intro i
    simp only [positionalOf, unified, firstDefault?_unified, Option.isSome_map, Option.map_map,
      Function.comp_def, String.toList_ofList]
  have hrest : ∀ marker : Option RestMarker, (marker.map Signature.remaining).toList =
      (marker.map Signature.remaining).toList.map unified := by
    intro marker
    cases marker <;> rfl
  rw [paramsOf_eq, paramsOf_eq, highestIndex_unified, firstMarker?_unified, List.map_append,
    List.map_map, ← hrest]
  congr 1
  exact List.map_congr_left fun i _ => hpositional i

/-- **The normal form of a body has the parameters of the body**, with unified line endings in
their default texts. -/
theorem infer_normalBody (body : List Char) :
    infer (Script.normalBody body) = (infer body).map unified := by
  have hinfer : ∀ text, infer text = paramsOf (references text) := by
    intro text
    rw [infer, params_ofReferences, scanOnce_eq_scan, references]
  rw [hinfer, hinfer, references_normalBody, paramsOf_unified]

-- A backslash hides the carriage return of a pair, and behind it a brace stands bare.
example : references "$\x7b1-\\\r\n\x7d".toList = [.positional 1 (some ['\\', '\r', '\n'])] ∧
    references "$\x7b1-\\\n\x7d".toList = [.positional 1 (some ['\\', '\n'])] := by
  decide

end ShellSurvey.Param
