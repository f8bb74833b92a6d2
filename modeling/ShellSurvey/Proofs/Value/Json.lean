import Mathlib.Data.List.TakeWhile
import ShellSurvey.Proofs.Text.Numeral
import ShellSurvey.Proofs.Value.Proper
import ShellSurvey.Value.Json.Reader
import ShellSurvey.Value.Json.Writer

/-!
# JSON is read back

Data without floating-point numbers in which no name comes twice (`Value.Exact`) is read back from
its JSON over several lines as it was: `Json.parse?_page`.

A value is read up to where it was written, if what follows does not go on with a number
(`Json.Ends`). The readers call each other under a bound, and the length of what is written is bound
enough (`Json.Reads`): each item of a list takes one step of the bound, and at least one character.
-/

namespace ShellSurvey

/-- Data that stays the same when it is written and read: it has no floating-point numbers, and in
no object a name comes twice. -/
inductive Value.Exact : Value → Prop
  | null : Exact .null
  | bool (b : Bool) : Exact (.bool b)
  | int (n : Int) : Exact (.int n)
  | text (s : String) : Exact (.text s)
  | list {items : List Value} : (∀ item ∈ items, Exact item) → Exact (.list items)
  | object {fields : Fields} : fields.names.Nodup → (∀ field ∈ fields, Exact field.2) →
      Exact (.object fields)

/-- Fields with distinct names are put behind each other. -/
theorem Fields.putAll_of_nodup {fields more : Fields} (h : (fields.names ++ more.names).Nodup) :
    fields.putAll more = fields ++ more := by
  induction more generalizing fields with
  | nil => exact (List.append_nil fields).symm
  | cons field rest ih =>
    have hfield : field.1 ∉ fields.names := fun hmem =>
      (List.nodup_append.mp h).2.2 field.1 hmem field.1 List.mem_cons_self rfl
    have hrest : (Fields.names (fields ++ [field]) ++ Fields.names rest).Nodup := by
      simpa [Fields.names] using h
    calc fields.putAll (field :: rest)
        = Fields.putAll (fields ++ [field]) rest := by
          rw [← put_of_notMem hfield]
          rfl
      _ = fields ++ field :: rest := by
          rw [ih hrest, List.append_assoc, List.singleton_append]

/-- Nothing changes in fields with distinct names when each is taken once. -/
theorem Fields.distinct_of_nodup {fields : Fields} (h : fields.names.Nodup) :
    fields.distinct = fields :=
  Fields.putAll_of_nodup h

namespace Json

open Text.Numeral (ofNat ofInt exists_ofNat_eq_cons ne_of_isDigit)

/-! ### Texts -/

/-- A hexadecimal digit is read back. -/
theorem hexDigit?_digitChar : ∀ d < 16, hexDigit? (Nat.digitChar d) = some d := by
  decide

theorem hexDigits_four (n : Nat) :
    Text.hexDigits 4 n = [Nat.digitChar (n / 4096 % 16), Nat.digitChar (n / 256 % 16),
      Nat.digitChar (n / 16 % 16), Nat.digitChar (n % 16)] := by
  simp [Text.hexDigits, List.range, List.range.loop]

/-- The four digits of a code unit denote it. -/
theorem hexValue?_hexDigits {unit : Nat} (h : unit < 0x10000) :
    hexValue? (Text.hexDigits 4 unit) = some unit := by
  have hdigit := fun n => hexDigit?_digitChar (n % 16) (Nat.mod_lt n (by decide))
  simp only [hexDigits_four, hexValue?, List.foldl_cons, List.foldl_nil, hdigit, Option.bind_some,
    Option.map_some, Option.some.injEq]
  omega

/-- An escaped unit is read as one unit. -/
theorem readText_unitEscape (half : Option Nat) (acc : List Char) {unit : Nat}
    (h : unit < 0x10000) (rest : List Char) :
    readText half acc (unitEscape unit ++ rest) =
      readText (addUnit half acc unit).1 (addUnit half acc unit).2 rest := by
  have hvalue := hexValue?_hexDigits h
  rw [hexDigits_four] at hvalue
  rw [unitEscape, hexDigits_four]
  simp only [List.cons_append, List.nil_append, readText, hvalue]

/-- The code of a character is no half of a surrogate pair. -/
theorem toNat_cases (c : Char) :
    c.toNat < 0xD800 ∨ (0xE000 ≤ c.toNat ∧ c.toNat < 0x110000) := by
  rcases c.valid with h | ⟨hlow, hhigh⟩
  · exact .inl h
  · exact .inr ⟨hlow, hhigh⟩

/-- A character is read back from what it is written as. -/
theorem readText_writeChar (acc : List Char) (c : Char) (rest : List Char) :
    readText none acc (writeChar c ++ rest) = readText none (c :: acc) rest := by
  have hcode : ∀ n, c.toNat = n → Char.ofNat n = c := by
    rintro n rfl
    exact Char.ofNat_toNat c
  have hrange := toNat_cases c
  simp only [writeChar]
  split_ifs with hquote hline hreturn htab hback hform hplain hbasic
  · rcases hquote with rfl | rfl
    · rfl
    · rfl
  · rw [hline]
    rfl
  · rw [hreturn]
    rfl
  · rw [htab]
    rfl
  · rw [← hcode _ hback]
    rfl
  · rw [← hcode _ hform]
    rfl
  · rw [not_or] at hquote
    have hcontrol : ¬(c.toNat < 0x20 ∨ c = '\\') := by
      rintro (h | h)
      · omega
      · exact hquote.2 h
    rw [List.singleton_append, readText, if_neg hcontrol]
    · rfl
    · exact fun h => hquote.1 h
    · rintro a b c d more h
      exact absurd h hquote.2
    · rintro a more h
      exact absurd h hquote.2
  · -- A code unit of its own.
    rw [readText_unitEscape _ _ hbasic, addUnit, if_neg (by omega), if_neg (by omega), hcode _ rfl]
    rfl
  · -- A pair of halves: the second one finds the first one pending.
    have hpair : 0x10000 + (0xD800 + (c.toNat - 0x10000) / 0x400 - 0xD800) * 0x400 +
        (0xDC00 + (c.toNat - 0x10000) % 0x400 - 0xDC00) = c.toNat := by omega
    rw [List.append_assoc, readText_unitEscape _ _ (by omega), addUnit, if_pos (by omega),
      readText_unitEscape _ _ (by omega), addUnit, if_neg (by omega), if_pos (by omega)]
    simp only [hpair, hcode _ rfl, settle]

/-- A text is read back up to its closing quote. -/
theorem readText_flatMap (acc cs rest : List Char) :
    readText none acc (cs.flatMap writeChar ++ '"' :: rest) = some (acc.reverse ++ cs, rest) := by
  induction cs generalizing acc with
  | nil => simp [readText, settle]
  | cons c cs ih =>
    rw [List.flatMap_cons, List.append_assoc, readText_writeChar, ih, List.reverse_cons,
      List.append_assoc, List.singleton_append]

/-- A quoted text is read back, and nothing behind it is touched. -/
theorem readText_writeText (s : String) (rest : List Char) :
    ∃ quoted, writeText s ++ rest = '"' :: quoted ∧
      readText none [] quoted = some (s.toList, rest) := by
  refine ⟨s.toList.flatMap writeChar ++ '"' :: rest, ?_, readText_flatMap [] s.toList rest⟩
  simp [writeText]

/-! ### Numbers -/

/-- What follows a value does not go on with a number. -/
def Ends (rest : List Char) : Prop :=
  ∀ c ∈ rest.head?, isDigit c = false ∧ c ≠ '.' ∧ c ≠ 'e' ∧ c ≠ 'E'

theorem isDigit_of_isDigit {c : Char} (h : c.isDigit) : isDigit c = true := by
  rw [isDigit, Text.Numeral.asciiDigit?_of_isDigit h, Option.isSome_some]

section Numbers

variable {rest : List Char}

/-- There is no fraction where a number ends. -/
theorem Ends.readFraction (h : Ends rest) : readFraction rest = ([], rest) := by
  unfold Json.readFraction
  split
  · next more => exact absurd rfl (h '.' rfl).2.1
  · rfl

theorem Ends.readExponent (h : Ends rest) : readExponent rest = (none, rest) := by
  cases rest with
  | nil => rfl
  | cons c more =>
    obtain ⟨-, -, hlower, hupper⟩ := h c rfl
    rw [Json.readExponent, if_neg (not_or.mpr ⟨hlower, hupper⟩)]

/-- The digits of a number are read up to where it ends. -/
theorem takeWhile_ofNat (n : Nat) (h : Ends rest) :
    (ofNat n ++ rest).takeWhile isDigit = ofNat n := by
  have hdigits : ∀ c ∈ ofNat n, isDigit c = true := fun c hc =>
    isDigit_of_isDigit (Text.Numeral.isDigit_of_mem_ofNat hc)
  have hrest : rest.takeWhile isDigit = [] := by
    cases rest with
    | nil => rfl
    | cons c more => exact List.takeWhile_cons_of_neg (by simp [(h c rfl).1])
  rw [List.takeWhile_append_of_pos hdigits, hrest, List.append_nil]

/-- A number is read back from its digits. -/
theorem readMagnitude_ofNat (negative : Bool) (n : Nat) (h : Ends rest) :
    readMagnitude negative (ofNat n ++ rest) =
      some (.int (if negative then -(n : Int) else n), rest) := by
  rw [readMagnitude, takeWhile_ofNat n h]
  obtain ⟨lead, more, hdigits, -⟩ := exists_ofNat_eq_cons n
  -- Only zero is written with a zero in front, and then there is nothing behind it.
  have hwhole : (if lead = '0' then ['0'] else lead :: more) = ofNat n := by
    rcases Nat.eq_zero_or_pos n with rfl | hpos
    · obtain ⟨rfl, rfl⟩ := List.cons.inj hdigits
      rfl
    · have hlead := Text.Numeral.head?_ofNat_ne hpos
      rw [hdigits, List.head?_cons] at hlead
      rw [if_neg fun hzero => hlead (congrArg some hzero), hdigits]
  have hvalue : digitsValue (ofNat n) = n := Text.Numeral.value_ofNat n
  rw [hdigits]
  simp only [hwhole]
  simp only [← hdigits, List.drop_left, h.readFraction, h.readExponent, hvalue]
  rfl

/-- The words that stand for values do not start like a number. -/
theorem find?_literals {lead : Char} (h : lead.isDigit) (more : List Char) :
    literals.find? (fun entry => entry.1.isPrefixOf (lead :: more)) = none ∧
      literals.find? (fun entry => entry.1.isPrefixOf ('-' :: lead :: more)) = none := by
  have hne : ∀ c : Char, c.isDigit = false → c ≠ lead := fun c hc => (ne_of_isDigit h hc).symm
  simp [literals, List.isPrefixOf, hne 'n' rfl, hne 't' rfl, hne 'f' rfl, hne 'N' rfl, hne 'I' rfl,
    hne '-' rfl]

/-- An integer is read back where it ends. -/
theorem readScalar_ofInt (n : Int) (h : Ends rest) :
    readScalar (ofInt n ++ rest) = some (.int n, rest) := by
  cases n with
  | ofNat k =>
    have hread := readMagnitude_ofNat false k h
    obtain ⟨lead, more, hdigits, hdigit⟩ := exists_ofNat_eq_cons k
    rw [hdigits, List.cons_append] at hread
    rw [ofInt, hdigits, List.cons_append, readScalar, (find?_literals hdigit (more ++ rest)).1]
    · simp only [hread]
      rfl
    · rintro other heq
      exact ne_of_isDigit hdigit rfl (List.cons.inj heq).1
  | negSucc k =>
    have hread := readMagnitude_ofNat true (k + 1) h
    obtain ⟨lead, more, hdigits, hdigit⟩ := exists_ofNat_eq_cons (k + 1)
    rw [hdigits, List.cons_append] at hread
    rw [ofInt, hdigits, List.cons_append, List.cons_append, readScalar,
      (find?_literals hdigit (more ++ rest)).2]
    simp only [hread]
    rfl

end Numbers

/-! ### Blanks -/

theorem skipSpace_cons {c : Char} (h : isSpace c = false) (cs : List Char) :
    skipSpace (c :: cs) = c :: cs :=
  List.dropWhile_cons_of_neg (by simp [h])

/-- A line break and its indentation are skipped. -/
theorem skipSpace_lineBreak (level : Nat) (cs : List Char) :
    skipSpace (lineBreak level ++ cs) = skipSpace cs := by
  have hspace : ∀ c ∈ lineBreak level, isSpace c := by
    intro c hc
    rcases List.mem_cons.mp hc with rfl | hc
    · rfl
    · rw [List.eq_of_mem_replicate hc]
      rfl
  rw [skipSpace, List.dropWhile_append_of_pos hspace, skipSpace]

theorem ends_lineBreak (level : Nat) (cs : List Char) : Ends (lineBreak level ++ cs) := by
  rintro c ⟨⟩
  decide

theorem ends_comma (cs : List Char) : Ends (',' :: cs) := by
  rintro c ⟨⟩
  decide

/-- A text that starts with neither a blank nor the end of a list. -/
def Starts (cs : List Char) : Prop :=
  ∃ c rest, cs = c :: rest ∧ isSpace c = false ∧ c ≠ ']'

section Starts

variable {cs : List Char}

theorem starts_cons {c : Char} (hspace : isSpace c = false) (hend : c ≠ ']') (rest : List Char) :
    Starts (c :: rest) :=
  ⟨c, rest, rfl, hspace, hend⟩

theorem Starts.append (h : Starts cs) (more : List Char) : Starts (cs ++ more) := by
  obtain ⟨c, rest, rfl, hspace, hend⟩ := h
  exact starts_cons hspace hend (rest ++ more)

theorem Starts.skipSpace (h : Starts cs) : skipSpace cs = cs := by
  obtain ⟨c, rest, rfl, hspace, -⟩ := h
  exact skipSpace_cons hspace rest

theorem starts_ofNat (n : Nat) : Starts (ofNat n) := by
  obtain ⟨lead, more, hdigits, hdigit⟩ := exists_ofNat_eq_cons n
  have hne : ∀ c : Char, c.isDigit = false → lead ≠ c := fun c hc => ne_of_isDigit hdigit hc
  rw [hdigits]
  refine starts_cons ?_ (hne ']' rfl) more
  simp [isSpace, hne ' ' rfl, hne '\t' rfl, hne '\n' rfl, hne '\r' rfl]

end Starts

/-! ### Values -/

variable {value : Value} {items : List Value} {fields : Fields}

/-- The value is read back at any level, under a bound that its length does not exceed. -/
def Reads (value : Value) : Prop :=
  ∀ level bound rest, (writePage level value).length ≤ bound → Ends rest →
    readValue bound (writePage level value ++ rest) = some (value, rest)

theorem starts_bracketed {opening : Char} (hspace : isSpace opening = false) (hend : opening ≠ ']')
    (level : Nat) (closing : Char) (pieces : List (List Char)) :
    Starts (bracketed level opening closing pieces) := by
  rw [bracketed]
  split_ifs
  · exact starts_cons hspace hend _
  · exact starts_cons hspace hend _

/-- The text of an exact value starts a value. -/
theorem starts_writePage (h : value.Exact) (level : Nat) : Starts (writePage level value) := by
  cases h with
  | null => exact starts_cons rfl (by decide) _
  | bool b => cases b <;> exact starts_cons rfl (by decide) _
  | int n =>
    cases n with
    | ofNat k => exact starts_ofNat k
    | negSucc k => exact starts_cons rfl (by decide) _
  | text s => exact starts_cons rfl (by decide) _
  | list _ =>
    rw [writePage]
    exact starts_bracketed rfl (by decide) _ _ _
  | object _ _ =>
    rw [writePage]
    exact starts_bracketed rfl (by decide) _ _ _

/-- The bound is never zero, since no value is written as an empty text. -/
theorem reads_of_succ (hexact : value.Exact)
    (h : ∀ level bound rest, (writePage level value).length ≤ bound + 1 → Ends rest →
      readValue (bound + 1) (writePage level value ++ rest) = some (value, rest)) :
    Reads value := by
  intro level bound rest hbound hrest
  cases bound with
  | zero =>
    obtain ⟨c, cs, htext, -⟩ := starts_writePage hexact level
    rw [htext] at hbound
    cases hbound
  | succ bound => exact h level bound rest hbound hrest

/-- What starts like no text, list or object is read as a word or a number. -/
theorem readValue_of_head {cs : List Char} (bound : Nat)
    (h : ∀ c ∈ cs.head?, c ≠ '"' ∧ c ≠ '[' ∧ c ≠ '\x7b') :
    readValue (bound + 1) cs = readScalar cs := by
  unfold readValue
  split
  · exact absurd rfl (h _ rfl).1
  · exact absurd rfl (h _ rfl).2.1
  · exact absurd rfl (h _ rfl).2.2
  · rfl

theorem reads_int (n : Int) : Reads (.int n) := by
  refine reads_of_succ (.int n) fun level bound rest _ hrest => ?_
  have hread := readScalar_ofInt n hrest
  have hpage : writePage level (.int n) = ofInt n := rfl
  rw [hpage, readValue_of_head bound ?_, hread]
  cases n with
  | ofNat k =>
    obtain ⟨lead, more, hdigits, hdigit⟩ := exists_ofNat_eq_cons k
    rw [ofInt, hdigits]
    rintro c ⟨⟩
    exact ⟨ne_of_isDigit hdigit rfl, ne_of_isDigit hdigit rfl, ne_of_isDigit hdigit rfl⟩
  | negSucc k =>
    rintro c ⟨⟩
    decide

theorem reads_text (s : String) : Reads (.text s) := by
  refine reads_of_succ (.text s) fun level bound rest _ _ => ?_
  obtain ⟨quoted, htext, hread⟩ := readText_writeText s rest
  have hpage : writePage level (.text s) ++ rest = '"' :: quoted := htext
  rw [hpage, readValue, hread]
  simp

/-! ### Lists -/

/-- The text of items, each on a line of its own. -/
def itemsText (level : Nat) (items : List Value) : List Char :=
  separated (',' :: lineBreak level) (pageItems level items)

theorem itemsText_cons (level : Nat) (item next : Value) (rest : List Value) :
    itemsText level (item :: next :: rest) =
      writePage level item ++ ',' :: (lineBreak level ++ itemsText level (next :: rest)) := by
  simp [itemsText, pageItems, separated]

theorem starts_itemsText {item : Value} (h : item.Exact) (rest : List Value) (level : Nat) :
    Starts (itemsText level (item :: rest)) := by
  have hitem := starts_writePage h level
  cases rest with
  | nil => exact hitem
  | cons next more =>
    rw [itemsText_cons]
    exact hitem.append _

/-- Items are read back, one after the other. -/
theorem readItems_itemsText (hexact : ∀ item ∈ items, item.Exact) (h : ∀ item ∈ items, Reads item)
    (hne : items ≠ []) (level : Nat) {bound : Nat} (outer : Nat) (rest : List Char)
    (hbound : (itemsText level items).length < bound) :
    readItems bound (itemsText level items ++ (lineBreak outer ++ ']' :: rest)) =
      some (items, rest) := by
  have hend : skipSpace (lineBreak outer ++ ']' :: rest) = ']' :: rest := by
    rw [skipSpace_lineBreak, skipSpace_cons rfl]
  induction items generalizing bound with
  | nil => exact absurd rfl hne
  | cons item others ih =>
    obtain ⟨hitem, hothers⟩ := List.forall_mem_cons.mp h
    obtain ⟨-, hexactOthers⟩ := List.forall_mem_cons.mp hexact
    cases bound with
    | zero => cases hbound
    | succ bound =>
      cases others with
      | nil =>
        have htext : itemsText level [item] = writePage level item := rfl
        rw [htext] at hbound ⊢
        rw [readItems, hitem level bound _ (Nat.le_of_lt_succ hbound) (ends_lineBreak outer _)]
        simp only [hend]
      | cons next more =>
        rw [itemsText_cons, List.length_append, List.length_cons, List.length_append] at hbound
        have hstarts := (starts_itemsText (hexactOthers next List.mem_cons_self) more level).append
          (lineBreak outer ++ ']' :: rest)
        have hmore := @ih hexactOthers hothers (List.cons_ne_nil next more) bound (by omega)
        rw [itemsText_cons, List.append_assoc, List.cons_append, List.append_assoc, readItems,
          hitem level bound _ (by omega) (ends_comma _)]
        simp only [skipSpace_cons (c := ',') rfl, skipSpace_lineBreak, hstarts.skipSpace, hmore,
          Option.map_some]

/-- Brackets that hold something stand on lines of their own. -/
theorem bracketed_of_ne_nil {pieces : List (List Char)} (h : pieces ≠ []) (level : Nat)
    (opening closing : Char) :
    bracketed level opening closing pieces =
      opening :: (lineBreak (level + 1) ++
        (separated (',' :: lineBreak (level + 1)) pieces ++ (lineBreak level ++ [closing]))) := by
  simp [bracketed, h]

/-- What starts with a bracket and does not close at once is read as a list of items. -/
theorem readValue_bracket {cs : List Char} (h : Starts cs) (level bound : Nat) :
    readValue (bound + 1) ('[' :: (lineBreak level ++ cs)) =
      (readItems bound cs).map fun read => (.list read.1, read.2) := by
  obtain ⟨c, rest, rfl, hspace, hend⟩ := h
  rw [readValue, skipSpace_lineBreak, skipSpace_cons hspace]
  split
  · next heq => exact absurd (List.cons.inj heq).1 hend
  · rfl

/-- A list is read back if its items are. -/
theorem reads_list (hexact : ∀ item ∈ items, item.Exact) (h : ∀ item ∈ items, Reads item) :
    Reads (.list items) := by
  refine reads_of_succ (.list hexact) fun level bound rest hbound _ => ?_
  cases items with
  | nil => simp [writePage, pageItems, bracketed, readValue, skipSpace_cons (c := ']') rfl]
  | cons item others =>
    have hpage : writePage level (.list (item :: others)) = '[' :: (lineBreak (level + 1) ++
        (itemsText (level + 1) (item :: others) ++ (lineBreak level ++ [']']))) := by
      rw [writePage, bracketed_of_ne_nil (by simp [pageItems]), itemsText]
    have hread := @readItems_itemsText _ hexact h (List.cons_ne_nil item others) (level + 1) bound
      level rest (by simp [hpage] at hbound; omega)
    have hstarts := (starts_itemsText (hexact item List.mem_cons_self) others (level + 1)).append
      (lineBreak level ++ ']' :: rest)
    rw [hpage]
    simp only [List.cons_append, List.append_assoc, List.nil_append]
    rw [readValue_bracket hstarts, hread, Option.map_some]

/-! ### Objects -/

/-- The text of one field. -/
def fieldText (level : Nat) (field : String × Value) : List Char :=
  writeText field.1 ++ ':' :: ' ' :: writePage level field.2

/-- The text of fields, each on a line of its own. -/
def fieldsText (level : Nat) (fields : Fields) : List Char :=
  separated (',' :: lineBreak level) (pageFields level fields)

theorem fieldsText_cons (level : Nat) (field next : String × Value) (rest : Fields) :
    fieldsText level (field :: next :: rest) =
      fieldText level field ++ ',' :: (lineBreak level ++ fieldsText level (next :: rest)) := by
  simp [fieldsText, fieldText, pageFields, separated]

theorem exists_fieldsText_eq_cons (field : String × Value) (rest : Fields) (level : Nat) :
    ∃ cs, fieldsText level (field :: rest) = '"' :: cs := by
  cases rest with
  | nil => exact ⟨_, rfl⟩
  | cons next more =>
    rw [fieldsText_cons]
    exact ⟨_, rfl⟩

/-- What the reader of fields does behind the name and the value of a field. -/
def readMore (bound : Nat) (field : String × Value) (cs : List Char) :
    Option (Fields × List Char) :=
  match skipSpace cs with
  | '\x7d' :: after => some ([field], after)
  | ',' :: more => (readFields bound (skipSpace more)).map fun read => (field :: read.1, read.2)
  | _ => none

/-- One field is read back. -/
theorem readFields_fieldText {field : String × Value} (hexact : field.2.Exact)
    (h : Reads field.2) {level bound : Nat} {rest : List Char}
    (hbound : (fieldText level field).length ≤ bound) (hrest : Ends rest) :
    readFields (bound + 1) (fieldText level field ++ rest) = readMore bound field rest := by
  obtain ⟨quoted, htext, hread⟩ :=
    readText_writeText field.1 (':' :: ' ' :: (writePage level field.2 ++ rest))
  have hvalue := h level bound rest (by simp [fieldText] at hbound; omega) hrest
  have hskip : skipSpace (' ' :: (writePage level field.2 ++ rest)) =
      writePage level field.2 ++ rest := ((starts_writePage hexact level).append rest).skipSpace
  have hcolon := skipSpace_cons (c := ':') rfl (' ' :: (writePage level field.2 ++ rest))
  rw [fieldText, List.append_assoc, List.cons_append, List.cons_append, htext, readFields, hread]
  simp only [hcolon, hskip, hvalue, String.ofList_toList]
  rfl

/-- Fields are read back, one after the other. -/
theorem readFields_fieldsText (hexact : ∀ field ∈ fields, field.2.Exact)
    (h : ∀ field ∈ fields, Reads field.2) (hne : fields ≠ []) (level : Nat) {bound : Nat}
    (outer : Nat) (rest : List Char) (hbound : (fieldsText level fields).length < bound) :
    readFields bound (fieldsText level fields ++ (lineBreak outer ++ '\x7d' :: rest)) =
      some (fields, rest) := by
  have hend : skipSpace (lineBreak outer ++ '\x7d' :: rest) = '\x7d' :: rest := by
    rw [skipSpace_lineBreak, skipSpace_cons rfl]
  induction fields generalizing bound with
  | nil => exact absurd rfl hne
  | cons field others ih =>
    obtain ⟨hfield, hothers⟩ := List.forall_mem_cons.mp h
    obtain ⟨hexactField, hexactOthers⟩ := List.forall_mem_cons.mp hexact
    cases bound with
    | zero => cases hbound
    | succ bound =>
      cases others with
      | nil =>
        have htext : fieldsText level [field] = fieldText level field := rfl
        rw [htext] at hbound ⊢
        rw [readFields_fieldText hexactField hfield (Nat.le_of_lt_succ hbound)
          (ends_lineBreak outer _), readMore, hend]
        rfl
      | cons next more =>
        rw [fieldsText_cons, List.length_append, List.length_cons, List.length_append] at hbound
        have hmore := @ih hexactOthers hothers (List.cons_ne_nil next more) bound (by omega)
        obtain ⟨cs, hcs⟩ := exists_fieldsText_eq_cons next more level
        rw [fieldsText_cons, List.append_assoc, List.cons_append, List.append_assoc,
          readFields_fieldText hexactField hfield (by omega) (ends_comma _), readMore,
          skipSpace_cons rfl]
        rw [hcs, List.cons_append] at hmore ⊢
        simp only [skipSpace_lineBreak, skipSpace_cons (c := '"') rfl, hmore, Option.map_some]

/-- What starts with a brace and goes on with a name is read as an object. -/
theorem readValue_brace (cs : List Char) (level bound : Nat) :
    readValue (bound + 1) ('\x7b' :: (lineBreak level ++ '"' :: cs)) =
      (readFields bound ('"' :: cs)).map fun read =>
        (.object (Fields.distinct read.1), read.2) := by
  rw [readValue, skipSpace_lineBreak, skipSpace_cons rfl]
  rfl

/-- An object with distinct names is read back if its values are. -/
theorem reads_object (hnodup : fields.names.Nodup) (hexact : ∀ field ∈ fields, field.2.Exact)
    (h : ∀ field ∈ fields, Reads field.2) : Reads (.object fields) := by
  refine reads_of_succ (.object hnodup hexact) fun level bound rest hbound _ => ?_
  cases fields with
  | nil => simp [writePage, pageFields, bracketed, readValue, skipSpace_cons (c := '\x7d') rfl]
  | cons field others =>
    have hpage : writePage level (.object (field :: others)) = '\x7b' :: (lineBreak (level + 1) ++
        (fieldsText (level + 1) (field :: others) ++ (lineBreak level ++ ['\x7d']))) := by
      rw [writePage, bracketed_of_ne_nil (by simp [pageFields]), fieldsText]
    have hread := @readFields_fieldsText _ hexact h (List.cons_ne_nil field others) (level + 1)
      bound level rest (by simp [hpage] at hbound; omega)
    obtain ⟨cs, hcs⟩ := exists_fieldsText_eq_cons field others (level + 1)
    rw [hpage]
    simp only [List.cons_append, List.append_assoc, List.nil_append]
    rw [hcs, List.cons_append] at hread ⊢
    rw [readValue_brace, hread, Option.map_some, Fields.distinct_of_nodup hnodup]

/-! ### Documents -/

/-- Every exact value is read back. -/
theorem reads_of_exact (h : value.Exact) : Reads value := by
  induction h with
  | null => exact reads_of_succ .null fun level bound rest _ _ => by rfl
  | bool b =>
    cases b with
    | false => exact reads_of_succ (.bool false) fun level bound rest _ _ => by rfl
    | true => exact reads_of_succ (.bool true) fun level bound rest _ _ => by rfl
  | int n => exact reads_int n
  | text s => exact reads_text s
  | list hexact ih => exact reads_list hexact ih
  | object hnodup hexact ih => exact reads_object hnodup hexact ih

/-- **What is written as JSON over several lines is read back**, with any blanks behind it. -/
theorem parse?_page (h : value.Exact) {blanks : List Char} (hblanks : ∀ c ∈ blanks, isSpace c) :
    parse? ((page value).toList ++ blanks) = some value := by
  have hends : Ends blanks := by
    intro c hc
    have hspace := hblanks c (List.mem_of_mem_head? hc)
    have hcases : c = ' ' ∨ c = '\t' ∨ c = '\n' ∨ c = '\r' := by
      simpa [isSpace, or_assoc] using hspace
    rcases hcases with rfl | rfl | rfl | rfl <;> decide
  have hread := reads_of_exact h 0 ((writePage 0 value ++ blanks).length + 1) blanks
    (by rw [List.length_append]; omega) hends
  have hrest : skipSpace blanks = [] := List.dropWhile_eq_nil_iff.mpr hblanks
  rw [page, String.toList_ofList, parse?, ((starts_writePage h 0).append blanks).skipSpace, hread]
  simp only [hrest, List.isEmpty_nil, if_true]

end Json

end ShellSurvey
