import TiProxy.Model.Cli.Encoder

/-! # What a JSON reader makes of the text `safeAddString` appends

The encoder escapes a double quote, the controls, and U+FFFD, with the escapes of JSON, but it
appends a backslash as it is. A JSON reader takes that backslash as the start of an escape: the
two texts backslash-`n` and newline are both appended as `"\n"`, and a backslash before a double
quote ends the quoted text early, so that what follows is read as the rest of the log line. For
texts without a backslash, the reader gets back exactly the text, in both forms the encoder
writes, so the encoder is injective on them. A text that needs no quotes is appended as it is
unless it has DEL or U+FFFD, which are escaped without quotes.
-/

namespace TiProxy.Cli

/-! ## Reading a JSON string literal

A JSON string literal as RFC 8259 defines it. A `\u` escape of a surrogate half, which the
encoder never writes, is not read. -/

/-- The value of a hexadecimal digit. -/
def hexDigitValue (c : Char) : Option Nat :=
  if '0' ≤ c ∧ c ≤ '9' then some (c.toNat - '0'.toNat)
  else if 'a' ≤ c ∧ c ≤ 'f' then some (c.toNat - 'a'.toNat + 10)
  else if 'A' ≤ c ∧ c ≤ 'F' then some (c.toNat - 'A'.toNat + 10)
  else none

/-- The rune the digits of a `\u` escape name. -/
def unicodeEscape (digits : List Char) : Option Char :=
  (digits.foldl (fun value digit =>
    value.bind fun value => (hexDigitValue digit).map (16 * value + ·)) (some 0)).bind
    fun code => if code.isValidChar then some (Char.ofNat code) else none

/-- The rune a one-character escape names. -/
def jsonEscape (e : Char) : Option Char :=
  if e = '"' then some '"' else if e = '\\' then some '\\' else if e = '/' then some '/'
  else if e = 'b' then some '\x08' else if e = 'f' then some '\x0c'
  else if e = 'n' then some '\n' else if e = 'r' then some '\r'
  else if e = 't' then some '\t' else none

/-- A rune read in front of what the rest of the literal reads to. -/
def prependRead (r : Char) (read : Option (List Char × List Char)) :
    Option (List Char × List Char) :=
  read.map fun (text, after) => (r :: text, after)

/-- Read the body of a string literal after its opening quote: the text it denotes, and what
follows its closing quote. -/
def readJsonBody : List Char → Option (List Char × List Char)
  | [] => none
  | c :: rest =>
    if c = '"' then some ([], rest)
    else if c = '\\' then
      match rest with
      | [] => none
      | e :: rest =>
        if e = 'u' then
          match rest with
          | a :: b :: c :: d :: rest =>
            (unicodeEscape [a, b, c, d]).bind fun r => prependRead r (readJsonBody rest)
          | _ => none
        else (jsonEscape e).bind fun r => prependRead r (readJsonBody rest)
    else if c.toNat < 0x20 then none
    else prependRead c (readJsonBody rest)

/-- Read a string literal at the start of a text: the text it denotes and what follows it. -/
def readJsonString (text : String) : Option (String × String) :=
  match text.toList with
  | [] => none
  | first :: body =>
    if first = '"' then (readJsonBody body).map fun (read, after) => (⟨read⟩, ⟨after⟩) else none

theorem readJsonBody_quote (tail : List Char) : readJsonBody ('"' :: tail) = some ([], tail) := by
  rw [readJsonBody.eq_def]
  exact if_pos rfl

theorem readJsonBody_plain {c : Char} (notQuote : c ≠ '"') (notBackslash : c ≠ '\\')
    (printable : 0x20 ≤ c.toNat) (tail : List Char) :
    readJsonBody (c :: tail) = prependRead c (readJsonBody tail) := by
  rw [readJsonBody.eq_def]
  dsimp only
  rw [if_neg notQuote, if_neg notBackslash, if_neg (by omega)]

theorem readJsonBody_escape {e r : Char} (notUnicode : e ≠ 'u') (named : jsonEscape e = some r)
    (tail : List Char) :
    readJsonBody ('\\' :: e :: tail) = prependRead r (readJsonBody tail) := by
  rw [readJsonBody.eq_def]
  dsimp only
  rw [if_neg (by decide), if_pos rfl, if_neg notUnicode, named, Option.some_bind]

theorem readJsonBody_unicode {digits : List Char} (four : digits.length = 4) {r : Char}
    (named : unicodeEscape digits = some r) (tail : List Char) :
    readJsonBody ('\\' :: 'u' :: (digits ++ tail)) = prependRead r (readJsonBody tail) := by
  match digits, four with
  | [a, b, c, d], _ =>
    rw [readJsonBody.eq_def]
    dsimp only
    rw [if_neg (by decide), if_pos rfl, if_pos rfl]
    simp only [List.cons_append, List.nil_append, named, Option.some_bind]

/-! ## The body the encoder appends -/

theorem utf8Size_eq_one_iff (r : Char) : r.utf8Size = 1 ↔ r.toNat < 0x80 := by
  have small : r.val ≤ UInt32.ofNatCore 0x7F (by decide) ↔ r.toNat < 0x80 := by
    rw [UInt32.le_def, BitVec.le_def]
    exact Nat.lt_succ_iff.symm
  dsimp only [Char.utf8Size]
  constructor
  · intro one
    by_contra big
    rw [if_neg (mt small.mp big)] at one
    split at one <;> (try split at one) <;> contradiction
  · exact fun lt => if_pos (small.mpr lt)

theorem hexDigitValue_digitChar : ∀ d < 16, hexDigitValue (Nat.digitChar d) = some d := by
  decide

/-- `%04x` of a number below 0x100: two zeros, then its two hexadecimal digits. -/
theorem hex04_eq {n : Nat} (small : n < 0x100) :
    hex04 n = ['0', '0', Nat.digitChar (n / 16), Nat.digitChar (n % 16)] := by
  have digit : ∀ fuel n ds, Nat.toDigitsCore 16 (fuel + 1) n ds =
      if n / 16 = 0 then Nat.digitChar (n % 16) :: ds
      else Nat.toDigitsCore 16 fuel (n / 16) (Nat.digitChar (n % 16) :: ds) := fun _ _ _ => rfl
  unfold hex04 Nat.toDigits
  by_cases low : n < 16
  · simp [digit, Nat.div_eq_of_lt low, Nat.mod_eq_of_lt low]
    rfl
  · obtain ⟨fuel, rfl⟩ : ∃ fuel, n = fuel + 1 := ⟨n - 1, by omega⟩
    have high : (fuel + 1) / 16 ≠ 0 ∧ (fuel + 1) / 16 < 16 := by omega
    simp [digit, high.1, Nat.div_eq_of_lt high.2, Nat.mod_eq_of_lt high.2]

/-- `%04x` of a one-byte rune is four digits, which a `\u` escape reads back as the rune. -/
theorem hex04_of_lt : ∀ n < 0x80,
    (hex04 n).length = 4 ∧ unicodeEscape (hex04 n) = some (Char.ofNat n) := by
  intro n small
  rw [hex04_eq (by omega)]
  refine ⟨rfl, ?_⟩
  have high := hexDigitValue_digitChar (n / 16) (by omega)
  have low := hexDigitValue_digitChar (n % 16) (by omega)
  have zero : hexDigitValue '0' = some 0 := rfl
  have valid : n.isValidChar := Or.inl (by omega)
  simp [unicodeEscape, zero, high, low, Nat.div_add_mod, valid]

/-- The reader takes what the encoder appends for a rune other than the backslash back to the
rune. -/
theorem readJsonBody_appendRune {r : Char} (notBackslash : r ≠ '\\') (tail : List Char) :
    readJsonBody (appendRune r ++ tail) = prependRead r (readJsonBody tail) := by
  unfold appendRune
  by_cases replaced : r = runeError
  · rw [if_pos replaced, replaced]
    show readJsonBody ('\\' :: 'u' :: ("fffd".toList ++ tail)) = _
    refine readJsonBody_unicode ?_ ?_ tail <;> rfl
  rw [if_neg replaced]
  by_cases oneByte : r.utf8Size = 1
  · have small := (utf8Size_eq_one_iff r).mp oneByte
    rw [if_pos oneByte]
    by_cases escaped : r = '"' ∨ r = '\n' ∨ r = '\r' ∨ r = '\t'
    · rcases escaped with rfl | rfl | rfl | rfl <;>
        exact readJsonBody_escape (by decide) (by rfl) tail
    obtain ⟨quote, newline, carriage, tab⟩ := show r ≠ '"' ∧ r ≠ '\n' ∧ r ≠ '\r' ∧ r ≠ '\t' by
      simpa only [not_or] using escaped
    rw [if_neg quote, if_neg newline, if_neg carriage, if_neg tab]
    by_cases control : isControl r = true
    · rw [if_pos control, List.append_assoc]
      have read := hex04_of_lt r.toNat small
      rw [Char.ofNat_toNat] at read
      exact readJsonBody_unicode read.1 read.2 tail
    · rw [if_neg control]
      have printable : 0x20 ≤ r.toNat := by
        simp only [isControl, Bool.or_eq_true, decide_eq_true_eq, not_or] at control
        omega
      exact readJsonBody_plain quote notBackslash printable tail
  · have large : 0x80 ≤ r.toNat := by
      rw [utf8Size_eq_one_iff] at oneByte
      omega
    rw [if_neg oneByte]
    exact readJsonBody_plain (fun same => by subst same; simp at large)
      notBackslash (by omega) tail

/-- The body of a text without a backslash, followed by a double quote, reads back as the text,
whatever follows the quote. -/
theorem readJsonBody_flatMap_appendRune :
    ∀ (cs : List Char), '\\' ∉ cs → ∀ (tail : List Char),
      readJsonBody (cs.flatMap appendRune ++ '"' :: tail) = some (cs, tail)
  | [], _, tail => readJsonBody_quote tail
  | r :: rest, noBackslash, tail => by
    rw [List.flatMap_cons, List.append_assoc,
      readJsonBody_appendRune (fun same => noBackslash (same ▸ List.mem_cons_self _ _)),
      readJsonBody_flatMap_appendRune rest
        (fun member => noBackslash (List.mem_cons_of_mem _ member))]
    rfl

/-! ## The two forms of the appended text -/

/-- A rune that needs no quotes is appended as it is, unless it is DEL or U+FFFD. -/
theorem appendRune_of_unquoted {r : Char} (plain : quotedRune r = false) (notDel : r ≠ '\x7f')
    (notError : r ≠ runeError) : appendRune r = [r] := by
  simp only [quotedRune, Bool.or_eq_false_iff, decide_eq_false_iff_not, not_le] at plain
  obtain ⟨⟨⟨⟨⟨above, notBackslash⟩, notQuote⟩, _⟩, _⟩, _⟩ := plain
  unfold appendRune
  rw [if_neg notError]
  by_cases oneByte : r.utf8Size = 1
  · have notControl : isControl r = false := by
      have : r.toNat ≠ 0x7f := fun same => notDel (Char.ext (UInt32.toNat.inj same))
      have := (utf8Size_eq_one_iff r).mp oneByte
      simp only [isControl, Bool.or_eq_false_iff, decide_eq_false_iff_not, Bool.and_eq_false_iff]
      omega
    have notNewline : r ≠ '\n' := fun same => by subst same; simp at above
    have notCarriage : r ≠ '\r' := fun same => by subst same; simp at above
    have notTab : r ≠ '\t' := fun same => by subst same; simp at above
    simp [oneByte, notQuote, notNewline, notCarriage, notTab, notControl]
  · rw [if_neg oneByte]

theorem flatMap_appendRune_of_singleton :
    ∀ {cs : List Char}, (∀ r ∈ cs, appendRune r = [r]) → cs.flatMap appendRune = cs
  | [], _ => rfl
  | r :: rest, plain => by
    rw [List.flatMap_cons, plain r (List.mem_cons_self _ _),
      flatMap_appendRune_of_singleton fun other member =>
        plain other (List.mem_cons_of_mem _ member)]
    rfl

/-- A rune that needs no quotes is never appended with a double quote. -/
theorem quote_not_mem_appendRune {r : Char} (plain : quotedRune r = false) :
    '"' ∉ appendRune r := by
  by_cases escaped : r = '\x7f' ∨ r = runeError
  · rcases escaped with rfl | rfl <;> decide
  · rw [not_or] at escaped
    rw [appendRune_of_unquoted plain escaped.1 escaped.2, List.mem_singleton]
    rintro rfl
    simp [quotedRune] at plain

theorem safeAddString_toList (s : String) :
    (safeAddString s).toList =
      if needQuotes s then '"' :: s.toList.flatMap appendRune ++ ['"']
      else s.toList.flatMap appendRune := by
  unfold safeAddString
  split <;> rfl

/-- A text that needs no quotes is appended as it is exactly when it has neither DEL nor
U+FFFD. -/
theorem safeAddString_eq_self_iff {s : String} (unquoted : needQuotes s = false) :
    safeAddString s = s ↔ '\x7f' ∉ s.toList ∧ runeError ∉ s.toList := by
  have plain : ∀ r ∈ s.toList, quotedRune r = false := by
    simpa [needQuotes] using unquoted
  rw [show safeAddString s = s ↔ _ from ⟨congrArg String.toList, String.ext⟩,
    safeAddString_toList, if_neg (by simp [unquoted])]
  constructor
  · intro same
    have noBackslash : '\\' ∉ s.toList.flatMap appendRune := by
      rw [same]
      intro member
      simpa [quotedRune] using plain _ member
    refine ⟨fun del => noBackslash ?_, fun error => noBackslash ?_⟩
    · exact List.mem_flatMap_of_mem del (by decide)
    · exact List.mem_flatMap_of_mem error (by decide)
  · rintro ⟨noDel, noError⟩
    exact flatMap_appendRune_of_singleton fun r member => appendRune_of_unquoted (plain r member)
      (fun same => noDel (same ▸ member)) (fun same => noError (same ▸ member))

/-- A text that needs quotes and has no backslash is appended as a double-quoted JSON string
literal that reads back as the text, with its closing quote as the last character. -/
theorem readJsonString_safeAddString {s : String} (quoted : needQuotes s = true)
    (noBackslash : '\\' ∉ s.toList) : readJsonString (safeAddString s) = some (s, "") := by
  unfold readJsonString
  rw [safeAddString_toList, if_pos quoted, List.cons_append]
  dsimp only
  rw [if_pos rfl, readJsonBody_flatMap_appendRune _ noBackslash]
  rfl

/-- For every text, the appended text has one of two forms. A text that needs no quotes is
appended as it is exactly when it has neither DEL nor U+FFFD. A text that needs quotes and has
no backslash is appended as a double-quoted JSON string literal that reads back as the text,
with its closing quote as the last character. -/
theorem safeAddString_forms (s : String) :
    (needQuotes s = false →
      (safeAddString s = s ↔ '\x7f' ∉ s.toList ∧ runeError ∉ s.toList)) ∧
    (needQuotes s = true → '\\' ∉ s.toList → readJsonString (safeAddString s) = some (s, "")) :=
  ⟨safeAddString_eq_self_iff, readJsonString_safeAddString⟩

theorem safeAddString_forms_tab :
    (needQuotes "a\tb" = false →
      (safeAddString "a\tb" = "a\tb" ↔ '\x7f' ∉ "a\tb".toList ∧ runeError ∉ "a\tb".toList)) ∧
    needQuotes "a\tb" = true ∧ '\\' ∉ "a\tb".toList ∧
      readJsonString (safeAddString "a\tb") = some ("a\tb", "") :=
  ⟨(safeAddString_forms "a\tb").1, by decide, by decide,
    (safeAddString_forms "a\tb").2 (by decide) (by decide)⟩

/-- `safeAddString` is injective on the texts without a backslash: a JSON reader takes either
form of the appended text back to the text. -/
theorem safeAddString_injective_of_no_backslash {s t : String} (noBackslash : '\\' ∉ s.toList)
    (noBackslash' : '\\' ∉ t.toList) (same : safeAddString s = safeAddString t) : s = t := by
  have readBack : ∀ {u : String}, '\\' ∉ u.toList →
      readJsonBody (u.toList.flatMap appendRune ++ ['"']) = some (u.toList, []) :=
    fun noBackslash => readJsonBody_flatMap_appendRune _ noBackslash []
  have unquotedHead : ∀ {u : String}, needQuotes u = false →
      ∀ rest, u.toList.flatMap appendRune ≠ '"' :: rest := by
    intro u unquoted rest flat
    have plain : ∀ r ∈ u.toList, quotedRune r = false := by simpa [needQuotes] using unquoted
    obtain ⟨r, member, quote⟩ := List.mem_flatMap.mp (flat ▸ List.mem_cons_self '"' rest)
    exact quote_not_mem_appendRune (plain r member) quote
  have lists := congrArg String.toList same
  rw [safeAddString_toList, safeAddString_toList] at lists
  cases quotedS : needQuotes s <;> cases quotedT : needQuotes t <;>
    simp only [quotedS, quotedT, if_true, if_false, Bool.false_eq_true, List.cons_append] at lists
  · have read := readBack noBackslash
    rw [lists, readBack noBackslash'] at read
    exact String.ext (congrArg Prod.fst (Option.some.inj read)).symm
  · exact absurd lists (unquotedHead quotedS _)
  · exact absurd lists.symm (unquotedHead quotedT _)
  · have read := readJsonString_safeAddString quotedS noBackslash
    rw [same, readJsonString_safeAddString quotedT noBackslash'] at read
    exact (congrArg Prod.fst (Option.some.inj read)).symm

theorem safeAddString_injective_of_no_backslash_quote_and_space :
    '\\' ∉ "a b".toList ∧ '\\' ∉ "a\"b".toList ∧ (safeAddString "a b" = safeAddString "a\"b" →
      "a b" = "a\"b") :=
  ⟨by decide, by decide, safeAddString_injective_of_no_backslash (by decide) (by decide)⟩

/-- Backslash-`n` and a newline are appended alike; DEL, which needs no quotes, is escaped without
them; and in the field `AddString` writes for a value with a backslash before a double quote, a
JSON reader ends the quoted value at that quote, so that `] [user=root"` follows it as the
rest of the line. -/
theorem safeAddString_backslash_breaks_quoting :
    safeAddString "\\n" = safeAddString "\n" ∧ "\\n" ≠ "\n" ∧
      needQuotes "\x7f" = false ∧ safeAddString "\x7f" = "\\u007f" ∧
      addString "" "k" "\\\"] [user=root" = "[k=\"\\\\\"] [user=root\"]" ∧
      readJsonString (safeAddString "\\\"] [user=root") = some ("\\", "] [user=root\"") := by
  decide

end TiProxy.Cli
