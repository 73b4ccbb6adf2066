import TiProxy.Model.Cli.Entry
import TiProxy.Proofs.Cli.Encoder

/-! # Reading the fields of a log line back

A reader of the lines `EncodeEntry` writes takes each field `[key=value]` apart, and each
namespace `key={`, whose closing braces all come after the last field. A key or a value is either
a JSON string literal or a bare text up to the `=` or the `]` that ends it, in which the encoder's
`\u` escapes are read back. The separators are those `addElementSeparator` and `beginQuoteFiled`
write: a space before a field's bracket on a non-empty line, and a comma before a namespace that
follows a field.

For keys and string values without a backslash, the fields section of every line reads back as
the fields the logger carries from `With`, then the entry's own, exactly when no field of `With`
opened a namespace: `Clone` forgets the namespaces opened on the encoder it copies, so their
braces are never closed.
-/

namespace TiProxy.Cli

/-! ## The reader -/

/-- What a reader takes back from the fields section: a field's key and the text of its value, or
a namespace's key. -/
inductive Item where
  | field (key value : String)
  | openNamespace (key : String)
deriving DecidableEq, Repr

/-- The item is a field, after which a namespace is written with a comma. -/
def Item.isField : Item → Bool
  | .field .. => true
  | .openNamespace _ => false

/-- The item a field is written as, with the text its `Append*` method prints for the value; a
skipped field is not written, and an array, an object or a failed value has no item. -/
def Field.item : Field → Option Item
  | .string key val => some (.field key val)
  | .bool key val => some (.field key (if val then "true" else "false"))
  | .int64 key val => some (.field key (toString val.toInt))
  | .int32 key val => some (.field key (toString val.toInt))
  | .int16 key val => some (.field key (toString val.toInt))
  | .int8 key val => some (.field key (toString val.toInt))
  | .uint64 key val => some (.field key (toString val.toNat))
  | .uint32 key val => some (.field key (toString val.toNat))
  | .uint16 key val => some (.field key (toString val.toNat))
  | .uint8 key val => some (.field key (toString val.toNat))
  | .uintptr key val => some (.field key (toString val.toNat))
  | .byteString key val => some (.field key ("0x" ++ hexEncode val))
  | .float64 key printed | .float32 key printed | .complex128 key printed
  | .complex64 key printed | .duration key printed | .time key printed =>
    some (.field key printed)
  | .binary key val => some (.field key ⟨base64Encode val⟩)
  | .reflected key (.ok bytes) => some (.field key (trimSpace bytes))
  | .reflected _ (.error _) | .array .. | .object .. => none
  | .openNamespace key => some (.openNamespace key)
  | .skip => none

/-- Read a bare text up to `stop`, which stays in what follows; a `\u` escape is read back as its
rune. -/
def readBare (stop : Char) : List Char → Option (List Char × List Char)
  | [] => none
  | c :: rest =>
    if c = stop then some ([], c :: rest)
    else if c = '\\' then
      match rest with
      | e :: a :: b :: d :: f :: rest =>
        if e = 'u' then (unicodeEscape [a, b, d, f]).bind fun r => prependRead r (readBare stop rest)
        else none
      | _ => none
    else prependRead c (readBare stop rest)

/-- Read a key or a value: a JSON string literal, or a bare text up to `stop`. -/
def readToken (stop : Char) : List Char → Option (List Char × List Char)
  | [] => none
  | c :: rest => if c = '"' then readJsonBody rest else readBare stop (c :: rest)

/-- Take the character `c` off the front of the text. -/
def expect (c : Char) : List Char → Option (List Char)
  | [] => none
  | d :: rest => if d = c then some rest else none

/-- Read a field after its opening bracket: the key, `=`, the value and `]`. -/
def readFieldBody (text : List Char) : Option (Item × List Char) := do
  let (key, rest) ← readToken '=' text
  let rest ← expect '=' rest
  let (value, rest) ← readToken ']' rest
  let rest ← expect ']' rest
  pure (.field ⟨key⟩ ⟨value⟩, rest)

/-- Read a namespace after its separator: the key, `=` and `{`. -/
def readNamespaceBody (text : List Char) : Option (Item × List Char) := do
  let (key, rest) ← readToken '=' text
  let rest ← expect '=' rest
  let rest ← expect '\x7b' rest
  pure (.openNamespace ⟨key⟩, rest)

/-- Read one item: a field, with or without a space before its bracket, or a namespace, with a
comma before it when it follows a field. -/
def readItem (afterField : Bool) : List Char → Option (Item × List Char)
  | [] => none
  | c :: rest =>
    if c = '[' then readFieldBody rest
    else if c = ' ' ∧ rest.head? = some '[' then readFieldBody rest.tail
    else if afterField then (if c = ',' then readNamespaceBody rest else none)
    else readNamespaceBody (c :: rest)

/-- Read items until only closing braces are left, reading at most `fuel` items: the items and
the number of closing braces. -/
def readItems : Nat → Bool → List Char → Option (List Item × Nat)
  | 0, _, text => if text.all (· == '\x7d') then some ([], text.length) else none
  | fuel + 1, afterField, text =>
    if text.all (· == '\x7d') then some ([], text.length)
    else (readItem afterField text).bind fun (item, rest) =>
      (readItems fuel item.isField rest).map fun (items, closings) => (item :: items, closings)

/-- Read the fields section of a line: its items, when there is a closing brace for each
namespace. Every item takes at least one character, so the length of the text is fuel enough. -/
def readSection (text : List Char) : Option (List Item) :=
  (readItems text.length false text).bind fun (items, closings) =>
    if closings = (items.filter fun item => !item.isField).length then some items else none

example : readSection "[a=1] [b=\"x y\"],ns=\x7b [c=2]\x7d".toList =
    some [.field "a" "1", .field "b" "x y", .openNamespace "ns", .field "c" "2"] := by decide

/-! ## Reading one key or value back -/

theorem readBare_stop (stop : Char) (tail : List Char) :
    readBare stop (stop :: tail) = some ([], stop :: tail) := by
  rw [readBare.eq_def]
  exact if_pos rfl

theorem readBare_plain {stop c : Char} (notStop : c ≠ stop) (notBackslash : c ≠ '\\')
    (tail : List Char) : readBare stop (c :: tail) = prependRead c (readBare stop tail) := by
  rw [readBare.eq_def]
  dsimp only
  rw [if_neg notStop, if_neg notBackslash]

theorem readBare_unicode {stop : Char} (notStop : '\\' ≠ stop) (digits : List Char)
    (four : digits.length = 4) {r : Char} (named : unicodeEscape digits = some r)
    (tail : List Char) :
    readBare stop ('\\' :: 'u' :: (digits ++ tail)) = prependRead r (readBare stop tail) := by
  match digits, four with
  | [a, b, c, d], _ =>
    rw [readBare.eq_def]
    dsimp only
    rw [if_neg notStop, if_pos rfl]
    simp only [List.cons_append, List.nil_append, if_true, named, Option.some_bind]

/-- The keys and values end at `=` and `]`, two runes that need quotes. -/
def Stop (stop : Char) : Prop := stop = '=' ∨ stop = ']'

theorem Stop.quoted {stop : Char} (stopping : Stop stop) : quotedRune stop = true := by
  rcases stopping with rfl | rfl <;> rfl

theorem Stop.ne_backslash {stop : Char} (stopping : Stop stop) : '\\' ≠ stop := by
  rcases stopping with rfl | rfl <;> decide

theorem Stop.ne_quote {stop : Char} (stopping : Stop stop) : '"' ≠ stop := by
  rcases stopping with rfl | rfl <;> decide

/-- What the encoder appends for a rune that needs no quotes reads back as the rune. -/
theorem readBare_appendRune {stop r : Char} (stopping : Stop stop) (plain : quotedRune r = false)
    (tail : List Char) : readBare stop (appendRune r ++ tail) = prependRead r (readBare stop tail) := by
  by_cases del : r = '\x7f'
  · subst del
    exact readBare_unicode stopping.ne_backslash "007f".toList rfl rfl tail
  by_cases replaced : r = runeError
  · subst replaced
    exact readBare_unicode stopping.ne_backslash "fffd".toList rfl rfl tail
  rw [appendRune_of_unquoted plain del replaced, List.singleton_append]
  refine readBare_plain (fun same => ?_) (fun same => ?_) tail
  · rw [same, stopping.quoted] at plain
    contradiction
  · subst same
    contradiction

theorem readBare_flatMap_appendRune {stop : Char} (stopping : Stop stop) :
    ∀ (cs : List Char), (∀ r ∈ cs, quotedRune r = false) → ∀ (rest : List Char),
      readBare stop (cs.flatMap appendRune ++ stop :: rest) = some (cs, stop :: rest)
  | [], _, rest => readBare_stop stop rest
  | r :: cs, plain, rest => by
    rw [List.flatMap_cons, List.append_assoc,
      readBare_appendRune stopping (plain r (List.mem_cons_self _ _)),
      readBare_flatMap_appendRune stopping cs
        (fun other member => plain other (List.mem_cons_of_mem _ member))]
    rfl

theorem readToken_quote (stop : Char) (body : List Char) :
    readToken stop ('"' :: body) = readJsonBody body := by
  simp [readToken]

theorem readToken_of_head {stop : Char} {text : List Char} (bare : text.head? ≠ some '"') :
    readToken stop text = readBare stop text := by
  cases text with
  | nil => rfl
  | cons c rest =>
    have notQuote : c ≠ '"' := fun same => bare (by rw [same]; rfl)
    exact if_neg notQuote

/-- A key or a string value without a backslash reads back from what `safeAddString` appends. -/
theorem readToken_safeAddString {stop : Char} (stopping : Stop stop) {s : String}
    (noBackslash : '\\' ∉ s.toList) (rest : List Char) :
    readToken stop ((safeAddString s).toList ++ stop :: rest) = some (s.toList, stop :: rest) := by
  rw [safeAddString_toList]
  cases quoted : needQuotes s
  · have plain : ∀ r ∈ s.toList, quotedRune r = false := by simpa [needQuotes] using quoted
    rw [if_neg (by simp), readToken_of_head, readBare_flatMap_appendRune stopping _ plain]
    intro head
    obtain ⟨rest', split⟩ := List.head?_eq_some_iff.mp head
    cases body : s.toList.flatMap appendRune with
    | nil =>
      rw [body, List.nil_append, List.cons.injEq] at split
      exact stopping.ne_quote split.1.symm
    | cons first others =>
      rw [body, List.cons_append, List.cons.injEq] at split
      have member : '"' ∈ s.toList.flatMap appendRune := by
        rw [body, ← split.1]
        exact List.mem_cons_self _ _
      obtain ⟨r, inText, quote⟩ := List.mem_flatMap.mp member
      exact quote_not_mem_appendRune (plain r inText) quote
  · rw [if_pos rfl]
    simp only [List.cons_append, List.append_assoc, List.singleton_append, List.nil_append]
    rw [readToken_quote, readJsonBody_flatMap_appendRune _ noBackslash]

/-- A character a printed value may hold: it is neither `]`, a backslash nor a double quote. -/
def BareChar (c : Char) : Prop := c ≠ ']' ∧ c ≠ '\\' ∧ c ≠ '"'

theorem readBare_bare : ∀ {text : List Char}, (∀ c ∈ text, BareChar c) → ∀ (rest : List Char),
    readBare ']' (text ++ ']' :: rest) = some (text, ']' :: rest)
  | [], _, rest => readBare_stop ']' rest
  | c :: text, bare, rest => by
    obtain ⟨notStop, notBackslash, -⟩ := bare c (List.mem_cons_self _ _)
    rw [List.cons_append, readBare_plain notStop notBackslash,
      readBare_bare (fun other member => bare other (List.mem_cons_of_mem _ member)) rest]
    rfl

/-- A printed value with only bare characters reads back as it is. -/
theorem readToken_bare {text : List Char} (bare : ∀ c ∈ text, BareChar c) (rest : List Char) :
    readToken ']' (text ++ ']' :: rest) = some (text, ']' :: rest) := by
  rw [readToken_of_head, readBare_bare bare rest]
  intro head
  obtain ⟨rest', split⟩ := List.head?_eq_some_iff.mp head
  cases text with
  | nil => exact absurd (List.cons.inj split).1 (by decide)
  | cons c text => exact (bare c (List.mem_cons_self _ _)).2.2 (List.cons.inj split).1

/-! ## The printed values -/

instance : DecidablePred BareChar := fun _ => inferInstanceAs (Decidable (_ ∧ _ ∧ _))

theorem digitChar_bare : ∀ d < 16, BareChar (Nat.digitChar d) := by
  decide

theorem toDigitsCore_bare :
    ∀ (fuel n : Nat) (ds : List Char), (∀ c ∈ ds, BareChar c) →
      ∀ c ∈ Nat.toDigitsCore 10 fuel n ds, BareChar c
  | 0, _, _, bare => bare
  | fuel + 1, n, ds, bare => by
    have withDigit : ∀ c ∈ Nat.digitChar (n % 10) :: ds, BareChar c :=
      List.forall_mem_cons.mpr ⟨digitChar_bare _ (by omega), bare⟩
    have step : Nat.toDigitsCore 10 (fuel + 1) n ds =
        if n / 10 = 0 then Nat.digitChar (n % 10) :: ds
        else Nat.toDigitsCore 10 fuel (n / 10) (Nat.digitChar (n % 10) :: ds) := rfl
    rw [step]
    split
    · exact withDigit
    · exact toDigitsCore_bare fuel _ _ withDigit

theorem natToString_bare (n : Nat) : ∀ c ∈ (toString n).toList, BareChar c :=
  toDigitsCore_bare (n + 1) n [] (by simp)

theorem intToString_bare (i : Int) : ∀ c ∈ (toString i).toList, BareChar c := by
  cases i with
  | ofNat n => exact natToString_bare n
  | negSucc n =>
    intro c member
    rcases List.mem_append.mp member with sign | digits
    · rw [List.mem_singleton.mp sign]
      decide
    · exact natToString_bare (n + 1) c digits

theorem hexEncode_bare (v : List UInt8) : ∀ c ∈ (hexEncode v).toList, BareChar c := by
  intro c member
  obtain ⟨b, -, digit⟩ := List.mem_flatMap.mp member
  have byte : b.toNat < 256 := b.val.isLt
  rcases List.mem_pair.mp digit with rfl | rfl <;> exact digitChar_bare _ (by omega)

/-! ## What a field writes -/

theorem toList_push (s : String) (c : Char) : (s.push c).toList = s.toList ++ [c] := rfl

theorem toList_append (s t : String) : (s ++ t).toList = s.toList ++ t.toList := rfl

/-- The line is empty or ends where a field or a namespace may follow: with the space after the
head, a field's `]` or a namespace's `{`. -/
def ItemBoundary (line : String) : Prop :=
  line.toList.getLast? = none ∨ line.toList.getLast? = some ' ' ∨
    line.toList.getLast? = some ']' ∨ line.toList.getLast? = some '\x7b'

/-- The line ends with a field's `]`, after which a namespace is written with a comma. -/
def endsField (line : String) : Bool := line.toList.getLast? == some ']'

theorem addElementSeparator_of_opening {line : String} {last : Char}
    (found : line.toList.getLast? = some last)
    (opening : last = '\x7b' ∨ last = '[' ∨ last = ':' ∨ last = ',' ∨ last = ' ' ∨ last = '=') :
    addElementSeparator line = line := by
  unfold addElementSeparator
  rw [found]
  exact if_pos opening

theorem addElementSeparator_push (line : String) {last : Char}
    (opening : last = '\x7b' ∨ last = '[' ∨ last = ':' ∨ last = ',' ∨ last = ' ' ∨ last = '=') :
    addElementSeparator (line.push last) = line.push last :=
  addElementSeparator_of_opening (List.getLast?_concat _) opening

/-- What a field writer appends to `line`: a space when the line is not empty, the bracket, the
key, `=`, the value and `]`. -/
def fieldText (line key : String) (value : List Char) : List Char :=
  (if line.length > 0 then [' '] else []) ++
    '[' :: ((safeAddString key).toList ++ '=' :: (value ++ [']']))

/-- The line `addKey` starts a field's value on. -/
theorem addKey_beginQuoteFiled (line key : String) :
    (addKey (beginQuoteFiled line) key).toList =
      (line.toList ++ (if line.length > 0 then [' '] else []) ++
        '[' :: (safeAddString key).toList) ++ ['='] := by
  unfold addKey beginQuoteFiled
  rw [addElementSeparator_push _ (by decide)]
  split <;> simp [toList_push, toList_append]

theorem addString_toList (line key val : String) :
    (addString line key val).toList = line.toList ++ fieldText line key (safeAddString val).toList := by
  unfold addString endQuoteFiled fieldText
  rw [toList_push, toList_append, addKey_beginQuoteFiled]
  simp

theorem addField_appendFormatted_toList (line key text : String) :
    (addField line key (appendFormatted text)).toList = line.toList ++ fieldText line key text.toList := by
  unfold addField endQuoteFiled appendFormatted fieldText
  have closed : (addKey (beginQuoteFiled line) key).toList.getLast? = some '=' := by
    rw [addKey_beginQuoteFiled]
    exact List.getLast?_concat _
  rw [addElementSeparator_of_opening closed (by decide), toList_push, toList_append,
    addKey_beginQuoteFiled]
  simp

/-- What `OpenNamespace` appends: a comma after a field, the key, `=` and `{`. -/
def namespaceText (line key : String) : List Char :=
  (if endsField line then [','] else []) ++ ((safeAddString key).toList ++ ['=', '\x7b'])

theorem openNamespace_toList {Time Level Caller : Type} {s : TidbEncoder Time Level Caller}
    (boundary : ItemBoundary s.line) (key : String) :
    (s.openNamespace key).line.toList = s.line.toList ++ namespaceText s.line key := by
  have separated : (addElementSeparator s.line).toList =
      s.line.toList ++ if endsField s.line then [','] else [] := by
    unfold addElementSeparator endsField
    rcases boundary with found | found | found | found <;> rw [found] <;> simp
  show (((addElementSeparator s.line ++ safeAddString key).push '=').push '\x7b').toList = _
  rw [toList_push, toList_push, toList_append, separated]
  simp only [namespaceText, List.append_assoc, List.singleton_append, List.cons_append,
    List.nil_append]

/-! ## Reading one item back -/

theorem readFieldBody_tokens {text valueText rest key value : List Char}
    (keyRead : readToken '=' text = some (key, '=' :: valueText))
    (valueRead : readToken ']' valueText = some (value, ']' :: rest)) :
    readFieldBody text = some (.field ⟨key⟩ ⟨value⟩, rest) := by
  simp [readFieldBody, keyRead, valueRead, expect]

theorem readNamespaceBody_token {text rest key : List Char}
    (keyRead : readToken '=' text = some (key, '=' :: '\x7b' :: rest)) :
    readNamespaceBody text = some (.openNamespace ⟨key⟩, rest) := by
  simp [readNamespaceBody, keyRead, expect]

/-- A field reads back from what a field writer appends, with or without the space. -/
theorem readItem_fieldText (afterField : Bool) (line : String) {key : String}
    (noBackslash : '\\' ∉ key.toList) {value : List Char} {read : String}
    (valueRead : ∀ rest, readToken ']' (value ++ ']' :: rest) = some (read.toList, ']' :: rest))
    (rest : List Char) :
    readItem afterField (fieldText line key value ++ rest) = some (.field key read, rest) := by
  have body : readFieldBody ((safeAddString key).toList ++ '=' :: (value ++ ']' :: rest)) =
      some (.field key read, rest) :=
    readFieldBody_tokens (readToken_safeAddString (Or.inl rfl) noBackslash _) (valueRead rest)
  unfold fieldText
  split
  · simp only [List.singleton_append, List.cons_append, List.append_assoc]
    rw [readItem, if_neg (by decide), if_pos ⟨rfl, rfl⟩]
    exact body
  · simp only [List.nil_append, List.cons_append, List.append_assoc]
    rw [readItem, if_pos rfl]
    exact body

/-- The first character the encoder appends for a rune that needs no quotes is the rune or the
backslash of its escape. -/
theorem appendRune_head_of_unquoted {r : Char} (plain : quotedRune r = false) :
    (appendRune r).head? = some r ∨ (appendRune r).head? = some '\\' := by
  by_cases del : r = '\x7f'
  · subst del
    exact .inr rfl
  by_cases replaced : r = runeError
  · subst replaced
    exact .inr rfl
  rw [appendRune_of_unquoted plain del replaced]
  exact .inl rfl

/-- A key never starts with a bracket or a space, so a namespace is not taken for a field. -/
theorem safeAddString_head (key : String) :
    ∀ c ∈ ((safeAddString key).toList ++ ['=']).head?, c ≠ '[' ∧ c ≠ ' ' := by
  intro c head
  rw [Option.mem_def] at head
  rw [safeAddString_toList] at head
  split at head
  · cases head
    decide
  · rename_i unquoted
    have plain : ∀ r ∈ key.toList, quotedRune r = false := by
      simpa [needQuotes] using unquoted
    cases runes : key.toList with
    | nil =>
      rw [runes] at head
      cases head
      decide
    | cons r others =>
      have quoted : quotedRune '[' = true ∧ quotedRune ' ' = true := by decide
      rw [runes, List.flatMap_cons, List.append_assoc, List.head?_append] at head
      have first := plain r (runes ▸ List.mem_cons_self r others)
      rcases appendRune_head_of_unquoted first with found | found <;>
        rw [found] at head <;> cases head
      · exact ⟨fun same => by rw [same, quoted.1] at first; contradiction,
          fun same => by rw [same, quoted.2] at first; contradiction⟩
      · decide

/-- A namespace reads back from what `OpenNamespace` appends, the comma after a field included. -/
theorem readItem_namespaceText (line : String) {key : String} (noBackslash : '\\' ∉ key.toList)
    (rest : List Char) :
    readItem (endsField line) (namespaceText line key ++ rest) = some (.openNamespace key, rest) := by
  have body : readNamespaceBody ((safeAddString key).toList ++ '=' :: '\x7b' :: rest) =
      some (.openNamespace key, rest) :=
    readNamespaceBody_token (readToken_safeAddString (Or.inl rfl) noBackslash _)
  unfold namespaceText
  cases endsField line
  · simp only [Bool.false_eq_true, if_false, List.nil_append, List.append_assoc,
      List.cons_append, List.singleton_append]
    have head := safeAddString_head key
    cases text : (safeAddString key).toList ++ '=' :: '\x7b' :: rest with
    | nil => exact absurd text (by simp)
    | cons c tail =>
      have notOpening : c ≠ '[' ∧ c ≠ ' ' := head c (by
        have first := congrArg List.head? text
        rw [List.head?_append, List.head?_cons, List.head?_cons] at first
        rw [List.head?_append, List.head?_cons]
        exact first)
      rw [readItem, if_neg notOpening.1, if_neg (fun both => notOpening.2 both.1), if_neg (by decide),
        ← text]
      exact body
  · simp only [if_true, List.singleton_append, List.cons_append, List.append_assoc]
    rw [readItem, if_neg (by decide), if_neg fun both => absurd both.1 (by decide), if_pos rfl,
      if_pos rfl]
    exact body

/-! ## Reading the fields of a line back -/

/-- A field the reader takes back as its item: its key, and a string value, have no backslash,
and a printed value has no `]`, backslash or double quote. An array or an object, whose brackets
the reader does not match, and a value that failed, whose field stays open, are not. -/
def Field.Readable : Field → Prop
  | .string key val => '\\' ∉ key.toList ∧ '\\' ∉ val.toList
  | .reflected key (.ok bytes) => '\\' ∉ key.toList ∧ '\\' ∉ (trimSpace bytes).toList
  | .reflected _ (.error _) | .array .. | .object .. => False
  | .float64 key printed | .float32 key printed | .complex128 key printed
  | .complex64 key printed | .duration key printed | .time key printed =>
    '\\' ∉ key.toList ∧ ∀ c ∈ printed.toList, BareChar c
  | .bool key _ | .int64 key _ | .int32 key _ | .int16 key _ | .int8 key _ | .uint64 key _
  | .uint32 key _ | .uint16 key _ | .uint8 key _ | .uintptr key _ | .byteString key _
  | .binary key _ | .openNamespace key => '\\' ∉ key.toList
  | .skip => True

instance : DecidablePred Field.Readable
  | .string .. | .reflected _ (.ok _) => inferInstanceAs (Decidable (_ ∧ _))
  | .reflected _ (.error _) | .array .. | .object .. => inferInstanceAs (Decidable False)
  | .float64 .. | .float32 .. | .complex128 .. | .complex64 .. | .duration .. | .time .. =>
    inferInstanceAs (Decidable (_ ∧ _))
  | .bool .. | .int64 .. | .int32 .. | .int16 .. | .int8 .. | .uint64 .. | .uint32 ..
  | .uint16 .. | .uint8 .. | .uintptr .. | .byteString .. | .binary .. | .openNamespace _ =>
    inferInstanceAs (Decidable (¬_))
  | .skip => inferInstanceAs (Decidable True)

theorem base64Digit_mem (n : Nat) : base64Digit n ∈ base64Alphabet := by
  have inside : n % 64 < base64Alphabet.length := Nat.mod_lt n (by decide)
  rw [base64Digit, List.getD_eq_getElem?_getD, List.getElem?_eq_getElem inside, Option.getD_some]
  exact List.getElem_mem _

/-- Base64 text has no backslash. -/
theorem backslash_not_mem_base64Encode : ∀ val : List UInt8, '\\' ∉ base64Encode val
  | a :: b :: c :: rest => by
    rw [base64Encode, List.mem_append, not_or]
    refine ⟨?_, backslash_not_mem_base64Encode rest⟩
    simp only [List.mem_cons, List.not_mem_nil, or_false, not_or]
    exact ⟨digit_ne _, digit_ne _, digit_ne _, digit_ne _⟩
  | [a, b] => by
    simp only [base64Encode, List.mem_cons, List.not_mem_nil, or_false, not_or]
    exact ⟨digit_ne _, digit_ne _, digit_ne _, by decide⟩
  | [a] => by
    simp only [base64Encode, List.mem_cons, List.not_mem_nil, or_false, not_or]
    exact ⟨digit_ne _, digit_ne _, by decide, by decide⟩
  | [] => List.not_mem_nil _
where
  digit_ne (n : Nat) : '\\' ≠ base64Digit n := fun same =>
    absurd (same ▸ base64Digit_mem n) (by decide : '\\' ∉ base64Alphabet)

/-- After `addKey` no separator is written. -/
theorem addElementSeparator_addKey (line key : String) :
    addElementSeparator (addKey (beginQuoteFiled line) key) = addKey (beginQuoteFiled line) key :=
  addElementSeparator_of_opening (by rw [addKey_beginQuoteFiled]; exact List.getLast?_concat _)
    (by decide)

/-- A value that `json.Marshal` marshalled is written as `AddString` writes its trimmed text. -/
theorem addReflected_ok (line key bytes : String) :
    addReflected line key (.ok bytes) = addString line key (trimSpace bytes) := by
  unfold addReflected addFallible appendReflected addString
  rw [addElementSeparator_addKey]
  rfl

/-- Every field the reader takes back is written as a string, as a printed value, as a namespace,
or not at all. -/
theorem Field.addTo_cases {Time Level Caller : Type} {field : Field} (readable : field.Readable)
    (c : TidbEncoder Time Level Caller) :
    (∃ key val, '\\' ∉ key.toList ∧ '\\' ∉ val.toList ∧ field.item = some (.field key val) ∧
      field.addTo c = c.write (addString · key val)) ∨
    (∃ key text, '\\' ∉ key.toList ∧ (∀ ch ∈ text.toList, BareChar ch) ∧
      field.item = some (.field key text) ∧
      field.addTo c = c.write (addField · key (appendFormatted text))) ∨
    (∃ key, '\\' ∉ key.toList ∧ field.item = some (.openNamespace key) ∧
      field.addTo c = c.openNamespace key) ∨
    (field.item = none ∧ field.addTo c = c) := by
  cases field with
  | string key val => exact .inl ⟨key, val, readable.1, readable.2, rfl, rfl⟩
  | binary key val => exact .inl ⟨key, _, readable, backslash_not_mem_base64Encode val, rfl, rfl⟩
  | reflected key marshalled =>
    cases marshalled with
    | error => exact readable.elim
    | ok bytes => exact .inl ⟨key, _, readable.1, readable.2, rfl,
        congrArg c.write (funext fun line => addReflected_ok line key bytes)⟩
  | array | object => exact readable.elim
  | bool key val => exact .inr (.inl ⟨key, _, readable, by cases val <;> decide, rfl, rfl⟩)
  | int64 key val | int32 key val | int16 key val | int8 key val =>
    exact .inr (.inl ⟨key, _, readable, intToString_bare _, rfl, rfl⟩)
  | uint64 key val | uint32 key val | uint16 key val | uint8 key val | uintptr key val =>
    exact .inr (.inl ⟨key, _, readable, natToString_bare _, rfl, rfl⟩)
  | byteString key val =>
    refine .inr (.inl ⟨key, _, readable, fun ch member => ?_, rfl, rfl⟩)
    rcases List.mem_append.mp member with zeroX | digits
    · rcases List.mem_pair.mp zeroX with rfl | rfl <;> decide
    · exact hexEncode_bare val ch digits
  | float64 key printed | float32 key printed | complex128 key printed | complex64 key printed
  | duration key printed | time key printed =>
    exact .inr (.inl ⟨key, printed, readable.1, readable.2, rfl, rfl⟩)
  | openNamespace key => exact .inr (.inr (.inl ⟨key, readable, rfl, rfl⟩))
  | skip => exact .inr (.inr (.inr ⟨rfl, rfl⟩))

theorem fieldText_getLast (line key : String) (value : List Char) :
    (fieldText line key value).getLast? = some ']' := by
  have closed : fieldText line key value = ((if line.length > 0 then [' '] else []) ++
      '[' :: ((safeAddString key).toList ++ '=' :: value)) ++ [']'] := by
    simp [fieldText]
  rw [closed]
  exact List.getLast?_concat _

theorem namespaceText_getLast (line key : String) :
    (namespaceText line key).getLast? = some '\x7b' := by
  have closed : namespaceText line key = ((if endsField line then [','] else []) ++
      ((safeAddString key).toList ++ ['='])) ++ ['\x7b'] := by
    simp [namespaceText]
  rw [closed]
  exact List.getLast?_concat _

/-- One field added to a line at an item boundary: it appends the text of its item, or nothing,
and the reader takes the item back from that text, whatever follows. -/
theorem readItem_addTo {Time Level Caller : Type} {c : TidbEncoder Time Level Caller}
    (boundary : ItemBoundary c.line) {field : Field} (readable : field.Readable) :
    (field.item = none ∧ field.addTo c = c) ∨
    ∃ item text, field.item = some item ∧
      (field.addTo c).line.toList = c.line.toList ++ text ∧
      (field.addTo c).line.toList.getLast? = text.getLast? ∧
      text.getLast? = some (if item.isField then ']' else '\x7b') ∧
      (∃ ch ∈ text, ch ≠ '\x7d') ∧
      ∀ rest, readItem (endsField c.line) (text ++ rest) = some (item, rest) := by
  rcases Field.addTo_cases readable c with ⟨key, val, keyPlain, valPlain, found, added⟩ |
    ⟨key, text, keyPlain, bare, found, added⟩ | ⟨key, keyPlain, found, added⟩ | none
  · refine .inr ⟨_, fieldText c.line key (safeAddString val).toList, found, ?_, ?_,
      fieldText_getLast _ _ _, ⟨'[', by simp [fieldText], by decide⟩,
      readItem_fieldText _ c.line keyPlain (readToken_safeAddString (Or.inr rfl) valPlain)⟩
    · rw [added]
      exact addString_toList _ _ _
    · rw [added, TidbEncoder.write, addString_toList,
        List.getLast?_append_of_ne_nil _ (by simp [fieldText])]
  · refine .inr ⟨_, fieldText c.line key text.toList, found, ?_, ?_,
      fieldText_getLast _ _ _, ⟨'[', by simp [fieldText], by decide⟩,
      readItem_fieldText _ c.line keyPlain (readToken_bare bare)⟩
    · rw [added]
      exact addField_appendFormatted_toList _ _ _
    · rw [added, TidbEncoder.write, addField_appendFormatted_toList,
        List.getLast?_append_of_ne_nil _ (by simp [fieldText])]
  · refine .inr ⟨_, namespaceText c.line key, found, ?_, ?_, namespaceText_getLast _ _,
      ⟨'=', by simp [namespaceText], by decide⟩, readItem_namespaceText c.line keyPlain⟩
    · rw [added]
      exact openNamespace_toList boundary key
    · rw [added, openNamespace_toList boundary,
        List.getLast?_append_of_ne_nil _ (by simp [namespaceText])]
  · exact .inl none

theorem readItems_closings : ∀ (fuel : Nat) (afterField : Bool) (closings : Nat),
    readItems fuel afterField (List.replicate closings '\x7d') = some ([], closings)
  | 0, _, closings => by simp [readItems]
  | _ + 1, _, closings => by simp [readItems]

theorem readItems_succ_of_item {fuel : Nat} {afterField : Bool} {text rest : List Char}
    {item : Item} (notClosing : ∃ ch ∈ text, ch ≠ '\x7d')
    (read : readItem afterField (text ++ rest) = some (item, rest)) :
    readItems (fuel + 1) afterField (text ++ rest) =
      (readItems fuel item.isField rest).map fun r => (item :: r.1, r.2) := by
  obtain ⟨ch, member, notBrace⟩ := notClosing
  have notAll : (text ++ rest).all (· == '\x7d') = false :=
    List.all_eq_false.mpr ⟨ch, List.mem_append_left _ member, by simpa using notBrace⟩
  rw [readItems, if_neg (by rw [notAll]; decide), read]
  rfl

/-- The fields added to a line at an item boundary append a text from which the reader takes back
their items, one after the other, and then goes on with whatever follows. -/
theorem readItems_addFields {Time Level Caller : Type} :
    ∀ (fields : List Field) (c : TidbEncoder Time Level Caller), ItemBoundary c.line →
      (∀ field ∈ fields, field.Readable) →
      ∃ text, (addFields c fields).line.toList = c.line.toList ++ text ∧
        ItemBoundary (addFields c fields).line ∧
        (fields.filterMap Field.item).length ≤ text.length ∧
        ∀ fuel rest, readItems ((fields.filterMap Field.item).length + fuel) (endsField c.line)
            (text ++ rest) =
          (readItems fuel (endsField (addFields c fields).line) rest).map
            fun read => (fields.filterMap Field.item ++ read.1, read.2)
  | [], c, boundary, _ =>
    ⟨[], by simp [addFields], boundary, le_refl _, fun fuel rest => by simp [addFields]⟩
  | field :: fields, c, boundary, readable => by
    have later : ∀ field ∈ fields, field.Readable := fun field member =>
      readable field (List.mem_cons_of_mem _ member)
    rcases readItem_addTo boundary (readable field (List.mem_cons_self _ _)) with
      ⟨none, same⟩ | ⟨item, text, found, line, last, closing, notClosing, read⟩
    · have rest := readItems_addFields fields c boundary later
      simpa only [addFields, List.foldl_cons, same, List.filterMap_cons, none] using rest
    · have boundary' : ItemBoundary (field.addTo c).line := by
        unfold ItemBoundary
        rw [last, closing]
        split <;> simp
      have ends : endsField (field.addTo c).line = item.isField := by
        unfold endsField
        rw [last, closing]
        cases item <;> rfl
      obtain ⟨text', line', boundary'', count, readRest⟩ :=
        readItems_addFields fields (field.addTo c) boundary' later
      have items : (field :: fields).filterMap Field.item = item :: fields.filterMap Field.item := by
        simp [found]
      have nonempty : 0 < text.length := by
        obtain ⟨ch, member, -⟩ := notClosing
        exact List.length_pos_of_mem member
      refine ⟨text ++ text', ?_, boundary'', ?_, fun fuel rest => ?_⟩
      · rw [addFields, List.foldl_cons, ← addFields, line', line, List.append_assoc]
      · rw [items, List.length_cons, List.length_append]
        omega
      · rw [items, List.length_cons, Nat.add_right_comm, List.append_assoc,
          readItems_succ_of_item notClosing (read _), ← ends, readRest, Option.map_map]
        rfl

theorem addFields_openNamespaces {Time Level Caller : Type} :
    ∀ (fields : List Field), (∀ field ∈ fields, field.Readable) →
      ∀ (c : TidbEncoder Time Level Caller), (addFields c fields).openNamespaces =
        c.openNamespaces + ((fields.filterMap Field.item).filter fun item => !item.isField).length
  | [], _, c => rfl
  | field :: fields, readable, c => by
    rw [addFields, List.foldl_cons, ← addFields,
      addFields_openNamespaces fields (fun field member => readable field (.tail _ member))]
    rcases Field.addTo_cases (readable field (.head _)) c with ⟨_, _, _, _, item, added⟩ |
      ⟨_, _, _, _, item, added⟩ | ⟨_, _, item, added⟩ | ⟨item, added⟩ <;>
      simp only [added, item, TidbEncoder.write_openNamespaces,
        TidbEncoder.openNamespace_openNamespaces, List.filterMap_cons, List.filter_cons,
        Item.isField, Bool.not_true, Bool.not_false, Bool.false_eq_true, ↓reduceIte,
        List.length_cons, Nat.add_assoc, Nat.add_comm 1]

/-! ## The fields section of a log line -/

section Line

variable {Time Level Caller : Type}

theorem addTo_config (field : Field) (c : TidbEncoder Time Level Caller) :
    (field.addTo c).config = c.config := by
  cases field <;>
    simp only [Field.addTo, TidbEncoder.write_config, TidbEncoder.openNamespace_config]

theorem addTo_line_congr (field : Field) {c d : TidbEncoder Time Level Caller}
    (same : c.line = d.line) : (field.addTo c).line = (field.addTo d).line := by
  cases field <;> simp only [Field.addTo, TidbEncoder.write, TidbEncoder.openNamespace, same]

theorem addFields_config : ∀ (fields : List Field) (c : TidbEncoder Time Level Caller),
    (addFields c fields).config = c.config
  | [], _ => rfl
  | field :: fields, c => (addFields_config fields (field.addTo c)).trans (addTo_config field c)

theorem addFields_append (c : TidbEncoder Time Level Caller) (fields later : List Field) :
    addFields c (fields ++ later) = addFields (addFields c fields) later :=
  List.foldl_append _ _ _ _

theorem addFields_line_congr : ∀ (fields : List Field) {c d : TidbEncoder Time Level Caller},
    c.line = d.line → (addFields c fields).line = (addFields d fields).line
  | [], _, _, same => same
  | field :: fields, _, _, same => addFields_line_congr fields (addTo_line_congr field same)

/-- A chain of `With` calls writes the line the fields of all of them write, one after the other:
`Clone` keeps the line and forgets only the count of open namespaces. -/
theorem withFields_chain : ∀ (contexts : List (List Field)) (enc : TidbEncoder Time Level Caller),
    (contexts.foldl withFields enc).line = (addFields enc contexts.flatten).line ∧
      (contexts.foldl withFields enc).config = enc.config
  | [], _ => ⟨rfl, rfl⟩
  | fields :: contexts, enc => by
    obtain ⟨line, config⟩ := withFields_chain contexts (withFields enc fields)
    refine ⟨?_, config.trans (addFields_config fields _)⟩
    rw [List.foldl_cons, line, List.flatten_cons, addFields_append]
    exact addFields_line_congr _ (addFields_line_congr fields rfl)

/-- The line is empty or ends with a space, as the head does. -/
def SpaceEnded (line : String) : Prop :=
  line.toList.getLast? = none ∨ line.toList.getLast? = some ' '

/-- The head ends with the space after its last bracket, or is empty. -/
theorem entryHead_spaceEnded (cfg : EncoderConfig Time Level Caller)
    (ent : Entry Time Level Caller) : SpaceEnded (entryHead cfg ent) := by
  have spaced : ∀ line : String, SpaceEnded (if line.length > 0 then line.push ' ' else line) := by
    intro line
    split
    · exact .inr (List.getLast?_concat _)
    · rename_i empty
      exact .inl (List.getLast?_eq_none_iff.mpr
        (List.eq_nil_of_length_eq_zero (Nat.eq_zero_of_not_pos empty)))
  exact spaced _

theorem itemBoundary_append {head line : String} (spaceEnded : SpaceEnded head)
    (boundary : ItemBoundary line) : ItemBoundary (head ++ line) := by
  cases lastChar : line.toList.getLast? with
  | none =>
    rw [String.ext (List.getLast?_eq_none_iff.mp lastChar), String.append_empty]
    rcases spaceEnded with found | found
    · exact .inl found
    · exact .inr (.inl found)
  | some last =>
    unfold ItemBoundary
    rw [toList_append, List.getLast?_append_of_ne_nil _ (fun empty => by
      rw [empty] at lastChar
      cases lastChar)]
    exact boundary

theorem endsField_append {head : String} (spaceEnded : SpaceEnded head) (line : String) :
    endsField (head ++ line) = endsField line := by
  unfold endsField
  cases lastChar : line.toList.getLast? with
  | none =>
    rw [String.ext (List.getLast?_eq_none_iff.mp lastChar), String.append_empty]
    rcases spaceEnded with found | found
    · rw [found]
    · rw [found]
      rfl
  | some last =>
    rw [toList_append, List.getLast?_append_of_ne_nil _ (fun empty => by
      rw [empty] at lastChar
      cases lastChar), lastChar]

/-- Every line `EncodeEntry` writes for a logger built by a chain of `With` calls is its head, a
fields section, the stack trace and the line ending. When every key, and every string value, of
the fields of `With` and of the entry has no backslash, the section reads back as the fields of
`With` followed by those of the entry exactly when no field of `With` opened a namespace. -/
theorem encodeEntry_fields_read_back (cfg : EncoderConfig Time Level Caller)
    (ent : Entry Time Level Caller) (contexts : List (List Field)) (fields : List Field)
    (readable : ∀ field ∈ contexts.flatten ++ fields, field.Readable) :
    ∃ fieldsText, encodeEntry (contexts.foldl withFields (TidbEncoder.newTiDBEncoder cfg)) ent
        fields = appendStack cfg ent (entryHead cfg ent ++ ⟨fieldsText⟩) ++
          (TidbEncoder.newTiDBEncoder cfg).config.lineEnding ∧
      readSection fieldsText =
        if (contexts.flatten.filterMap Field.item).all Item.isField then
          some ((contexts.flatten ++ fields).filterMap Field.item)
        else none := by
  set base := TidbEncoder.newTiDBEncoder cfg
  obtain ⟨chainLine, chainConfig⟩ := withFields_chain contexts base
  -- the fields of `With`, written from the empty line
  obtain ⟨ctxText, ctxLine, ctxBoundary, ctxCount, ctxRead⟩ := readItems_addFields contexts.flatten
    base (.inl rfl) fun field member => readable field (List.mem_append_left _ member)
  set e := contexts.foldl withFields base
  have eLine : e.line.toList = ctxText := by
    rw [chainLine, ctxLine]
    rfl
  -- the entry's fields, written after the head and the fields of `With`
  set c0 := (e.clone false).write fun _ => entryHead e.config ent ++ e.line
  have c0Line : c0.line = entryHead cfg ent ++ e.line := by
    show entryHead e.config ent ++ e.line = _
    rw [chainConfig]
    rfl
  have headEnded := entryHead_spaceEnded cfg ent
  obtain ⟨entryText, entryLine, -, entryCount, entryRead⟩ := readItems_addFields fields c0
    (c0Line ▸ itemBoundary_append headEnded (chainLine ▸ ctxBoundary))
    fun field member => readable field (List.mem_append_right _ member)
  set closings := ((fields.filterMap Field.item).filter fun item => !item.isField).length
  have opened : (addFields c0 fields).openNamespaces = closings := by
    rw [addFields_openNamespaces fields fun field member =>
      readable field (List.mem_append_right _ member)]
    exact Nat.zero_add _
  refine ⟨ctxText ++ entryText ++ List.replicate closings '\x7d', ?_, ?_⟩
  · -- the line is the head, the fields section, the stack trace and the line ending
    have line : ((addFields c0 fields).closeOpenNamespaces).line =
        entryHead cfg ent ++ ⟨ctxText ++ entryText ++ List.replicate closings '\x7d'⟩ := by
      apply String.ext
      show (addFields c0 fields).line.toList ++
        List.replicate (addFields c0 fields).openNamespaces _ = _
      rw [entryLine, c0Line, opened, toList_append, eLine]
      simp [toList_append]
    have config : (addFields c0 fields).config = base.config :=
      (addFields_config fields c0).trans chainConfig
    show appendStack (addFields c0 fields).config ent
      ((addFields c0 fields).closeOpenNamespaces).line ++ (addFields c0 fields).config.lineEnding = _
    rw [line, config]
    rfl
  · -- the section reads back
    have ends : endsField c0.line = endsField (addFields base contexts.flatten).line := by
      rw [c0Line, endsField_append headEnded, chainLine]
    have total : (ctxText ++ entryText ++ List.replicate closings '\x7d').length =
        (contexts.flatten.filterMap Field.item).length + ((fields.filterMap Field.item).length +
          (ctxText.length - (contexts.flatten.filterMap Field.item).length +
            (entryText.length - (fields.filterMap Field.item).length) + closings)) := by
      simp only [List.length_append, List.length_replicate]
      omega
    have baseEnds : endsField base.line = false := rfl
    rw [baseEnds] at ctxRead
    unfold readSection
    rw [total, List.append_assoc, ctxRead, ← ends, entryRead, readItems_closings]
    simp only [Option.map_some', Option.some_bind, List.append_nil, List.filter_append,
      List.length_append]
    rw [List.filterMap_append]
    refine if_congr ?_ rfl rfl
    simp only [Nat.self_eq_add_left, List.length_eq_zero, List.filter_eq_nil_iff, List.all_eq_true,
      Bool.not_eq_true', Bool.not_eq_false]

/-- A logger given the field `conn=7` by `With` logs the entry's fields `ok=true`, a float and
two bytes after it. -/
theorem encodeEntry_fields_read_back_conn :
    (∀ field ∈ [[Field.string "conn" "7"]].flatten ++
        [.bool "ok" true, .float64 "ratio" "0.5", .binary "raw" [104, 105]], field.Readable) ∧
    ∃ fieldsText, encodeEntry ([[Field.string "conn" "7"]].foldl withFields
        (TidbEncoder.newTiDBEncoder ⟨"msg", "level", "time", "name", "caller", "", "stack", "",
          none, none, none, none⟩))
        (⟨(), (), "2024/01/02 03:04:05.000 +00:00", "", "ready", false, (), "", ""⟩ :
          Entry Unit Unit Unit) [.bool "ok" true, .float64 "ratio" "0.5", .binary "raw" [104, 105]] =
        appendStack ⟨"msg", "level", "time", "name", "caller", "", "stack", "",
            none, none, none, none⟩
          ⟨(), (), "2024/01/02 03:04:05.000 +00:00", "", "ready", false, (), "", ""⟩
          (entryHead ⟨"msg", "level", "time", "name", "caller", "", "stack", "",
              none, none, none, none⟩
            ⟨(), (), "2024/01/02 03:04:05.000 +00:00", "", "ready", false, (), "", ""⟩ ++
            ⟨fieldsText⟩) ++
          (TidbEncoder.newTiDBEncoder (⟨"msg", "level", "time", "name", "caller", "", "stack", "",
            none, none, none, none⟩ : EncoderConfig Unit Unit Unit)).config.lineEnding ∧
      readSection fieldsText =
        if ([[Field.string "conn" "7"]].flatten.filterMap Field.item).all Item.isField then
          some (([[Field.string "conn" "7"]].flatten ++ [Field.bool "ok" true,
            .float64 "ratio" "0.5", .binary "raw" [104, 105]]).filterMap Field.item)
        else none :=
  ⟨by decide, encodeEntry_fields_read_back _ _ _ _ (by decide)⟩

end Line

end TiProxy.Cli
