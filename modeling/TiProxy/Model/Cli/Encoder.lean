import Mathlib.Data.List.Basic

/-! # The CLI's log encoder

`tidbEncoder` writes each field of a log line as `[key=value]`. `safeAddString` appends a text to
the line. A first loop over the runes sets `needQuotes` when some rune is at or below the space or
is one of `\ " [ ] =`; a second loop decodes each rune with `utf8.DecodeRuneInString` and appends
`\ufffd` for `utf8.RuneError`, an escape for a one-byte double quote, newline, carriage return, tab
or other control rune, and the rune's own bytes otherwise. The text is wrapped in double quotes
when `needQuotes` is set.

A Lean `String` is a sequence of Unicode scalar values, so it stands for a valid UTF-8 text, on
which `utf8.DecodeRuneInString` returns each rune with its encoded size, and `utf8.RuneError` only
for U+FFFD itself. Every piece the encoder appends is valid UTF-8, so the line is a `String` too.
-/

namespace TiProxy.Cli

/-- `unicode.IsControl`: the C0 controls and the C1 controls with DEL. -/
def isControl (r : Char) : Bool :=
  r.toNat ≤ 0x1f || (0x7f ≤ r.toNat && r.toNat ≤ 0x9f)

/-- `utf8.RuneError`, U+FFFD. -/
def runeError : Char := '\uFFFD'

/-- `fmt.Fprintf(f.line, "%04x", r)`: the lower-case hexadecimal digits of `n`, padded with zeros
to four. -/
def hex04 (n : Nat) : List Char :=
  let digits := Nat.toDigits 16 n
  List.replicate (4 - digits.length) '0' ++ digits

/-- A rune for which the first loop of `safeAddString` sets `needQuotes`. -/
def quotedRune (b : Char) : Bool :=
  b.toNat ≤ 0x20 || b = '\\' || b = '"' || b = '[' || b = ']' || b = '='

/-- `needQuotes` after the first loop of `safeAddString`. -/
def needQuotes (s : String) : Bool := s.toList.any quotedRune

/-- What one iteration of the second loop of `safeAddString` appends for the rune `r`: the size
is 1 exactly for a rune below 0x80, and `s[i : i+size]` is the rune's own encoding. -/
def appendRune (r : Char) : List Char :=
  if r = runeError then "\\ufffd".toList
  else if r.utf8Size = 1 then
    if r = '"' then "\\\"".toList
    else if r = '\n' then "\\n".toList
    else if r = '\r' then "\\r".toList
    else if r = '\t' then "\\t".toList
    else if isControl r then "\\u".toList ++ hex04 r.toNat
    else [r]
  else [r]

/-- The text `safeAddString` appends for `s`. -/
def safeAddString (s : String) : String :=
  let body := s.toList.flatMap appendRune
  if needQuotes s then ⟨'"' :: body ++ ['"']⟩ else ⟨body⟩

/-- `beginQuoteFiled`: a space unless the line is empty, then the field's opening bracket. -/
def beginQuoteFiled (line : String) : String :=
  (if line.length > 0 then line.push ' ' else line).push '['

/-- `endQuoteFiled`. -/
def endQuoteFiled (line : String) : String := line.push ']'

/-- `addElementSeparator`: a comma unless the line is empty or ends with an opening or a
separator. -/
def addElementSeparator (line : String) : String :=
  match line.toList.getLast? with
  | none => line
  | some last =>
    if last = '\x7b' ∨ last = '[' ∨ last = ':' ∨ last = ',' ∨ last = ' ' ∨ last = '=' then line
    else line.push ','

/-- `addKey`. -/
def addKey (line key : String) : String :=
  (addElementSeparator line ++ safeAddString key).push '='

/-- `AddString`: the field `[key=val]`. -/
def addString (line key val : String) : String :=
  endQuoteFiled (addKey (beginQuoteFiled line) key ++ safeAddString val)

/-! ## The other field writers

Every `Add*` method other than `AddString` opens the field, writes the key, lets its `Append*`
method write the value, and closes the field. The `Append*` methods of the booleans and the
integers print the value with `fmt.Fprint`, after a separator; a Go `int` or `uint` is 64 bits
wide on the platforms TiProxy is built for. -/

/-- The common shape of the `Add*` methods other than `AddString`. -/
def addField (line key : String) (appendValue : String → String) : String :=
  endQuoteFiled (appendValue (addKey (beginQuoteFiled line) key))

/-- An `Append*` method that prints its value with `fmt.Fprint`: a separator, then the text as it
is. -/
def appendFormatted (text line : String) : String := addElementSeparator line ++ text

/-- `AppendString`: the text as it is, without escaping. -/
def appendString (v : String) : String → String := appendFormatted v

/-- `AppendBool`. -/
def appendBool (v : Bool) : String → String := appendFormatted (if v then "true" else "false")

/-- `AppendInt`. -/
def appendInt (v : BitVec 64) : String → String := appendFormatted (toString v.toInt)

/-- `AppendInt64`. -/
def appendInt64 (v : BitVec 64) : String → String := appendFormatted (toString v.toInt)

/-- `AppendInt32`. -/
def appendInt32 (v : BitVec 32) : String → String := appendFormatted (toString v.toInt)

/-- `AppendInt16`. -/
def appendInt16 (v : BitVec 16) : String → String := appendFormatted (toString v.toInt)

/-- `AppendInt8`. -/
def appendInt8 (v : BitVec 8) : String → String := appendFormatted (toString v.toInt)

/-- `AppendUint`. -/
def appendUint (v : UInt64) : String → String := appendFormatted (toString v.toNat)

/-- `AppendUint64`. -/
def appendUint64 (v : UInt64) : String → String := appendFormatted (toString v.toNat)

/-- `AppendUint32`. -/
def appendUint32 (v : UInt32) : String → String := appendFormatted (toString v.toNat)

/-- `AppendUint16`. -/
def appendUint16 (v : UInt16) : String → String := appendFormatted (toString v.toNat)

/-- `AppendUint8`. -/
def appendUint8 (v : UInt8) : String → String := appendFormatted (toString v.toNat)

/-- `AppendUintptr`. -/
def appendUintptr (v : UInt64) : String → String := appendFormatted (toString v.toNat)

/-- `hex.EncodeToString`: two lower-case hexadecimal digits per byte. -/
def hexEncode (v : List UInt8) : String :=
  ⟨v.flatMap fun b => [Nat.digitChar (b.toNat / 16), Nat.digitChar (b.toNat % 16)]⟩

/-- `AppendByteString`: `0x`, then the bytes in hexadecimal. -/
def appendByteString (v : List UInt8) : String → String := appendFormatted ("0x" ++ hexEncode v)

/-- An `Append*` method whose value `fmt.Fprint` prints with Go's own formatting: a float, a
complex number, a `time.Duration` or a `time.Time`. The model keeps the printed text. -/
def appendPrinted (printed : String) : String → String := appendFormatted printed

/-- `AppendFloat64`. -/
def appendFloat64 (printed : String) : String → String := appendPrinted printed

/-- `AppendFloat32`. -/
def appendFloat32 (printed : String) : String → String := appendPrinted printed

/-- `AppendComplex128`. -/
def appendComplex128 (printed : String) : String → String := appendPrinted printed

/-- `AppendComplex64`. -/
def appendComplex64 (printed : String) : String → String := appendPrinted printed

/-- `AppendDuration`. -/
def appendDuration (printed : String) : String → String := appendPrinted printed

/-- `AppendTime`. -/
def appendTime (printed : String) : String → String := appendPrinted printed

/-- `unicode.IsSpace`: the Latin-1 spaces and the other characters of Unicode's `White_Space`. -/
def isSpace (c : Char) : Bool :=
  c = '\t' || c = '\n' || c = '\x0b' || c = '\x0c' || c = '\r' || c = ' ' || c = '\u0085' ||
    c = '\u00A0' || c = '\u1680' || ('\u2000' ≤ c && c ≤ '\u200A') || c = '\u2028' ||
    c = '\u2029' || c = '\u202F' || c = '\u205F' || c = '\u3000'

/-- `strings.TrimSpace`. -/
def trimSpace (s : String) : String :=
  ⟨((s.toList.dropWhile isSpace).reverse.dropWhile isSpace).reverse⟩

/-- `AppendReflected` on what `json.Marshal` returned: a separator, then the trimmed text through
`safeAddString`; after the separator it returns a marshalling error. -/
def appendReflected (marshalled : Except String String) (line : String) : String :=
  match marshalled with
  | .ok bytes => addElementSeparator line ++ safeAddString (trimSpace bytes)
  | .error _ => addElementSeparator line

/-- What the `MarshalLogArray` or `MarshalLogObject` of a marshaler does through the encoder's
methods: the text those calls append after the opening bracket or brace, the namespaces they
open, and the error the marshaler returns. -/
structure Marshalled where
  written : String
  namespaces : Nat
  err : Option String
deriving DecidableEq, Repr

/-- `AppendArray` and `AppendObject`: a separator, the opening, what the marshaler writes, and
the closing unless the marshaler failed. -/
def appendMarshalled (opening closing : Char) (m : Marshalled) (line : String) : String :=
  let line := (addElementSeparator line).push opening ++ m.written
  if m.err.isNone then line.push closing else line

/-- `AppendArray`. -/
def appendArray (m : Marshalled) : String → String := appendMarshalled '[' ']' m

/-- `AppendObject`. -/
def appendObject (m : Marshalled) : String → String := appendMarshalled '\x7b' '\x7d' m

/-- The `Add*` methods whose `Append*` method may fail: the field is opened and keyed, and closed
only when its value did not fail. -/
def addFallible (line key : String) (appendValue : String → String) (failed : Bool) : String :=
  let line := appendValue (addKey (beginQuoteFiled line) key)
  if failed then line else endQuoteFiled line

/-- `AddArray`. -/
def addArray (line key : String) (m : Marshalled) : String :=
  addFallible line key (appendArray m) m.err.isSome

/-- `AddObject`. -/
def addObject (line key : String) (m : Marshalled) : String :=
  addFallible line key (appendObject m) m.err.isSome

/-- `AddReflected`. -/
def addReflected (line key : String) (marshalled : Except String String) : String :=
  addFallible line key (appendReflected marshalled) (marshalled matches .error _)

/-- The alphabet of `base64.StdEncoding`. -/
def base64Alphabet : List Char :=
  "ABCDEFGHIJKLMNOPQRSTUVWXYZabcdefghijklmnopqrstuvwxyz0123456789+/".toList

/-- The character of the alphabet for a six-bit group. -/
def base64Digit (n : Nat) : Char := base64Alphabet.getD (n % 64) 'A'

/-- `base64.StdEncoding.EncodeToString`: each three bytes as four characters, and a last one or two
bytes as two or three characters padded with `=`. -/
def base64Encode : List UInt8 → List Char
  | a :: b :: c :: rest =>
    let n := a.toNat * 65536 + b.toNat * 256 + c.toNat
    [base64Digit (n / 262144), base64Digit (n / 4096), base64Digit (n / 64), base64Digit n] ++
      base64Encode rest
  | [a, b] =>
    let n := a.toNat * 65536 + b.toNat * 256
    [base64Digit (n / 262144), base64Digit (n / 4096), base64Digit (n / 64), '=']
  | [a] =>
    let n := a.toNat * 65536
    [base64Digit (n / 262144), base64Digit (n / 4096), '=', '=']
  | [] => []

example : base64Encode [77, 97, 110, 77, 97] = "TWFuTWE=".toList := by decide

/-- `AddBinary`: the base64 text of the bytes, as `AddString` writes it. -/
def addBinary (line key : String) (val : List UInt8) : String :=
  addString line key ⟨base64Encode val⟩

/-- `AddBool`. -/
def addBool (line key : String) (val : Bool) : String := addField line key (appendBool val)

/-- `AddInt`. -/
def addInt (line key : String) (val : BitVec 64) : String := addField line key (appendInt val)

/-- `AddInt64`. -/
def addInt64 (line key : String) (val : BitVec 64) : String :=
  addField line key (appendInt64 val)

/-- `AddInt32`. -/
def addInt32 (line key : String) (val : BitVec 32) : String :=
  addField line key (appendInt32 val)

/-- `AddInt16`. -/
def addInt16 (line key : String) (val : BitVec 16) : String :=
  addField line key (appendInt16 val)

/-- `AddInt8`. -/
def addInt8 (line key : String) (val : BitVec 8) : String := addField line key (appendInt8 val)

/-- `AddUint`. -/
def addUint (line key : String) (val : UInt64) : String := addField line key (appendUint val)

/-- `AddUint64`. -/
def addUint64 (line key : String) (val : UInt64) : String :=
  addField line key (appendUint64 val)

/-- `AddUint32`. -/
def addUint32 (line key : String) (val : UInt32) : String :=
  addField line key (appendUint32 val)

/-- `AddUint16`. -/
def addUint16 (line key : String) (val : UInt16) : String :=
  addField line key (appendUint16 val)

/-- `AddUint8`. -/
def addUint8 (line key : String) (val : UInt8) : String := addField line key (appendUint8 val)

/-- `AddUintptr`. -/
def addUintptr (line key : String) (val : UInt64) : String :=
  addField line key (appendUintptr val)

/-- `AddByteString`. -/
def addByteString (line key : String) (val : List UInt8) : String :=
  addField line key (appendByteString val)

/-- `AddFloat64`. -/
def addFloat64 (line key printed : String) : String := addField line key (appendFloat64 printed)

/-- `AddFloat32`. -/
def addFloat32 (line key printed : String) : String := addField line key (appendFloat32 printed)

/-- `AddComplex128`. -/
def addComplex128 (line key printed : String) : String :=
  addField line key (appendComplex128 printed)

/-- `AddComplex64`. -/
def addComplex64 (line key printed : String) : String :=
  addField line key (appendComplex64 printed)

/-- `AddDuration`. -/
def addDuration (line key printed : String) : String := addField line key (appendDuration printed)

/-- `AddTime`. -/
def addTime (line key printed : String) : String := addField line key (appendTime printed)

end TiProxy.Cli
