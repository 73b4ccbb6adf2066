import TiProxy.Model.Cli.Encoder

/-! # A log line of the CLI's encoder

`EncodeEntry` writes one log line on a clone of the encoder with an empty line: the entry's time,
level, logger name, caller and message, each in brackets when its key is configured; a space when
the line is not empty; the fields the logger carries from `With`, which are the line of the
encoder it is called on; the entry's own fields; a closing brace for each namespace the entry's
fields opened; the stack trace in brackets; and the line ending.

`zapcore.Field` and the time, level and caller encoders are zap's, declared outside src/. A field
is kept with the value its `AddTo` hands to one of the encoder's methods; when the method returns
an error, `AddTo` adds the error's text as one more string field. Each of zap's time,
level, name and caller encoders appends one text with `AppendString`, so a configured encoder is
kept as the function from the entry's value to that text.
-/

namespace TiProxy.Cli

section Entry

variable {Time Level Caller : Type}

/-- The fields of `zapcore.EncoderConfig` that the encoder reads. -/
structure EncoderConfig (Time Level Caller : Type) where
  messageKey : String
  levelKey : String
  timeKey : String
  nameKey : String
  callerKey : String
  functionKey : String
  stacktraceKey : String
  lineEnding : String
  encodeTime : Option (Time → String)
  encodeLevel : Option (Level → String)
  encodeName : Option (String → String)
  encodeCaller : Option (Caller → String)

/-- The parts of `zapcore.Entry` that `EncodeEntry` reads. `timeText` is
`ent.Time.Format("2006/01/02 15:04:05.000 -07:00")`, written when no time encoder is configured. -/
structure Entry (Time Level Caller : Type) where
  level : Level
  time : Time
  timeText : String
  loggerName : String
  message : String
  callerDefined : Bool
  caller : Caller
  callerFunction : String
  stack : String

/-- `zapcore.Field`, as the value its `AddTo` hands to one of the encoder's methods. A float, a
complex number, a duration or a time is kept as the text `fmt.Fprint` prints for it, a reflected
value as what `json.Marshal` returned, and an array or object marshaler as what its calls on the
encoder do. A skipped field adds nothing. -/
inductive Field where
  | string (key val : String)
  | bool (key : String) (val : Bool)
  | int64 (key : String) (val : BitVec 64)
  | int32 (key : String) (val : BitVec 32)
  | int16 (key : String) (val : BitVec 16)
  | int8 (key : String) (val : BitVec 8)
  | uint64 (key : String) (val : UInt64)
  | uint32 (key : String) (val : UInt32)
  | uint16 (key : String) (val : UInt16)
  | uint8 (key : String) (val : UInt8)
  | uintptr (key : String) (val : UInt64)
  | byteString (key : String) (val : List UInt8)
  | float64 (key printed : String)
  | float32 (key printed : String)
  | complex128 (key printed : String)
  | complex64 (key printed : String)
  | duration (key printed : String)
  | time (key printed : String)
  | binary (key : String) (val : List UInt8)
  | reflected (key : String) (marshalled : Except String String)
  | array (key : String) (marshaler : Marshalled)
  | object (key : String) (marshaler : Marshalled)
  | openNamespace (key : String)
  | skip

/-- `tidbEncoder`: the line, the configuration, and the number of namespaces opened on this
encoder. -/
structure TidbEncoder (Time Level Caller : Type) where
  line : String
  config : EncoderConfig Time Level Caller
  openNamespaces : Nat

namespace TidbEncoder

/-- `NewTiDBEncoder`, with the default line ending `\n`. -/
def newTiDBEncoder (cfg : EncoderConfig Time Level Caller) : TidbEncoder Time Level Caller :=
  ⟨"", { cfg with lineEnding := if cfg.lineEnding = "" then "\n" else cfg.lineEnding }, 0⟩

/-- `clone`: a new line, which starts with the old one when `keepOld`, and no namespace open. -/
def clone (c : TidbEncoder Time Level Caller) (keepOld : Bool) : TidbEncoder Time Level Caller :=
  ⟨if keepOld then c.line else "", c.config, 0⟩

/-- `OpenNamespace`: the key, an opening brace, and one more namespace to close. -/
def openNamespace (s : TidbEncoder Time Level Caller) (key : String) :
    TidbEncoder Time Level Caller :=
  { s with line := (addKey s.line key).push '\x7b', openNamespaces := s.openNamespaces + 1 }

/-- `closeOpenNamespaces`: a closing brace for each namespace opened on this encoder. -/
def closeOpenNamespaces (s : TidbEncoder Time Level Caller) : TidbEncoder Time Level Caller :=
  { s with line := s.line ++ ⟨List.replicate s.openNamespaces '\x7d'⟩ }

/-- Replace the line with what a line writer makes of it. -/
def write (s : TidbEncoder Time Level Caller) (writer : String → String) :
    TidbEncoder Time Level Caller :=
  { s with line := writer s.line }

@[simp] theorem write_config (s : TidbEncoder Time Level Caller) (writer : String → String) :
    (s.write writer).config = s.config := rfl

@[simp] theorem write_openNamespaces (s : TidbEncoder Time Level Caller)
    (writer : String → String) : (s.write writer).openNamespaces = s.openNamespaces := rfl

@[simp] theorem openNamespace_config (s : TidbEncoder Time Level Caller) (key : String) :
    (s.openNamespace key).config = s.config := rfl

@[simp] theorem openNamespace_openNamespaces (s : TidbEncoder Time Level Caller) (key : String) :
    (s.openNamespace key).openNamespaces = s.openNamespaces + 1 := rfl

end TidbEncoder

/-- What `Field.AddTo` does after a method that returned an error: `AddString` of the error's
text, under the field's key with `Error` appended. -/
def addError (key : String) : Option String → String → String
  | none, line => line
  | some err, line => addString line (key ++ "Error") err

/-- The error `json.Marshal` returned. -/
def marshalError : Except String String → Option String
  | .ok _ => none
  | .error err => some err

/-- `Field.AddTo` on the encoder. The namespaces a marshaler opens are opened on this encoder. -/
def Field.addTo : Field → TidbEncoder Time Level Caller → TidbEncoder Time Level Caller
  | .string key val, enc => enc.write (addString · key val)
  | .bool key val, enc => enc.write (addBool · key val)
  | .int64 key val, enc => enc.write (addInt64 · key val)
  | .int32 key val, enc => enc.write (addInt32 · key val)
  | .int16 key val, enc => enc.write (addInt16 · key val)
  | .int8 key val, enc => enc.write (addInt8 · key val)
  | .uint64 key val, enc => enc.write (addUint64 · key val)
  | .uint32 key val, enc => enc.write (addUint32 · key val)
  | .uint16 key val, enc => enc.write (addUint16 · key val)
  | .uint8 key val, enc => enc.write (addUint8 · key val)
  | .uintptr key val, enc => enc.write (addUintptr · key val)
  | .byteString key val, enc => enc.write (addByteString · key val)
  | .float64 key printed, enc => enc.write (addFloat64 · key printed)
  | .float32 key printed, enc => enc.write (addFloat32 · key printed)
  | .complex128 key printed, enc => enc.write (addComplex128 · key printed)
  | .complex64 key printed, enc => enc.write (addComplex64 · key printed)
  | .duration key printed, enc => enc.write (addDuration · key printed)
  | .time key printed, enc => enc.write (addTime · key printed)
  | .binary key val, enc => enc.write (addBinary · key val)
  | .reflected key marshalled, enc =>
    enc.write fun line => addError key (marshalError marshalled) (addReflected line key marshalled)
  | .array key m, enc =>
    { enc.write fun line => addError key m.err (addArray line key m) with
      openNamespaces := enc.openNamespaces + m.namespaces }
  | .object key m, enc =>
    { enc.write fun line => addError key m.err (addObject line key m) with
      openNamespaces := enc.openNamespaces + m.namespaces }
  | .openNamespace key, enc => enc.openNamespace key
  | .skip, enc => enc

/-- The fields added one after the other, as `addFields` does. -/
def addFields (enc : TidbEncoder Time Level Caller) (fields : List Field) :
    TidbEncoder Time Level Caller :=
  fields.foldl (fun enc field => field.addTo enc) enc

/-- `With` on a logger: `Clone` the encoder, keeping its line, and add the fields to the clone. -/
def withFields (enc : TidbEncoder Time Level Caller) (fields : List Field) :
    TidbEncoder Time Level Caller :=
  addFields (enc.clone true) fields

/-- A bracketed part of the line: `beginQuoteFiled`, the writer, `endQuoteFiled`. -/
def quoteField (line : String) (writer : String → String) : String :=
  endQuoteFiled (writer (beginQuoteFiled line))

/-- The part of `EncodeEntry` before the logger's fields: the time, level, logger name, caller and
message, each in brackets when configured, and a space when the line is not empty. -/
def entryHead (cfg : EncoderConfig Time Level Caller) (ent : Entry Time Level Caller) : String :=
  let line := if cfg.timeKey ≠ "" then
      quoteField "" (appendString (match cfg.encodeTime with
        | some encodeTime => encodeTime ent.time
        | none => ent.timeText))
    else ""
  let line := match cfg.encodeLevel with
    | some encodeLevel =>
      if cfg.levelKey ≠ "" then quoteField line (appendString (encodeLevel ent.level)) else line
    | none => line
  let line := if ent.loggerName ≠ "" ∧ cfg.nameKey ≠ "" then
      -- the default name encoder is `zapcore.FullNameEncoder`, which appends the name
      quoteField line (appendString ((cfg.encodeName.getD id) ent.loggerName))
    else line
  let line := if ent.callerDefined then
      quoteField line fun line =>
        let line := match cfg.encodeCaller with
          | some encodeCaller =>
            if cfg.callerKey ≠ "" then appendString (encodeCaller ent.caller) line else line
          | none => line
        if cfg.functionKey ≠ "" then appendString ent.callerFunction line else line
    else line
  let line := if cfg.messageKey ≠ "" then quoteField line (· ++ ent.message) else line
  if line.length > 0 then line.push ' ' else line

/-- The stack trace of `EncodeEntry`, in brackets, when the entry has one and its key is
configured. -/
def appendStack (cfg : EncoderConfig Time Level Caller) (ent : Entry Time Level Caller)
    (line : String) : String :=
  if ent.stack ≠ "" ∧ cfg.stacktraceKey ≠ "" then quoteField line (· ++ ent.stack) else line

/-- `EncodeEntry`: on a clone with an empty line, the head, the encoder's own line (the fields of
`With`), the entry's fields, the closing braces of the namespaces those fields opened, the stack
trace and the line ending. -/
def encodeEntry (e : TidbEncoder Time Level Caller) (ent : Entry Time Level Caller)
    (fields : List Field) : String :=
  let c := (e.clone false).write fun _ => entryHead e.config ent ++ e.line
  let c := (addFields c fields).closeOpenNamespaces
  appendStack c.config ent c.line ++ c.config.lineEnding

end Entry

end TiProxy.Cli
