import Mathlib.Data.List.Basic

/-! # The capture filter

Capture redacts statements that carry credentials or cloud storage URLs, or that replay cannot
run. `IsSensitiveSQL` reads keywords from a lexer over the statement and compares them with the
entries of `sensitiveKeywords`, the first keyword with the first word of each entry and, for a
two-word entry whose first word matched, the next keyword with the second word. The lexer is
outside src/: its stream of keywords is an input, `tokens n` being what the `n`-th call of
`NextToken` returns.
-/

namespace TiProxy.SqlReplay.Capture

/-- `sensitiveKeywords`. -/
def sensitiveKeywords : List (List String) :=
  [ -- contain passwords
    ["CREATE", "USER"], ["ALTER", "USER"], ["SET", "PASSWORD"], ["GRANT"],
    -- contain cloud storage url
    ["BACKUP"], ["RESTORE"], ["IMPORT"],
    -- not supported yet
    ["LOAD", "DATA"]]

/-- The loop of `IsSensitiveSQL` over the entries left, with the keyword it compares and the
number of keywords read so far. `kw[0]` is the head of the entry; every entry of the table has
one. -/
def isSensitiveLoop (tokens : Nat → String) : List (List String) → String → Nat → Bool
  | [], _, _ => false
  | kw :: rest, keyword, read =>
    if kw.head? ≠ some keyword then isSensitiveLoop tokens rest keyword read
    else if kw.length ≤ 1 then true
    else
      let keyword := tokens read
      if kw[1]? = some keyword then true else isSensitiveLoop tokens rest keyword (read + 1)

/-- `IsSensitiveSQL` on the statement whose lexer yields `tokens`. -/
def isSensitiveSQL (tokens : Nat → String) : Bool :=
  let keyword := tokens 0
  if keyword.length = 0 then false else isSensitiveLoop tokens sensitiveKeywords keyword 1

end TiProxy.SqlReplay.Capture
