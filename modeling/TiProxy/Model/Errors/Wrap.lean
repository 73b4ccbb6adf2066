import Mathlib.Data.List.Basic

/-! # Errors with a stack trace, and warnings

The `errors` package wraps an error in an `*Error` that records a stack trace (`WithStack`,
`WithStackDepth`), or in a `*Warning`. Both take part in Go's `errors.Is` and `errors.Unwrap`
through their methods: `(*Error).Is` asks `errors.Is` of the wrapped error, `(*Error).Unwrap`
returns `errors.Unwrap` of it, `(*Warning).Unwrap` returns the wrapped error, and
`(*Warning).Is` holds for every `*Warning` target.

`errors.Is` and `errors.Unwrap` are Go's, outside src/, and are modelled from their documented
loop: compare with the target, ask the error's `Is` method, then go on with its `Unwrap`. Since
every error here is a pointer, `==` compares the dynamic type and the allocation, which `id`
names. The stack trace is not kept: nothing the model reads depends on it.
-/

namespace TiProxy.Errors

/-- A non-nil Go `error`, by its dynamic type: an error with neither `Unwrap` nor `Is`, such as
`errors.New`'s; an error whose `Unwrap` returns another, such as `fmt.Errorf` with `%w`; an
`*Error` wrapping an error, or wrapping nil, which only `WithStackDepth` makes; or a
`*Warning`. -/
inductive GoError where
  | leaf (id : Nat) (msg : String)
  | wrapped (id : Nat) (msg : String) (err : GoError)
  | stack (id : Nat) (err : GoError)
  | stackOfNil (id : Nat)
  | warning (id : Nat) (err : GoError)
deriving DecidableEq, Repr

namespace GoError

/-- The error is a `*Warning`. -/
def isWarning : GoError → Bool
  | .warning .. => true
  | _ => false

/-- `Error()`. `(*Error).Error` prints the error with `%s`, whose `Format` prints the wrapped
error with `%s`; `fmt` prints a nil one as `%!s(<nil>)`. -/
def error : GoError → String
  | .leaf _ msg => msg
  | .wrapped _ msg _ => msg
  | .stack _ err => err.error
  | .stackOfNil _ => "%!s(<nil>)"
  | .warning _ err => err.error

/-- The number of errors in the wrapping, itself included. -/
def depth : GoError → Nat
  | .leaf .. => 1
  | .wrapped _ _ err => err.depth + 1
  | .stack _ err => err.depth + 1
  | .stackOfNil _ => 1
  | .warning _ err => err.depth + 1

end GoError

/-- `errors.Unwrap`: the result of the error's `Unwrap` method, or nil without one. -/
def errorsUnwrap : GoError → Option GoError
  | .leaf .. => none
  | .wrapped _ _ err => some err
  -- `(*Error).Unwrap` is `errors.Unwrap(e.err)`
  | .stack _ err => errorsUnwrap err
  | .stackOfNil _ => none
  | .warning _ err => some err

/-- The loop of `errors.Is` from `err` towards a non-nil `target`, for at most `fuel` rounds:
`err == target`, the `Is` method, then `Unwrap`, stopping at nil. -/
def isLoop (target : GoError) : Nat → GoError → Bool
  | 0, _ => false
  | fuel + 1, err =>
    err == target ||
      (match err with
        -- `(*Error).Is` is `errors.Is(e.err, target)`, false for a nil `e.err`
        | .stack _ inner => isLoop target fuel inner
        -- `(*Warning).Is` holds for every `*Warning` target
        | .warning .. => target.isWarning
        | _ => false) ||
      (errorsUnwrap err).elim false (isLoop target fuel)

/-- `errors.Is`; a nil error is only the nil target. Every round of the loop goes one error
deeper, so the depth of `err` is fuel enough. -/
def errorsIs : Option GoError → Option GoError → Bool
  | none, target => target.isNone
  | some _, none => false
  | some err, some target => isLoop target err.depth err

/-- `WithStack`: nil for a nil error. -/
def withStack (id : Nat) : Option GoError → Option GoError
  | none => none
  | some err => some (.stack id err)

/-- `WithStackDepth`, which wraps even a nil error. The depth only sizes the stack trace. -/
def withStackDepth (id : Nat) (err : Option GoError) (_depth : Nat) : Option GoError :=
  some (err.elim (.stackOfNil id) (.stack id))

end TiProxy.Errors
