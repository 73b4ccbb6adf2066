import Mathlib.Data.List.Basic

/-! # The CLI's request to the proxy's API

`doRequest` builds one request and sends it to the configured API endpoints in a random order. At
each endpoint it calls `Do`; a failure that is `io.EOF` flips the scheme between `http` and
`https` and calls `Do` once more. A failure left after that returns at once. A 200 answer returns
its body and a 400 answer returns a bad-request error; a 500 answer records an internal error and
any other answer records its status line, and the loop goes on. After the last endpoint it returns
the recorded status line and the error of the last `Do`. The model takes what each endpoint did,
in the visiting order, as its input; the scheme the retry flips stays flipped for the endpoints
after it, and is part of what they did.
-/

namespace TiProxy.Cli

/-- What one call of `bctx.Client.Do(req)` returned. -/
inductive DoResult where
  /-- `Do` failed with the error `err`; `isEOF` when `errors.Is(err, io.EOF)`. -/
  | failed (err : String) (isEOF : Bool)
  /-- A response: `StatusCode`, the `Status` line, and the body `io.ReadAll` read. -/
  | response (statusCode : Nat) (status : String) (body : String)
deriving DecidableEq, Repr

/-- What the loop got at one endpoint: the first call of `Do`, and the call after the scheme
flip, which only an `io.EOF` failure of the first makes. -/
structure Visit where
  first : DoResult
  retry : DoResult
deriving DecidableEq, Repr

/-- The result the loop acts on: the retry when the first call failed with `io.EOF`. -/
def Visit.result (visit : Visit) : DoResult :=
  match visit.first with
  | .failed _ true => visit.retry
  | first => first

/-- The body of the loop for one endpoint: return (`inl`), or `continue` with the status line
`rete` and the error `err` it leaves (`inr`). A response sets `err` to nil before the switch. -/
def visitStep (rete : String) (visit : Visit) :
    (String × Option String) ⊕ (String × Option String) :=
  match visit.result with
  | .failed err _ => .inl ("", some err)
  | .response statusCode status body =>
    if statusCode = 200 then .inl (body, none)
    else if statusCode = 400 then .inl ("", some ("bad request: " ++ body))
    else if statusCode = 500 then .inr (rete, some ("internal error: " ++ body))
    else .inr (status ++ ": " ++ body, none)

/-- The loop over the endpoints in the visiting order, from `rete` and `err`. -/
def doRequestLoop (rete : String) (err : Option String) : List Visit → String × Option String
  | [] => (rete, err)
  | visit :: rest =>
    match visitStep rete visit with
    | .inl reply => reply
    | .inr (rete, err) => doRequestLoop rete err rest

/-- `doRequest`: `newRequestErr` is the error of `http.NewRequestWithContext`, and `visits` what
the endpoints did, in the order `rand.Perm(len(bctx.CUrls))` visits them. -/
def doRequest (newRequestErr : Option String) (visits : List Visit) : String × Option String :=
  match newRequestErr with
  | some err => ("", some err)
  | none => doRequestLoop "" none visits

end TiProxy.Cli
