import TiProxy.Model.Cli.Request

/-! # Which endpoint decides what `doRequest` returns

An endpoint stops the loop when its `Do` still fails after the `io.EOF` retry or when it answers
200 or 400; any other answer lets the loop go on. So the first endpoint that stops decides the
reply, and the endpoints after it are never tried: a transport error at one endpoint ends the
request even when a later endpoint would answer 200. When no endpoint stops, the error returned is
the one the last endpoint left: an internal error after a 500, and nil after any other answer, or
when there is no endpoint at all.
-/

namespace TiProxy.Cli

/-- The endpoint ends the loop: `Do` failed after the retry, or the answer is 200 or 400. -/
def Visit.stops (visit : Visit) : Bool :=
  match visit.result with
  | .failed .. => true
  | .response statusCode _ _ => statusCode = 200 || statusCode = 400

/-- What the loop returns at an endpoint that stops it. -/
def Visit.reply (visit : Visit) : String × Option String :=
  match visit.result with
  | .failed err _ => ("", some err)
  | .response statusCode _ body =>
    if statusCode = 200 then (body, none) else ("", some ("bad request: " ++ body))

/-- The error an endpoint that lets the loop go on leaves. -/
def Visit.leftErr (visit : Visit) : Option String :=
  match visit.result with
  | .failed .. => none
  | .response statusCode _ body =>
    if statusCode = 500 then some ("internal error: " ++ body) else none

theorem visitStep_of_stops {visit : Visit} (stopping : visit.stops = true) (rete : String) :
    visitStep rete visit = .inl visit.reply := by
  unfold Visit.stops at stopping
  unfold visitStep Visit.reply
  cases result : visit.result with
  | failed err isEOF => rfl
  | response statusCode status body =>
    rw [result] at stopping
    by_cases ok : statusCode = 200
    · simp [ok]
    · have bad : statusCode = 400 := by simpa [ok] using stopping
      simp [ok, bad]

theorem visitStep_of_continues {visit : Visit} (continuing : visit.stops = false)
    (rete : String) : ∃ rete', visitStep rete visit = .inr (rete', visit.leftErr) := by
  unfold Visit.stops at continuing
  unfold visitStep Visit.leftErr
  cases result : visit.result with
  | failed err isEOF => simp [result] at continuing
  | response statusCode status body =>
    simp only [result, Bool.or_eq_false_iff, decide_eq_false_iff_not] at continuing
    dsimp only
    rw [if_neg continuing.1, if_neg continuing.2]
    by_cases internal : statusCode = 500
    · subst internal
      exact ⟨rete, by simp⟩
    · exact ⟨status ++ ": " ++ body, by simp [internal]⟩

/-- Endpoints that let the loop go on only change its status line and its error, which is the
one the last of them left. -/
theorem doRequestLoop_append_continuing :
    ∀ (passed : List Visit), (∀ visit ∈ passed, visit.stops = false) →
      ∀ (rete : String) (err : Option String), ∃ rete',
        ∀ rest, doRequestLoop rete err (passed ++ rest) =
          doRequestLoop rete' ((passed.getLast?.map Visit.leftErr).getD err) rest
  | [], _, rete, err => ⟨rete, fun _ => rfl⟩
  | visit :: passed, continuing, rete, err => by
    obtain ⟨rete', stepped⟩ :=
      visitStep_of_continues (continuing visit (List.mem_cons_self _ _)) rete
    obtain ⟨rete'', later⟩ := doRequestLoop_append_continuing passed
      (fun other member => continuing other (List.mem_cons_of_mem _ member)) rete' visit.leftErr
    refine ⟨rete'', fun rest => ?_⟩
    rw [List.cons_append, doRequestLoop, stepped]
    dsimp only
    rw [later rest]
    cases passed <;> simp [List.getLast?_cons]

/-- The first endpoint that stops the loop decides what `doRequest` returns, whatever the
endpoints after it: the body and a nil error for a 200 answer, an error for a 400 answer or a
`Do` that still fails after the `io.EOF` retry. When no endpoint stops it, the error is nil unless
the last endpoint answered 500, so no endpoints at all, or answers such as 404 or 503 at every
endpoint, give a nil error. -/
theorem doRequest_first_stop (passed : List Visit)
    (continuing : ∀ visit ∈ passed, visit.stops = false) :
    (∀ visit rest, visit.stops = true → doRequest none (passed ++ visit :: rest) = visit.reply) ∧
      ((doRequest none passed).2 = none ↔
        ∀ last ∈ passed.getLast?, ∀ status body, last.result ≠ .response 500 status body) := by
  obtain ⟨rete, loop⟩ := doRequestLoop_append_continuing passed continuing "" none
  refine ⟨fun visit rest stopping => ?_, ?_⟩
  · rw [doRequest, loop, doRequestLoop, visitStep_of_stops stopping]
  · have whole := loop []
    rw [List.append_nil] at whole
    rw [doRequest, whole, doRequestLoop]
    cases last : passed.getLast? with
    | none => simp
    | some visit =>
      simp only [Option.map_some', Option.getD_some, Option.mem_def, Option.some.injEq,
        forall_eq']
      unfold Visit.leftErr
      split <;> simp_all

/-- Two endpoints that each answer 503 Service Unavailable. -/
def twoUnavailable : List Visit :=
  [⟨.response 503 "503 Service Unavailable" "busy", .failed "" false⟩,
    ⟨.response 503 "503 Service Unavailable" "busy", .failed "" false⟩]

theorem doRequest_first_stop_two_unavailable :
    (∀ visit ∈ twoUnavailable, visit.stops = false) ∧
      ((doRequest none twoUnavailable).2 = none ↔
        ∀ last ∈ twoUnavailable.getLast?, ∀ status body, last.result ≠ .response 500 status body) :=
  have continuing : ∀ visit ∈ twoUnavailable, visit.stops = false := by decide
  ⟨continuing, (doRequest_first_stop twoUnavailable continuing).2⟩

/-- A refused connection at the first endpoint ends the request with its error although the
second endpoint answers 200; with no endpoint, or with every endpoint answering 503, `doRequest`
returns a nil error without any 200 answer. -/
theorem doRequest_transport_error_stops_and_nil_error_without_ok :
    doRequest none [⟨.failed "connection refused" false, .failed "" false⟩,
        ⟨.response 200 "200 OK" "ok", .failed "" false⟩] = ("", some "connection refused") ∧
      doRequest none [] = ("", none) ∧
      doRequest none twoUnavailable = ("503 Service Unavailable: busy", none) := by
  decide

end TiProxy.Cli
