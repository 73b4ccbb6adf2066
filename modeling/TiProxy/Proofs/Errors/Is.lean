import TiProxy.Model.Errors.Wrap

/-! # What `errors.Is` finds through the wrappers

`errors.Is` on an error of this package holds exactly when the target is the error or one it
wraps, at any depth, or when the target is a `*Warning` and so is one of those errors. An
`*Error` is transparent: its `Is` asks the wrapped error and its `Unwrap` skips the wrapped error,
so the loop still meets every wrapped error, and what `Unwrap` skips `Is` has already asked.
-/

namespace TiProxy.Errors

namespace GoError

/-- The error and every error it wraps, at any depth. -/
def chain : GoError → List GoError
  | err@(.leaf ..) => [err]
  | err@(.wrapped _ _ inner) => err :: inner.chain
  | err@(.stack _ inner) => err :: inner.chain
  | err@(.stackOfNil _) => [err]
  | err@(.warning _ inner) => err :: inner.chain

/-- One error of the chain meets `target`: it is the target, or both are `*Warning`s. -/
def hits (target err : GoError) : Bool :=
  err == target || (target.isWarning && err.isWarning)

theorem depth_pos (err : GoError) : 0 < err.depth := by
  cases err <;> simp [depth]

/-- `Unwrap` goes one error deeper, so the loop's fuel suffices. -/
theorem depth_lt_of_errorsUnwrap {err inner : GoError} (unwrapped : errorsUnwrap err = some inner) :
    inner.depth < err.depth := by
  induction err with
  | stack _ err ih => exact Nat.lt_succ_of_lt (ih unwrapped)
  | leaf | stackOfNil => cases unwrapped
  | wrapped _ _ err | warning _ err =>
    cases unwrapped
    exact Nat.lt_succ_self _

/-- What `Unwrap` returns is in the chain, and so is the rest of its chain. -/
theorem chain_subset_of_errorsUnwrap {err inner : GoError}
    (unwrapped : errorsUnwrap err = some inner) : inner.chain ⊆ err.chain := by
  induction err with
  | stack _ err ih => exact List.Subset.trans (ih unwrapped) (List.subset_cons_self _ _)
  | leaf | stackOfNil => cases unwrapped
  | wrapped _ _ err | warning _ err =>
    cases unwrapped
    exact List.subset_cons_self _ _

end GoError

open GoError

section Loop

variable (target : GoError)

/-- With fuel for every round, the loop of `errors.Is` asks each error of the chain once. -/
theorem isLoop_eq_any :
    ∀ (fuel : Nat) (err : GoError), err.depth ≤ fuel →
      isLoop target fuel err = err.chain.any (hits target)
  | 0, err, enough => absurd enough (Nat.not_le_of_lt (depth_pos err))
  | fuel + 1, err, enough => by
    -- what the loop finds after `Unwrap` it has already found in the chain
    have unwrapped : (errorsUnwrap err).elim false (isLoop target fuel) = true →
        err.chain.any (hits target) = true := by
      cases inner : errorsUnwrap err with
      | none => exact False.elim ∘ Bool.false_ne_true
      | some inner' =>
        have below := depth_lt_of_errorsUnwrap inner
        rw [Option.elim_some, isLoop_eq_any fuel inner' (by omega), List.any_eq_true, List.any_eq_true]
        exact fun ⟨e, mem, hit⟩ => ⟨e, chain_subset_of_errorsUnwrap inner mem, hit⟩
    cases err with
    | leaf | stackOfNil => simp [isLoop, chain, hits, isWarning, errorsUnwrap]
    | wrapped _ _ inner | warning _ inner =>
      simp only [depth] at enough
      simp [isLoop, chain, hits, isWarning, errorsUnwrap, isLoop_eq_any fuel inner (by omega)]
    | stack id inner =>
      simp only [depth] at enough
      have asked : (stack id inner).chain.any (hits target) =
          (stack id inner == target || inner.chain.any (hits target)) := by
        simp [chain, hits, isWarning]
      rw [asked] at unwrapped ⊢
      rw [isLoop, isLoop_eq_any fuel inner (by omega)]
      exact Bool.or_iff_left_iff_imp.mpr unwrapped

/-- `errors.Is` on two non-nil errors asks each error of the chain. -/
theorem errorsIs_eq_any (err : GoError) :
    errorsIs (some err) (some target) = err.chain.any (hits target) :=
  isLoop_eq_any target err.depth err le_rfl

end Loop

/-- `errors.Is(err, target)` holds exactly when `target` is `err` or an error it wraps, at any
depth, through `*Error`, `*Warning` or `Unwrap`, or when `target` is a `*Warning` and so is one of
those errors. -/
theorem errorsIs_iff_mem_chain (err target : GoError) :
    errorsIs (some err) (some target) = true ↔
      target ∈ err.chain ∨ target.isWarning = true ∧ ∃ e ∈ err.chain, e.isWarning = true := by
  rw [errorsIs_eq_any, List.any_eq_true]
  simp only [hits, Bool.or_eq_true, beq_iff_eq, Bool.and_eq_true, and_or_left, exists_or,
    exists_eq_right]
  exact or_congr_right ⟨fun ⟨e, mem, isWarn, eIsWarn⟩ => ⟨isWarn, e, mem, eIsWarn⟩,
    fun ⟨isWarn, e, mem, eIsWarn⟩ => ⟨e, mem, isWarn, eIsWarn⟩⟩

end TiProxy.Errors
