import Mathlib.Data.List.AList

/-! # Loops over Go maps

A `for key, value := range m` loop visits the entries of `m` in an order Go leaves unspecified.
When each iteration only reads and writes the cell of its own key, the loop computes the same
cell-wise update in every order. `foldl_cell` states this once for a fold over the entries of
an association list with distinct keys; the metrics reader's loops over rules, histories and
payloads are all of this shape. `foldlM_update` is the same for a loop that can panic.
-/

namespace TiProxy

section Loops

variable {α V W X Y : Type} [DecidableEq α]

private theorem foldl_cell_of_nodupKeys (step : W → (Σ _ : α, V) → W) (cell : W → α → X) (update : α → V → X → X)
    (frame : ∀ w entry other, other ≠ entry.1 → cell (step w entry) other = cell w other)
    (self : ∀ w entry, cell (step w entry) entry.1 = update entry.1 entry.2 (cell w entry.1)) :
    ∀ (entries : List (Σ _ : α, V)), entries.NodupKeys → ∀ (w : W) (key : α),
      cell (entries.foldl step w) key =
        (entries.dlookup key).elim (cell w key) fun value => update key value (cell w key)
  | [], _, w, key => rfl
  | ⟨first, value⟩ :: rest, distinct, w, key => by
    obtain ⟨fresh, distinct⟩ := List.nodupKeys_cons.mp distinct
    rw [List.foldl_cons, foldl_cell_of_nodupKeys step cell update frame self rest distinct]
    by_cases same : key = first
    · subst same
      simp only [List.dlookup_eq_none.mpr fresh, self _ ⟨key, value⟩, List.dlookup_cons_eq,
        Option.elim]
    · simp only [frame _ ⟨first, value⟩ _ same, List.dlookup_cons_ne rest ⟨first, value⟩ same]

/-- A loop over a map whose iterations touch only their own key's cell updates each cell of a
key of the map once, and leaves every other cell alone. -/
theorem foldl_cell (step : W → (Σ _ : α, V) → W) (cell : W → α → X) (update : α → V → X → X)
    (frame : ∀ w entry other, other ≠ entry.1 → cell (step w entry) other = cell w other)
    (self : ∀ w entry, cell (step w entry) entry.1 = update entry.1 entry.2 (cell w entry.1))
    (map : AList (fun _ : α => V)) (w : W) (key : α) :
    cell (map.entries.foldl step w) key =
      (map.lookup key).elim (cell w key) fun value => update key value (cell w key) :=
  foldl_cell_of_nodupKeys step cell update frame self map.entries map.nodupKeys w key

/-- A fallible loop that writes each visited key once either fails at some key or writes every
visited key with its own result. -/
theorem foldlM_update (write : α → Y → V → Option Y) :
    ∀ (entries : List (Σ _ : α, V)), entries.NodupKeys → ∀ (cells : α → Y),
      entries.foldlM (fun cells entry =>
          (write entry.1 (cells entry.1) entry.2).map (Function.update cells entry.1)) cells =
        if entries.all fun entry => (write entry.1 (cells entry.1) entry.2).isSome then
          some fun key => (entries.dlookup key).elim (cells key) fun value =>
            (write key (cells key) value).getD (cells key)
        else none
  | [], _, cells => rfl
  | ⟨first, value⟩ :: rest, distinct, cells => by
    obtain ⟨fresh, distinct⟩ := List.nodupKeys_cons.mp distinct
    have others : ∀ entry ∈ rest, entry.1 ≠ first := fun entry member same => by
      have known : entry.1 ∈ rest.keys := List.mem_keys_of_mem member
      exact fresh (same ▸ known)
    rw [List.foldlM_cons]
    cases written : write first (cells first) value with
    | none => simp [written]
    | some result =>
      simp only [Option.map_some', Option.bind_eq_bind, Option.some_bind]
      rw [foldlM_update write rest distinct]
      have unchanged : ∀ entry ∈ rest, Function.update cells first result entry.1 = cells entry.1 :=
        fun entry member => Function.update_noteq (others entry member) _ _
      have sameAll : (rest.all fun entry =>
          (write entry.1 (Function.update cells first result entry.1) entry.2).isSome) =
          rest.all fun entry => (write entry.1 (cells entry.1) entry.2).isSome := by
        rw [Bool.eq_iff_iff, List.all_eq_true, List.all_eq_true]
        exact forall₂_congr fun entry member => by rw [unchanged entry member]
      simp only [List.all_cons, written, Option.isSome_some, Bool.true_and, sameAll]
      split
      · congr 1
        funext key
        by_cases same : key = first
        · subst same
          simp only [List.dlookup_eq_none.mpr fresh, List.dlookup_cons_eq, Option.elim,
            Function.update_same, written, Option.getD_some]
        · simp only [List.dlookup_cons_ne rest ⟨first, value⟩ same, Function.update_noteq same]
      · rfl

end Loops

end TiProxy
