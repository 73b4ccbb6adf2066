import TiProxy.Model.Metrics.Filter

/-! # `filterMetrics` keeps exactly the matching lines

The lines of a text are its pieces up to and including each newline, and the piece after the last
newline when it is not empty. `filterMetrics` returns the matching lines, each whole, in the order
of the text. The loop's last test, on the empty piece after a final newline, adds nothing when a
name is empty, so that piece needs no line of its own. The loop is total: it is defined by
recursion on the length of the text left, which every cut shortens.
-/

namespace TiProxy.Metrics

/-- The lines of a text, each with its newline; the bytes after the last newline, if any, are
the last line. -/
def textLines : List UInt8 → List (List UInt8)
  | [] => []
  | byte :: rest =>
    if byte = newline then [byte] :: textLines rest
    else match textLines rest with
      | [] => [[byte]]
      | line :: lines => (byte :: line) :: lines

/-- The lines of `all` that start with one of `names`, concatenated in order. -/
def matchingLines (all : List UInt8) (names : List (List UInt8)) : List UInt8 :=
  ((textLines all).filter fun line => names.any (·.isPrefixOf line)).flatten

theorem textLines_of_newline_not_mem {text : List UInt8} (noNewline : newline ∉ text) :
    textLines text = if text = [] then [] else [text] := by
  induction text with
  | nil => rfl
  | cons byte rest ih =>
    have notNewline : byte ≠ newline := fun same => noNewline (same ▸ List.mem_cons_self _ _)
    rw [textLines, if_neg notNewline, ih fun member => noNewline (List.mem_cons_of_mem _ member)]
    by_cases empty : rest = [] <;> simp [empty]

theorem textLines_append_newline {first : List UInt8} (noNewline : newline ∉ first)
    (rest : List UInt8) :
    textLines (first ++ newline :: rest) = (first ++ [newline]) :: textLines rest := by
  induction first with
  | nil => simp [textLines]
  | cons byte first ih =>
    have notNewline : byte ≠ newline := fun same => noNewline (same ▸ List.mem_cons_self _ _)
    rw [List.cons_append, textLines, if_neg notNewline,
      ih fun member => noNewline (List.mem_cons_of_mem _ member)]
    rfl

/-- Where `strings.Index` finds the first newline: the text is the line before it, the newline,
and the rest, and the cuts of `filterMetrics` take the line with its newline and the rest. -/
theorem indexOf?_newline_split : ∀ {all : List UInt8} {idx : Nat},
    all.indexOf? newline = some idx →
      ∃ first, newline ∉ first ∧ all.take (idx + 1) = first ++ [newline] ∧
        all = first ++ newline :: all.drop (idx + 1)
  | [], _, found => by simp [List.indexOf?] at found
  | byte :: rest, idx, found => by
    by_cases atHead : byte = newline
    · subst atHead
      simp only [List.indexOf?, List.findIdx?_cons, beq_self_eq_true, ↓reduceIte,
        Option.some.injEq] at found
      subst found
      exact ⟨[], List.not_mem_nil _, rfl, rfl⟩
    · simp only [List.indexOf?, List.findIdx?_cons, beq_iff_eq, atHead, ↓reduceIte,
        List.findIdx?_succ, Option.map_eq_some'] at found
      obtain ⟨idx, found, rfl⟩ := found
      obtain ⟨first, noNewline, taken, split⟩ := indexOf?_newline_split found
      refine ⟨byte :: first, ?_, by simp [taken], ?_⟩
      · simp [noNewline, Ne.symm atHead]
      · conv_lhs => rw [split]
        rfl

theorem newline_not_mem_of_indexOf?_none {all : List UInt8}
    (notFound : all.indexOf? newline = none) : newline ∉ all := fun member => by
  simpa using List.findIdx?_eq_none_iff.mp notFound newline member

theorem filterMetricsLoop_eq (names : List (List UInt8)) (all buffer : List UInt8) :
    filterMetricsLoop names all buffer = buffer ++ matchingLines all names := by
  induction all, buffer using filterMetricsLoop.induct names with
  | case1 all buffer notFound matched =>
    rw [filterMetricsLoop_of_none notFound, if_pos matched, matchingLines,
      textLines_of_newline_not_mem (newline_not_mem_of_indexOf?_none notFound)]
    by_cases empty : all = [] <;> simp [empty, matched]
  | case2 all buffer notFound unmatched =>
    rw [filterMetricsLoop_of_none notFound, if_neg unmatched, matchingLines,
      textLines_of_newline_not_mem (newline_not_mem_of_indexOf?_none notFound)]
    by_cases empty : all = [] <;> simp_all
  | case3 all buffer idx found line next ih =>
    obtain ⟨first, noNewline, taken, split⟩ := indexOf?_newline_split found
    simp only [next, line, dite_eq_ite] at ih
    rw [filterMetricsLoop_of_some found, ih, matchingLines, matchingLines, taken]
    conv_rhs => rw [split, textLines_append_newline noNewline]
    by_cases matched : names.any (·.isPrefixOf (first ++ [newline])) <;>
      simp [matched, List.filter_cons]

/-- For every text and every list of names, `filterMetrics` returns, in order, exactly the lines
of the text that start with one of the names, each whole with its newline, and the last line
as it is when it has none. -/
theorem filterMetrics_eq_matchingLines (all : List UInt8) (names : List (List UInt8)) :
    filterMetrics all names =
      ((textLines all).filter fun line => names.any (·.isPrefixOf line)).flatten :=
  filterMetricsLoop_eq names all []

end TiProxy.Metrics
