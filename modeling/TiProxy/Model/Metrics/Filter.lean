import Mathlib.Data.List.Basic

/-! # Filtering the scraped text

Before parsing a backend's response, `readFromBackends` keeps only the lines that start with the
name of a metric some rule reads (`filterMetrics`). Go strings are byte sequences, and the loop
works on bytes: it cuts the text at the first `\n` with `strings.Index`, tests the line, newline
included, with `strings.HasPrefix`, and goes on with the text after the cut; a last piece with no
newline is tested as it is and ends the loop.
-/

namespace TiProxy.Metrics

/-- The byte `'\n'`. -/
def newline : UInt8 := 10

theorem indexOf?_lt_length {text : List UInt8} {idx : Nat}
    (found : text.indexOf? newline = some idx) : idx < text.length :=
  (List.findIdx?_eq_some_iff_findIdx_eq.mp found).1

/-- The loop of `filterMetrics` on the text left, with what the builder holds so far. -/
def filterMetricsLoop (names : List (List UInt8)) (all buffer : List UInt8) : List UInt8 :=
  match found : all.indexOf? newline with
  | none => if names.any (·.isPrefixOf all) then buffer ++ all else buffer
  | some idx =>
    let line := all.take (idx + 1)
    let buffer := if names.any (·.isPrefixOf line) then buffer ++ line else buffer
    filterMetricsLoop names (all.drop (idx + 1)) buffer
termination_by all.length
decreasing_by
  have := indexOf?_lt_length found
  simp only [List.length_drop]
  omega

section Loop

variable {names : List (List UInt8)} {all buffer : List UInt8}

theorem filterMetricsLoop_of_none (notFound : all.indexOf? newline = none) :
    filterMetricsLoop names all buffer =
      if names.any (·.isPrefixOf all) then buffer ++ all else buffer := by
  rw [filterMetricsLoop]
  split <;> simp_all

theorem filterMetricsLoop_of_some {idx : Nat} (found : all.indexOf? newline = some idx) :
    filterMetricsLoop names all buffer =
      filterMetricsLoop names (all.drop (idx + 1))
        (if names.any (·.isPrefixOf (all.take (idx + 1))) then buffer ++ all.take (idx + 1)
          else buffer) := by
  rw [filterMetricsLoop]
  split <;> simp_all

end Loop

/-- `filterMetrics`: the lines of `all` that start with one of `names`, in order. -/
def filterMetrics (all : List UInt8) (names : List (List UInt8)) : List UInt8 :=
  filterMetricsLoop names all []

end TiProxy.Metrics
