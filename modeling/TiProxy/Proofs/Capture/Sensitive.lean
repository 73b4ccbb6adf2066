import TiProxy.Model.Capture.Filter
import Mathlib.Data.List.Nodup

/-! # Which statements `IsSensitiveSQL` redacts

A statement has a sensitive prefix when an entry of `sensitiveKeywords` starts its keyword
stream: the first keyword is the entry's first word and, for a two-word entry, the second keyword
is its second word. The first words of the entries differ, so the loop reaches the entry of the
first keyword with that keyword unchanged, and `IsSensitiveSQL` flags every statement with a
sensitive prefix. Once a two-word entry's second word does not match, though, the loop goes on
comparing the second keyword with the first words of the later entries. So a statement whose
second keyword is a first word, such as `SET GRANT`, is flagged with no sensitive prefix.
-/

namespace TiProxy.SqlReplay.Capture

/-- The keyword stream starts with an entry of `sensitiveKeywords`. -/
def SensitivePrefix (tokens : Nat → String) : Prop :=
  ∃ kw ∈ sensitiveKeywords, kw.head? = some (tokens 0) ∧
    (kw.length ≤ 1 ∨ kw[1]? = some (tokens 1))

instance (tokens : Nat → String) : Decidable (SensitivePrefix tokens) :=
  inferInstanceAs (Decidable (∃ kw ∈ sensitiveKeywords, _))

theorem sensitiveKeywords_heads_nodup : (sensitiveKeywords.map List.head?).Nodup := by decide

theorem sensitiveKeywords_heads_ne_empty : ∀ kw ∈ sensitiveKeywords, kw.head? ≠ some "" := by
  decide

theorem length_ne_zero_of_ne_empty : ∀ {word : String}, word ≠ "" → word.length ≠ 0
  | ⟨[]⟩, named, _ => named rfl
  | ⟨_ :: _⟩, _, empty => by simp [String.length] at empty

section Loop

variable {tokens : Nat → String}

/-- Entries whose first word is not the keyword are skipped with the keyword unchanged. -/
theorem isSensitiveLoop_append_skip {skipped : List (List String)} {keyword : String}
    (others : ∀ kw ∈ skipped, kw.head? ≠ some keyword) (rest : List (List String))
    (read : Nat) :
    isSensitiveLoop tokens (skipped ++ rest) keyword read =
      isSensitiveLoop tokens rest keyword read := by
  induction skipped with
  | nil => rfl
  | cons kw skipped ih =>
    rw [List.cons_append, isSensitiveLoop, if_pos (others kw (List.mem_cons_self _ _)),
      ih fun other member => others other (List.mem_cons_of_mem _ member)]

/-- A keyword that is no entry's first word matches nothing. -/
theorem isSensitiveLoop_of_no_head {table : List (List String)} {keyword : String}
    (others : ∀ kw ∈ table, kw.head? ≠ some keyword) (read : Nat) :
    isSensitiveLoop tokens table keyword read = false := by
  simpa using isSensitiveLoop_append_skip others [] read

/-- The loop is true only at an entry that matches the keyword it compares, or after a
mismatched second word when the keyword read then is the first word of a later entry. -/
theorem isSensitiveLoop_true : ∀ {table : List (List String)} {keyword : String} {read : Nat},
    isSensitiveLoop tokens table keyword read = true →
      (∃ kw ∈ table, kw.head? = some keyword ∧ (kw.length ≤ 1 ∨ kw[1]? = some (tokens read))) ∨
        ∃ kw ∈ table, kw.head? = some (tokens read)
  | [], _, _, flagged => by simp [isSensitiveLoop] at flagged
  | kw :: rest, keyword, read, flagged => by
    rw [isSensitiveLoop] at flagged
    split at flagged
    · rcases isSensitiveLoop_true flagged with ⟨other, member, matched⟩ | ⟨other, member, head⟩
      · exact .inl ⟨other, List.mem_cons_of_mem _ member, matched⟩
      · exact .inr ⟨other, List.mem_cons_of_mem _ member, head⟩
    · rename_i head
      rw [not_not] at head
      split at flagged
      · exact .inl ⟨kw, List.mem_cons_self _ _, head, .inl ‹_›⟩
      · dsimp only at flagged
        split at flagged
        · exact .inl ⟨kw, List.mem_cons_self _ _, head, .inr ‹_›⟩
        · by_cases later : ∃ other ∈ rest, other.head? = some (tokens read)
          · obtain ⟨other, member, head⟩ := later
            exact .inr ⟨other, List.mem_cons_of_mem _ member, head⟩
          · push_neg at later
            rw [isSensitiveLoop_of_no_head later] at flagged
            cases flagged

end Loop

/-- Every statement with a sensitive prefix is flagged. -/
theorem isSensitiveSQL_of_sensitivePrefix {tokens : Nat → String}
    (sensitive : SensitivePrefix tokens) : isSensitiveSQL tokens = true := by
  obtain ⟨kw, member, head, second⟩ := sensitive
  obtain ⟨skipped, rest, split⟩ := List.append_of_mem member
  have distinct := sensitiveKeywords_heads_nodup
  rw [split, List.map_append, List.map_cons, List.nodup_append] at distinct
  have others : ∀ other ∈ skipped, other.head? ≠ some (tokens 0) := fun other member same =>
    distinct.2.2 (List.mem_map_of_mem _ member) (by rw [same, ← head]; exact List.mem_cons_self _ _)
  have named : (tokens 0).length ≠ 0 := length_ne_zero_of_ne_empty fun empty =>
    sensitiveKeywords_heads_ne_empty kw member (empty ▸ head)
  rw [isSensitiveSQL, if_neg named, split, isSensitiveLoop_append_skip others, isSensitiveLoop,
    if_neg (not_not.mpr head)]
  rcases second with short | matched
  · rw [if_pos short]
  · split
    · rfl
    · rw [if_pos matched]

/-- `IsSensitiveSQL` flags every statement with a sensitive prefix, and when the second keyword
is not the first word of an entry it flags exactly those. -/
theorem isSensitiveSQL_iff_prefix_unless_second_is_head (tokens : Nat → String) :
    (SensitivePrefix tokens → isSensitiveSQL tokens = true) ∧
      ((∀ kw ∈ sensitiveKeywords, kw.head? ≠ some (tokens 1)) →
        (isSensitiveSQL tokens = true ↔ SensitivePrefix tokens)) := by
  refine ⟨isSensitiveSQL_of_sensitivePrefix, fun others => ⟨fun flagged => ?_,
    isSensitiveSQL_of_sensitivePrefix⟩⟩
  rw [isSensitiveSQL] at flagged
  split at flagged
  · cases flagged
  · rcases isSensitiveLoop_true flagged with sensitive | ⟨kw, member, head⟩
    · exact sensitive
    · exact absurd head (others kw member)

/-- The keywords of `CREATE USER u`. -/
def createUser : Nat → String := fun n => ["CREATE", "USER", "U"].getD n ""

theorem isSensitiveSQL_iff_prefix_unless_second_is_head_create_user :
    SensitivePrefix createUser ∧ isSensitiveSQL createUser = true ∧
      (∀ kw ∈ sensitiveKeywords, kw.head? ≠ some (createUser 1)) ∧
      (isSensitiveSQL createUser = true ↔ SensitivePrefix createUser) :=
  have sensitive : SensitivePrefix createUser := by decide
  have others : ∀ kw ∈ sensitiveKeywords, kw.head? ≠ some (createUser 1) := by decide
  ⟨sensitive, (isSensitiveSQL_iff_prefix_unless_second_is_head createUser).1 sensitive, others,
    (isSensitiveSQL_iff_prefix_unless_second_is_head createUser).2 others⟩

/-- The keywords of `SET GRANT`. -/
def setGrant : Nat → String := fun n => ["SET", "GRANT"].getD n ""

/-- `SET GRANT` has no sensitive prefix, yet `IsSensitiveSQL` flags it: `SET` matches the first
word of `SET PASSWORD`, the second keyword `GRANT` replaces the keyword, and the entry `GRANT`
then matches it. -/
theorem setGrant_flagged_without_prefix :
    isSensitiveSQL setGrant = true ∧ ¬SensitivePrefix setGrant := by
  decide

end TiProxy.SqlReplay.Capture
