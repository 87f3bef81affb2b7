import KnowledgeImport.Glob.PatternSet
import Mathlib.Tactic.SplitIfs

/-!
# Patterns that a set takes

A pattern nests no deeper than its tokens (`isShallow_iff`).  A set looks at the nesting only of
patterns that it compiles, but those that it does not compile have nothing in them that nests
(`isShallow_of_ends`).  So a set takes exactly the patterns that are shallow.
-/

namespace KnowledgeImport.Glob

/-! ### Depth -/

theorem depth_extent_le_iff {ts : List Token} {n : Nat} :
    (extent ts).depth ≤ n ↔ ∀ t ∈ ts, t.extent.depth ≤ n := by
  induction ts with
  | nil => simp [extent]
  | cons t ts ih =>
    rw [extent, Extent.append, List.forall_mem_cons, ← ih]
    exact Nat.max_le

/-- A pattern is shallow iff each of its tokens is. -/
theorem isShallow_iff {p : Pattern} :
    p.isShallow = true ↔ ∀ t ∈ p, t.extent.depth ≤ nestingLimit - 1 := by
  rw [← depth_extent_le_iff, Pattern.isShallow, Pattern.nesting, decide_eq_true_iff]
  exact Nat.le_sub_one_iff_lt (by decide) |>.symm

theorem isShallow_of_subset {p q : Pattern} (h : q.isShallow = true) (hsub : p ⊆ q) :
    p.isShallow = true := by
  rw [isShallow_iff] at h ⊢
  exact fun t ht => h t (hsub ht)

theorem isShallow_cons {t : Token} {p : Pattern} (ht : t.extent.depth ≤ nestingLimit - 1)
    (h : p.isShallow = true) : Pattern.isShallow (t :: p) = true := by
  rw [isShallow_iff] at h ⊢
  exact List.forall_mem_cons.mpr ⟨ht, h⟩

theorem isShallow_of_getLast? {t : Token} {p : Pattern} (hlast : p.getLast? = some t)
    (ht : t.extent.depth ≤ nestingLimit - 1) (h : Pattern.isShallow p.dropLast = true) :
    p.isShallow = true := by
  obtain ⟨init, rfl⟩ := List.getLast?_eq_some_iff.mp hlast
  rw [List.dropLast_concat, isShallow_iff] at h
  rw [isShallow_iff, List.forall_mem_append]
  exact ⟨h, List.forall_mem_singleton.mpr ht⟩

/-! ### Patterns that are not compiled -/

namespace Shape

/-- Tokens that are all literals begin with one. -/
theorem exists_of_literals_cons {t : Token} {ts : List Token} {cs : List Char}
    (h : literals? (t :: ts) = some cs) : ∃ c cs', t = .literal c ∧ literals? ts = some cs' := by
  rw [literals?, List.mapM_cons, Option.bind_eq_bind, Option.bind_eq_some_iff] at h
  obtain ⟨c, hc, h⟩ := h
  rw [Option.bind_eq_bind, Option.bind_eq_some_iff] at h
  obtain ⟨cs', hcs', -⟩ := h
  cases t with
  | literal d => exact ⟨d, cs', rfl, hcs'⟩
  | _ => cases hc

theorem isShallow_of_literals {ts : List Token} {cs : List Char} (h : literals? ts = some cs) :
    Pattern.isShallow ts = true := by
  induction ts generalizing cs with
  | nil => decide
  | cons t ts ih =>
    obtain ⟨c, cs', rfl, hcs'⟩ := exists_of_literals_cons h
    exact isShallow_cons (Nat.zero_le _) (ih hcs')

variable {p : Pattern}

theorem isShallow_of_isLiteral (h : isLiteral p = true) : p.isShallow = true := by
  unfold isLiteral at h
  split at h
  · rename_i cs hcs
    exact isShallow_of_literals hcs
  · cases h

theorem isShallow_of_isBaseName (h : isBaseName p = true) : p.isShallow = true := by
  unfold isBaseName at h
  split at h
  · split at h
    · rename_i cs hcs
      exact isShallow_cons (by decide) (isShallow_of_literals hcs)
    · cases h
  · cases h

theorem isShallow_of_isExtension (h : isExtension p = true) : p.isShallow = true := by
  unfold isExtension at h
  dsimp only at h
  split at h
  · rename_i rest hstar
    split at h
    · rename_i cs hcs
      have hdot := isShallow_cons (t := .literal '.') (by decide) (isShallow_of_literals hcs)
      have hrun := isShallow_cons (t := .anyRun) (by decide) hdot
      -- the star may stand behind `**/`
      split at hstar
      · rw [hstar]
        exact isShallow_cons (by decide) hrun
      · rw [hstar]
        exact hrun
    · cases h
  · cases h

theorem isShallow_of_isOpenEnded (h : isOpenEnded p = true) : p.isShallow = true := by
  unfold isOpenEnded at h
  split at h
  · rename_i hrun
    split at h
    · rename_i cs hcs
      exact isShallow_of_getLast? hrun (by decide) (isShallow_of_literals hcs)
    · cases h
  · rename_i hdescendants
    obtain ⟨cs, hcs⟩ := Option.isSome_iff_exists.mp h
    exact isShallow_of_getLast? hdescendants (by decide) (isShallow_of_literals hcs)
  · cases h

theorem isShallow_of_isEnding (h : isEnding p = true) : p.isShallow = true := by
  unfold isEnding at h
  dsimp only at h
  split at h
  · rename_i cs hcs
    -- first with a star and then without one, each behind `**/` or at the front
    split at hcs
    · rename_i hstar
      have hrun := isShallow_cons (t := .anyRun) (by decide) (isShallow_of_literals hcs)
      rw [← hstar] at hrun
      split at hrun
      · exact isShallow_cons (by decide) hrun
      · exact isShallow_cons (by decide) hrun
      · exact hrun
    · have hrest := isShallow_of_literals hcs
      split at hrest
      · exact isShallow_cons (by decide) hrest
      · exact isShallow_cons (by decide) hrest
      · exact hrest
  · cases h

end Shape

/-- What is not compiled is shallow. -/
theorem isShallow_of_ends {p : Pattern} (h : Shape.of p = .ends) : p.isShallow = true := by
  unfold Shape.of at h
  split_ifs at h with hends
  simp only [Bool.or_eq_true] at hends
  rcases hends with (((h | h) | h) | h) | h
  · exact Shape.isShallow_of_isBaseName h
  · exact Shape.isShallow_of_isLiteral h
  · exact Shape.isShallow_of_isExtension h
  · exact Shape.isShallow_of_isOpenEnded h
  · exact Shape.isShallow_of_isEnding h

end KnowledgeImport.Glob
