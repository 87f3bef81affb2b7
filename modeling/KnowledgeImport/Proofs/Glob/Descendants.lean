import KnowledgeImport.Proofs.Glob.Language
import KnowledgeImport.Proofs.Glob.Reading

/-!
# A pattern with `/**` behind it

Cutting `/**` off the end of a pattern leaves a pattern that may be read differently: the two stars
before the cut stood before a slash and now stand at the end.  `readFrom_append` compares the two
readings, and `isMatch_below_of_isMatch` draws the conclusion: whatever lies below something that
the cut pattern matches is matched by the whole one, unless the cut pattern is `**/` written once or
more.  That one matches everything (`isMatch_ancestorsText`).
-/

namespace KnowledgeImport.Glob

open Text

/-- The text `/**`. -/
def descendantsText : List Char := ['/', '*', '*']

/-! ### Reading on -/

/-- The reading `q` of a pattern with `/**` behind it, compared with the reading `p` of the pattern:
one more token, or the same tokens if `p` ends in stars that reach across directories already. -/
def ReadsBelow (p q : Pattern) : Prop :=
  q = p ++ [.anyDescendants] ∨
    q = p ∧ (p.getLast? = some .anyAncestors ∨ p.getLast? = some .anyDescendants)

/-- `/**` at the end of a pattern adds a token. -/
theorem readFrom_descendantsText (f : Frames) (hf : f.outer = []) (prev : Option Char) :
    readFrom .text f prev descendantsText = .ok (f.inner.current.reverse ++ [.anyDescendants]) := by
  simp [descendantsText, readFrom, doubleStar, Frames.push, Frames.finish, Frames.nested, hf]

/-- Two stars at the end of a pattern, compared with two stars that `/**` follows: both are two
runs, or the latter take the slash and the stars of `/**` then leave what the former are read as. -/
theorem doubleStar_none_or_slash (before : List Token) (prev : Option Char) :
    doubleStar before false prev none = doubleStar before false prev (some '/') ∧
        (doubleStar before false prev none).2 = false ∨
      (doubleStar before false prev (some '/')).2 = true ∧
        doubleStar (doubleStar before false prev (some '/')).1 false (some '/') none
          = doubleStar before false prev none ∧
        ((doubleStar before false prev none).1.head? = some .anyAncestors ∨
          (doubleStar before false prev none).1.head? = some .anyDescendants) := by
  cases before with
  | nil => exact Or.inr ⟨rfl, rfl, Or.inl rfl⟩
  | cons last rest =>
    by_cases hprev : prev = some '/'
    · cases last <;> simp [doubleStar, hprev]
    · simp [doubleStar, hprev]

/-- Two stars and `/**` behind them at the end of a pattern. -/
theorem readFrom_stars_descendantsText (f : Frames) (hf : f.outer = []) (prev : Option Char) :
    ∃ q, readFrom .text f prev ('*' :: '*' :: descendantsText) = .ok q ∧
      ReadsBelow (doubleStar f.inner.current false prev none).1.reverse q := by
  rw [readFrom_stars, Frames.nested_eq_false hf, descendantsText, List.head?_cons]
  rcases doubleStar_none_or_slash f.inner.current prev with
    ⟨hruns, hfalse⟩ | ⟨htaken, hsuffix, hlast⟩
  · refine ⟨_, ?_, Or.inl rfl⟩
    rw [← hruns, hfalse, if_neg Bool.false_ne_true]
    exact readFrom_descendantsText
      (f.withCurrent (doubleStar f.inner.current false prev none).1) hf _
  · refine ⟨_, ?_, Or.inr ⟨rfl, by rwa [List.getLast?_reverse]⟩⟩
    rw [htaken, if_pos rfl, readFrom, readFrom_stars, Frames.nested_eq_false (by exact hf),
      List.head?_nil, Frames.current_withCurrent, hsuffix]
    have hfin : ((f.withCurrent (doubleStar f.inner.current false prev (some '/')).1).withCurrent
        (doubleStar f.inner.current false prev none).1).finish
          = .ok (doubleStar f.inner.current false prev none).1.reverse :=
      Frames.finish_eq_ok.mpr ⟨hf, rfl⟩
    cases (doubleStar f.inner.current false prev none).2 <;> exact hfin

/-- Where a pattern can be read, it can be read with `/**` behind it. -/
theorem readFrom_append {mode : Mode} {f : Frames} {prev : Option Char} {cs : List Char}
    {p : Pattern} (hmode : mode = .slashTaken → cs ≠ []) (h : readFrom mode f prev cs = .ok p) :
    ∃ q, readFrom mode f prev (cs ++ descendantsText) = .ok q ∧ ReadsBelow p q := by
  fun_induction readFrom mode f prev cs with
  | case1 => cases h
  | case2 k f _ c rest hc ih =>
    rw [List.cons_append, readFrom, if_pos hc]
    exact ih (by simp) h
  | case3 k f _ c rest hc ih =>
    rw [List.cons_append, readFrom, if_neg hc]
    cases hk : k.take c with
    | error e => rw [hk] at h; cases h
    | ok k' =>
      rw [hk] at h
      exact ih k' (by simp) h
  | case5 mode f _ hx =>
    cases mode with
    | inside k => exact absurd rfl (hx k)
    | slashTaken => exact absurd rfl (hmode rfl)
    | text =>
      obtain ⟨hf, rfl⟩ := Frames.finish_eq_ok.mp h
      exact ⟨_, readFrom_descendantsText f hf _, Or.inl rfl⟩
  | case7 f prev rest tokens taken hstars f' ih =>
    cases rest with
    | nil =>
      -- the stars that end the pattern now stand before a slash and may be read in another way
      have hfin : f'.finish = .ok p := by
        cases taken <;> exact h
      obtain ⟨hf, rfl⟩ := Frames.finish_eq_ok.mp hfin
      have hn : f.nested = false := Frames.nested_eq_false hf
      rw [hn, List.head?_nil] at hstars
      have hq := readFrom_stars_descendantsText f hf prev
      rw [hstars] at hq
      exact hq
    | cons c rest =>
      have h' := ih (by simp) h
      rw [List.cons_append, List.cons_append, readFrom]
      rw [List.cons_append, List.head?_cons]
      rw [List.head?_cons] at hstars
      rw [hstars]
      exact h'
  | case8 f _ rest hrest ih =>
    have h' := ih (by simp) h
    cases rest with
    | nil => simpa [readFrom, descendantsText] using h'
    | cons c rest =>
      rw [List.cons_append, List.cons_append, readFrom]
      · exact h'
      · intro r hr
        exact hrest rest (by simp_all)
  | case11 f _ rest h1 h2 ih =>
    have h' := ih (by simp) h
    cases rest with
    | nil => cases h
    | cons c rest =>
      rw [List.cons_append, List.cons_append, readFrom]
      · exact h'
      · intro r hr
        exact h1 rest (by simp_all)
      · intro r hr
        exact h2 rest (by simp_all)
  | case13 f _ rest ih =>
    rw [List.cons_append, readFrom]
    cases hg : f.closeGroup with
    | error e => rw [hg] at h; cases h
    | ok f' =>
      rw [hg] at h
      exact ih f' (by simp) h
  | case4 f _ _ rest ih | case6 f _ rest ih | case12 f _ rest ih | case14 f _ rest ih =>
    rw [List.cons_append, readFrom]
    exact ih (by simp) h
  | case9 f _ rest ih | case10 f _ rest ih | case16 f _ _ rest ih =>
    rw [List.cons_append, List.cons_append, readFrom]
    exact ih (by simp) h
  | case15 => cases h
  | case17 f _ c rest _ _ _ _ _ _ _ _ _ hdangling hescape ih =>
    have h' := ih (by simp) h
    have hslash : c ≠ '\\' := by
      intro hc
      cases rest with
      | nil => exact hdangling hc rfl
      | cons d rest => exact hescape d rest hc rfl
    rw [List.cons_append, readFrom]
    · exact h'
    all_goals simp_all

/-! ### Matching what lies below -/

/-- `**/`, written once or more, matches everything. -/
theorem isMatch_ancestorsText {n : Nat} {p : Pattern}
    (h : readFrom .text {} none (ancestorsText (n + 1)) = .ok p) (s : List Octet) :
    p.isMatch s = true := by
  have hread : readFrom .text {} none (ancestorsText (n + 1)) = .ok [.anyAncestors] := by
    rw [← List.append_nil (ancestorsText (n + 1)), readFrom_ancestorsText_succ,
      readFrom_ancestorsText]
    rfl
  obtain rfl := Except.ok.inj (hread.symm.trans h)
  exact (Pattern.isMatch_iff _ s).mpr (Or.inl rfl)

/-- A last token `/**` matches whatever follows a slash behind the rest. -/
theorem matchesAll_append_anyDescendants {p : Pattern} {u : List Octet} (h : MatchesAll p u)
    (r : List Octet) : MatchesAll (p ++ [.anyDescendants]) (u ++ slash :: r) :=
  (matchesAll_append p _ _).mpr ⟨u, slash :: r, rfl, h, (matchesAll_singleton _ _).mpr ⟨r, rfl⟩⟩

/-- What a pattern with a last token `/**` matches, it matches with more behind it. -/
theorem matchesAll_append_of_getLast? {p : Pattern} (hp : p.getLast? = some .anyDescendants)
    {u : List Octet} (h : MatchesAll p u) (r : List Octet) : MatchesAll p (u ++ r) := by
  obtain ⟨init, rfl⟩ := List.getLast?_eq_some_iff.mp hp
  obtain ⟨a, b, rfl, ha, hb⟩ := (matchesAll_append _ _ _).mp h
  obtain ⟨v, rfl⟩ := (matchesAll_singleton _ _).mp hb
  refine (matchesAll_append _ _ _).mpr ⟨a, slash :: (v ++ r), by simp, ha, ?_⟩
  exact (matchesAll_singleton _ _).mpr ⟨v ++ r, rfl⟩

/-- Whatever lies below something that a pattern matches is matched by the pattern with `/**` behind
it, unless the pattern is `**/` written once or more. -/
theorem isMatch_below_of_isMatch {cs : List Char} {p q : Pattern}
    (hp : readFrom .text {} none cs = .ok p)
    (hq : readFrom .text {} none (cs ++ descendantsText) = .ok q)
    (hcs : ∀ n, cs ≠ ancestorsText (n + 1)) {u : List Octet} (hu : p.isMatch u = true)
    (r : List Octet) : q.isMatch (u ++ slash :: r) = true := by
  obtain ⟨q', hq', hbelow⟩ := readFrom_append (fun h => by cases h) hp
  obtain rfl := Except.ok.inj (hq'.symm.trans hq)
  rcases (Pattern.isMatch_iff p u).mp hu with hall | hu
  · -- `p` is `**/` alone, so its text ends in `**` and `q` is `**/` alone too
    obtain rfl := (Pattern.isEverything_iff p).mp hall
    obtain ⟨n, rfl | rfl⟩ := ancestorsText_of_readFrom hp
    · exact absurd rfl (hcs n)
    · have hread : readFrom .text {} none (ancestorsText n ++ ['*', '*'] ++ descendantsText)
          = .ok [.anyAncestors] := by
        have htext : ancestorsText n ++ ['*', '*'] ++ descendantsText
            = ancestorsText (n + 1) ++ ['*', '*'] := by
          rw [ancestorsText_succ, List.append_assoc, List.append_assoc]
          rfl
        rw [htext, readFrom_ancestorsText_succ, readFrom_ancestorsText]
        rfl
      obtain rfl := Except.ok.inj (hread.symm.trans hq)
      exact (Pattern.isMatch_iff _ _).mpr (Or.inl rfl)
  · refine (Pattern.isMatch_iff _ _).mpr ?_
    rcases hbelow with rfl | ⟨rfl, hlast | hlast⟩
    · exact Or.inr (matchesAll_append_anyDescendants hu r)
    · obtain rfl := eq_anyAncestors_of_getLast? hp hlast
      exact Or.inl rfl
    · exact Or.inr (matchesAll_append_of_getLast? hlast hu _)

end KnowledgeImport.Glob
