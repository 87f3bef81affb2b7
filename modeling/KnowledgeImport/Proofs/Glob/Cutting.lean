import KnowledgeImport.Proofs.Glob.Descendants
import Mathlib.Algebra.Ring.Parity

/-!
# A pattern without the `/**` at its end

Cutting `/**` off the text of a pattern leaves the text of a pattern, unless the slash was escaped
(`readFrom_of_append`).  The slash is escaped if an odd number of backslashes stands before it
(`EndsInEscape`), and the cut text then ends in a backslash that escapes nothing.  No class and no
group can be open at the cut, for nothing behind it would close them.
-/

namespace KnowledgeImport.Glob

/-! ### Texts that end in an escape -/

/-- The text ends in an odd number of backslashes, so the last one escapes what comes behind it. -/
def EndsInEscape (cs : List Char) : Prop :=
  Odd (cs.reverse.takeWhile (· = '\\')).length

instance : DecidablePred EndsInEscape :=
  fun cs => inferInstanceAs (Decidable (Odd (cs.reverse.takeWhile (· = '\\')).length))

variable {c : Char} {cs : List Char}

theorem endsInEscape_cons_of_ne (hc : c ≠ '\\') : EndsInEscape (c :: cs) ↔ EndsInEscape cs := by
  have hnone : [c].takeWhile (· = '\\') = [] := by simp [hc]
  unfold EndsInEscape
  rw [List.reverse_cons, List.takeWhile_append, hnone]
  split
  · rename_i hall
    rw [List.append_nil, hall]
  · rfl

theorem endsInEscape_cons_cons_of_ne {d : Char} (hc : c ≠ '\\') (hd : d ≠ '\\') :
    EndsInEscape (c :: d :: cs) ↔ EndsInEscape cs := by
  rw [endsInEscape_cons_of_ne hc, endsInEscape_cons_of_ne hd]

/-- What stands before another character than a backslash does not matter. -/
theorem endsInEscape_cons_of_mem {d : Char} (hd : d ∈ cs) (hne : d ≠ '\\') :
    EndsInEscape (c :: cs) ↔ EndsInEscape cs := by
  unfold EndsInEscape
  rw [List.reverse_cons, List.takeWhile_append, if_neg]
  intro hall
  have hrun := List.takeWhile_prefix (l := cs.reverse) (· = '\\')
  have hmem : d ∈ cs.reverse.takeWhile (· = '\\') := by
    rw [hrun.eq_of_length hall]
    exact List.mem_reverse.mpr hd
  exact hne (of_decide_eq_true (List.all_eq_true.mp List.all_takeWhile d hmem))

/-- A backslash and what it escapes do not matter. -/
theorem endsInEscape_escape (c : Char) : EndsInEscape ('\\' :: c :: cs) ↔ EndsInEscape cs := by
  by_cases hc : c = '\\'
  · subst hc
    unfold EndsInEscape
    rw [List.reverse_cons, List.reverse_cons, List.append_assoc, List.takeWhile_append]
    split
    · rename_i hall
      rw [hall]
      simp [Nat.odd_add]
    · rfl
  · rw [endsInEscape_cons_of_mem (List.mem_cons_self ..) hc, endsInEscape_cons_of_ne hc]

/-! ### Reading up to the cut -/

theorem ReadsBelow.subset {p q : Pattern} (h : ReadsBelow p q) : p ⊆ q := by
  rcases h with rfl | ⟨rfl, -⟩
  · exact List.subset_append_left _ _
  · exact List.Subset.refl _

theorem exists_eq_cons_of_append {r : List Char} (hc : c ≠ '/')
    (h : cs ++ descendantsText = c :: r) : ∃ r', cs = c :: r' := by
  cases cs with
  | nil => exact absurd (List.cons.inj h).1.symm hc
  | cons d cs => exact ⟨cs, by rw [(List.cons.inj h).1]⟩

/-- A class that is read to the end of a pattern is closed. -/
theorem bracket_mem_of_readFrom_inside {k : OpenClass} {f : Frames} {prev : Option Char}
    {p : Pattern} (h : readFrom (.inside k) f prev cs = .ok p) : ']' ∈ cs := by
  induction cs generalizing k prev with
  | nil =>
    rw [readFrom] at h
    cases h
  | cons c cs ih =>
    rw [readFrom] at h
    split_ifs at h with hc
    · rw [hc.1]
      exact List.mem_cons_self ..
    · cases hk : k.take c with
      | error e => rw [hk] at h; cases h
      | ok k' =>
        rw [hk] at h
        exact List.mem_cons_of_mem _ (ih h)

/-- At the end it does not matter whether stars would have taken a slash. -/
theorem readFrom_nil_of_taken (taken : Bool) (f : Frames) (prev : Option Char) :
    readFrom (if taken then .slashTaken else .text) f prev [] = f.finish := by
  cases taken <;> rfl

theorem outer_eq_nil_of_readFrom_stars {f : Frames} {prev : Option Char} {p : Pattern}
    (h : readFrom .text f prev ['*', '*'] = .ok p) : f.outer = [] := by
  rw [readFrom_stars, readFrom_nil_of_taken] at h
  exact (Frames.finish_eq_ok.mp h).1

/-- No group is open before a last `/**`, whether or not the slash belongs to stars before it. -/
theorem outer_eq_nil_of_readFrom_descendantsText {mode : Mode} (hmode : ∀ k, mode ≠ .inside k)
    {f : Frames} {prev : Option Char} {p : Pattern}
    (h : readFrom mode f prev descendantsText = .ok p) : f.outer = [] := by
  cases mode with
  | inside k => exact absurd rfl (hmode k)
  | text => exact outer_eq_nil_of_readFrom_stars (f := f.push (.literal '/')) h
  | slashTaken => exact outer_eq_nil_of_readFrom_stars h

/-- A text read up to a cut ends in an escape that escapes nothing, or it was read to its end. -/
def ReadsToCut (cs : List Char) (r : Except SyntaxError Pattern) : Prop :=
  EndsInEscape cs ∧ r = .error .danglingEscape ∨ ¬ EndsInEscape cs ∧ ∃ p, r = .ok p

theorem ReadsToCut.of_iff {cs' : List Char} {r : Except SyntaxError Pattern}
    (h : ReadsToCut cs r) (hiff : EndsInEscape cs' ↔ EndsInEscape cs) : ReadsToCut cs' r := by
  rw [ReadsToCut, hiff]
  exact h

/-- Stars take only a slash. -/
theorem next_eq_slash_of_doubleStar {before : List Token} {nested : Bool} {prev next : Option Char}
    (h : (doubleStar before nested prev next).2 = true) : next = some '/' := by
  by_contra hne
  have htaken : (doubleStar before nested prev next).2 = false := by
    cases before with
    | nil =>
      simp only [doubleStar, hne]
      split <;> rfl
    | cons last rest =>
      simp only [doubleStar, hne]
      split
      · cases last <;> rfl
      · rfl
  rw [htaken] at h
  cases h

theorem readsToCut_finish (hcs : ¬ EndsInEscape cs) {f : Frames} (hf : f.outer = []) :
    ReadsToCut cs f.finish :=
  Or.inr ⟨hcs, _, Frames.finish_eq_ok.mpr ⟨hf, rfl⟩⟩

/-- Where a pattern with `/**` behind it can be read, the pattern can be read, unless it ends in an
escape. -/
theorem readFrom_of_append {mode : Mode} {f : Frames} {prev : Option Char} {q : Pattern}
    (hmode : mode = .slashTaken → ∀ c ∈ cs.head?, c = '/')
    (h : readFrom mode f prev (cs ++ descendantsText) = .ok q) :
    ReadsToCut cs (readFrom mode f prev cs) := by
  fun_induction readFrom mode f prev cs with
  | case1 k =>
    have hmem := bracket_mem_of_readFrom_inside h
    simp [descendantsText] at hmem
  | case2 k f _ c rest hc ih =>
    rw [List.cons_append, readFrom, if_pos hc] at h
    have hne : c ≠ '\\' := by
      rw [hc.1]
      decide
    exact (ih (by simp) h).of_iff (endsInEscape_cons_of_ne hne)
  | case3 k f _ c rest hc ih =>
    rw [List.cons_append, readFrom, if_neg hc] at h
    cases hk : k.take c with
    | error e => rw [hk] at h; cases h
    | ok k' =>
      rw [hk] at h
      -- a backslash does not escape here, but the bracket that closes the class is behind it
      have hmem : ']' ∈ rest := by
        have hmem := bracket_mem_of_readFrom_inside h
        simpa [descendantsText] using hmem
      exact (ih k' (by simp) h).of_iff (endsInEscape_cons_of_mem hmem (by decide))
  | case4 f _ c rest ih =>
    obtain rfl : c = '/' := hmode rfl c rfl
    rw [List.cons_append, readFrom] at h
    exact (ih (by simp) h).of_iff (endsInEscape_cons_of_ne (by decide))
  | case5 mode f _ hinside =>
    have hf := outer_eq_nil_of_readFrom_descendantsText hinside h
    exact readsToCut_finish (by decide) hf
  | case7 f prev rest tokens taken hstars f' ih =>
    cases rest with
    | nil =>
      -- the stars may take the slash behind the cut, but no group is open before them
      have hf : f.outer = [] := by
        rw [List.cons_append, List.cons_append, List.nil_append, readFrom_stars] at h
        have houter := outer_eq_nil_of_readFrom_descendantsText (by intro k; split <;> simp) h
        rwa [Frames.outer_withCurrent] at houter
      rw [readFrom_nil_of_taken]
      exact readsToCut_finish (by decide) hf
    | cons c rest =>
      rw [List.cons_append, List.cons_append, readFrom, List.cons_append, List.head?_cons] at h
      rw [List.head?_cons] at hstars
      rw [hstars] at h
      have htaken : (if taken = true then Mode.slashTaken else .text) = .slashTaken →
          ∀ d ∈ (c :: rest).head?, d = '/' := by
        intro hslash d hd
        have htaken : taken = true := by
          by_contra hne
          rw [if_neg hne] at hslash
          cases hslash
        have hnext := next_eq_slash_of_doubleStar ((congrArg Prod.snd hstars).trans htaken)
        exact Option.some.inj (hd.symm.trans hnext)
      exact (ih htaken h).of_iff (endsInEscape_cons_cons_of_ne (by decide) (by decide))
  | case8 f _ rest hrest ih =>
    have h' : readFrom .text (f.push .anyRun) (some '*') (rest ++ descendantsText) = .ok q := by
      rw [List.cons_append, readFrom] at h
      · exact h
      · intro r hr
        obtain ⟨r', hr'⟩ := exists_eq_cons_of_append (by decide) hr
        exact hrest r' hr'
    exact (ih (by simp) h').of_iff (endsInEscape_cons_of_ne (by decide))
  | case11 f _ rest h1 h2 ih =>
    have h' : readFrom (.inside { negated := false }) f (some '[') (rest ++ descendantsText)
        = .ok q := by
      rw [List.cons_append, readFrom] at h
      · exact h
      · intro r hr
        obtain ⟨r', hr'⟩ := exists_eq_cons_of_append (by decide) hr
        exact h1 r' hr'
      · intro r hr
        obtain ⟨r', hr'⟩ := exists_eq_cons_of_append (by decide) hr
        exact h2 r' hr'
    exact (ih (by simp) h').of_iff (endsInEscape_cons_of_ne (by decide))
  | case13 f _ rest ih =>
    rw [List.cons_append, readFrom] at h
    cases hg : f.closeGroup with
    | error e => rw [hg] at h; cases h
    | ok f' =>
      rw [hg] at h
      exact (ih f' (by simp) h).of_iff (endsInEscape_cons_of_ne (by decide))
  | case6 f _ rest ih | case12 f _ rest ih | case14 f _ rest ih =>
    rw [List.cons_append, readFrom] at h
    exact (ih (by simp) h).of_iff (endsInEscape_cons_of_ne (by decide))
  | case9 f _ rest ih | case10 f _ rest ih =>
    rw [List.cons_append, List.cons_append, readFrom] at h
    exact (ih (by simp) h).of_iff (endsInEscape_cons_cons_of_ne (by decide) (by decide))
  | case15 => exact Or.inl ⟨by decide, rfl⟩
  | case16 f _ c rest ih =>
    rw [List.cons_append, List.cons_append, readFrom] at h
    exact (ih (by simp) h).of_iff (endsInEscape_escape c)
  | case17 f _ c rest _ _ _ _ _ _ _ _ _ hdangling hescape ih =>
    have hne : c ≠ '\\' := by
      intro hc
      cases rest with
      | nil => exact hdangling hc rfl
      | cons d rest => exact hescape d rest hc rfl
    have h' : readFrom .text (f.push (.literal c)) (some c) (rest ++ descendantsText) = .ok q := by
      rw [List.cons_append, readFrom] at h
      · exact h
      all_goals simp_all
    exact (ih (by simp) h').of_iff (endsInEscape_cons_of_ne hne)

end KnowledgeImport.Glob
