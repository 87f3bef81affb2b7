import KnowledgeImport.Glob.Reader
import Mathlib.Tactic.SplitIfs

/-!
# What the reader of patterns keeps

A property of the frames that every step of the reader keeps holds of the frames that it ends with
(`ReadInvariant.finish`).  Two such properties say where `**/` can stand: only at the front of a
branch (`eq_anyAncestors_of_getLast?`), and alone only in a pattern that is written with nothing
but `**/` and a last `**` (`ancestorsText_of_readFrom`).
-/

namespace KnowledgeImport.Glob

/-! ### Frames -/

namespace Frames

theorem finish_eq_ok {f : Frames} {p : Pattern} :
    f.finish = .ok p ↔ f.outer = [] ∧ p = f.inner.current.reverse := by
  unfold finish nested
  cases f.outer with
  | nil => simp [eq_comm]
  | cons _ _ => simp

theorem nested_eq_false {f : Frames} (h : f.outer = []) : f.nested = false := by
  rw [nested, h]
  rfl

/-- The frames with other tokens in the branch being read. -/
def withCurrent (f : Frames) (ts : List Token) : Frames :=
  { f with inner := { f.inner with current := ts } }

@[simp] theorem current_withCurrent (f : Frames) (ts : List Token) :
    (f.withCurrent ts).inner.current = ts := rfl

@[simp] theorem outer_withCurrent (f : Frames) (ts : List Token) :
    (f.withCurrent ts).outer = f.outer := rfl

end Frames

/-- Two stars change the branch being read as `doubleStar` says. -/
theorem readFrom_stars (f : Frames) (prev : Option Char) (rest : List Char) :
    readFrom .text f prev ('*' :: '*' :: rest)
      = readFrom (if (doubleStar f.inner.current f.nested prev rest.head?).2 then .slashTaken
          else .text)
        (f.withCurrent (doubleStar f.inner.current f.nested prev rest.head?).1) (some '*') rest :=
  rfl

theorem close_ne_anyAncestors (k : OpenClass) : k.close ≠ .anyAncestors := by
  simp [OpenClass.close]

/-! ### Invariants of the reader -/

/-- `I` is kept outside brackets and `J` inside them by every step of the reader. -/
structure ReadInvariant (I J : Frames → Prop) : Prop where
  push : ∀ {f : Frames} {t : Token}, t ≠ .anyAncestors → I f → I (f.push t)
  stars : ∀ {f : Frames} (prev next : Option Char), I f →
    I (f.withCurrent (doubleStar f.inner.current f.nested prev next).1)
  nextBranch : ∀ {f : Frames}, f.nested = true → I f → I f.nextBranch
  openGroup : ∀ {f : Frames}, I f → I f.openGroup
  closeGroup : ∀ {f g : Frames}, f.closeGroup = .ok g → I f → I g
  openClass : ∀ {f : Frames}, I f → J f
  closeClass : ∀ {f : Frames} (k : OpenClass), J f → I (f.push k.close)

/-- The property that belongs to a mode. -/
def Mode.select (I J : Frames → Prop) : Mode → Frames → Prop
  | .text | .slashTaken => I
  | .inside _ => J

/-- A run of the reader ends with frames that have the invariant. -/
theorem ReadInvariant.finish {I J : Frames → Prop} (hI : ReadInvariant I J) {mode : Mode}
    {f : Frames} {prev : Option Char} {cs : List Char} {p : Pattern} (hf : mode.select I J f)
    (h : readFrom mode f prev cs = .ok p) : ∃ g : Frames, I g ∧ g.finish = .ok p := by
  fun_induction readFrom mode f prev cs with
  | case1 => cases h
  | case2 k f _ c rest hc ih => exact ih (hI.closeClass k hf) h
  | case3 k f _ c rest hc ih =>
    cases hk : k.take c with
    | error e => rw [hk] at h; cases h
    | ok k' =>
      rw [hk] at h
      exact ih k' hf h
  | case4 f _ c rest ih => exact ih hf h
  | case5 mode f _ hmode =>
    cases mode with
    | inside k => exact absurd rfl (hmode k)
    | text => exact ⟨f, hf, h⟩
    | slashTaken => exact ⟨f, hf, h⟩
  | case7 f prev rest tokens taken hstars f' ih =>
    have hf' : I f' := by
      have := hI.stars prev rest.head? hf
      rwa [hstars] at this
    -- whether the stars take the slash or not, the frames are the same
    refine ih ?_ h
    cases taken <;> exact hf'
  | case9 f _ rest ih | case10 f _ rest ih | case11 f _ rest _ _ ih =>
    exact ih (hI.openClass hf) h
  | case12 f _ rest ih => exact ih (hI.openGroup hf) h
  | case13 f _ rest ih =>
    cases hg : f.closeGroup with
    | error e => rw [hg] at h; cases h
    | ok g =>
      rw [hg] at h
      exact ih g (hI.closeGroup hg hf) h
  | case14 f _ rest ih =>
    -- a comma is a character like others outside groups
    refine ih ?_ h
    by_cases hn : f.nested = true
    · rw [if_pos hn]
      exact hI.nextBranch hn hf
    · rw [if_neg hn]
      exact hI.push (by simp) hf
  | case15 => cases h
  | case6 f _ rest ih | case8 f _ rest _ ih | case16 f _ c rest ih
  | case17 f _ c rest _ _ _ _ _ _ _ _ _ _ _ ih =>
    exact ih (hI.push (by simp) hf) h

/-! ### Two stars -/

/-- What two stars can do to the tokens before them: two runs, `**/` where there are none, or
another last token, which is `**/` only if it was. -/
theorem doubleStar_cases (before : List Token) (nested : Bool) (prev next : Option Char) :
    (doubleStar before nested prev next).1 = .anyRun :: .anyRun :: before ∨
      before = [] ∧ (doubleStar before nested prev next).1 = [.anyAncestors] ∨
      ∃ last rest t, before = last :: rest ∧ (doubleStar before nested prev next).1 = t :: rest ∧
        (t = last ∨ t ≠ .anyAncestors) := by
  cases before with
  | nil =>
    simp only [doubleStar]
    split_ifs
    · exact Or.inr (Or.inl ⟨trivial, rfl⟩)
    · exact Or.inl rfl
  | cons last rest =>
    simp only [doubleStar]
    split_ifs
    · right; right
      cases last
      case anyAncestors | anyDescendants => exact ⟨_, rest, _, rfl, rfl, Or.inl rfl⟩
      all_goals exact ⟨_, rest, _, rfl, rfl, Or.inr (by simp)⟩
    · right; right
      cases last
      case anyAncestors | anyDescendants => exact ⟨_, rest, _, rfl, rfl, Or.inl rfl⟩
      all_goals exact ⟨_, rest, _, rfl, rfl, Or.inr (by simp)⟩
    · exact Or.inl rfl

/-- Outside groups, two stars with another character than a slash behind them are two runs. -/
theorem doubleStar_of_ne_slash (before : List Token) (prev : Option Char) {c : Char}
    (hc : c ≠ '/') :
    doubleStar before false prev (some c) = (.anyRun :: .anyRun :: before, false) := by
  cases before <;> simp [doubleStar, hc]

/-! ### `**/` stands at the front -/

/-- Tokens, newest first, of which only the oldest can be `**/`. -/
def FrontOnly (ts : List Token) : Prop := ∀ t ∈ ts.dropLast, t ≠ .anyAncestors

theorem frontOnly_nil : FrontOnly [] := by
  simp [FrontOnly]

theorem frontOnly_singleton (t : Token) : FrontOnly [t] := by
  simp [FrontOnly]

theorem frontOnly_cons_cons {t u : Token} {ts : List Token} :
    FrontOnly (t :: u :: ts) ↔ t ≠ .anyAncestors ∧ FrontOnly (u :: ts) := by
  rw [FrontOnly, List.dropLast_cons_cons, List.forall_mem_cons]
  rfl

theorem frontOnly_cons {t : Token} {ts : List Token} (ht : t ≠ .anyAncestors)
    (h : FrontOnly ts) : FrontOnly (t :: ts) := by
  cases ts with
  | nil => exact frontOnly_singleton t
  | cons u us => exact frontOnly_cons_cons.mpr ⟨ht, h⟩

theorem frontOnly_of_cons {t : Token} {ts : List Token} (h : FrontOnly (t :: ts)) :
    FrontOnly ts := by
  cases ts with
  | nil => exact frontOnly_nil
  | cons u us => exact (frontOnly_cons_cons.mp h).2

theorem frontOnly_doubleStar {before : List Token} (h : FrontOnly before) (nested : Bool)
    (prev next : Option Char) : FrontOnly (doubleStar before nested prev next).1 := by
  rcases doubleStar_cases before nested prev next with
    hruns | ⟨-, hfront⟩ | ⟨last, rest, t, rfl, ht, hlast⟩
  · rw [hruns]
    exact frontOnly_cons (by simp) (frontOnly_cons (by simp) h)
  · rw [hfront]
    exact frontOnly_singleton _
  · rw [ht]
    rcases hlast with rfl | hlast
    · exact h
    · exact frontOnly_cons hlast (frontOnly_of_cons h)

/-- In each frame `**/` can only stand at the front. -/
def Frames.FrontOnly (f : Frames) : Prop :=
  Glob.FrontOnly f.inner.current ∧ ∀ g ∈ f.outer, Glob.FrontOnly g.current

theorem readInvariant_frontOnly : ReadInvariant Frames.FrontOnly Frames.FrontOnly where
  push ht hf := ⟨frontOnly_cons ht hf.1, hf.2⟩
  stars _ _ hf := ⟨frontOnly_doubleStar hf.1 _ _ _, hf.2⟩
  nextBranch _ hf := ⟨frontOnly_nil, hf.2⟩
  openGroup hf := ⟨frontOnly_nil, List.forall_mem_cons.mpr hf⟩
  closeGroup {f g} hg hf := by
    unfold Frames.closeGroup at hg
    split at hg
    · cases hg
    · rename_i around outer houter
      obtain rfl := Except.ok.inj hg
      rw [Frames.FrontOnly, houter, List.forall_mem_cons] at hf
      exact ⟨frontOnly_cons (by simp) hf.2.1, hf.2.2⟩
  openClass hf := hf
  closeClass k hf := ⟨frontOnly_cons (close_ne_anyAncestors k) hf.1, hf.2⟩

/-- A pattern that ends in `**/` is nothing else. -/
theorem eq_anyAncestors_of_getLast? {cs : List Char} {p : Pattern}
    (h : readFrom .text {} none cs = .ok p) (hp : p.getLast? = some .anyAncestors) :
    p = [.anyAncestors] := by
  have hstart : Mode.text.select Frames.FrontOnly Frames.FrontOnly {} := ⟨frontOnly_nil, by simp⟩
  obtain ⟨g, hg, hfin⟩ := readInvariant_frontOnly.finish hstart h
  obtain ⟨-, rfl⟩ := Frames.finish_eq_ok.mp hfin
  rw [List.getLast?_reverse] at hp
  have hfront := hg.1
  cases hcur : g.inner.current with
  | nil => simp [hcur] at hp
  | cons t ts =>
    rw [hcur, List.head?_cons, Option.some.injEq] at hp
    rw [hcur] at hfront
    cases ts with
    | nil => rw [hp]; rfl
    | cons u us => exact absurd hp (frontOnly_cons_cons.mp hfront).1

/-! ### Patterns that are `**/` alone -/

/-- The frames hold more than `**/`: a group is open or another token was read. -/
def Frames.HoldsMore (f : Frames) : Prop :=
  f.outer ≠ [] ∨ ∃ t ∈ f.inner.current, t ≠ .anyAncestors

theorem Frames.holdsMore_push {f : Frames} {t : Token} (ht : t ≠ .anyAncestors) :
    (f.push t).HoldsMore :=
  Or.inr ⟨t, List.mem_cons_self .., ht⟩

theorem Frames.outer_ne_nil_of_nested {f : Frames} (h : f.nested = true) : f.outer ≠ [] := by
  intro houter
  rw [Frames.nested_eq_false houter] at h
  cases h

theorem Frames.holdsMore_of_closeGroup {f g : Frames} (h : f.closeGroup = .ok g) :
    g.HoldsMore := by
  unfold Frames.closeGroup at h
  split at h
  · cases h
  · obtain rfl := Except.ok.inj h
    exact Frames.holdsMore_push (by simp)

theorem readInvariant_holdsMore : ReadInvariant Frames.HoldsMore fun _ => True where
  push ht _ := Frames.holdsMore_push ht
  stars {f} prev next hf := by
    rcases hf with hf | ⟨u, hu, hne⟩
    · exact Or.inl hf
    · right
      rw [Frames.current_withCurrent]
      rcases doubleStar_cases f.inner.current f.nested prev next with
        hruns | ⟨hnil, -⟩ | ⟨last, rest, t, hcur, ht, hlast⟩
      · rw [hruns]
        exact ⟨.anyRun, List.mem_cons_self .., by simp⟩
      · rw [hnil] at hu
        cases hu
      · rw [ht]
        rw [hcur, List.mem_cons] at hu
        rcases hu with rfl | hu
        · refine ⟨t, List.mem_cons_self .., ?_⟩
          rcases hlast with rfl | hlast
          · exact hne
          · exact hlast
        · exact ⟨u, List.mem_cons_of_mem _ hu, hne⟩
  nextBranch hn _ := Or.inl (Frames.outer_ne_nil_of_nested hn)
  openGroup _ := Or.inl (List.cons_ne_nil _ _)
  closeGroup hg _ := Frames.holdsMore_of_closeGroup hg
  openClass _ := trivial
  closeClass k _ := Frames.holdsMore_push (close_ne_anyAncestors k)

/-- What holds more than `**/` is not read as `**/` alone. -/
theorem not_readFrom_anyAncestors {mode : Mode} {f : Frames} {prev : Option Char}
    {cs : List Char} (hf : mode.select Frames.HoldsMore (fun _ => True) f) :
    readFrom mode f prev cs ≠ .ok [.anyAncestors] := by
  intro h
  obtain ⟨g, hg, hfin⟩ := readInvariant_holdsMore.finish hf h
  obtain ⟨houter, hcur⟩ := Frames.finish_eq_ok.mp hfin
  rcases hg with hg | ⟨t, ht, hne⟩
  · exact hg houter
  · rw [← List.mem_reverse, ← hcur, List.mem_singleton] at ht
    exact hne ht

/-- The text of `**/` written `n` times. -/
def ancestorsText (n : Nat) : List Char := (List.replicate n ['*', '*', '/']).flatten

theorem ancestorsText_succ (n : Nat) :
    ancestorsText (n + 1) = ancestorsText n ++ ['*', '*', '/'] := by
  rw [ancestorsText, List.replicate_succ', List.flatten_append]
  rfl

/-- A pattern that is `**/` alone starts with two stars, and a slash follows them if anything. -/
theorem starts_of_readFrom {mode : Mode} {f : Frames} {prev : Option Char} {cs : List Char}
    (hmode : mode = .text) (hcs : cs ≠ []) (h : readFrom mode f prev cs = .ok [.anyAncestors]) :
    cs = ['*', '*'] ∨ ∃ rest, cs = '*' :: '*' :: '/' :: rest := by
  fun_induction readFrom mode f prev cs with
  | case1 | case2 | case3 | case4 => cases hmode
  | case5 => exact absurd rfl hcs
  | case7 f prev rest tokens taken hstars f' =>
    cases rest with
    | nil => exact Or.inl rfl
    | cons c rest =>
      by_cases hc : c = '/'
      · exact Or.inr ⟨rest, by rw [hc]⟩
      · have hmore : f'.HoldsMore := by
          by_cases hn : f.nested = true
          · exact Or.inl (Frames.outer_ne_nil_of_nested hn)
          · rw [Bool.not_eq_true] at hn
            rw [hn, List.head?_cons, doubleStar_of_ne_slash _ _ hc] at hstars
            obtain ⟨rfl, -⟩ := Prod.mk.inj hstars
            exact Or.inr ⟨.anyRun, List.mem_cons_self .., by simp⟩
        refine absurd h (not_readFrom_anyAncestors ?_)
        cases taken <;> exact hmore
  | case9 | case10 | case11 => exact absurd h (not_readFrom_anyAncestors trivial)
  | case12 f _ rest =>
    have hmore : f.openGroup.HoldsMore := Or.inl (List.cons_ne_nil _ _)
    exact absurd h (not_readFrom_anyAncestors hmore)
  | case13 f _ rest =>
    cases hg : f.closeGroup with
    | error e => rw [hg] at h; cases h
    | ok g =>
      rw [hg] at h
      exact absurd h (not_readFrom_anyAncestors (Frames.holdsMore_of_closeGroup hg))
  | case14 f _ rest =>
    refine absurd h (not_readFrom_anyAncestors ?_)
    by_cases hn : f.nested = true
    · rw [if_pos hn]
      exact Or.inl (Frames.outer_ne_nil_of_nested hn)
    · rw [if_neg hn]
      exact Frames.holdsMore_push (by simp)
  | case15 => cases h
  | case6 | case8 | case16 | case17 =>
    exact absurd h (not_readFrom_anyAncestors (Frames.holdsMore_push (by simp)))

/-- At the start of a pattern, `**/` is read as one token. -/
theorem readFrom_ancestorsText_succ (n : Nat) (tail : List Char) :
    readFrom .text {} none (ancestorsText (n + 1) ++ tail)
      = readFrom .text { inner := { current := [.anyAncestors] } } (some '/')
          (ancestorsText n ++ tail) :=
  rfl

/-- After `**/` another `**/` changes nothing. -/
theorem readFrom_ancestorsText (n : Nat) (tail : List Char) :
    readFrom .text { inner := { current := [.anyAncestors] } } (some '/') (ancestorsText n ++ tail)
      = readFrom .text { inner := { current := [.anyAncestors] } } (some '/') tail := by
  induction n with
  | zero => rfl
  | succ n ih => exact ih

/-- What can follow `**/` in a pattern that is `**/` alone. -/
theorem ancestorsText_of_readFrom_after (cs : List Char)
    (h : readFrom .text { inner := { current := [.anyAncestors] } } (some '/') cs
      = .ok [.anyAncestors]) :
    ∃ n, cs = ancestorsText n ∨ cs = ancestorsText n ++ ['*', '*'] := by
  by_cases hcs : cs = []
  · exact ⟨0, Or.inl hcs⟩
  rcases starts_of_readFrom rfl hcs h with rfl | ⟨rest, rfl⟩
  · exact ⟨0, Or.inr rfl⟩
  · obtain ⟨n, rfl | rfl⟩ := ancestorsText_of_readFrom_after rest h
    · exact ⟨n + 1, Or.inl rfl⟩
    · exact ⟨n + 1, Or.inr rfl⟩
termination_by cs.length

/-- A pattern that is `**/` alone is written as `**/` several times, or as these and `**`. -/
theorem ancestorsText_of_readFrom {cs : List Char}
    (h : readFrom .text {} none cs = .ok [.anyAncestors]) :
    ∃ n, cs = ancestorsText (n + 1) ∨ cs = ancestorsText n ++ ['*', '*'] := by
  have hcs : cs ≠ [] := by
    rintro rfl
    cases h
  rcases starts_of_readFrom rfl hcs h with rfl | ⟨rest, rfl⟩
  · exact ⟨0, Or.inr rfl⟩
  · obtain ⟨n, rfl | rfl⟩ := ancestorsText_of_readFrom_after rest h
    · exact ⟨n, Or.inl rfl⟩
    · exact ⟨n + 1, Or.inr rfl⟩

end KnowledgeImport.Glob
