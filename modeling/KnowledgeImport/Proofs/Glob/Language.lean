import KnowledgeImport.Glob.Matching
import Mathlib.Data.List.Basic

/-!
# What a pattern matches

A token stands for a set of octet sequences, and a pattern for the concatenations of what its
tokens stand for (`Token.Matches`, `MatchesAll`, `MatchesSome`).  The marking of places computes
exactly this: after the tokens `ts`, a place is marked iff some marked place before it is apart
from it by a sequence that `ts` matches (`afterAll_spec`).  Hence a pattern other than `**` matches
a candidate iff the candidate is one of its concatenations (`Pattern.isMatch_iff`).
-/

namespace KnowledgeImport.Glob

open Text

/-- The octet of a slash. -/
def slash : Octet := 0x2F

theorem isSlash_iff (b : Octet) : isSlash b = true ↔ b = slash := by
  simp [isSlash, slash]

/-! ### The language of a pattern -/

mutual

/-- The octets that a token matches. -/
def Token.Matches : Token → List Octet → Prop
  | .literal c, w => w = String.utf8EncodeChar c
  | .anyOctet, w => ∃ b, w = [b]
  | .anyRun, _ => True
  | .anyAncestors, w => w = [] ∨ ∃ u, w = u ++ [slash]
  | .anyDescendants, w => ∃ u, w = slash :: u
  | .anyBetween, w => w = [slash] ∨ ∃ u, w = slash :: (u ++ [slash])
  | .oneOf negated ranges, w => ∃ b, w = [b] ∧ inClass ranges b ≠ negated
  | .alternatives branches, w => allVoid branches = true ∧ w = [] ∨ MatchesSome branches w

/-- The octets that tokens match one after the other. -/
def MatchesAll : List Token → List Octet → Prop
  | [], w => w = []
  | t :: ts, w => ∃ u v, w = u ++ v ∧ t.Matches u ∧ MatchesAll ts v

/-- The octets that one of the branches matches; a void branch is none. -/
def MatchesSome : List (List Token) → List Octet → Prop
  | [], _ => False
  | ts :: rest, w => isVoid ts = false ∧ MatchesAll ts w ∨ MatchesSome rest w

end

theorem matchesAll_append (ts us : List Token) (w : List Octet) :
    MatchesAll (ts ++ us) w ↔ ∃ u v, w = u ++ v ∧ MatchesAll ts u ∧ MatchesAll us v := by
  induction ts generalizing w with
  | nil =>
    simp only [List.nil_append, MatchesAll]
    constructor
    · intro h
      exact ⟨[], w, rfl, rfl, h⟩
    · rintro ⟨u, v, rfl, rfl, h⟩
      exact h
  | cons t ts ih =>
    simp only [List.cons_append, MatchesAll, ih]
    constructor
    · rintro ⟨a, r, rfl, ha, b, c, rfl, hb, hc⟩
      exact ⟨a ++ b, c, (List.append_assoc ..).symm, ⟨a, b, rfl, ha, hb⟩, hc⟩
    · rintro ⟨u, c, rfl, ⟨a, b, rfl, ha, hb⟩, hc⟩
      exact ⟨a, b ++ c, List.append_assoc .., ha, b, c, rfl, hb, hc⟩

@[simp] theorem matchesAll_singleton (t : Token) (w : List Octet) :
    MatchesAll [t] w ↔ t.Matches w := by
  simp only [MatchesAll]
  constructor
  · rintro ⟨u, v, rfl, hu, rfl⟩
    rwa [List.append_nil]
  · intro h
    exact ⟨w, [], (List.append_nil w).symm, h, rfl⟩

/-- No branch is matched by a group whose branches are all void. -/
theorem not_matchesSome_of_allVoid {branches : List (List Token)} (h : allVoid branches = true)
    (w : List Octet) : ¬ MatchesSome branches w := by
  induction branches with
  | nil => exact id
  | cons ts rest ih =>
    rw [allVoid, Bool.and_eq_true] at h
    rintro (⟨hv, -⟩ | hw)
    · rw [h.1] at hv
      exact Bool.noConfusion hv
    · exact ih h.2 hw

/-! ### Markings -/

namespace Marks

/-- The place is marked. -/
def At (m : Marks) (i : Nat) : Prop := m[i]? = some true

theorem at_initial (s : List Octet) (i : Nat) : (initial s).At i ↔ i = 0 := by
  cases i with
  | zero => simp [At, initial]
  | succ i => simp [At, initial, List.getElem?_replicate]

theorem not_at_none (s : List Octet) (i : Nat) : ¬ (none s).At i := by
  cases i with
  | zero => simp [At, none]
  | succ i => simp [At, none, List.getElem?_replicate]

theorem at_advance_zero (p : Octet → Bool) (s : List Octet) (m : Marks) :
    ¬ (advance p s m).At 0 := by
  simp [At, advance]

theorem at_advance_succ (p : Octet → Bool) (s : List Octet) (m : Marks) (i : Nat) :
    (advance p s m).At (i + 1) ↔ m.At i ∧ ∃ b, s[i]? = some b ∧ p b = true := by
  simp only [At, advance, List.getElem?_cons_succ, List.getElem?_zipWith]
  cases m[i]? <;> cases s[i]? <;> simp

theorem at_spreadFrom (seen : Bool) (m : Marks) (j : Nat) :
    (spreadFrom seen m).At j ↔ j < m.length ∧ (seen = true ∨ ∃ i ≤ j, m.At i) := by
  induction m generalizing seen j with
  | nil => simp [At, spreadFrom]
  | cons b m ih =>
    cases j with
    | zero => simp [At, spreadFrom]
    | succ j =>
      have h : (spreadFrom seen (b :: m)).At (j + 1) ↔ (spreadFrom (seen || b) m).At j := by
        simp [At, spreadFrom]
      rw [h, ih, List.length_cons, Bool.or_eq_true, Nat.add_lt_add_iff_right, or_assoc]
      refine and_congr_right fun _ => or_congr_right ?_
      constructor
      · rintro (rfl | ⟨i, hi, hm⟩)
        · exact ⟨0, Nat.zero_le _, rfl⟩
        · exact ⟨i + 1, Nat.succ_le_succ hi, hm⟩
      · rintro ⟨i, hi, hm⟩
        cases i with
        | zero => exact Or.inl (by simpa [At] using hm)
        | succ i => exact Or.inr ⟨i, Nat.le_of_succ_le_succ hi, hm⟩

theorem at_spread (m : Marks) (j : Nat) :
    m.spread.At j ↔ j < m.length ∧ ∃ i ≤ j, m.At i := by
  simp [spread, at_spreadFrom]

theorem at_union {m₁ m₂ : Marks} (h : m₁.length = m₂.length) (i : Nat) :
    (union m₁ m₂).At i ↔ m₁.At i ∨ m₂.At i := by
  simp only [At, union, List.getElem?_zipWith]
  by_cases hi : i < m₁.length
  · simp [List.getElem?_eq_getElem hi, List.getElem?_eq_getElem (h ▸ hi)]
  · simp [List.getElem?_eq_none (Nat.le_of_not_lt hi),
      List.getElem?_eq_none (Nat.le_of_not_lt (h ▸ hi))]

/-- A marking of `s` has a flag for each place of `s`. -/
def Fits (m : Marks) (s : List Octet) : Prop := m.length = s.length + 1

theorem fits_initial (s : List Octet) : (initial s).Fits s := by
  simp [Fits, initial]

theorem fits_none (s : List Octet) : (none s).Fits s := by
  simp [Fits, none]

theorem Fits.advance {s : List Octet} {m : Marks} (h : m.Fits s) (p : Octet → Bool) :
    (m.advance p s).Fits s := by
  simp only [Fits] at h
  simp [Fits, Marks.advance, h]

theorem length_spreadFrom (seen : Bool) (m : Marks) : (spreadFrom seen m).length = m.length := by
  induction m generalizing seen with
  | nil => rfl
  | cons b m ih => simp [spreadFrom, ih]

theorem Fits.spread {s : List Octet} {m : Marks} (h : m.Fits s) : m.spread.Fits s := by
  rw [Fits, Marks.spread, length_spreadFrom]
  exact h

theorem Fits.union {s : List Octet} {m₁ m₂ : Marks} (h₁ : m₁.Fits s) (h₂ : m₂.Fits s) :
    (union m₁ m₂).Fits s := by
  simp only [Fits] at h₁ h₂
  simp [Fits, Marks.union, h₁, h₂]

theorem final_iff {s : List Octet} {m : Marks} (h : m.Fits s) : m.final = true ↔ m.At s.length := by
  rw [final, List.getLast?_eq_getElem?, h, Nat.add_sub_cancel, At]
  cases m[s.length]? <;> simp

end Marks

/-! ### Marking computes the language -/

/-- Place `j` of `s` is apart from a marked place by octets of the language `L`. -/
def Reaches (L : List Octet → Prop) (s : List Octet) (m : Marks) (j : Nat) : Prop :=
  ∃ u w v, s = u ++ w ++ v ∧ m.At u.length ∧ L w ∧ j = u.length + w.length

theorem reaches_congr {L L' : List Octet → Prop} (h : ∀ w, L w ↔ L' w) (s : List Octet)
    (m : Marks) (j : Nat) : Reaches L s m j ↔ Reaches L' s m j := by
  simp only [Reaches, h]

/-- A marking that reaches on through `L'` from the places reached through `L` reaches through
the concatenation. -/
theorem reaches_trans {L L' : List Octet → Prop} {s : List Octet} {m m' : Marks}
    (h : ∀ j, m'.At j ↔ Reaches L s m j) (j : Nat) :
    Reaches L' s m' j ↔ Reaches (fun w => ∃ u v, w = u ++ v ∧ L u ∧ L' v) s m j := by
  constructor
  · rintro ⟨u, w, v, rfl, hu, hw, rfl⟩
    obtain ⟨a, b, c, habc, ha, hb, hlen⟩ := (h _).mp hu
    rw [← List.length_append] at hlen
    obtain ⟨rfl, -⟩ := List.append_inj (by rw [← habc, List.append_assoc]) hlen
    exact ⟨a, b ++ w, v, by simp, ha, ⟨b, w, rfl, hb, hw⟩, by simp [Nat.add_assoc]⟩
  · rintro ⟨a, _, v, rfl, ha, ⟨b, w, rfl, hb, hw⟩, rfl⟩
    refine ⟨a ++ b, w, v, by simp, ?_, hw, by simp [Nat.add_assoc]⟩
    exact (h _).mpr ⟨a, b, w ++ v, by simp, ha, hb, List.length_append ..⟩

theorem reaches_or {L L' : List Octet → Prop} (s : List Octet) (m : Marks) (j : Nat) :
    Reaches (fun w => L w ∨ L' w) s m j ↔ Reaches L s m j ∨ Reaches L' s m j := by
  constructor
  · rintro ⟨u, w, v, hs, hu, hw | hw, hj⟩
    · exact Or.inl ⟨u, w, v, hs, hu, hw, hj⟩
    · exact Or.inr ⟨u, w, v, hs, hu, hw, hj⟩
  · rintro (⟨u, w, v, hs, hu, hw, hj⟩ | ⟨u, w, v, hs, hu, hw, hj⟩)
    · exact ⟨u, w, v, hs, hu, Or.inl hw, hj⟩
    · exact ⟨u, w, v, hs, hu, Or.inr hw, hj⟩

namespace Marks

theorem At.lt_length {m : Marks} {i : Nat} (h : m.At i) : i < m.length :=
  (List.getElem?_eq_some_iff.mp h).1

theorem Fits.le_of_at {s : List Octet} {m : Marks} (hm : m.Fits s) {i : Nat} (h : m.At i) :
    i ≤ s.length := by
  have hi := h.lt_length
  rw [Fits] at hm
  omega

/-- No octet at all reaches the marked places. -/
theorem at_iff_reaches_nil {s : List Octet} {m : Marks} (hm : m.Fits s) (j : Nat) :
    m.At j ↔ Reaches (· = []) s m j := by
  constructor
  · intro h
    have hj : j ≤ s.length := hm.le_of_at h
    refine ⟨s.take j, [], s.drop j, by simp, ?_, rfl, ?_⟩
    · rwa [List.length_take_of_le hj]
    · rw [List.length_take_of_le hj, List.length_nil, Nat.add_zero]
  · rintro ⟨u, w, v, rfl, hu, rfl, rfl⟩
    exact hu

/-- Advancing reaches through one octet. -/
theorem at_advance_iff_reaches (p : Octet → Bool) (s : List Octet) (m : Marks) (j : Nat) :
    (advance p s m).At j ↔ Reaches (fun w => ∃ b, w = [b] ∧ p b = true) s m j := by
  constructor
  · intro h
    cases j with
    | zero => exact absurd h (at_advance_zero p s m)
    | succ i =>
      obtain ⟨hi, b, hb, hp⟩ := (at_advance_succ p s m i).mp h
      obtain ⟨hlt, rfl⟩ := List.getElem?_eq_some_iff.mp hb
      have hlen : (s.take i).length = i := List.length_take_of_le (Nat.le_of_lt hlt)
      refine ⟨s.take i, [s[i]], s.drop (i + 1), ?_, by rwa [hlen], ⟨_, rfl, hp⟩, by rw [hlen]; rfl⟩
      rw [List.append_assoc, List.singleton_append, List.getElem_cons_drop,
        List.take_append_drop]
  · rintro ⟨u, _, v, rfl, hu, ⟨b, rfl, hp⟩, rfl⟩
    exact (at_advance_succ p _ m u.length).mpr ⟨hu, b, by simp, hp⟩

/-- Spreading reaches through any octets. -/
theorem at_spread_iff_reaches {s : List Octet} {m : Marks} (hm : m.Fits s) (j : Nat) :
    m.spread.At j ↔ Reaches (fun _ => True) s m j := by
  rw [at_spread]
  constructor
  · rintro ⟨hj, i, hij, hi⟩
    have hjs : j ≤ s.length := by
      rw [hm] at hj
      omega
    have hi' : (s.take i).length = i := List.length_take_of_le (Nat.le_trans hij hjs)
    refine ⟨s.take i, (s.take j).drop i, s.drop j, ?_, by rwa [hi'], trivial, ?_⟩
    · have htake : s.take i = (s.take j).take i := by rw [List.take_take, Nat.min_eq_left hij]
      rw [htake, List.take_append_drop, List.take_append_drop]
    · rw [List.length_drop, hi', List.length_take_of_le hjs]
      omega
  · rintro ⟨u, w, v, rfl, hu, -, rfl⟩
    refine ⟨?_, u.length, Nat.le_add_right .., hu⟩
    rw [hm, List.length_append, List.length_append]
    omega

end Marks

theorem fits_foldl_advance (bs : List Octet) {s : List Octet} {m : Marks} (hm : m.Fits s) :
    (bs.foldl (fun m b => Marks.advance (· == b) s m) m).Fits s := by
  induction bs generalizing m with
  | nil => exact hm
  | cons b bs ih => exact ih (hm.advance _)

/-- Advancing octet by octet reaches through these octets. -/
theorem at_foldl_advance (bs : List Octet) {s : List Octet} {m : Marks} (hm : m.Fits s) (j : Nat) :
    (bs.foldl (fun m b => Marks.advance (· == b) s m) m).At j ↔ Reaches (· = bs) s m j := by
  induction bs generalizing m with
  | nil => exact Marks.at_iff_reaches_nil hm j
  | cons b bs ih =>
    rw [List.foldl_cons, ih (hm.advance _), reaches_trans (Marks.at_advance_iff_reaches _ s m)]
    refine reaches_congr (fun w => ?_) s m j
    constructor
    · rintro ⟨u, v, rfl, ⟨b', rfl, hb⟩, rfl⟩
      rw [eq_of_beq hb, List.singleton_append]
    · rintro rfl
      exact ⟨[b], bs, rfl, ⟨b, rfl, beq_self_eq_true b⟩, rfl⟩

/-- Advancing over a slash reaches through a slash. -/
theorem at_advance_isSlash (s : List Octet) (m : Marks) (j : Nat) :
    (Marks.advance isSlash s m).At j ↔ Reaches (· = [slash]) s m j := by
  rw [Marks.at_advance_iff_reaches]
  refine reaches_congr (fun w => ?_) s m j
  simp only [isSlash_iff, exists_eq_right]

mutual

/-- A token takes a marking of `s` to a marking of `s`, whose places are those that the token's
language reaches. -/
theorem Token.after_spec (s : List Octet) :
    ∀ (t : Token) {m : Marks}, m.Fits s →
      (t.after s m).Fits s ∧ ∀ j, (t.after s m).At j ↔ Reaches t.Matches s m j
  | .literal c, m, hm => ⟨fits_foldl_advance _ hm, at_foldl_advance _ hm⟩
  | .anyOctet, m, hm => by
    refine ⟨hm.advance _, fun j => ?_⟩
    rw [Token.after, Marks.at_advance_iff_reaches]
    exact reaches_congr (fun w => by simp [Token.Matches]) s m j
  | .anyRun, m, hm => by
    refine ⟨hm.spread, fun j => ?_⟩
    rw [Token.after, Marks.at_spread_iff_reaches hm]
    exact reaches_congr (fun w => by simp [Token.Matches]) s m j
  | .anyAncestors, m, hm => by
    have hadv := hm.spread.advance isSlash
    refine ⟨hm.union hadv, fun j => ?_⟩
    rw [Token.after, Marks.at_union (hm.trans hadv.symm), Marks.at_iff_reaches_nil hm,
      at_advance_isSlash, reaches_trans (Marks.at_spread_iff_reaches hm), ← reaches_or]
    exact reaches_congr (fun w => by simp [Token.Matches]) s m j
  | .anyDescendants, m, hm => by
    have hadv := hm.advance isSlash
    refine ⟨hadv.spread, fun j => ?_⟩
    rw [Token.after, Marks.at_spread_iff_reaches hadv, reaches_trans (at_advance_isSlash s m)]
    exact reaches_congr (fun w => by simp [Token.Matches]) s m j
  | .anyBetween, m, hm => by
    have hadv := hm.advance isSlash
    have hadv' := hadv.spread.advance isSlash
    refine ⟨hadv.union hadv', fun j => ?_⟩
    rw [Token.after, Marks.at_union (hadv.trans hadv'.symm), at_advance_isSlash,
      at_advance_isSlash, reaches_trans (Marks.at_spread_iff_reaches hadv),
      reaches_trans (at_advance_isSlash s m), ← reaches_or]
    exact reaches_congr (fun w => by simp [Token.Matches]) s m j
  | .oneOf negated ranges, m, hm => by
    refine ⟨hm.advance _, fun j => ?_⟩
    rw [Token.after, Marks.at_advance_iff_reaches]
    exact reaches_congr (fun w => by simp [Token.Matches]) s m j
  | .alternatives branches, m, hm => by
    rw [Token.after]
    -- a group whose branches are all void matches the empty sequence and nothing else
    by_cases hv : allVoid branches = true
    · rw [if_pos hv]
      refine ⟨hm, fun j => ?_⟩
      rw [Marks.at_iff_reaches_nil hm]
      refine reaches_congr (fun w => ?_) s m j
      simp [Token.Matches, hv, not_matchesSome_of_allVoid hv]
    · rw [if_neg hv]
      obtain ⟨hfits, hat⟩ := afterAny_spec s branches hm
      refine ⟨hfits, fun j => ?_⟩
      rw [hat]
      exact reaches_congr (fun w => by simp [Token.Matches, hv]) s m j

/-- The places after tokens are those that the concatenations of their languages reach. -/
theorem afterAll_spec (s : List Octet) :
    ∀ (ts : List Token) {m : Marks}, m.Fits s →
      (afterAll s ts m).Fits s ∧ ∀ j, (afterAll s ts m).At j ↔ Reaches (MatchesAll ts) s m j
  | [], m, hm => by
    refine ⟨hm, fun j => ?_⟩
    rw [afterAll, Marks.at_iff_reaches_nil hm]
    exact reaches_congr (fun w => by simp [MatchesAll]) s m j
  | t :: ts, m, hm => by
    obtain ⟨hfits, hat⟩ := Token.after_spec s t hm
    obtain ⟨hfits', hat'⟩ := afterAll_spec s ts hfits
    refine ⟨hfits', fun j => ?_⟩
    rw [afterAll, hat', reaches_trans hat]
    exact reaches_congr (fun w => by simp [MatchesAll]) s m j

/-- The places after branches are those that one of their languages reaches. -/
theorem afterAny_spec (s : List Octet) :
    ∀ (branches : List (List Token)) {m : Marks}, m.Fits s →
      (afterAny s branches m).Fits s ∧
        ∀ j, (afterAny s branches m).At j ↔ Reaches (MatchesSome branches) s m j
  | [], m, hm => by
    refine ⟨Marks.fits_none s, fun j => ⟨fun h => absurd h (Marks.not_at_none s j), ?_⟩⟩
    rintro ⟨u, w, v, -, -, hw, -⟩
    exact absurd hw (by simp [MatchesSome])
  | ts :: rest, m, hm => by
    obtain ⟨hfits, hat⟩ := afterAny_spec s rest hm
    rw [afterAny]
    by_cases hv : isVoid ts = true
    · rw [if_pos hv]
      refine ⟨hfits, fun j => ?_⟩
      rw [hat]
      exact reaches_congr (fun w => by simp [MatchesSome, hv]) s m j
    · rw [if_neg hv]
      obtain ⟨hfits', hat'⟩ := afterAll_spec s ts hm
      refine ⟨hfits'.union hfits, fun j => ?_⟩
      rw [Marks.at_union (hfits'.trans hfits.symm), hat, hat', ← reaches_or]
      exact reaches_congr (fun w => by simp [MatchesSome, hv]) s m j

end

/-- From the start to the end of a candidate the tokens' languages reach iff the candidate is one
of their concatenations. -/
theorem final_afterAll_iff (ts : List Token) (s : List Octet) :
    (afterAll s ts (Marks.initial s)).final = true ↔ MatchesAll ts s := by
  obtain ⟨hfits, hat⟩ := afterAll_spec s ts (Marks.fits_initial s)
  rw [Marks.final_iff hfits, hat]
  constructor
  · rintro ⟨u, w, v, hs, hu, hw, hlen⟩
    have hu0 : u = [] := List.length_eq_zero_iff.mp ((Marks.at_initial s _).mp hu)
    have hv0 : v = [] := by
      apply List.length_eq_zero_iff.mp
      have := congrArg List.length hs
      simp only [List.length_append] at this
      omega
    rw [hs, hu0, hv0, List.nil_append, List.append_nil]
    exact hw
  · intro h
    exact ⟨[], s, [], by simp, (Marks.at_initial s 0).mpr rfl, h, by simp⟩

/-- A pattern other than `**` matches the concatenations of what its tokens match. -/
theorem Pattern.isMatch_iff (p : Pattern) (s : List Octet) :
    p.isMatch s = true ↔ p.isEverything = true ∨ MatchesAll p s := by
  rw [Pattern.isMatch, Bool.or_eq_true, final_afterAll_iff]

theorem Pattern.isEverything_iff (p : Pattern) :
    p.isEverything = true ↔ p = [.anyAncestors] := by
  constructor
  · intro h
    unfold Pattern.isEverything at h
    split at h
    · rfl
    · exact Bool.noConfusion h
  · rintro rfl
    rfl

end KnowledgeImport.Glob
