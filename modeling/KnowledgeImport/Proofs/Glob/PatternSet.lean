import KnowledgeImport.Proofs.Glob.Nesting
import Mathlib.Data.List.Basic

/-!
# Sets of patterns

A set that was built from texts matches what one of these texts, read as a pattern, matches
(`PatternSet.isMatch_ofStrings_iff`).  The check of the nesting refuses sets but changes none.  A
set is refused for the first text that spells no pattern, or else for a pattern that nests too
deeply (`PatternSet.outcome_ofStrings`).
-/

namespace KnowledgeImport.Glob

open Text

theorem eq_of_checkNesting {texts : List String} {ps : List Pattern} {set : PatternSet}
    (h : checkNesting texts ps = .ok set) : set = ps := by
  rw [checkNesting] at h
  split at h
  · cases h
  · split at h
    · cases h
    · exact (Except.ok.inj h).symm

/-- Reading texts in turn gives the pattern of the first and the patterns of the others. -/
theorem readAll_cons_eq_ok {s : String} {rest : List String} {ps : List Pattern}
    (h : readAll (s :: rest) = .ok ps) :
    ∃ p qs, Pattern.ofString? s = .ok p ∧ readAll rest = .ok qs ∧ ps = p :: qs := by
  rw [readAll] at h
  cases hp : Pattern.ofString? s with
  | error cause => rw [hp] at h; cases h
  | ok p =>
    rw [hp] at h
    cases hqs : readAll rest with
    | error e => rw [hqs] at h; cases h
    | ok qs =>
      rw [hqs] at h
      exact ⟨p, qs, rfl, rfl, (Except.ok.inj h).symm⟩

/-- The patterns that were read are those of the texts, one for each. -/
theorem mem_readAll_iff {texts : List String} {ps : List Pattern} (h : readAll texts = .ok ps)
    (p : Pattern) : p ∈ ps ↔ ∃ s ∈ texts, Pattern.ofString? s = .ok p := by
  induction texts generalizing ps with
  | nil =>
    obtain rfl := Except.ok.inj h
    simp
  | cons s rest ih =>
    obtain ⟨q, qs, hq, hqs, rfl⟩ := readAll_cons_eq_ok h
    rw [List.mem_cons, ih hqs, List.exists_mem_cons_iff, hq, Except.ok.injEq, eq_comm]

/-- Each text of a list that was read spells a pattern. -/
theorem exists_ofString?_of_readAll {texts : List String} {ps : List Pattern}
    (h : readAll texts = .ok ps) {s : String} (hs : s ∈ texts) :
    ∃ p, Pattern.ofString? s = .ok p := by
  induction texts generalizing ps with
  | nil => cases hs
  | cons t rest ih =>
    obtain ⟨q, qs, hq, hqs, rfl⟩ := readAll_cons_eq_ok h
    rcases List.mem_cons.mp hs with rfl | hs
    · exact ⟨q, hq⟩
    · exact ih hqs hs

theorem readAll_of_ofStrings {texts : List String} {set : PatternSet}
    (h : PatternSet.ofStrings texts = .ok set) : readAll texts = .ok set := by
  rw [PatternSet.ofStrings] at h
  cases hread : readAll texts with
  | error e => rw [hread] at h; cases h
  | ok ps =>
    rw [hread] at h
    rw [eq_of_checkNesting h]

/-- Texts that spell patterns of which none nests too deeply make a set. -/
theorem PatternSet.ofStrings_eq_ok {texts : List String} {ps : List Pattern}
    (hread : readAll texts = .ok ps) (hshallow : ∀ p ∈ ps, p.isShallow = true) :
    PatternSet.ofStrings texts = .ok ps := by
  have hextension :
      ps.find? (fun p => Shape.of p = .withExtension && !p.isShallow) = none := by
    rw [List.find?_eq_none]
    intro p hp
    simp [hshallow p hp]
  have hwhole : (ps.filter (Shape.of · = .whole)).findIdx? (!·.isShallow) = none := by
    rw [List.findIdx?_eq_none_iff]
    intro p hp
    rw [hshallow p (List.mem_filter.mp hp).1, Bool.not_true]
  have hcheck : checkNesting texts ps = .ok ps := by rw [checkNesting, hextension, hwhole]
  rw [ofStrings, hread]
  exact hcheck

/-- A set matches what the pattern of one of its texts matches. -/
theorem PatternSet.isMatch_ofStrings_iff {texts : List String} {set : PatternSet}
    (h : PatternSet.ofStrings texts = .ok set) (s : List Octet) :
    set.isMatch s = true ↔
      ∃ text ∈ texts, ∃ p, Pattern.ofString? text = .ok p ∧ p.isMatch s = true := by
  rw [PatternSet.isMatch, List.any_eq_true]
  simp only [mem_readAll_iff (readAll_of_ofStrings h)]
  constructor
  · rintro ⟨p, ⟨text, htext, hp⟩, hmatch⟩
    exact ⟨text, htext, p, hp, hmatch⟩
  · rintro ⟨text, htext, p, hp, hmatch⟩
    exact ⟨p, ⟨text, htext, hp⟩, hmatch⟩

/-! ### Refused texts -/

/-- The text spells a pattern. -/
def isPattern (s : String) : Bool :=
  (Pattern.ofString? s).isOk

theorem isPattern_iff {s : String} : isPattern s = true ↔ ∃ p, Pattern.ofString? s = .ok p := by
  rw [isPattern]
  cases Pattern.ofString? s with
  | error cause => simp [Except.isOk, Except.toBool]
  | ok p => simp [Except.isOk, Except.toBool]

/-- The text spells a pattern that nests too deeply for a set. -/
def NestsTooDeep (s : String) : Prop :=
  ∃ p, Pattern.ofString? s = .ok p ∧ p.isShallow = false

/-- A list of texts is not read because of the first that spells no pattern. -/
theorem exists_of_readAll_eq_error {texts : List String} {e : SetError}
    (h : readAll texts = .error e) :
    ∃ s cause, e = .malformed s cause ∧ texts.find? (!isPattern ·) = some s ∧
      Pattern.ofString? s = .error cause := by
  induction texts with
  | nil => cases h
  | cons s rest ih =>
    rw [readAll] at h
    cases hp : Pattern.ofString? s with
    | error cause =>
      rw [hp] at h
      have hs : isPattern s = false := by rw [isPattern, hp]; rfl
      exact ⟨s, cause, (Except.error.inj h).symm, List.find?_cons_of_pos (by rw [hs]; rfl), hp⟩
    | ok p =>
      rw [hp] at h
      have hs : isPattern s = true := isPattern_iff.mpr ⟨p, hp⟩
      rw [List.find?_cons_of_neg (by rw [hs]; decide)]
      apply ih
      cases hrest : readAll rest with
      | error e' =>
        rw [hrest] at h
        exact congrArg _ (Except.error.inj h)
      | ok qs => rw [hrest] at h; cases h

/-- A pattern that is not shallow is compiled, so the check finds it. -/
theorem exists_of_not_shallow (texts : List String) {ps : List Pattern}
    (h : ∃ p ∈ ps, p.isShallow = false) :
    ∃ e, checkNesting texts ps = .error e ∧ ∀ s cause, e ≠ .malformed s cause := by
  unfold checkNesting
  split
  · exact ⟨_, rfl, fun _ _ heq => by cases heq⟩
  · rename_i hextension
    split
    · exact ⟨_, rfl, fun _ _ heq => by cases heq⟩
    · rename_i hwhole
      obtain ⟨p, hp, hdeep⟩ := h
      have hnotExtension := List.find?_eq_none.mp hextension p hp
      rw [List.findIdx?_eq_none_iff] at hwhole
      cases hshape : Shape.of p with
      | ends =>
        rw [isShallow_of_ends hshape] at hdeep
        cases hdeep
      | withExtension => simp [hshape, hdeep] at hnotExtension
      | whole =>
        have hnotWhole := hwhole p (List.mem_filter.mpr ⟨hp, by simp [hshape]⟩)
        simp [hdeep] at hnotWhole

/-- What can come of building a set. -/
inductive SetOutcome (texts : List String) : Except SetError PatternSet → Prop
  | ok {set : PatternSet} (h : ∀ s ∈ texts, isPattern s = true ∧ ¬ NestsTooDeep s) :
      SetOutcome texts (.ok set)
  | malformed {s : String} {cause : SyntaxError} (h : texts.find? (!isPattern ·) = some s)
      (hcause : Pattern.ofString? s = .error cause) : SetOutcome texts (.error (.malformed s cause))
  | tooDeep {e : SetError} (he : ∀ s cause, e ≠ .malformed s cause)
      (hread : ∀ s ∈ texts, isPattern s = true) (h : ∃ s ∈ texts, NestsTooDeep s) :
      SetOutcome texts (.error e)

theorem PatternSet.outcome_ofStrings (texts : List String) :
    SetOutcome texts (PatternSet.ofStrings texts) := by
  cases hread : readAll texts with
  | error e =>
    obtain ⟨s, cause, rfl, hfirst, hcause⟩ := exists_of_readAll_eq_error hread
    rw [ofStrings, hread]
    exact .malformed hfirst hcause
  | ok ps =>
    have hpatterns : ∀ s ∈ texts, isPattern s = true := fun s hs =>
      isPattern_iff.mpr (exists_ofString?_of_readAll hread hs)
    by_cases hshallow : ∀ p ∈ ps, p.isShallow = true
    · rw [ofStrings_eq_ok hread hshallow]
      apply SetOutcome.ok
      refine fun s hs => ⟨hpatterns s hs, ?_⟩
      rintro ⟨p, hp, hdeep⟩
      rw [hshallow p ((mem_readAll_iff hread p).mpr ⟨s, hs, hp⟩)] at hdeep
      cases hdeep
    · simp only [not_forall, Bool.not_eq_true] at hshallow
      obtain ⟨p, hp, hdeep⟩ := hshallow
      obtain ⟨e, he, hother⟩ := exists_of_not_shallow texts ⟨p, hp, hdeep⟩
      obtain ⟨s, hs, hs'⟩ := (mem_readAll_iff hread p).mp hp
      rw [ofStrings, hread]
      show SetOutcome texts (checkNesting texts ps)
      rw [he]
      exact .tooDeep hother hpatterns ⟨s, hs, p, hs', hdeep⟩

end KnowledgeImport.Glob
