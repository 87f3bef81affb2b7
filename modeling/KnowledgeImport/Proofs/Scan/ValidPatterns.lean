import KnowledgeImport.Proofs.Glob.Cutting
import KnowledgeImport.Proofs.Scan.Pruning

/-!
# Which patterns a scan takes

The rules of a configuration can be built iff every text in its two lists spells a pattern, none of
them nests too deeply, and no exclude pattern has the slash of a last `/**` escaped
(`ScanRules.ofConfig_patterns`).  A refused text is the first that spells no pattern, documentation
before what is excluded.  The last condition stands apart: the directories that a pattern like
`a\/**` covers are told by its text without the `/**`, and `a\` spells nothing, so a text is refused
that is in neither list.
-/

namespace KnowledgeImport

open Glob

/-! ### One cut pattern -/

/-- The pattern ends in `/**`, and the slash of it is escaped. -/
def escapesCut (pattern : String) : Bool :=
  (prunedPattern? pattern).any fun cut => EndsInEscape cut.toList

section Cut

variable {pattern cut : String} (hcut : prunedPattern? pattern = some cut)
include hcut

theorem escapesCut_iff : escapesCut pattern = true ↔ EndsInEscape cut.toList := by
  rw [escapesCut, hcut, Option.any_some, decide_eq_true_iff]

/-- The text that is left of a pattern is read to its end, unless it ends in an escape. -/
theorem readsToCut_of_isPattern (h : isPattern pattern = true) :
    ReadsToCut cut.toList (Pattern.ofString? cut) := by
  obtain ⟨q, hq⟩ := isPattern_iff.mp h
  rw [Pattern.ofString?, prunedPattern?_eq_some_iff.mp hcut] at hq
  apply readFrom_of_append _ hq
  intro hmode
  cases hmode

/-- What is left of a pattern spells a pattern, unless the cut goes through an escape. -/
theorem isPattern_cut_iff (h : isPattern pattern = true) :
    isPattern cut = true ↔ escapesCut pattern = false := by
  rw [← Bool.not_eq_true, escapesCut_iff hcut, isPattern_iff]
  rcases readsToCut_of_isPattern hcut h with ⟨hends, herror⟩ | ⟨hends, p, hp⟩
  · simp [hends, herror]
  · simp [hends, hp]

/-- The cut is all that can be wrong with what is left of a pattern. -/
theorem cause_eq_danglingEscape (h : isPattern pattern = true) {cause : SyntaxError}
    (hcause : Pattern.ofString? cut = .error cause) : cause = .danglingEscape := by
  rcases readsToCut_of_isPattern hcut h with ⟨-, herror⟩ | ⟨-, p, hp⟩
  · exact Except.error.inj (hcause.symm.trans herror)
  · rw [hp] at hcause
    cases hcause

/-- What is left of a pattern nests no deeper than the pattern. -/
theorem nestsTooDeep_of_cut (h : NestsTooDeep cut) : NestsTooDeep pattern := by
  obtain ⟨p, hp, hdeep⟩ := h
  obtain ⟨q, hq, hbelow⟩ := readFrom_append (fun hmode => by cases hmode) hp
  refine ⟨q, ?_, ?_⟩
  · rw [Pattern.ofString?, prunedPattern?_eq_some_iff.mp hcut]
    exact hq
  · rw [← Bool.not_eq_true] at hdeep ⊢
    exact fun hshallow => hdeep (isShallow_of_subset hshallow hbelow.subset)

end Cut

/-- Of the texts that are left of patterns, the first that spells no pattern is that of the first
pattern whose cut goes through an escape. -/
theorem find?_cuts {patterns : List String} (h : ∀ s ∈ patterns, isPattern s = true) {cut : String}
    (hfirst : (patterns.filterMap prunedPattern?).find? (!isPattern ·) = some cut) :
    ∃ pattern, patterns.find? escapesCut = some pattern ∧ prunedPattern? pattern = some cut := by
  rw [List.find?_filterMap, Option.bind_eq_some_iff] at hfirst
  obtain ⟨pattern, hpattern, hcut⟩ := hfirst
  refine ⟨pattern, ?_, hcut⟩
  have hsame : ∀ s ∈ patterns, escapesCut s = (prunedPattern? s).any (!isPattern ·) := by
    intro s hs
    cases hcut : prunedPattern? s with
    | none => rw [escapesCut, hcut, Option.any_none, Option.any_none]
    | some cut =>
      rw [Option.any_some, Bool.eq_iff_iff, Bool.not_eq_true', ← Bool.not_eq_true,
        isPattern_cut_iff hcut (h s hs), Bool.not_eq_false]
  rw [← hpattern, ← List.head?_filter, ← List.head?_filter, List.filter_congr hsame]

/-! ### All patterns of a configuration -/

/-- The patterns of a configuration, in the order in which they are read. -/
def ImportConfig.patterns (config : ImportConfig) : List String :=
  config.docPatterns ++ config.excludePatterns

namespace ScanRules

/-- What can come of building the rules of a configuration. -/
inductive RulesOutcome (config : ImportConfig) : Except SetError ScanRules → Prop
  | ok {rules : ScanRules} (h : ∀ s ∈ config.patterns, isPattern s = true ∧ ¬ NestsTooDeep s)
      (hcut : ∀ s ∈ config.excludePatterns, escapesCut s = false) : RulesOutcome config (.ok rules)
  | malformed {s : String} {cause : SyntaxError}
      (h : config.patterns.find? (!isPattern ·) = some s)
      (hcause : Pattern.ofString? s = .error cause) :
      RulesOutcome config (.error (.malformed s cause))
  | escapedCut {pattern cut : String} (h : ∀ s ∈ config.patterns, isPattern s = true)
      (hfirst : config.excludePatterns.find? escapesCut = some pattern)
      (hcut : prunedPattern? pattern = some cut) :
      RulesOutcome config (.error (.malformed cut .danglingEscape))
  | tooDeep {e : SetError} (he : ∀ s cause, e ≠ .malformed s cause)
      (h : ∃ s ∈ config.patterns, NestsTooDeep s) : RulesOutcome config (.error e)

theorem find?_patterns {config : ImportConfig}
    (hdoc : ∀ s ∈ config.docPatterns, isPattern s = true) {s : String}
    (h : config.excludePatterns.find? (!isPattern ·) = some s) :
    config.patterns.find? (!isPattern ·) = some s := by
  have hnone : config.docPatterns.find? (!isPattern ·) = none := by
    rw [List.find?_eq_none]
    intro t ht
    rw [hdoc t ht]
    decide
  rw [ImportConfig.patterns, List.find?_append, hnone, Option.none_or, h]

theorem outcome_ofConfig (config : ImportConfig) : RulesOutcome config (ofConfig config) := by
  have hdoc := PatternSet.outcome_ofStrings config.docPatterns
  have hexcl := PatternSet.outcome_ofStrings config.excludePatterns
  have hpruned := PatternSet.outcome_ofStrings (config.excludePatterns.filterMap prunedPattern?)
  unfold ofConfig
  generalize PatternSet.ofStrings config.docPatterns = documentation at hdoc ⊢
  generalize PatternSet.ofStrings config.excludePatterns = excluded at hexcl ⊢
  generalize PatternSet.ofStrings (config.excludePatterns.filterMap prunedPattern?) = pruned
    at hpruned ⊢
  -- the three sets are built one after the other, and the first that is refused decides
  cases hdoc with
  | malformed h hcause =>
    apply RulesOutcome.malformed _ hcause
    rw [ImportConfig.patterns, List.find?_append, h, Option.some_or]
  | tooDeep he hread h =>
    obtain ⟨s, hs, hdeep⟩ := h
    exact .tooDeep he ⟨s, List.mem_append_left _ hs, hdeep⟩
  | ok hdoc =>
    have hdocRead := fun s hs => (hdoc s hs).1
    cases hexcl with
    | malformed h hcause => exact .malformed (find?_patterns hdocRead h) hcause
    | tooDeep he hread h =>
      obtain ⟨s, hs, hdeep⟩ := h
      exact .tooDeep he ⟨s, List.mem_append_right _ hs, hdeep⟩
    | ok hexcl =>
      have hexclRead := fun s hs => (hexcl s hs).1
      have hall : ∀ s ∈ config.patterns, isPattern s = true ∧ ¬ NestsTooDeep s :=
        List.forall_mem_append.mpr ⟨hdoc, hexcl⟩
      cases hpruned with
      | malformed h hcause =>
        obtain ⟨pattern, hfirst, hcut⟩ := find?_cuts hexclRead h
        have hpattern := hexclRead pattern (List.mem_of_find?_eq_some hfirst)
        obtain rfl := cause_eq_danglingEscape hcut hpattern hcause
        exact .escapedCut (fun s hs => (hall s hs).1) hfirst hcut
      | tooDeep he hread h =>
        obtain ⟨cut, hcut, hdeep⟩ := h
        obtain ⟨pattern, hpattern, hcut⟩ := List.mem_filterMap.mp hcut
        exact absurd (nestsTooDeep_of_cut hcut hdeep) (hexcl pattern hpattern).2
      | ok h =>
        apply RulesOutcome.ok hall
        intro pattern hpattern
        cases hcut : prunedPattern? pattern with
        | none => rw [escapesCut, hcut, Option.any_none]
        | some cut =>
          have hmem := List.mem_filterMap.mpr ⟨pattern, hpattern, hcut⟩
          exact (isPattern_cut_iff hcut (hexclRead pattern hpattern)).mp (h cut hmem).1

/-- The rules of a configuration can be built iff every text in its lists spells a pattern that does
not nest too deeply, and no cut of an exclude pattern goes through an escape. A refused text is the
first that spells no pattern, or if all do, what is left of the first pattern with such a cut. -/
theorem ofConfig_patterns (config : ImportConfig) :
    ((∃ rules, ofConfig config = .ok rules) ↔
      (∀ s ∈ config.patterns, isPattern s = true ∧ ¬ NestsTooDeep s) ∧
        ∀ s ∈ config.excludePatterns, escapesCut s = false) ∧
    (∀ s cause, ofConfig config = .error (.malformed s cause) →
      config.patterns.find? (!isPattern ·) = some s ∧ Pattern.ofString? s = .error cause ∨
      (∀ t ∈ config.patterns, isPattern t = true) ∧ cause = .danglingEscape ∧
        ∃ pattern, config.excludePatterns.find? escapesCut = some pattern ∧
          prunedPattern? pattern = some s) ∧
    (∀ e, ofConfig config = .error e → (∀ s cause, e ≠ .malformed s cause) →
      ∃ s ∈ config.patterns, NestsTooDeep s) ∧
    ∀ pattern cut, prunedPattern? pattern = some cut → isPattern pattern = true →
      (isPattern cut = true ↔ escapesCut pattern = false) := by
  have hout := outcome_ofConfig config
  generalize ofConfig config = r at hout ⊢
  refine ⟨?_, ?_, ?_, fun pattern cut => isPattern_cut_iff⟩
  · constructor
    · rintro ⟨rules, rfl⟩
      cases hout with
      | ok h hcut => exact ⟨h, hcut⟩
    · rintro ⟨hall, hcut⟩
      cases hout with
      | ok => exact ⟨_, rfl⟩
      | malformed h hcause =>
        have hs := List.find?_some h
        rw [(hall _ (List.mem_of_find?_eq_some h)).1] at hs
        cases hs
      | escapedCut h hfirst =>
        have hs := List.find?_some hfirst
        rw [hcut _ (List.mem_of_find?_eq_some hfirst)] at hs
        cases hs
      | tooDeep he h =>
        obtain ⟨s, hs, hdeep⟩ := h
        exact absurd hdeep (hall s hs).2
  · rintro s cause rfl
    cases hout with
    | malformed h hcause => exact Or.inl ⟨h, hcause⟩
    | escapedCut h hfirst hcut => exact Or.inr ⟨h, rfl, _, hfirst, hcut⟩
    | tooDeep he h => exact absurd rfl (he s cause)
  · rintro e rfl hother
    cases hout with
    | malformed h hcause => exact absurd rfl (hother _ _)
    | escapedCut h hfirst hcut => exact absurd rfl (hother _ _)
    | tooDeep he h => exact h

/-- With `a\/**` to exclude, nothing is scanned: both patterns are valid, but the text `a\`, which
is not among them, is refused. -/
theorem ofConfig_refuses_unlisted :
    let config := markdownExcept "a\\/**"
    (∀ s ∈ config.patterns, isPattern s = true ∧ ∃ set, PatternSet.ofStrings [s] = .ok set) ∧
      ofConfig config = .error (.malformed "a\\" .danglingEscape) ∧ "a\\" ∉ config.patterns := by
  intro config
  refine ⟨?_, rfl, by decide⟩
  have hpatterns : config.patterns = ["*.md", "a\\/**"] := rfl
  rw [hpatterns, List.forall_mem_cons, List.forall_mem_singleton]
  exact ⟨⟨rfl, _, rfl⟩, rfl, _, rfl⟩

-- two backslashes before the slash are one that is escaped, and the cut leaves it whole
example : (ofConfig (markdownExcept "a\\\\/**")).isOk = true := rfl

end ScanRules

end KnowledgeImport
