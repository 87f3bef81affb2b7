import KnowledgeImport.Proofs.Scan.Membership
import KnowledgeImport.Proofs.Scan.PathPatterns

/-!
# What a scan makes of one file

A text of a list, read as a pattern, finds a file or does not (`Finds`), and a set finds what one of
its texts finds (`matchesAny_ofStrings_iff`).  A file that a scan comes to (`ScanRules.ComesTo`) is
listed as what it is classified, in a tree whatever its patterns
(`ScanRules.ComesTo.below_mem_ofClass_iff`), and as documentation or code if it is source code
(`ScanRules.classify_of_isCode`).
-/

namespace KnowledgeImport

open Text Glob

/-! ### Texts that find a file -/

/-- The text, read as a pattern, matches the path with these names or what follows a slash of it. -/
def Finds (text : String) (names : List Name) : Prop :=
  ∃ p, Pattern.ofString? text = .ok p ∧ matchesAny [p] (relativeText names) = true

theorem finds_iff {text : String} {names : List Name} :
    Finds text names ↔ (Pattern.ofString? text).toOption.any
      (fun p => matchesAny [p] (relativeText names)) = true := by
  rw [Finds]
  cases Pattern.ofString? text with
  | error cause => simp [Except.toOption]
  | ok p => simp [Except.toOption]

instance (text : String) (names : List Name) : Decidable (Finds text names) :=
  decidable_of_iff _ finds_iff.symm

/-- A set finds what one of its texts finds. -/
theorem matchesAny_ofStrings_iff {texts : List String} {set : PatternSet}
    (h : PatternSet.ofStrings texts = .ok set) (names : List Name) :
    matchesAny set (relativeText names) = true ↔ ∃ text ∈ texts, Finds text names := by
  rw [matchesAny_eq_true_iff]
  simp only [mem_readAll_iff (readAll_of_ofStrings h)]
  constructor
  · rintro ⟨p, ⟨text, htext, hp⟩, hmatch⟩
    exact ⟨text, htext, p, hp, hmatch⟩
  · rintro ⟨text, htext, p, hp, hmatch⟩
    exact ⟨p, ⟨text, htext, hp⟩, hmatch⟩

namespace ScanRules

/-! ### Files that a scan comes to -/

variable {config : ImportConfig} {rules : ScanRules} {entries : Forest}

/-- A scan comes to a file: it is a regular file of the tree, every directory on its way is entered,
and nothing that is to be excluded finds it. -/
structure ComesTo (rules : ScanRules) (config : ImportConfig) (entries : Forest) (f : FoundFile) :
    Prop where
  holds : entries.Holds f.names f.content
  entered : f.Entered rules.enters 0
  kept : ∀ text ∈ config.excludePatterns, ¬ Finds text f.names

namespace ComesTo

variable {f : FoundFile} (h : rules.ComesTo config entries f)
include h

theorem not_excluded (hrules : ofConfig config = .ok rules) :
    ¬ matchesAny rules.excluded (relativeText f.names) = true := by
  rw [matchesAny_ofStrings_iff (ofStrings_of_ofConfig hrules).1]
  rintro ⟨text, htext, hfinds⟩
  exact h.kept text htext hfinds

/-- A file that a scan comes to is listed as what it is classified. -/
theorem below_mem_ofClass_iff (hentries : entries.WellFormed) (root : Path) {c : FileClass} :
    root.below f.names ∈ (rules.scanEntries root entries).ofClass c ↔
      rules.classify f.names = some c := by
  rw [below_mem_ofClass_iff_entered hentries root h.holds, and_iff_right h.entered]

end ComesTo

/-- A file that is source code and not excluded is documentation or code. -/
theorem classify_of_isCode {names : List Name}
    (hkept : ¬ matchesAny rules.excluded (relativeText names) = true)
    (hcode : rules.isCode (names.getLastD []) = true) :
    rules.classify names
      = some (if matchesAny rules.documentation (relativeText names) = true then .documentation
          else .code) := by
  by_cases hdoc : matchesAny rules.documentation (relativeText names) = true
  · rw [if_pos hdoc, classify_eq_documentation_iff]
    exact ⟨hkept, fun hreadme => hreadme.1 hcode, hdoc⟩
  · rw [if_neg hdoc, classify_eq_code_iff]
    exact ⟨hkept, fun hreadme => hreadme.1 hcode, hdoc, hcode⟩

end ScanRules

end KnowledgeImport
