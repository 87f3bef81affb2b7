import KnowledgeImport.Proofs.Scan.Listing
import KnowledgeImport.Proofs.Scan.Pruning

/-!
# Files that a scan lists

A scan lists a file in a class iff the file has that class and every directory on the way to it is
entered (`ScanRules.mem_listed_iff`).  Where no pattern prunes everything, the directories need no
second look: a regular file of the tree is listed as what it is classified
(`ScanRules.below_mem_ofClass_iff`).
-/

namespace KnowledgeImport

namespace ScanRules

variable {rules : ScanRules} {entries : Forest} {c : FileClass}

/-- The files of a class are those of a full walk that have the class and whose directories are
entered. -/
theorem listed_eq_filter (rules : ScanRules) (entries : Forest) (c : FileClass) :
    rules.listed entries c = (entries.files entersAll []).filter fun f =>
      f.Entered rules.enters 0 ∧ rules.classify f.names = some c := by
  rw [listed, Forest.files_eq_filter, List.filter_filter]
  refine List.filter_congr fun f _ => ?_
  rw [Bool.and_comm, Bool.decide_and]
  rfl

theorem mem_listed_iff {f : FoundFile} :
    f ∈ rules.listed entries c ↔ entries.Holds f.names f.content ∧ f.Entered rules.enters 0 ∧
      rules.classify f.names = some c := by
  rw [listed_eq_filter, List.mem_filter, Forest.mem_files_iff, decide_eq_true_iff]

/-- What lists at least the same files in a class lists them in the same order. -/
theorem ofClass_sublist {rules' : ScanRules}
    (h : ∀ f : FoundFile, f.Entered rules.enters 0 → rules.classify f.names = some c →
      f.Entered rules'.enters 0 ∧ rules'.classify f.names = some c)
    (root : Path) (entries : Forest) :
    ((rules.scanEntries root entries).ofClass c).Sublist
      ((rules'.scanEntries root entries).ofClass c) := by
  rw [ofClass_scanEntries, ofClass_scanEntries, ← listed, ← listed, listed_eq_filter,
    listed_eq_filter]
  apply List.Sublist.map
  apply List.monotone_filter_right
  intro f hf
  obtain ⟨hentered, hclass⟩ := of_decide_eq_true hf
  exact decide_eq_true (h f hentered hclass)

/-- A scan lists no more files than the tree has. -/
theorem fileCount_scanEntries_le (rules : ScanRules) (root : Path) (entries : Forest) :
    (rules.scanEntries root entries).fileCount ≤ (entries.files entersAll []).length := by
  rw [scanEntries, fileCount_foldl_listFile, Forest.files_eq_filter]
  refine (Nat.le_of_eq (Nat.zero_add _)).trans ?_
  exact (List.length_filter_le ..).trans (List.length_filter_le ..)

variable {config : ImportConfig}

/-- The paths of a list are those of the files that are listed in the class. -/
theorem mem_ofClass_iff {root path : Path} :
    path ∈ (rules.scanEntries root entries).ofClass c ↔
      ∃ f ∈ rules.listed entries c, root.below f.names = path := by
  rw [ofClass_scanEntries, List.mem_map]
  rfl

/-! ### One class -/

theorem classify_eq_readme_iff {names : List Name} :
    rules.classify names = some .readme ↔
      ¬ matchesAny rules.excluded (relativeText names) = true ∧
      ¬ rules.isCode (names.getLastD []) = true ∧ startsReadme (names.getLastD []) = true := by
  rw [classify]
  split_ifs <;> simp_all

theorem classify_eq_documentation_iff {names : List Name} :
    rules.classify names = some .documentation ↔
      ¬ matchesAny rules.excluded (relativeText names) = true ∧
      ¬ (¬ rules.isCode (names.getLastD []) = true ∧ startsReadme (names.getLastD []) = true) ∧
      matchesAny rules.documentation (relativeText names) = true := by
  rw [classify]
  split_ifs <;> simp_all

theorem classify_eq_code_iff {names : List Name} :
    rules.classify names = some .code ↔
      ¬ matchesAny rules.excluded (relativeText names) = true ∧
      ¬ (¬ rules.isCode (names.getLastD []) = true ∧ startsReadme (names.getLastD []) = true) ∧
      ¬ matchesAny rules.documentation (relativeText names) = true ∧
      rules.isCode (names.getLastD []) = true := by
  rw [classify]
  split_ifs <;> simp_all

/-- In a well-formed tree, the path of a file is in the list of a class iff the file has the class and
every directory on its way is entered. -/
theorem below_mem_ofClass_iff_entered (hentries : entries.WellFormed) (root : Path) {f : FoundFile}
    (hholds : entries.Holds f.names f.content) :
    root.below f.names ∈ (rules.scanEntries root entries).ofClass c ↔
      f.Entered rules.enters 0 ∧ rules.classify f.names = some c := by
  rw [mem_ofClass_iff]
  constructor
  · -- files at the same path have the same names
    rintro ⟨g, hg, hpath⟩
    obtain ⟨hfile, hentered, hclass⟩ := mem_listed_iff.mp hg
    have hnames : g.names = f.names :=
      Path.below_inj (hfile.forall_names hereditary_wellFormed hentries)
        (hholds.forall_names hereditary_wellFormed hentries) hpath
    rw [FoundFile.Entered, hnames] at hentered
    exact ⟨hentered, hnames ▸ hclass⟩
  · rintro ⟨hentered, hclass⟩
    exact ⟨f, mem_listed_iff.mpr ⟨hholds, hentered, hclass⟩, rfl⟩

/-- In a well-formed tree, where no pattern prunes everything, the path of a file is in the list of
the class that the file has. -/
theorem below_mem_ofClass_iff (hrules : ofConfig config = .ok rules)
    (hnone : ∀ p ∈ config.excludePatterns, ¬ PrunesAll p) (hentries : entries.WellFormed)
    (root : Path) {names : List Name} {content : Content} (hholds : entries.Holds names content) :
    root.below names ∈ (rules.scanEntries root entries).ofClass c ↔
      rules.classify names = some c := by
  refine (below_mem_ofClass_iff_entered hentries root (f := ⟨names, content⟩) hholds).trans ?_
  rw [and_iff_right_iff_imp]
  intro hclass
  exact entered_of_hasClass hrules hnone (by rw [hasClass, hclass]; rfl)

end ScanRules

end KnowledgeImport
