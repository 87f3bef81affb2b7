import KnowledgeImport.Scan.Repository
import KnowledgeImport.Proofs.FileTree.Walk
import KnowledgeImport.Proofs.Glob.Descendants
import KnowledgeImport.Proofs.Glob.PatternSet
import KnowledgeImport.Proofs.Scan.Candidates

/-!
# Directories that are not entered

A scan leaves out directories, judged by the exclude patterns without the `/**` at their ends.  It
should find what a scan finds that enters every directory and drops what is excluded
(`ScanRules.scanFully`).  This holds but for one shape of pattern: `**/` once or more before `/**`
(`PrunesAll`).  Without its `/**` such a pattern matches every directory, while the whole pattern
wants two slashes with nothing between them, or one at the front.  `ScanRules.scan_eq_scanFully_iff`
says exactly when the two scans agree.
-/

namespace KnowledgeImport

open Text Glob

/-! ### The full scan -/

namespace ScanRules

/-- The path that some of the last names make is matched by an exclude pattern. -/
def excludes (rules : ScanRules) (names : List Name) : Bool :=
  names.tails.any fun s => s ≠ [] && rules.excluded.isMatch (relativeOctets s)

/-- The classified files of a directory, found by entering every directory below it and dropping
the files that are excluded. -/
def scanEntriesFully (rules : ScanRules) (root : Path) (entries : Forest) : ScanResult :=
  ((entries.files entersAll []).filter fun f => !rules.excludes f.names).foldl
    (rules.listFile root) {}

/-- The scan of the tree at `root` that enters every directory. -/
def scanFully (rules : ScanRules) (fs : FileSystem) (root : Path) : Except ScanError ScanResult :=
  match fs.node root with
  | .ok (.directory entries) => .ok (rules.scanEntriesFully root entries)
  | .ok _ => .error (.notDirectory root)
  | .error _ => .error (.pathNotFound root)

theorem excludes_iff {rules : ScanRules} {names : List Name} (hne : names ≠ [])
    (hfree : ∀ n ∈ names, n.SlashFree) :
    rules.excludes names = true ↔ matchesAny rules.excluded (relativeText names) = true := by
  rw [matchesAny_relativeText_iff _ hne hfree, excludes, List.any_eq_true]
  simp [and_left_comm]

/-- What is excluded has no class. -/
theorem classify_eq_none_of_excluded {rules : ScanRules} {names : List Name}
    (h : matchesAny rules.excluded (relativeText names) = true) : rules.classify names = none := by
  rw [classify, if_pos h]

theorem not_excluded_of_classify {rules : ScanRules} {names : List Name} {c : FileClass}
    (h : rules.classify names = some c) :
    ¬ matchesAny rules.excluded (relativeText names) = true := by
  intro hmatch
  rw [classify_eq_none_of_excluded hmatch] at h
  cases h

/-- A file without a class changes no result. -/
theorem listFile_of_classify_eq_none {rules : ScanRules} {root : Path} {r : ScanResult}
    {f : FoundFile} (h : rules.classify f.names = none) : rules.listFile root r f = r := by
  rw [listFile, h]

end ScanRules

/-! ### Counting the files of a result -/

/-- How many files a result lists. -/
def ScanResult.fileCount (r : ScanResult) : Nat :=
  r.readmeFiles.length + r.documentation.length + r.codeFiles.length

theorem ScanResult.fileCount_add (r : ScanResult) (c : FileClass) (path : Path) (size : Nat) :
    (r.add c path size).fileCount = r.fileCount + 1 := by
  cases c <;> simp [fileCount, add] <;> omega

namespace ScanRules

/-- The file has a class. -/
def hasClass (rules : ScanRules) (f : FoundFile) : Bool :=
  (rules.classify f.names).isSome

theorem not_excluded_of_hasClass {rules : ScanRules} {f : FoundFile}
    (h : rules.hasClass f = true) : ¬ matchesAny rules.excluded (relativeText f.names) = true := by
  obtain ⟨c, hc⟩ := Option.isSome_iff_exists.mp h
  exact not_excluded_of_classify hc

/-- A file with a class is not excluded, for exclusion comes first. -/
theorem excludes_eq_false_of_hasClass {rules : ScanRules} {f : FoundFile} (hne : f.names ≠ [])
    (hfree : ∀ n ∈ f.names, n.SlashFree) (h : rules.hasClass f = true) :
    rules.excludes f.names = false := by
  rw [← Bool.not_eq_true, excludes_iff hne hfree]
  exact not_excluded_of_hasClass h

/-- The files with a class are counted, one by one. -/
theorem fileCount_foldl_listFile (rules : ScanRules) (root : Path) (l : List FoundFile)
    (r : ScanResult) :
    (l.foldl (rules.listFile root) r).fileCount
      = r.fileCount + (l.filter rules.hasClass).length := by
  induction l generalizing r with
  | nil => rfl
  | cons f l ih =>
    rw [List.foldl_cons, ih, listFile, List.filter_cons, hasClass]
    cases rules.classify f.names with
    | none => rfl
    | some c =>
      rw [ScanResult.fileCount_add, Option.isSome_some, if_pos rfl, List.length_cons]
      omega

/-- A scan finds what the full scan finds iff every directory on the way to a file with a class is
entered. -/
theorem scanEntries_eq_scanEntriesFully_iff (rules : ScanRules) (root : Path) {entries : Forest}
    (hfree : entries.SlashFree) :
    rules.scanEntries root entries = rules.scanEntriesFully root entries ↔
      ∀ f ∈ entries.files entersAll [], rules.hasClass f = true → f.Entered rules.enters 0 := by
  have hexcluded : ∀ f ∈ entries.files entersAll [], rules.hasClass f = true →
      rules.excludes f.names = false := by
    intro f hf hclass
    have hholds := (entries.mem_files_iff f).mp hf
    exact excludes_eq_false_of_hasClass hholds.ne_nil (hholds.slashFree hfree) hclass
  have hpruned : rules.scanEntries root entries
      = ((entries.files entersAll []).filter (FoundFile.Entered rules.enters 0 ·)).foldl
          (rules.listFile root) {} := by
    rw [scanEntries, Forest.files_eq_filter]
    rfl
  rw [hpruned, scanEntriesFully]
  constructor
  · -- the results are equal, so as many files with a class were found as there are
    intro h
    have hcount := congrArg ScanResult.fileCount h
    have hfull : ((entries.files entersAll []).filter fun f => !rules.excludes f.names).filter
        rules.hasClass = (entries.files entersAll []).filter rules.hasClass := by
      rw [List.filter_filter]
      refine List.filter_congr fun f hf => ?_
      cases hclass : rules.hasClass f with
      | false => rfl
      | true => rw [hexcluded f hf hclass]; rfl
    rw [fileCount_foldl_listFile, fileCount_foldl_listFile, Nat.add_left_cancel_iff, hfull,
      List.filter_comm, List.length_filter_eq_length_iff] at hcount
    intro f hf hclass
    exact of_decide_eq_true (hcount f (List.mem_filter.mpr ⟨hf, hclass⟩))
  · intro h
    rw [List.foldl_filter, List.foldl_filter]
    refine List.foldl_ext _ _ _ fun r f hf => ?_
    by_cases hclass : rules.hasClass f = true
    · rw [if_pos (decide_eq_true (h f hf hclass)), hexcluded f hf hclass, Bool.not_false,
        if_pos rfl]
    · have hnone : rules.classify f.names = none := by
        simpa [hasClass] using hclass
      rw [listFile_of_classify_eq_none hnone, ite_self, ite_self]

end ScanRules

/-! ### What the cut patterns match -/

theorem prunedPattern?_eq_some_iff {pattern cut : String} :
    prunedPattern? pattern = some cut ↔ pattern.toList = cut.toList ++ descendantsText := by
  simp only [prunedPattern?]
  rw [← descendantsText]
  constructor
  · intro h
    split_ifs at h with hsuffix
    obtain rfl := Option.some.inj h
    obtain ⟨init, hinit⟩ := List.isSuffixOf_iff_suffix.mp hsuffix
    rw [← hinit, String.toList_ofList, List.length_append,
      show descendantsText.length = 3 from rfl, Nat.add_sub_cancel, List.take_left]
  · intro h
    rw [h, if_pos (List.isSuffixOf_iff_suffix.mpr (List.suffix_append ..)), List.length_append,
      show descendantsText.length = 3 from rfl, Nat.add_sub_cancel, List.take_left,
      String.ofList_toList]

/-- A pattern of `**/`, once or more, and `/**`. Without the `/**` it matches every directory. -/
def PrunesAll (pattern : String) : Prop :=
  ∃ n, pattern.toList = ancestorsText (n + 1) ++ descendantsText

namespace ScanRules

/-- The rules of a configuration have the sets of its patterns and its extensions. -/
theorem ofConfig_eq_ok_iff {config : ImportConfig} {rules : ScanRules} :
    ofConfig config = .ok rules ↔
      PatternSet.ofStrings config.docPatterns = .ok rules.documentation ∧
      PatternSet.ofStrings config.excludePatterns = .ok rules.excluded ∧
      PatternSet.ofStrings (config.excludePatterns.filterMap prunedPattern?)
        = .ok rules.prunedDirectories ∧
      config.codeExtensions.map asciiLower = rules.codeExtensions := by
  constructor
  · intro h
    rw [ofConfig] at h
    -- the three sets are built one after the other
    cases hdoc : PatternSet.ofStrings config.docPatterns with
    | error e => rw [hdoc] at h; cases h
    | ok documentation =>
      cases hexcl : PatternSet.ofStrings config.excludePatterns with
      | error e => rw [hdoc, hexcl] at h; cases h
      | ok excluded =>
        cases hpruned : PatternSet.ofStrings (config.excludePatterns.filterMap prunedPattern?) with
        | error e => rw [hdoc, hexcl, hpruned] at h; cases h
        | ok pruned =>
          rw [hdoc, hexcl, hpruned] at h
          obtain rfl := Except.ok.inj h
          exact ⟨rfl, rfl, rfl, rfl⟩
  · rintro ⟨hdoc, hexcl, hpruned, hcode⟩
    rw [ofConfig, hdoc, hexcl, hpruned, hcode]
    rfl

/-- The sets of what is not to be imported are those of the exclude patterns. -/
theorem ofStrings_of_ofConfig {config : ImportConfig} {rules : ScanRules}
    (h : ofConfig config = .ok rules) :
    PatternSet.ofStrings config.excludePatterns = .ok rules.excluded ∧
      PatternSet.ofStrings (config.excludePatterns.filterMap prunedPattern?)
        = .ok rules.prunedDirectories := by
  obtain ⟨-, hexcl, hpruned, -⟩ := ofConfig_eq_ok_iff.mp h
  exact ⟨hexcl, hpruned⟩

/-- A pattern that prunes everything keeps every directory from being entered. -/
theorem enters_eq_false_of_prunesAll {config : ImportConfig} {rules : ScanRules}
    (hrules : ofConfig config = .ok rules) {pattern : String}
    (hmem : pattern ∈ config.excludePatterns) (hall : PrunesAll pattern) (names : List Name) :
    rules.enters names = false := by
  obtain ⟨-, hpruned⟩ := ofStrings_of_ofConfig hrules
  obtain ⟨n, hn⟩ := hall
  have hcut : prunedPattern? pattern = some (String.ofList (ancestorsText (n + 1))) :=
    prunedPattern?_eq_some_iff.mpr (by rw [hn, String.toList_ofList])
  have hmemCut := List.mem_filterMap.mpr ⟨pattern, hmem, hcut⟩
  obtain ⟨p, hp⟩ := exists_ofString?_of_readAll (readAll_of_ofStrings hpruned) hmemCut
  have hmatch : p.isMatch ((relativeText names).flatMap String.utf8EncodeChar) = true := by
    rw [Pattern.ofString?, String.toList_ofList] at hp
    exact isMatch_ancestorsText hp _
  rw [enters, matchesAny, candidates, List.any_cons, Bool.not_eq_false', Bool.or_eq_true]
  left
  exact (PatternSet.isMatch_ofStrings_iff hpruned _).mpr ⟨_, hmemCut, p, hp, hmatch⟩

/-- Whatever lies below a directory that is not entered is excluded, unless a pattern prunes
everything. -/
theorem excluded_of_enters_eq_false {config : ImportConfig} {rules : ScanRules}
    (hrules : ofConfig config = .ok rules) (hnone : ∀ p ∈ config.excludePatterns, ¬ PrunesAll p)
    {d rest : List Name} (hd : d ≠ []) (hrest : rest ≠ []) (h : rules.enters d = false) :
    matchesAny rules.excluded (relativeText (d ++ rest)) = true := by
  obtain ⟨hexcl, hpruned⟩ := ofStrings_of_ofConfig hrules
  rw [enters, Bool.not_eq_false', matchesAny, List.any_eq_true] at h
  obtain ⟨c, hc, hmatch⟩ := h
  obtain ⟨cut, hcut, p, hp, hmatch⟩ := (PatternSet.isMatch_ofStrings_iff hpruned _).mp hmatch
  obtain ⟨pattern, hmem, hcut⟩ := List.mem_filterMap.mp hcut
  have htext := prunedPattern?_eq_some_iff.mp hcut
  obtain ⟨q, hq⟩ := exists_ofString?_of_readAll (readAll_of_ofStrings hexcl) hmem
  have hq' := hq
  rw [Pattern.ofString?, htext] at hq'
  have hcut : ∀ n, cut.toList ≠ ancestorsText (n + 1) := by
    intro n hn
    exact hnone pattern hmem ⟨n, by rw [htext, hn]⟩
  have hbelow := isMatch_below_of_isMatch hp hq' hcut hmatch
    ((relativeText rest).flatMap String.utf8EncodeChar)
  rw [matchesAny, List.any_eq_true, relativeText_append hd hrest]
  refine ⟨c ++ '/' :: relativeText rest, mem_candidates_append hc _, ?_⟩
  refine (PatternSet.isMatch_ofStrings_iff hexcl _).mpr ⟨pattern, hmem, q, hq, ?_⟩
  rw [List.flatMap_append, List.flatMap_cons]
  exact hbelow

/-- Every directory on the way to a file with a class is entered, unless a pattern prunes
everything: one that is not entered would exclude the file. -/
theorem entered_of_hasClass {config : ImportConfig} {rules : ScanRules}
    (hrules : ofConfig config = .ok rules) (hnone : ∀ p ∈ config.excludePatterns, ¬ PrunesAll p)
    {f : FoundFile} (hclass : rules.hasClass f = true) : f.Entered rules.enters 0 := by
  intro k hk hpos
  by_contra henters
  rw [Bool.not_eq_true] at henters
  have hd : f.names.take k ≠ [] := by
    rw [← List.length_pos_iff, List.length_take_of_le (Nat.le_of_lt hk)]
    exact hpos
  have hrest : f.names.drop k ≠ [] := by
    rw [← List.length_pos_iff, List.length_drop]
    omega
  have hmatch := excluded_of_enters_eq_false hrules hnone hd hrest henters
  rw [List.take_append_drop] at hmatch
  exact not_excluded_of_hasClass hclass hmatch

/-! ### When the two scans agree -/

/-- The scans of a directory agree iff no pattern prunes everything or every file that the full scan
lists lies in that directory itself. -/
theorem scanEntries_eq_iff_of_ofConfig {config : ImportConfig} {rules : ScanRules}
    (hrules : ofConfig config = .ok rules) (root : Path) {entries : Forest}
    (hfree : entries.SlashFree) :
    rules.scanEntries root entries = rules.scanEntriesFully root entries ↔
      ((∃ p ∈ config.excludePatterns, PrunesAll p) →
        ∀ names content, entries.Holds names content → rules.excludes names = false →
          rules.classify names ≠ none → names.length = 1) := by
  rw [scanEntries_eq_scanEntriesFully_iff rules root hfree]
  constructor
  · -- the first name of a deeper file would be that of a directory, and none is entered
    rintro h ⟨p, hp, hall⟩ names content hholds - hclass
    by_contra hlen
    have hpos : 0 < names.length := List.length_pos_iff.mpr hholds.ne_nil
    have hentered := h ⟨names, content⟩ ((entries.mem_files_iff _).mpr hholds)
      (Option.isSome_iff_ne_none.mpr hclass) 1 (by dsimp only; omega) Nat.one_pos
    rw [enters_eq_false_of_prunesAll hrules hp hall] at hentered
    cases hentered
  · intro h f hf hclass k hk hpos
    have hholds := (entries.mem_files_iff f).mp hf
    by_cases hall : ∃ p ∈ config.excludePatterns, PrunesAll p
    · have hexcl := excludes_eq_false_of_hasClass hholds.ne_nil (hholds.slashFree hfree) hclass
      have hlen := h hall f.names f.content hholds hexcl (Option.isSome_iff_ne_none.mp hclass)
      omega
    · exact entered_of_hasClass hrules (fun p hp hp' => hall ⟨p, hp, hp'⟩) hclass k hk hpos

/-- A scan finds what the full scan finds iff no pattern prunes everything or every file that the
full scan lists lies in the root itself. -/
theorem scan_eq_scanFully_iff {config : ImportConfig} {rules : ScanRules}
    (hrules : ofConfig config = .ok rules) {fs : FileSystem} (hfs : fs.SlashFree) (root : Path) :
    rules.scan fs root = rules.scanFully fs root ↔
      ((∃ p ∈ config.excludePatterns, PrunesAll p) →
        ∀ entries, fs.node root = .ok (.directory entries) →
          ∀ names content, entries.Holds names content → rules.excludes names = false →
            rules.classify names ≠ none → names.length = 1) := by
  rw [scan, scanFully]
  cases hnode : fs.node root with
  | error e => simp
  | ok node =>
    cases node with
    | file content => simp
    | link target => simp
    | directory entries =>
      have hfree : entries.SlashFree := hfs.node hnode
      rw [Except.ok.injEq, scanEntries_eq_iff_of_ofConfig hrules root hfree]
      simp

end ScanRules

/-! ### One tree and two patterns -/

/-- The directory `a` with the file `b.md` in it. -/
def nestedEntries : Forest :=
  .cons [0x61] (.directory (.cons [0x62, 0x2E, 0x6D, 0x64] (.file (.octets [])) .nil)) .nil

/-- A machine with the file `/a/b.md`. -/
def nestedFile : FileSystem :=
  FileSystem.put { root := .directory .nil } (Path.ofString "/a/b.md") (.file (.octets []))

theorem slashFree_nestedFile : nestedFile.SlashFree := by
  have hempty : FileSystem.SlashFree { root := .directory .nil } := trivial
  exact hempty.put _ trivial

/-- Imports what ends in `.md` but for what the pattern excludes. -/
def markdownExcept (pattern : String) : ImportConfig where
  root := Path.ofString "/"
  backendUrl := defaultBackendUrl
  projectId := ""
  includeCodeExamples := true
  dryRun := false
  docPatterns := ["*.md"]
  excludePatterns := [pattern]
  codeExtensions := []

/-- What ends in `.md` is documentation but for what is excluded. -/
def markdownRules (excluded pruned : Pattern) : ScanRules where
  documentation := [[.anyRun, .literal '.', .literal 'm', .literal 'd']]
  excluded := [excluded]
  prunedDirectories := [pruned]
  codeExtensions := []

/-- The rules with `a/**`. -/
def directoryRules : ScanRules :=
  markdownRules [.literal 'a', .anyDescendants] [.literal 'a']

/-- The rules with `**//**`. -/
def pruningRules : ScanRules :=
  markdownRules [.anyAncestors, .anyDescendants] [.anyAncestors]

/-- With `a/**` the directory is not entered, and the full scan lists nothing of it. -/
theorem ScanRules.scan_eq_scanFully_of_directory :
    ofConfig (markdownExcept "a/**") = .ok directoryRules ∧ nestedFile.SlashFree ∧
      directoryRules.enters [[0x61]] = false ∧
      directoryRules.scan nestedFile (Path.ofString "/")
        = directoryRules.scanFully nestedFile (Path.ofString "/") := by
  have hrules : ofConfig (markdownExcept "a/**") = .ok directoryRules := rfl
  refine ⟨hrules, slashFree_nestedFile, by decide +kernel, ?_⟩
  refine (scan_eq_scanFully_iff hrules slashFree_nestedFile _).mpr ?_
  rintro ⟨p, hp, n, hn⟩
  obtain rfl := List.mem_singleton.mp hp
  exact absurd (congrArg List.head? hn) (by decide : some 'a' ≠ some '*')

/-- With `**//**` the file is not excluded, but the directory is not entered either. -/
theorem ScanRules.scan_ne_scanFully_of_prunesAll :
    ofConfig (markdownExcept "**//**") = .ok pruningRules ∧ nestedFile.SlashFree ∧
      pruningRules.scan nestedFile (Path.ofString "/") = .ok {} ∧
      pruningRules.scanFully nestedFile (Path.ofString "/")
        = .ok { documentation := [Path.ofString "/a/b.md"] } := by
  have hnode : nestedFile.node (Path.ofString "/") = .ok (.directory nestedEntries) := by cbv
  refine ⟨rfl, slashFree_nestedFile, ?_, ?_⟩
  · rw [scan, hnode]
    exact congrArg Except.ok (by decide +kernel)
  · rw [scanFully, hnode]
    exact congrArg Except.ok (by decide +kernel)

end KnowledgeImport
