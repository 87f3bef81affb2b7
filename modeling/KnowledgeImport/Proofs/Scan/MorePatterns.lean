import KnowledgeImport.Proofs.Scan.Membership

/-!
# Scans with more patterns

What a scan finds when one list of the configuration is extended (`ScanRules.scan_morePatterns`).
More to exclude takes files away and changes no class; more patterns of documentation turn code into
documentation; more extensions of source code turn readmes into documentation or code.  Where the
entries of a list stand, and how often, does not matter.

All of this is shown for one file first.  A set of more texts matches more (`matchesAny_mono`), and
the class of a file is decided by what the sets match (`ScanRules.classify_eq_readme_iff` and the
like).
-/

namespace KnowledgeImport

open Text Glob

/-! ### Larger sets -/

/-- A set that was built from more texts matches more. -/
theorem matchesAny_mono {texts more : List String} {set set' : PatternSet}
    (h : PatternSet.ofStrings texts = .ok set) (h' : PatternSet.ofStrings more = .ok set')
    (hsub : texts ⊆ more) {cs : List Char} (hmatch : matchesAny set cs = true) :
    matchesAny set' cs = true := by
  rw [matchesAny, List.any_eq_true] at hmatch ⊢
  obtain ⟨c, hc, hmatch⟩ := hmatch
  obtain ⟨text, htext, p, hp, hmatch⟩ := (PatternSet.isMatch_ofStrings_iff h _).mp hmatch
  have hset' := (PatternSet.isMatch_ofStrings_iff h' _).mpr ⟨text, hsub htext, p, hp, hmatch⟩
  exact ⟨c, hc, hset'⟩

namespace ScanRules

/-! ### Larger lists -/

section Lists

variable {config config' : ImportConfig} {rules rules' : ScanRules}
  (hrules : ofConfig config = .ok rules) (hrules' : ofConfig config' = .ok rules')
include hrules hrules'

theorem excluded_mono (hsub : config.excludePatterns ⊆ config'.excludePatterns) {cs : List Char}
    (h : matchesAny rules.excluded cs = true) : matchesAny rules'.excluded cs = true :=
  matchesAny_mono (ofStrings_of_ofConfig hrules).1 (ofStrings_of_ofConfig hrules').1 hsub h

/-- With more patterns to exclude, fewer directories are entered. -/
theorem enters_anti (hsub : config.excludePatterns ⊆ config'.excludePatterns) {names : List Name}
    (h : rules'.enters names = true) : rules.enters names = true := by
  have hcuts : config.excludePatterns.filterMap prunedPattern?
      ⊆ config'.excludePatterns.filterMap prunedPattern? := by
    intro cut hcut
    obtain ⟨pattern, hpattern, hcut⟩ := List.mem_filterMap.mp hcut
    exact List.mem_filterMap.mpr ⟨pattern, hsub hpattern, hcut⟩
  unfold enters at h ⊢
  rw [Bool.not_eq_true', ← Bool.not_eq_true] at h ⊢
  intro hmatch
  apply h
  exact matchesAny_mono (ofStrings_of_ofConfig hrules).2 (ofStrings_of_ofConfig hrules').2 hcuts
    hmatch

theorem documentation_mono (hsub : config.docPatterns ⊆ config'.docPatterns) {cs : List Char}
    (h : matchesAny rules.documentation cs = true) : matchesAny rules'.documentation cs = true := by
  obtain ⟨hdoc, -⟩ := ofConfig_eq_ok_iff.mp hrules
  obtain ⟨hdoc', -⟩ := ofConfig_eq_ok_iff.mp hrules'
  exact matchesAny_mono hdoc hdoc' hsub h

theorem isCode_mono (hsub : config.codeExtensions ⊆ config'.codeExtensions) {name : Name}
    (h : rules.isCode name = true) : rules'.isCode name = true := by
  obtain ⟨-, -, -, hcode⟩ := ofConfig_eq_ok_iff.mp hrules
  obtain ⟨-, -, -, hcode'⟩ := ofConfig_eq_ok_iff.mp hrules'
  unfold isCode at h ⊢
  split at h
  · rw [List.contains_iff_mem, ← hcode] at h
    rw [List.contains_iff_mem, ← hcode']
    exact List.map_subset asciiLower hsub h
  · cases h

end Lists

section SameLists

variable {config config' : ImportConfig} {rules rules' : ScanRules}
  (hrules : ofConfig config = .ok rules) (hrules' : ofConfig config' = .ok rules')
include hrules hrules'

/-! Where the entries of a list stand, and how often, does not matter. -/

theorem excluded_congr (hsame : ∀ s, s ∈ config'.excludePatterns ↔ s ∈ config.excludePatterns)
    (cs : List Char) : matchesAny rules'.excluded cs = matchesAny rules.excluded cs := by
  rw [Bool.eq_iff_iff]
  constructor
  · exact excluded_mono hrules' hrules fun s => (hsame s).mp
  · exact excluded_mono hrules hrules' fun s => (hsame s).mpr

theorem enters_congr (hsame : ∀ s, s ∈ config'.excludePatterns ↔ s ∈ config.excludePatterns) :
    rules'.enters = rules.enters := by
  funext names
  rw [Bool.eq_iff_iff]
  constructor
  · exact enters_anti hrules hrules' fun s => (hsame s).mpr
  · exact enters_anti hrules' hrules fun s => (hsame s).mp

theorem documentation_congr (hsame : ∀ s, s ∈ config'.docPatterns ↔ s ∈ config.docPatterns)
    (cs : List Char) :
    matchesAny rules'.documentation cs = matchesAny rules.documentation cs := by
  rw [Bool.eq_iff_iff]
  constructor
  · exact documentation_mono hrules' hrules fun s => (hsame s).mp
  · exact documentation_mono hrules hrules' fun s => (hsame s).mpr

theorem isCode_congr (hsame : ∀ s, s ∈ config'.codeExtensions ↔ s ∈ config.codeExtensions)
    (name : Name) : rules'.isCode name = rules.isCode name := by
  rw [Bool.eq_iff_iff]
  constructor
  · exact isCode_mono hrules' hrules fun s => (hsame s).mp
  · exact isCode_mono hrules hrules' fun s => (hsame s).mpr

end SameLists

/-! ### One file -/

section Rules

variable {rules rules' : ScanRules} {names : List Name}

/-- More exclusions leave a file its class or take it away. -/
theorem classify_of_moreExcluded
    (hexcl : ∀ cs, matchesAny rules.excluded cs = true → matchesAny rules'.excluded cs = true)
    (hdoc : ∀ cs, matchesAny rules'.documentation cs = matchesAny rules.documentation cs)
    (hcode : ∀ name, rules'.isCode name = rules.isCode name) {c : FileClass}
    (h : rules'.classify names = some c) : rules.classify names = some c := by
  have hkept' := not_excluded_of_classify h
  have hkept : ¬ matchesAny rules.excluded (relativeText names) = true :=
    fun hmatch => hkept' (hexcl _ hmatch)
  rw [classify, if_neg hkept', hdoc, hcode] at h
  rw [classify, if_neg hkept]
  exact h

/-- The rules exclude the same, and know at least as many documents and as much code. -/
structure Extends (rules rules' : ScanRules) : Prop where
  excluded (cs : List Char) : matchesAny rules'.excluded cs = matchesAny rules.excluded cs
  enters : rules'.enters = rules.enters
  documentation {cs : List Char} (h : matchesAny rules.documentation cs = true) :
    matchesAny rules'.documentation cs = true
  isCode {name : Name} (h : rules.isCode name = true) : rules'.isCode name = true

namespace Extends

variable (h : Extends rules rules')
include h

theorem classify_documentation (hclass : rules.classify names = some .documentation) :
    rules'.classify names = some .documentation := by
  rw [classify_eq_documentation_iff] at hclass
  obtain ⟨hkept, hreadme, hmatch⟩ := hclass
  have hreadme' : ¬ (¬ rules'.isCode (names.getLastD []) = true ∧
      startsReadme (names.getLastD []) = true) :=
    fun hr => hreadme ⟨fun hc => hr.1 (h.isCode hc), hr.2⟩
  rw [classify_eq_documentation_iff, h.excluded]
  exact ⟨hkept, hreadme', h.documentation hmatch⟩

/-- A readme was one before. -/
theorem classify_readme_of (hclass : rules'.classify names = some .readme) :
    rules.classify names = some .readme := by
  rw [classify_eq_readme_iff, h.excluded] at hclass
  obtain ⟨hkept, hcode, hreadme⟩ := hclass
  rw [classify_eq_readme_iff]
  exact ⟨hkept, fun hc => hcode (h.isCode hc), hreadme⟩

/-- A readme that is one no longer is source code now, and so has another class. -/
theorem classify_of_readme (hclass : rules.classify names = some .readme) :
    rules'.classify names = some .readme ∨ rules'.classify names = some .documentation ∨
      rules'.classify names = some .code := by
  rw [classify_eq_readme_iff] at hclass
  obtain ⟨hkept, -, hreadme⟩ := hclass
  rw [classify_eq_readme_iff, classify_eq_documentation_iff, classify_eq_code_iff, h.excluded]
  by_cases hcode : rules'.isCode (names.getLastD []) = true
  · by_cases hmatch : matchesAny rules'.documentation (relativeText names) = true
    · exact Or.inr (Or.inl ⟨hkept, fun hr => hr.1 hcode, hmatch⟩)
    · exact Or.inr (Or.inr ⟨hkept, fun hr => hr.1 hcode, hmatch, hcode⟩)
  · exact Or.inl ⟨hkept, hcode, hreadme⟩

/-- Code that is code no longer is matched by a pattern of documentation now. -/
theorem classify_of_code (hclass : rules.classify names = some .code) :
    rules'.classify names = some .code ∨ rules'.classify names = some .documentation := by
  rw [classify_eq_code_iff] at hclass
  obtain ⟨hkept, -, -, hcode⟩ := hclass
  have hcode' := h.isCode hcode
  rw [classify_eq_code_iff, classify_eq_documentation_iff, h.excluded]
  by_cases hmatch : matchesAny rules'.documentation (relativeText names) = true
  · exact Or.inr ⟨hkept, fun hr => hr.1 hcode', hmatch⟩
  · exact Or.inl ⟨hkept, fun hr => hr.1 hcode', hmatch, hcode'⟩

/-- With the same code, readmes are the same. -/
theorem classify_readme_iff (hcode : ∀ name, rules'.isCode name = rules.isCode name) :
    rules'.classify names = some .readme ↔ rules.classify names = some .readme := by
  rw [classify_eq_readme_iff, classify_eq_readme_iff, h.excluded, hcode]

/-- With the same extensions of source code, what is code was code before. -/
theorem classify_code_of (hcode : ∀ name, rules'.isCode name = rules.isCode name)
    (hclass : rules'.classify names = some .code) : rules.classify names = some .code := by
  rw [classify_eq_code_iff, h.excluded, hcode] at hclass
  obtain ⟨hkept, hreadme, hmatch, hcode⟩ := hclass
  rw [classify_eq_code_iff]
  exact ⟨hkept, hreadme, fun hm => hmatch (h.documentation hm), hcode⟩

/-- With the same documents, code stays code. -/
theorem classify_code
    (hdoc : ∀ cs, matchesAny rules'.documentation cs = matchesAny rules.documentation cs)
    (hclass : rules.classify names = some .code) : rules'.classify names = some .code := by
  rcases h.classify_of_code hclass with hcode | hdocument
  · exact hcode
  · rw [classify_eq_documentation_iff, hdoc] at hdocument
    exact absurd hdocument.2.2 (classify_eq_code_iff.mp hclass).2.2.1

end Extends

end Rules

/-! ### All files -/

section Entries

variable {rules rules' : ScanRules} {c : FileClass} {entries : Forest}
  (henters : rules'.enters = rules.enters)
include henters

/-- Where the same directories are entered, a file is listed in the class that it has now. -/
theorem below_mem_ofClass_of_classify {f : FoundFile} (hf : f ∈ rules.listed entries c)
    {c' : FileClass} (hclass : rules'.classify f.names = some c') (root : Path) :
    root.below f.names ∈ (rules'.scanEntries root entries).ofClass c' := by
  obtain ⟨hholds, hentered, -⟩ := mem_listed_iff.mp hf
  have hlisted : f ∈ rules'.listed entries c' := by
    rw [mem_listed_iff, henters]
    exact ⟨hholds, hentered, hclass⟩
  exact mem_ofClass_iff.mpr ⟨f, hlisted, rfl⟩

/-- Where the same directories are entered, the lists compare as the classes of the files do. -/
theorem ofClass_sublist_of_enters_eq
    (hclass : ∀ names, rules.classify names = some c → rules'.classify names = some c)
    (root : Path) :
    ((rules.scanEntries root entries).ofClass c).Sublist
      ((rules'.scanEntries root entries).ofClass c) := by
  apply ofClass_sublist
  intro f hentered hf
  rw [henters]
  exact ⟨hentered, hclass _ hf⟩

end Entries

end ScanRules

/-- What a scan finds when more is excluded: less, and each file in the list in which it was. -/
structure ScanResult.ExcludesMore (old new : ScanResult) : Prop where
  readmeFiles : new.readmeFiles.Sublist old.readmeFiles
  documentation : new.documentation.Sublist old.documentation
  codeFiles : new.codeFiles.Sublist old.codeFiles
  sameClass {path : Path} {c c' : FileClass} (h : path ∈ old.ofClass c) (h' : path ∈ new.ofClass c') :
    c' = c

/-- What a scan finds when more is documentation: it takes files from the code. -/
structure ScanResult.DocumentsMore (old new : ScanResult) : Prop where
  readmeFiles : new.readmeFiles = old.readmeFiles
  documentation : old.documentation.Sublist new.documentation
  codeFiles : new.codeFiles.Sublist old.codeFiles
  moved {path : Path} (h : path ∈ old.codeFiles) (h' : path ∉ new.codeFiles) :
    path ∈ new.documentation

/-- What a scan finds when more is code: readmes become documentation or code. -/
structure ScanResult.KnowsMoreCode (old new : ScanResult) : Prop where
  codeFiles : old.codeFiles.Sublist new.codeFiles
  readmeFiles : new.readmeFiles.Sublist old.readmeFiles
  documentation : old.documentation.Sublist new.documentation
  moved {path : Path} (h : path ∈ old.readmeFiles) (h' : path ∉ new.readmeFiles) :
    path ∈ new.documentation ∨ path ∈ new.codeFiles

/-- Two scans fail alike, or both find something, and what they find is so related. -/
inductive ScansRelate (R : ScanResult → ScanResult → Prop) :
    Except ScanError ScanResult → Except ScanError ScanResult → Prop
  | failed (cause : ScanError) : ScansRelate R (.error cause) (.error cause)
  | found {old new : ScanResult} (h : R old new) : ScansRelate R (.ok old) (.ok new)

namespace ScanRules

/-- Whether a scan fails, and how, does not depend on the rules. -/
theorem scansRelate_scan {R : ScanResult → ScanResult → Prop} {rules rules' : ScanRules}
    {fs : FileSystem} {root : Path}
    (h : ∀ entries, fs.node root = .ok (.directory entries) →
      R (rules.scanEntries root entries) (rules'.scanEntries root entries)) :
    ScansRelate R (rules.scan fs root) (rules'.scan fs root) := by
  unfold scan
  split
  · rename_i entries hnode
    exact .found (h entries hnode)
  · exact .failed _
  · exact .failed _

/-- Where more is excluded, and fewer directories are entered. -/
theorem scanEntries_excludesMore {rules rules' : ScanRules} {fs : FileSystem} {root : Path}
    {entries : Forest} (hfs : fs.WellFormed) (hnode : fs.node root = .ok (.directory entries))
    (henters : ∀ names, rules'.enters names = true → rules.enters names = true)
    (hclass : ∀ names c, rules'.classify names = some c → rules.classify names = some c) :
    (rules.scanEntries root entries).ExcludesMore (rules'.scanEntries root entries) := by
  have hsub (c : FileClass) : ((rules'.scanEntries root entries).ofClass c).Sublist
      ((rules.scanEntries root entries).ofClass c) := by
    apply ofClass_sublist
    intro f hentered hf
    exact ⟨fun k hk hpos => henters _ (hentered k hk hpos), hclass _ _ hf⟩
  refine ⟨hsub .readme, hsub .documentation, hsub .code, ?_⟩
  intro path c c' hold hnew
  have hscan : rules.scan fs root = .ok (rules.scanEntries root entries) := by
    rw [scan, hnode]
  -- a path in two lists of one scan would be that of two files
  by_contra hne
  exact ne_of_mem_ofClass hfs hscan hne ((hsub c').subset hnew) hold rfl

theorem scanEntries_documentsMore {rules rules' : ScanRules} (h : Extends rules rules')
    (hcode : ∀ name, rules'.isCode name = rules.isCode name) (root : Path) (entries : Forest) :
    (rules.scanEntries root entries).DocumentsMore (rules'.scanEntries root entries) where
  readmeFiles := by
    apply List.Sublist.antisymm
    · exact ofClass_sublist_of_enters_eq h.enters.symm
        (fun names => (h.classify_readme_iff hcode).mp) root
    · exact ofClass_sublist_of_enters_eq h.enters
        (fun names => (h.classify_readme_iff hcode).mpr) root
  documentation :=
    ofClass_sublist_of_enters_eq h.enters (fun names => h.classify_documentation) root
  codeFiles :=
    ofClass_sublist_of_enters_eq h.enters.symm (fun names => h.classify_code_of hcode) root
  moved := by
    intro path hold hnew
    obtain ⟨f, hf, rfl⟩ := (mem_ofClass_iff (c := .code)).mp hold
    rcases h.classify_of_code (mem_listed_iff.mp hf).2.2 with hclass | hclass
    · exact absurd (below_mem_ofClass_of_classify h.enters hf hclass root) hnew
    · exact below_mem_ofClass_of_classify h.enters hf hclass root

theorem scanEntries_knowsMoreCode {rules rules' : ScanRules} (h : Extends rules rules')
    (hdoc : ∀ cs, matchesAny rules'.documentation cs = matchesAny rules.documentation cs)
    (root : Path) (entries : Forest) :
    (rules.scanEntries root entries).KnowsMoreCode (rules'.scanEntries root entries) where
  codeFiles := ofClass_sublist_of_enters_eq h.enters (fun names => h.classify_code hdoc) root
  readmeFiles :=
    ofClass_sublist_of_enters_eq h.enters.symm (fun names => h.classify_readme_of) root
  documentation :=
    ofClass_sublist_of_enters_eq h.enters (fun names => h.classify_documentation) root
  moved := by
    intro path hold hnew
    obtain ⟨f, hf, rfl⟩ := (mem_ofClass_iff (c := .readme)).mp hold
    rcases h.classify_of_readme (mem_listed_iff.mp hf).2.2 with hclass | hclass | hclass
    · exact absurd (below_mem_ofClass_of_classify h.enters hf hclass root) hnew
    · exact Or.inl (below_mem_ofClass_of_classify h.enters hf hclass root)
    · exact Or.inr (below_mem_ofClass_of_classify h.enters hf hclass root)

/-- Compares the scans of a tree under two configurations that differ in one list. With more
patterns to exclude, each list of the scan is a sublist of what it was, and no file changes its
class. With more patterns of documentation, the readmes stay, there is more documentation and less
code, and what is code no longer is documentation. With more extensions of source code, there is
more code, fewer readmes and more documentation, and what is a readme no longer is documentation or
code. Where the entries of a list stand, and how often, does not matter. -/
theorem scan_morePatterns {config : ImportConfig} {rules : ScanRules}
    (hrules : ofConfig config = .ok rules) {fs : FileSystem} (hfs : fs.WellFormed) (root : Path) :
    (∀ more rules', config.excludePatterns ⊆ more →
      ofConfig { config with excludePatterns := more } = .ok rules' →
      ScansRelate ScanResult.ExcludesMore (rules.scan fs root) (rules'.scan fs root)) ∧
    (∀ more rules', config.docPatterns ⊆ more →
      ofConfig { config with docPatterns := more } = .ok rules' →
      ScansRelate ScanResult.DocumentsMore (rules.scan fs root) (rules'.scan fs root)) ∧
    (∀ more rules', config.codeExtensions ⊆ more →
      ofConfig { config with codeExtensions := more } = .ok rules' →
      ScansRelate ScanResult.KnowsMoreCode (rules.scan fs root) (rules'.scan fs root)) ∧
    ∀ other rules', (∀ s, s ∈ other.docPatterns ↔ s ∈ config.docPatterns) →
      (∀ s, s ∈ other.excludePatterns ↔ s ∈ config.excludePatterns) →
      (∀ s, s ∈ other.codeExtensions ↔ s ∈ config.codeExtensions) →
      ofConfig other = .ok rules' → rules'.scan fs root = rules.scan fs root := by
  refine ⟨?_, ?_, ?_, ?_⟩
  · intro more rules' hmore hrules'
    apply scansRelate_scan
    intro entries hnode
    apply scanEntries_excludesMore hfs hnode
    · exact fun names => enters_anti hrules hrules' hmore
    · intro names c
      apply classify_of_moreExcluded
      · exact fun cs => excluded_mono hrules hrules' hmore
      · exact documentation_congr hrules hrules' fun s => Iff.rfl
      · exact isCode_congr hrules hrules' fun s => Iff.rfl
  · intro more rules' hmore hrules'
    apply scansRelate_scan
    intro entries hnode
    have hcode := isCode_congr hrules hrules' fun s => Iff.rfl
    have hextends : Extends rules rules' := {
      excluded := excluded_congr hrules hrules' fun s => Iff.rfl
      enters := enters_congr hrules hrules' fun s => Iff.rfl
      documentation := documentation_mono hrules hrules' hmore
      isCode := fun hname => (hcode _).trans hname }
    exact scanEntries_documentsMore hextends hcode root entries
  · intro more rules' hmore hrules'
    apply scansRelate_scan
    intro entries hnode
    have hdoc := documentation_congr hrules hrules' fun s => Iff.rfl
    have hextends : Extends rules rules' := {
      excluded := excluded_congr hrules hrules' fun s => Iff.rfl
      enters := enters_congr hrules hrules' fun s => Iff.rfl
      documentation := fun hmatch => (hdoc _).trans hmatch
      isCode := isCode_mono hrules hrules' hmore }
    exact scanEntries_knowsMoreCode hextends hdoc root entries
  · intro other rules' hdoc hexcl hcode hrules'
    have hclass (names : List Name) : rules'.classify names = rules.classify names := by
      rw [classify, classify, excluded_congr hrules hrules' hexcl,
        documentation_congr hrules hrules' hdoc, isCode_congr hrules hrules' hcode]
    have hlist (r : ScanResult) (f : FoundFile) :
        rules'.listFile root r f = rules.listFile root r f := by
      rw [listFile, listFile, hclass]
    unfold scan scanEntries
    simp only [enters_congr hrules hrules' hexcl, funext₂ hlist]

end ScanRules

/-! ### A tree whose files change their classes -/

/-- A machine with the files `/README.rs`, `/a.md`, `/b.py` and `/c/d.md`. -/
def readmeToDocument : FileSystem where
  root := .directory
    (.cons (encode "README.rs") (.file (.octets []))
      (.cons (encode "a.md") (.file (.octets []))
        (.cons (encode "b.py") (.file (.octets []))
          (.cons (encode "c") (.directory (.cons (encode "d.md") (.file (.octets [])) .nil))
            .nil))))

theorem wellFormed_readmeToDocument : readmeToDocument.WellFormed := by
  have hvalid : ∀ n ∈ ["README.rs", "a.md", "b.py", "c", "d.md"], Name.Valid (encode n) := by decide
  have hlt : (["README.rs", "a.md", "b.py", "c"].map encode).Pairwise (· < ·) := by decide
  simp only [List.forall_mem_cons] at hvalid
  simp only [List.map_cons, List.map_nil, List.pairwise_cons, List.forall_mem_cons] at hlt
  simp [readmeToDocument, FileSystem.WellFormed, Forest.WellFormed, Node.WellFormed, Forest.toList,
    hvalid, hlt]

/-- Imports what ends in `.md`, and Python as source code. -/
def markdownAndPython : ImportConfig :=
  { markdownExcept "" with excludePatterns := [], codeExtensions := ["py"] }

/-- What ends in `.md` is documentation, and nothing is excluded. -/
def markdownAndCode (codeExtensions : List String) : ScanRules where
  documentation := [[.anyRun, .literal '.', .literal 'm', .literal 'd']]
  excluded := []
  prunedDirectories := []
  codeExtensions

/-- Excluding `c/**` takes a document away, `b*` makes documentation of code, and the extension `rs`
makes code of a readme. -/
theorem ScanRules.scan_morePatterns_readmeToDocument :
    let path := Path.ofString
    let old := (markdownAndCode ["py"]).scan readmeToDocument (path "/")
    old = .ok {
      readmeFiles := [path "/README.rs"], documentation := [path "/a.md", path "/c/d.md"],
      codeFiles := [path "/b.py"] } ∧
    (∃ rules, ofConfig { markdownAndPython with excludePatterns := ["c/**"] } = .ok rules ∧
      rules.scan readmeToDocument (path "/") = .ok {
        readmeFiles := [path "/README.rs"], documentation := [path "/a.md"],
        codeFiles := [path "/b.py"] } ∧
      ScansRelate ScanResult.ExcludesMore old (rules.scan readmeToDocument (path "/"))) ∧
    (∃ rules, ofConfig { markdownAndPython with docPatterns := ["b*", "*.md"] } = .ok rules ∧
      rules.scan readmeToDocument (path "/") = .ok {
        readmeFiles := [path "/README.rs"],
        documentation := [path "/a.md", path "/b.py", path "/c/d.md"] } ∧
      ScansRelate ScanResult.DocumentsMore old (rules.scan readmeToDocument (path "/"))) ∧
    (∃ rules, ofConfig { markdownAndPython with codeExtensions := ["rs", "py"] } = .ok rules ∧
      rules.scan readmeToDocument (path "/") = .ok {
        documentation := [path "/a.md", path "/c/d.md"],
        codeFiles := [path "/README.rs", path "/b.py"] } ∧
      ScansRelate ScanResult.KnowsMoreCode old (rules.scan readmeToDocument (path "/"))) ∧
    (markdownAndCode ["py", "py"]).scan readmeToDocument (path "/") = old := by
  intro path old
  have hrules : ofConfig markdownAndPython = .ok (markdownAndCode ["py"]) := rfl
  have hscan (rules : ScanRules) : rules.scan readmeToDocument (path "/")
      = .ok (rules.scanEntries (path "/") readmeToDocument.root.entries) := by
    have hnode : readmeToDocument.node (path "/") = .ok readmeToDocument.root := by cbv
    rw [scan, hnode]
    rfl
  obtain ⟨hexcl, hdoc, hcode, hsame⟩ :=
    scan_morePatterns hrules wellFormed_readmeToDocument (path "/")
  refine ⟨?_, ?_, ?_, ?_, ?_⟩
  · show ScanRules.scan _ _ _ = _
    rw [hscan]
    exact congrArg Except.ok (by decide +kernel)
  · let rules : ScanRules := { markdownAndCode ["py"] with
      excluded := [[.literal 'c', .anyDescendants]], prunedDirectories := [[.literal 'c']] }
    refine ⟨rules, rfl, ?_, hexcl ["c/**"] rules (by decide) rfl⟩
    rw [hscan]
    exact congrArg Except.ok (by decide +kernel)
  · let rules : ScanRules := { markdownAndCode ["py"] with
      documentation := [.literal 'b', .anyRun] :: (markdownAndCode []).documentation }
    refine ⟨rules, rfl, ?_, hdoc ["b*", "*.md"] rules (by decide) rfl⟩
    rw [hscan]
    exact congrArg Except.ok (by decide +kernel)
  · refine ⟨markdownAndCode ["rs", "py"], rfl, ?_, hcode ["rs", "py"] _ (by decide) rfl⟩
    rw [hscan]
    exact congrArg Except.ok (by decide +kernel)
  · -- one more entry of an extension changes nothing
    exact hsame { markdownAndPython with codeExtensions := ["py", "py"] } _ (fun s => Iff.rfl)
      (fun s => Iff.rfl) (fun s => by simp [markdownAndPython]) rfl

end KnowledgeImport
