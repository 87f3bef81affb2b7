import KnowledgeImport.Proofs.Scan.Membership
import KnowledgeImport.Proofs.Scan.PathPatterns
import KnowledgeImport.Proofs.Text.Encoding

/-!
# What the baseline lists find

Without extensions, the class of a file is told by its names alone: by the directories that it lies
in, by how its name starts or ends, and by its extension (`Baseline.Omitted`, `Baseline.Code`,
`Baseline.Readme`, `Baseline.Document`).  `ScanRules.scan_baseline` gives the three lists of a scan
in these terms.
-/

namespace KnowledgeImport

open Text Glob

/-! ### Classes of names -/

namespace Baseline

/-- The file lies below a directory that holds nothing of the project's own, or it is minified. -/
def Omitted (dirs : List Name) (name : Name) : Prop :=
  (∃ d ∈ ["node_modules", ".git", "dist", "build", "__pycache__", ".venv", "venv", ".claude"],
    encode d ∈ dirs) ∨
  ∃ t ∈ [".min.js", ".min.css"], encode t <:+ name

/-- The name has an extension of source code, in whatever case: what follows its last dot, unless
that is its first octet. -/
def Code (name : Name) : Prop :=
  ∃ (stem : Name) (e : String), stem ≠ [] ∧ name = stem ++ 0x2E :: encode e ∧ 0x2E ∉ encode e ∧
    asciiLower e ∈ baselineCodeExtensions

/-- The name starts with `readme`, in whatever case. -/
def Readme (name : Name) : Prop :=
  ∃ s, asciiUpper s = "README" ∧ encode s <+: name

/-- The name ends as those of texts do, or the file lies below a directory of documentation, or a
name on the way to it starts as that of a document. -/
def Document (dirs : List Name) (name : Name) : Prop :=
  (∃ t ∈ [".md", ".rst", ".txt"], encode t <:+ name) ∨
  (∃ d ∈ ["docs", "documentation"], encode d ∈ dirs) ∨
  ∃ t ∈ ["README", "CONTRIBUTING", "CHANGELOG"], ∃ n ∈ dirs ++ [name], encode t <+: n

end Baseline

namespace ScanRules

/-- The rules of the baseline lists. -/
def baseline : ScanRules where
  documentation := [endingIn ".md", endingIn ".rst", endingIn ".txt", deepBelow "docs",
    deepBelow "documentation", startingWith "README", startingWith "CONTRIBUTING",
    startingWith "CHANGELOG"]
  excluded := [below "node_modules", below ".git", endingIn ".min.js", endingIn ".min.css",
    below "dist", below "build", below "__pycache__", below ".venv", below "venv",
    below ".claude"]
  prunedDirectories := [literals "node_modules", literals ".git", literals "dist",
    literals "build", literals "__pycache__", literals ".venv", literals "venv",
    literals ".claude"]
  codeExtensions := baselineCodeExtensions

theorem ofConfig_assemble (options : ImportOptions) :
    ofConfig (.assemble options {}) = .ok baseline := by
  have hdoc : PatternSet.ofStrings baselineDocPatterns = .ok baseline.documentation :=
    PatternSet.ofStrings_eq_ok rfl (by decide +kernel)
  have hexcl : PatternSet.ofStrings baselineExcludePatterns = .ok baseline.excluded :=
    PatternSet.ofStrings_eq_ok rfl (by decide +kernel)
  have hpruned : PatternSet.ofStrings (baselineExcludePatterns.filterMap prunedPattern?)
      = .ok baseline.prunedDirectories :=
    PatternSet.ofStrings_eq_ok rfl (by decide +kernel)
  exact ofConfig_eq_ok_iff.mpr ⟨hdoc, hexcl, hpruned, rfl⟩

theorem not_prunesAll_baseline : ∀ p ∈ baselineExcludePatterns, ¬ PrunesAll p := by
  -- a pattern that prunes everything starts with two stars
  have hstars : ∀ p ∈ baselineExcludePatterns, p.toList.take 2 ≠ ['*', '*'] := by decide
  rintro p hp ⟨n, hn⟩
  refine hstars p hp ?_
  rw [hn, ancestorsText, List.replicate_succ, List.flatten_cons]
  rfl

/-! ### Names of source files and of readmes -/

theorem isCode_iff {rules : ScanRules} {name : Name} (hname : name.Valid) :
    rules.isCode name = true ↔ ∃ (stem : Name) (e : String), stem ≠ [] ∧
      name = stem ++ 0x2E :: encode e ∧ 0x2E ∉ encode e ∧ asciiLower e ∈ rules.codeExtensions := by
  rw [isCode]
  constructor
  · intro h
    cases hext : name.extension?.bind decode? with
    | none => rw [hext] at h; cases h
    | some e =>
      rw [hext] at h
      have he : asciiLower e ∈ rules.codeExtensions := List.contains_iff_mem.mp h
      obtain ⟨octets, hoctets, hdecode⟩ := Option.bind_eq_some_iff.mp hext
      obtain rfl := decode?_eq_encode_iff.mp hdecode
      obtain ⟨stem, hstem, hsplit, hdot⟩ :=
        (Name.extension?_eq_some_iff hname.ne_parent).mp hoctets
      exact ⟨stem, e, hstem, hsplit, hdot, he⟩
  · rintro ⟨stem, e, hstem, hsplit, hdot, he⟩
    have hext : name.extension? = some (encode e) :=
      (Name.extension?_eq_some_iff hname.ne_parent).mpr ⟨stem, hstem, hsplit, hdot⟩
    rw [hext, Option.bind_some, decode?_encode]
    exact List.contains_iff_mem.mpr he

theorem isCode_baseline_iff {name : Name} (hname : name.Valid) :
    baseline.isCode name = true ↔ Baseline.Code name :=
  isCode_iff hname

theorem startsReadme_iff (name : Name) : startsReadme name = true ↔ Baseline.Readme name := by
  have hreadme : Ascii (encode "README") := by decide
  have hupper (s : String) : (asciiUpper s).toList = s.toList.map Char.toUpper :=
    String.toList_ofList
  rw [startsReadme, List.isPrefixOf_iff_prefix, hupper]
  constructor
  · rintro ⟨rest, hrest⟩
    -- the letters that are shown first were the first octets of the name
    obtain ⟨first, others, hsplit, hfirst, -⟩ := List.map_eq_append_iff.mp hrest.symm
    have hs : asciiUpper (String.ofList first) = "README" := by
      rw [← String.toList_inj, hupper, String.toList_ofList, hfirst]
    refine ⟨String.ofList first, hs, ?_⟩
    have hascii : Ascii (encode (String.ofList first)) := ascii_of_asciiUpper (hs ▸ hreadme)
    rw [← prefix_mend_iff hascii, mend, encode, encode, ← Name.display, hsplit,
      String.toList_ofList, List.flatMap_append]
    exact List.prefix_append ..
  · rintro ⟨s, hs, octets, rfl⟩
    have hascii : Ascii (encode s) := ascii_of_asciiUpper (hs ▸ hreadme)
    rw [Name.display, decodeLossy_append, List.map_append, ← hupper s, hs]
    exact List.prefix_append ..

/-! ### Classes of the baseline -/

section

variable {dirs : List Name} {name : Name} (hvalid : ∀ n ∈ dirs ++ [name], n.Valid)
include hvalid

theorem excluded_baseline_iff :
    matchesAny baseline.excluded (relativeText (dirs ++ [name])) = true
      ↔ Baseline.Omitted dirs name := by
  have hfree : ∀ n ∈ dirs ++ [name], n.SlashFree := fun n hn => (hvalid n hn).slashFree
  have hbelow {t : String} (ht : Plain t) := matchesAny_below_iff ht hfree
  have hending {t : String} (ht : Plain t) := matchesAny_endingIn_iff ht hfree
  rw [matchesAny_eq_true_iff, baseline, Baseline.Omitted]
  simp only [List.exists_mem_cons_iff, List.not_mem_nil, false_and, exists_false, or_false]
  simp (disch := decide) only [hbelow, hending]
  -- the patterns stand in another order
  refine iff_of_eq ?_
  ac_rfl

theorem documentation_baseline_iff :
    matchesAny baseline.documentation (relativeText (dirs ++ [name])) = true
      ↔ Baseline.Document dirs name := by
  have hfree : ∀ n ∈ dirs ++ [name], n.SlashFree := fun n hn => (hvalid n hn).slashFree
  have hending {t : String} (ht : Plain t) := matchesAny_endingIn_iff ht hfree
  have hbelow {t : String} (ht : Plain t) := matchesAny_deepBelow_iff ht hfree
  have hstarting {t : String} (ht : Plain t) := matchesAny_startingWith_iff ht hfree
  rw [matchesAny_eq_true_iff, baseline, Baseline.Document]
  simp only [List.exists_mem_cons_iff, List.not_mem_nil, false_and, exists_false, or_false]
  simp (disch := decide) only [hending, hbelow, hstarting]
  simp only [or_assoc]

end

/-- Without extensions of the baseline lists a configuration has rules, and a scan lists the regular
files that are reached through directories by the names on their way, and nothing else: an omitted
file is not listed; a readme that is no source code is a readme; of the other files, the documents
are documentation, and what is source code and no document is code. -/
theorem scan_baseline (options : ImportOptions) {fs : FileSystem} (hfs : fs.WellFormed)
    {entries : Forest} (hnode : fs.node options.root = .ok (.directory entries)) :
    ∃ rules found, ofConfig (.assemble options {}) = .ok rules ∧
      rules.scan fs options.root = .ok found ∧
      (∀ dirs name content, entries.Holds (dirs ++ [name]) content →
        (options.root.below (dirs ++ [name]) ∈ found.readmeFiles ↔
          ¬ Baseline.Omitted dirs name ∧ ¬ Baseline.Code name ∧ Baseline.Readme name) ∧
        (options.root.below (dirs ++ [name]) ∈ found.documentation ↔
          ¬ Baseline.Omitted dirs name ∧ ¬ (¬ Baseline.Code name ∧ Baseline.Readme name) ∧
            Baseline.Document dirs name) ∧
        (options.root.below (dirs ++ [name]) ∈ found.codeFiles ↔
          ¬ Baseline.Omitted dirs name ∧ ¬ (¬ Baseline.Code name ∧ Baseline.Readme name) ∧
            ¬ Baseline.Document dirs name ∧ Baseline.Code name)) ∧
      ∀ path ∈ found.readmeFiles ++ found.documentation ++ found.codeFiles,
        ∃ dirs name content, entries.Holds (dirs ++ [name]) content ∧
          path = options.root.below (dirs ++ [name]) := by
  have hrules := ofConfig_assemble options
  have hentries : entries.WellFormed := hfs.node hnode
  have hscan : baseline.scan fs options.root = .ok (baseline.scanEntries options.root entries) := by
    rw [scan, hnode]
  refine ⟨baseline, _, hrules, hscan, ?_, ?_⟩
  · intro dirs name content hholds
    have hvalid := hholds.forall_names hereditary_wellFormed hentries
    have hname : (dirs ++ [name]).getLastD [] = name := by
      rw [List.getLastD_eq_getLast?, List.getLast?_concat, Option.getD_some]
    have hcode := isCode_baseline_iff (hvalid name (by simp))
    have hlisted (c : FileClass) :=
      below_mem_ofClass_iff (c := c) hrules not_prunesAll_baseline hentries options.root hholds
    refine ⟨?_, ?_, ?_⟩
    · refine (hlisted .readme).trans ?_
      rw [classify_eq_readme_iff, hname, excluded_baseline_iff hvalid, hcode, startsReadme_iff]
    · refine (hlisted .documentation).trans ?_
      rw [classify_eq_documentation_iff, hname, excluded_baseline_iff hvalid, hcode,
        startsReadme_iff, documentation_baseline_iff hvalid]
    · refine (hlisted .code).trans ?_
      rw [classify_eq_code_iff, hname, excluded_baseline_iff hvalid, hcode, startsReadme_iff,
        documentation_baseline_iff hvalid]
  · intro path hpath
    obtain ⟨c, hpath⟩ := ScanResult.mem_paths_iff.mp hpath
    obtain ⟨f, hf, rfl⟩ := mem_ofClass_iff.mp hpath
    have hholds := holds_of_mem_listed hf
    have hsplit := List.dropLast_append_getLast hholds.ne_nil
    exact ⟨_, _, f.content, by rw [hsplit]; exact hholds, by rw [hsplit]⟩

end ScanRules

/-! ### A tree in which every rule has its say -/

/-- The files `README.rs`, `docs/logo.png`, `main.PY`, `node_modules/a.md` and `readme`. -/
def mixedEntries : Forest :=
  .cons (encode "README.rs") (.file (.octets []))
    (.cons (encode "docs") (.directory (.cons (encode "logo.png") (.file (.octets [])) .nil))
      (.cons (encode "main.PY") (.file (.octets []))
        (.cons (encode "node_modules")
          (.directory (.cons (encode "a.md") (.file (.octets [])) .nil))
          (.cons (encode "readme") (.file (.octets [])) .nil))))

/-- An import of the tree at `/`. -/
def rootOptions : ImportOptions where
  projectId := "p1"
  backendUrl := defaultBackendUrl
  root := Path.ofString "/"
  includeCodeExamples := true
  dryRun := false

instance (dirs : List Name) (name : Name) : Decidable (Baseline.Omitted dirs name) :=
  inferInstanceAs (Decidable (_ ∨ _))

instance (dirs : List Name) (name : Name) : Decidable (Baseline.Document dirs name) :=
  inferInstanceAs (Decidable (_ ∨ _ ∨ _))

theorem wellFormed_mixedEntries : mixedEntries.WellFormed := by
  have hvalid : ∀ n ∈ ["README.rs", "docs", "logo.png", "main.PY", "node_modules", "a.md",
      "readme"], Name.Valid (encode n) := by decide
  have hlt : (["README.rs", "docs", "main.PY", "node_modules", "readme"].map encode).Pairwise
      (· < ·) := by decide
  simp only [List.forall_mem_cons] at hvalid
  simp only [List.map_cons, List.map_nil, List.pairwise_cons, List.forall_mem_cons] at hlt
  simp [mixedEntries, Forest.WellFormed, Node.WellFormed, Forest.toList, hvalid, hlt]

/-- A readme that is source code counts as a document, the case of an extension does not matter, and
whatever lies below a directory of documentation belongs to it. -/
theorem ScanRules.scan_baseline_mixedEntries :
    ∃ rules found, ofConfig (.assemble rootOptions {}) = .ok rules ∧
      rules.scan { root := .directory mixedEntries } (Path.ofString "/") = .ok found ∧
      Path.ofString "/readme" ∈ found.readmeFiles ∧
      Path.ofString "/README.rs" ∈ found.documentation ∧
      Path.ofString "/docs/logo.png" ∈ found.documentation ∧
      Path.ofString "/main.PY" ∈ found.codeFiles ∧
      Path.ofString "/node_modules/a.md" ∉ found.documentation := by
  have hfs : FileSystem.WellFormed { root := .directory mixedEntries } := wellFormed_mixedEntries
  have hnode : FileSystem.node { root := .directory mixedEntries } rootOptions.root
      = .ok (.directory mixedEntries) := by
    cbv
  -- where the tree has its files
  have hsource : mixedEntries.Holds [encode "README.rs"] (.octets []) := .file (.head _)
  have himage : mixedEntries.Holds [encode "docs", encode "logo.png"] (.octets []) :=
    .inside (.tail _ (.head _)) (.file (.head _))
  have hmain : mixedEntries.Holds [encode "main.PY"] (.octets []) :=
    .file (.tail _ (.tail _ (.head _)))
  have hvendored : mixedEntries.Holds [encode "node_modules", encode "a.md"] (.octets []) :=
    .inside (.tail _ (.tail _ (.tail _ (.head _)))) (.file (.head _))
  have hreadme : mixedEntries.Holds [encode "readme"] (.octets []) :=
    .file (.tail _ (.tail _ (.tail _ (.tail _ (.head _)))))
  have hrust : Baseline.Code (encode "README.rs") := ⟨encode "README", "rs", by decide⟩
  have hpython : Baseline.Code (encode "main.PY") := ⟨encode "main", "PY", by decide⟩
  have hplain : ¬ Baseline.Code (encode "readme") := by
    rw [← isCode_baseline_iff (by decide)]
    decide
  have hlogo : ¬ Baseline.Readme (encode "logo.png") := by
    rw [← startsReadme_iff]
    decide
  obtain ⟨rules, found, hrules, hscan, hclass, -⟩ := scan_baseline rootOptions hfs hnode
  refine ⟨rules, found, hrules, hscan, ?_, ?_, ?_, ?_, ?_⟩
  · exact (hclass [] _ _ hreadme).1.mpr ⟨by decide, hplain, "readme", by decide, by decide⟩
  · exact (hclass [] _ _ hsource).2.1.mpr ⟨by decide, fun h => h.1 hrust, by decide⟩
  · exact (hclass [encode "docs"] _ _ himage).2.1.mpr ⟨by decide, fun h => hlogo h.2, by decide⟩
  · exact (hclass [] _ _ hmain).2.2.mpr
      ⟨by decide, fun h => h.1 hpython, by decide, hpython⟩
  · intro hmem
    exact absurd ((hclass [encode "node_modules"] _ _ hvendored).2.1.mp hmem).1 (by decide)

end KnowledgeImport
