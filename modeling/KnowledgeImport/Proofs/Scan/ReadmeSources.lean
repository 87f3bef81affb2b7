import KnowledgeImport.Proofs.Scan.CodeExtensions

/-!
# Source files that are named like readmes

A source file is no readme, however its name spells `readme` at the start (`ReadmeSource`), but one
of the patterns for documentation in the baseline is `README*`.  It is compared in its own case, with
the name of the file and with the names of its directories, and a source file that it finds is
listed as documentation (`ScanRules.scan_readmeSources`).
-/

namespace KnowledgeImport

open Text Glob

/-- A name that starts with `readme`, in whatever case, starts with `README` iff that is how it is
spelled. -/
theorem prefix_encode_append_iff {spelled : String} (h : asciiUpper spelled = "README")
    (rest : Name) : encode "README" <+: encode spelled ++ rest ↔ spelled = "README" := by
  constructor
  · rintro ⟨octets, hoctets⟩
    -- the texts that are shown start with as many characters each
    have hshown : "README".toList ++ (decodeLossy octets).toList
        = spelled.toList ++ (decodeLossy rest).toList := by
      rw [← decodeLossy_append, hoctets, decodeLossy_append]
    have hlength : "README".toList.length = spelled.toList.length := by
      rw [← h, asciiUpper, String.toList_ofList, List.length_map]
    exact String.toList_inj.mp (List.append_inj_left hshown hlength).symm
  · rintro rfl
    exact List.prefix_append ..

/-- The pattern `README*` finds a file iff its name or that of a directory on its way starts so. -/
theorem finds_readme_iff {dirs : List Name} {name : Name}
    (hfree : ∀ n ∈ dirs ++ [name], n.SlashFree) :
    Finds "README*" (dirs ++ [name]) ↔ ∃ n ∈ dirs ++ [name], encode "README" <+: n := by
  have hread : Pattern.ofString? "README*" = .ok (startingWith "README") := rfl
  rw [Finds, hread]
  simp only [Except.ok.injEq, exists_eq_left']
  exact matchesAny_startingWith_iff (by decide) hfree

namespace ScanRules

/-! ### Files that are both -/

/-- A source file whose name starts with `readme`, spelled in some case: a scan comes to it, and of
the patterns for documentation none but `README*` may find it. -/
structure ReadmeSource (rules : ScanRules) (config : ImportConfig) (entries : Forest)
    (dirs : List Name) (spelled : String) (rest : Name) (content : Content) : Prop where
  comesTo : rules.ComesTo config entries ⟨dirs ++ [encode spelled ++ rest], content⟩
  spells : asciiUpper spelled = "README"
  source : ∃ e, Name.extension? (encode spelled ++ rest) = some (encode e) ∧
    asciiLower e ∈ config.codeExtensions
  undocumented : ∀ text ∈ config.docPatterns, text ≠ "README*" →
    ¬ Finds text (dirs ++ [encode spelled ++ rest])

/-- `README*` finds the file: its name is spelled so, or that of a directory on its way starts so. -/
def FoundAsReadme (dirs : List Name) (spelled : String) : Prop :=
  spelled = "README" ∨ ∃ d ∈ dirs, encode "README" <+: d

instance (dirs : List Name) (spelled : String) : Decidable (FoundAsReadme dirs spelled) :=
  inferInstanceAs (Decidable (_ ∨ _))

namespace ReadmeSource

variable {options : ImportOptions} {extensions : PatternExtensions} {rules : ScanRules}
  {entries : Forest} {dirs : List Name} {spelled : String} {rest : Name} {content : Content}
  (h : rules.ReadmeSource (.assemble options extensions) entries dirs spelled rest content)
  (hrules : ofConfig (.assemble options extensions) = .ok rules)
include h hrules

theorem isCode : rules.isCode (encode spelled ++ rest) = true := by
  obtain ⟨e, hext, he⟩ := h.source
  rw [ScanRules.isCode, hext, Option.bind_some, decode?_encode,
    codeExtensions_of_ofConfig_assemble hrules]
  exact List.contains_iff_mem.mpr he

theorem documentation_iff (hentries : entries.WellFormed) :
    matchesAny rules.documentation (relativeText (dirs ++ [encode spelled ++ rest])) = true ↔
      FoundAsReadme dirs spelled := by
  have hfree : ∀ n ∈ dirs ++ [encode spelled ++ rest], n.SlashFree := fun n hn =>
    (h.comesTo.holds.forall_names hereditary_wellFormed hentries n hn).slashFree
  have hlisted : "README*" ∈ (ImportConfig.assemble options extensions).docPatterns :=
    mem_extend_iff.mpr (Or.inl (by decide))
  rw [matchesAny_ofStrings_iff (ofConfig_eq_ok_iff.mp hrules).1]
  calc (∃ text ∈ (ImportConfig.assemble options extensions).docPatterns,
          Finds text (dirs ++ [encode spelled ++ rest]))
      ↔ Finds "README*" (dirs ++ [encode spelled ++ rest]) := by
        -- no other text of the list finds the file
        constructor
        · rintro ⟨text, htext, hfinds⟩
          by_cases hreadme : text = "README*"
          · exact hreadme ▸ hfinds
          · exact absurd hfinds (h.undocumented text htext hreadme)
        · exact fun hfinds => ⟨_, hlisted, hfinds⟩
    _ ↔ ∃ n ∈ dirs ++ [encode spelled ++ rest], encode "README" <+: n := finds_readme_iff hfree
    _ ↔ FoundAsReadme dirs spelled := by
        simp only [List.mem_append, List.mem_singleton, or_and_right, exists_or, exists_eq_left,
          prefix_encode_append_iff h.spells, FoundAsReadme, or_comm]

/-- Such a file is documentation if `README*` finds it, and code if not. -/
theorem classify_eq (hentries : entries.WellFormed) :
    rules.classify (dirs ++ [encode spelled ++ rest])
      = some (if FoundAsReadme dirs spelled then .documentation else .code) := by
  have hcode : rules.isCode ((dirs ++ [encode spelled ++ rest]).getLastD []) = true := by
    rw [List.getLastD_concat]
    exact h.isCode hrules
  rw [classify_of_isCode (h.comesTo.not_excluded hrules) hcode]
  simp only [h.documentation_iff hrules hentries]

end ReadmeSource

/-- Under an assembled configuration, a source file whose name starts with `readme`, in whatever
case, is never listed as a readme: it is listed as code, unless the name starts with `README` in
this very case or the name of a directory on its way does; then it is listed as documentation.
So a file that is spelled in another case, in this tree or another, keeps its class unless just one
of the spellings is `README` and no such directory is on its way. -/
theorem scan_readmeSources {options : ImportOptions} {extensions : PatternExtensions}
    {rules : ScanRules} (hrules : ofConfig (.assemble options extensions) = .ok rules)
    {fs : FileSystem} (hfs : fs.WellFormed) {entries : Forest}
    (hnode : fs.node options.root = .ok (.directory entries)) :
    ∃ found, rules.scan fs options.root = .ok found ∧
      ∀ (dirs : List Name) (spelled : String) (rest : Name) (content : Content),
        rules.ReadmeSource (.assemble options extensions) entries dirs spelled rest content →
        options.root.below (dirs ++ [encode spelled ++ rest]) ∉ found.readmeFiles ∧
        (options.root.below (dirs ++ [encode spelled ++ rest]) ∈ found.codeFiles ↔
          ¬ FoundAsReadme dirs spelled) ∧
        (options.root.below (dirs ++ [encode spelled ++ rest]) ∈ found.documentation ↔
          FoundAsReadme dirs spelled) ∧
        ∀ (entries' : Forest) (spelled' : String) (content' : Content), entries'.WellFormed →
          rules.ReadmeSource (.assemble options extensions) entries' dirs spelled' rest content' →
          (rules.classify (dirs ++ [encode spelled' ++ rest])
              = rules.classify (dirs ++ [encode spelled ++ rest]) ↔
            ((spelled' = "README" ↔ spelled = "README") ∨
              ∃ d ∈ dirs, encode "README" <+: d)) := by
  have hentries : entries.WellFormed := hfs.node hnode
  refine ⟨rules.scanEntries options.root entries, by rw [scan, hnode], ?_⟩
  intro dirs spelled rest content h
  have hclass := h.classify_eq hrules hentries
  have hlisted (c : FileClass) :
      options.root.below (dirs ++ [encode spelled ++ rest])
          ∈ (rules.scanEntries options.root entries).ofClass c ↔
        (if FoundAsReadme dirs spelled then FileClass.documentation else .code) = c := by
    rw [h.comesTo.below_mem_ofClass_iff hentries, hclass, Option.some.injEq]
  refine ⟨?_, ?_, ?_, ?_⟩
  · intro hmem
    have hreadme := (hlisted .readme).mp hmem
    split_ifs at hreadme
  · refine (hlisted .code).trans ?_
    split_ifs with hfound <;> simp [hfound]
  · refine (hlisted .documentation).trans ?_
    split_ifs with hfound <;> simp [hfound]
  · intro entries' spelled' content' hentries' h'
    rw [h'.classify_eq hrules hentries', hclass, Option.some.injEq]
    unfold FoundAsReadme
    -- where a directory is found, the spellings do not count
    by_cases hdirs : ∃ d ∈ dirs, encode "README" <+: d
    · simp [hdirs]
    · simp only [hdirs, or_false]
      split_ifs <;> simp_all

end ScanRules

/-! ### Three spellings -/

/-- The files `README.rs`, `src/ReadMe.rs` and `src/readme.rs`. -/
def readmeEntries : Forest :=
  .cons (encode "README.rs") (.file (.octets []))
    (.cons (encode "src")
      (.directory (.cons (encode "ReadMe.rs") (.file (.octets []))
        (.cons (encode "readme.rs") (.file (.octets [])) .nil))) .nil)

theorem wellFormed_readmeEntries : readmeEntries.WellFormed := by
  have hvalid : ∀ n ∈ ["README.rs", "src", "ReadMe.rs", "readme.rs"], Name.Valid (encode n) := by
    decide
  have htop : encode "README.rs" < encode "src" := by decide
  have hbelow : encode "ReadMe.rs" < encode "readme.rs" := by decide
  simp only [List.forall_mem_cons] at hvalid
  simp [readmeEntries, Forest.WellFormed, Node.WellFormed, Forest.toList, hvalid, htop, hbelow]

theorem node_readmeEntries : FileSystem.node { root := .directory readmeEntries } rootOptions.root
    = .ok (.directory readmeEntries) := by
  cbv

namespace ScanRules

/-- Under the baseline lists, each of the files is a source file named like a readme. -/
theorem readmeSource_readmeEntries (dirs : List Name) (spelled : String)
    (h : (dirs, spelled) ∈ [([], "README"), ([encode "src"], "ReadMe"), ([encode "src"], "readme")]) :
    baseline.ReadmeSource (.assemble rootOptions {}) readmeEntries dirs spelled (encode ".rs")
      (.octets []) := by
  have hsource (name : Name) (hname : name.extension? = some (encode "rs")) :
      ∃ e, name.extension? = some (encode e) ∧
        asciiLower e ∈ (ImportConfig.assemble rootOptions {}).codeExtensions :=
    ⟨"rs", hname, by decide⟩
  simp only [List.mem_cons, Prod.mk.injEq, List.not_mem_nil, or_false] at h
  obtain ⟨rfl, rfl⟩ | ⟨rfl, rfl⟩ | ⟨rfl, rfl⟩ := h
  · exact ⟨⟨.file (.head _), by decide +kernel, by decide +kernel⟩, by decide,
      hsource _ (by decide), by decide +kernel⟩
  · exact ⟨⟨.inside (.tail _ (.head _)) (.file (.head _)), by decide +kernel, by decide +kernel⟩,
      by decide, hsource _ (by decide), by decide +kernel⟩
  · exact ⟨⟨.inside (.tail _ (.head _)) (.file (.tail _ (.head _))), by decide +kernel,
      by decide +kernel⟩, by decide, hsource _ (by decide), by decide +kernel⟩

/-- Spelled in mixed case or in lower case, the file is code. -/
theorem scan_readmeSources_mixedCase :
    ofConfig (.assemble rootOptions {}) = .ok baseline ∧
      ∃ found, baseline.scan { root := .directory readmeEntries } (Path.ofString "/") = .ok found ∧
        Path.ofString "/src/ReadMe.rs" ∈ found.codeFiles ∧
        Path.ofString "/src/readme.rs" ∈ found.codeFiles ∧
        baseline.classify [encode "src", encode "readme.rs"]
          = baseline.classify [encode "src", encode "ReadMe.rs"] := by
  have hrules := ofConfig_assemble rootOptions
  have hfs : FileSystem.WellFormed { root := .directory readmeEntries } := wellFormed_readmeEntries
  have hmixed := readmeSource_readmeEntries [encode "src"] "ReadMe" (by decide)
  have hlower := readmeSource_readmeEntries [encode "src"] "readme" (by decide)
  have hpath : rootOptions.root.below ([encode "src"] ++ [encode "ReadMe" ++ encode ".rs"])
      = Path.ofString "/src/ReadMe.rs" := by
    decide +kernel
  have hpath' : rootOptions.root.below ([encode "src"] ++ [encode "readme" ++ encode ".rs"])
      = Path.ofString "/src/readme.rs" := by
    decide +kernel
  obtain ⟨found, hscan, hfound⟩ := scan_readmeSources hrules hfs node_readmeEntries
  obtain ⟨-, hcode, -, hsame⟩ := hfound _ _ _ _ hmixed
  obtain ⟨-, hcode', -, -⟩ := hfound _ _ _ _ hlower
  rw [hpath] at hcode
  rw [hpath'] at hcode'
  have hclass := (hsame readmeEntries _ _ wellFormed_readmeEntries hlower).mpr
    (Or.inl (by decide))
  exact ⟨hrules, found, hscan, hcode.mpr (by decide), hcode'.mpr (by decide), hclass⟩

/-- Spelled in upper case, the file is not code but documentation, and it would be code in lower
case. -/
theorem scan_readmeSource_upperCase :
    ofConfig (.assemble rootOptions {}) = .ok baseline ∧
      readmeEntries.WellFormed ∧
      FileSystem.node { root := .directory readmeEntries } rootOptions.root
        = .ok (.directory readmeEntries) ∧
      baseline.ReadmeSource (.assemble rootOptions {}) readmeEntries [] "README" (encode ".rs")
        (.octets []) ∧
      (∃ found, baseline.scan { root := .directory readmeEntries } (Path.ofString "/") = .ok found ∧
        Path.ofString "/README.rs" ∉ found.codeFiles ∧
        Path.ofString "/README.rs" ∈ found.documentation) ∧
      baseline.classify [encode "README.rs"] = some .documentation ∧
      baseline.classify [encode "readme.rs"] = some .code := by
  have hrules := ofConfig_assemble rootOptions
  have hsource := readmeSource_readmeEntries [] "README" (by decide)
  have hclass : baseline.classify [encode "README.rs"] = some .documentation := by decide +kernel
  have hname : [] ++ [encode "README" ++ encode ".rs"] = [encode "README.rs"] := by decide
  have hpath : rootOptions.root.below [encode "README.rs"] = Path.ofString "/README.rs" := by
    decide +kernel
  have hlisted (c : FileClass) : Path.ofString "/README.rs"
      ∈ (baseline.scanEntries rootOptions.root readmeEntries).ofClass c ↔
        some FileClass.documentation = some c := by
    have h := hsource.comesTo.below_mem_ofClass_iff wellFormed_readmeEntries rootOptions.root
      (c := c)
    rwa [hname, hpath, hclass] at h
  have hscan : baseline.scan { root := .directory readmeEntries } rootOptions.root
      = .ok (baseline.scanEntries rootOptions.root readmeEntries) := by
    rw [scan, node_readmeEntries]
  refine ⟨hrules, wellFormed_readmeEntries, node_readmeEntries, hsource, ⟨_, hscan, ?_, ?_⟩, hclass,
    by decide +kernel⟩
  · exact fun hmem => nomatch (hlisted .code).mp hmem
  · exact (hlisted .documentation).mpr rfl

end ScanRules

end KnowledgeImport
