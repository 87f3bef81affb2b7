import KnowledgeImport.Proofs.FileTree.Subdirectory
import KnowledgeImport.Proofs.Scan.Membership
import Mathlib.Data.List.Lex
import Mathlib.Data.List.Sort

/-!
# Scans of a directory and of one below it

The scan of a tree and the scan of a directory in it agree on the files of the directory as far as
they can (`ScanRules.scan_subdirectory`).  Seen from further up, the path of a file has more
candidates, so every set matches at least what it matched (`matchesAny_below`): more is excluded,
fewer directories are entered, and code may turn out to be documentation.
-/

namespace KnowledgeImport

open Text Glob

/-! ### Candidates seen from further up -/

theorem mem_candidates_below {c cs : List Char} (h : c ∈ candidates cs) (p : List Char) :
    c ∈ candidates (p ++ '/' :: cs) := by
  rw [candidates, List.mem_cons]
  right
  induction p with
  | nil => exact h
  | cons d p ih =>
    rw [List.cons_append, afterSlashes]
    split
    · exact List.mem_cons_of_mem _ ih
    · exact ih

/-- What a set matches it matches below any directory. -/
theorem matchesAny_below {set : PatternSet} {dir names : List Name} (hdir : dir ≠ [])
    (hnames : names ≠ []) (h : matchesAny set (relativeText names) = true) :
    matchesAny set (relativeText (dir ++ names)) = true := by
  rw [matchesAny, List.any_eq_true] at h ⊢
  obtain ⟨c, hc, hmatch⟩ := h
  rw [relativeText_append hdir hnames]
  exact ⟨c, mem_candidates_below hc _, hmatch⟩

namespace ScanRules

variable {rules : ScanRules} {dir names : List Name}

/-! ### One file -/

section Below

variable (hdir : dir ≠ []) (hnames : names ≠ [])
include hnames

theorem getLastD_below : (dir ++ names).getLastD [] = names.getLastD [] := by
  rw [List.getLastD_eq_getLast?, List.getLastD_eq_getLast?,
    List.getLast?_append_of_ne_nil _ hnames]

/-- A readme of the directory is nothing else in the whole tree. -/
theorem classify_below_of_readme (h : rules.classify names = some .readme) {c : FileClass}
    (hc : rules.classify (dir ++ names) = some c) : c = .readme := by
  have hkept := not_excluded_of_classify hc
  have hreadme : rules.classify (dir ++ names) = some .readme := by
    rw [classify_eq_readme_iff] at h ⊢
    rw [getLastD_below hnames]
    exact ⟨hkept, h.2⟩
  exact Option.some.inj (hc.symm.trans hreadme)

/-- Code of the directory is code or documentation in the whole tree. -/
theorem classify_below_of_code (h : rules.classify names = some .code) {c : FileClass}
    (hc : rules.classify (dir ++ names) = some c) : c = .code ∨ c = .documentation := by
  rw [classify_eq_code_iff] at h
  obtain ⟨-, hreadme, -, hcode⟩ := h
  cases c with
  | code => exact Or.inl rfl
  | documentation => exact Or.inr rfl
  | readme =>
    rw [classify_eq_readme_iff, getLastD_below hnames] at hc
    exact absurd hc.2 hreadme

include hdir

/-- Documentation of the directory is nothing else in the whole tree. -/
theorem classify_below_of_documentation (h : rules.classify names = some .documentation)
    {c : FileClass} (hc : rules.classify (dir ++ names) = some c) : c = .documentation := by
  have hkept := not_excluded_of_classify hc
  have hdocument : rules.classify (dir ++ names) = some .documentation := by
    rw [classify_eq_documentation_iff] at h ⊢
    rw [getLastD_below hnames]
    exact ⟨hkept, h.2.1, matchesAny_below hdir hnames h.2.2⟩
  exact Option.some.inj (hc.symm.trans hdocument)

/-- A readme of the whole tree is one of the directory. -/
theorem classify_readme_of_below (h : rules.classify (dir ++ names) = some .readme) :
    rules.classify names = some .readme := by
  rw [classify_eq_readme_iff, getLastD_below hnames] at h
  obtain ⟨hkept, hreadme⟩ := h
  rw [classify_eq_readme_iff]
  exact ⟨fun hmatch => hkept (matchesAny_below hdir hnames hmatch), hreadme⟩

/-- Code of the whole tree is code of the directory. -/
theorem classify_code_of_below (h : rules.classify (dir ++ names) = some .code) :
    rules.classify names = some .code := by
  rw [classify_eq_code_iff, getLastD_below hnames] at h
  obtain ⟨hkept, hreadme, hdocument, hcode⟩ := h
  rw [classify_eq_code_iff]
  refine ⟨?_, hreadme, ?_, hcode⟩
  · exact fun hmatch => hkept (matchesAny_below hdir hnames hmatch)
  · exact fun hmatch => hdocument (matchesAny_below hdir hnames hmatch)

theorem enters_of_enters_below (h : rules.enters (dir ++ names) = true) :
    rules.enters names = true := by
  unfold enters at h ⊢
  rw [Bool.not_eq_true', ← Bool.not_eq_true] at h ⊢
  exact fun hmatch => h (matchesAny_below hdir hnames hmatch)

end Below

/-- On the way to a file of the directory, what is entered from further up is entered from there. -/
theorem entered_of_below (hdir : dir ≠ []) {content : Content}
    (h : FoundFile.Entered rules.enters 0 ⟨dir ++ names, content⟩) :
    FoundFile.Entered rules.enters 0 ⟨names, content⟩ := by
  intro k hk hpos
  have htake : (dir ++ names).take (dir.length + k) = dir ++ names.take k :=
    List.take_length_add_append k
  have hne : names.take k ≠ [] := by
    dsimp only at hk
    rw [← List.length_pos_iff, List.length_take_of_le (Nat.le_of_lt hk)]
    exact hpos
  apply enters_of_enters_below hdir hne
  show rules.enters (dir ++ names.take k) = true
  rw [← htake]
  apply h
  · dsimp only at hk ⊢
    rw [List.length_append]
    omega
  · omega

/-! ### All files of the directory -/

section Directory

variable {entries sub : Forest} {c : FileClass} (hentries : entries.WellFormed)
  (hsub : entries.HasDirectory dir sub)
include hentries hsub

/-- A file of the tree at the path of a file of the directory has the names of the directory and
then those of the file. -/
theorem names_eq_of_below_eq {root : Path} {names' : List Name} {content content' : Content}
    (hholds : sub.Holds names content) (hwhole : entries.Holds names' content')
    (hpath : root.below names' = (root.below dir).below names) : names' = dir ++ names := by
  have hbelow : entries.Holds (dir ++ names) content := (hsub.holds_append_iff hentries).mpr hholds
  rw [← Path.below_append] at hpath
  exact Path.below_inj (hwhole.forall_names hereditary_wellFormed hentries)
    (hbelow.forall_names hereditary_wellFormed hentries) hpath

/-- A path that the scan of the directory has in a list and the scan of the tree in some list is that
of a file with the one class in the directory and the other in the tree. -/
theorem exists_classes_of_below {root path : Path}
    (h : path ∈ (rules.scanEntries (root.below dir) sub).ofClass c)
    (h' : path ∈ (rules.scanEntries root entries).paths) :
    ∃ c' names, path ∈ (rules.scanEntries root entries).ofClass c' ∧ names ≠ [] ∧
      rules.classify names = some c ∧ rules.classify (dir ++ names) = some c' := by
  obtain ⟨c', hc'⟩ := ScanResult.mem_paths_iff.mp h'
  obtain ⟨f, hf, rfl⟩ := mem_ofClass_iff.mp h
  obtain ⟨g, hg, hpath⟩ := mem_ofClass_iff.mp hc'
  obtain ⟨hholds, -, hpartClass⟩ := mem_listed_iff.mp hf
  obtain ⟨hwhole, -, hwholeClass⟩ := mem_listed_iff.mp hg
  rw [names_eq_of_below_eq hentries hsub hholds hwhole hpath] at hwholeClass
  exact ⟨c', f.names, hc', hholds.ne_nil, hpartClass, hwholeClass⟩

variable (hdir : dir ≠ [])
include hdir

/-- What a scan of the tree lists below the directory, a scan of the directory lists, if it gives it
the same class. -/
theorem mem_listed_of_below {content : Content}
    (h : ⟨dir ++ names, content⟩ ∈ rules.listed entries c)
    (hclass : rules.classify names = some c) : ⟨names, content⟩ ∈ rules.listed sub c := by
  obtain ⟨hholds, hentered, -⟩ := mem_listed_iff.mp h
  rw [mem_listed_iff]
  exact ⟨(hsub.holds_append_iff hentries).mp hholds, entered_of_below hdir hentered, hclass⟩

/-- A list of the scan of the tree has below the directory a part of what the scan of the directory
has, if what has the class in the tree has it in the directory. -/
theorem filter_within_sublist
    (hclass : ∀ names, names ≠ [] → rules.classify (dir ++ names) = some c →
      rules.classify names = some c) (root : Path) :
    (((rules.scanEntries root entries).ofClass c).filter (·.Within (root.below dir))).Sublist
      ((rules.scanEntries (root.below dir) sub).ofClass c) := by
  have hvalid := (hsub.forall_names hereditary_wellFormed hentries).1
  have hsubEntries : sub.WellFormed := (hsub.forall_names hereditary_wellFormed hentries).2
  -- both are lists of paths of names below the root of the tree
  have hwhole : ((rules.scanEntries root entries).ofClass c).filter (·.Within (root.below dir))
      = (((rules.listed entries c).filter (dir <+: ·.names)).map (·.names)).map root.below := by
    rw [ofClass_scanEntries, ← listed, List.filter_map, List.map_map]
    refine congrArg _ (List.filter_congr fun f hf => ?_)
    have hnames := (holds_of_mem_listed hf).forall_names hereditary_wellFormed hentries
    exact decide_eq_decide.mpr (Path.within_below_iff root hnames hvalid)
  have hpart : (rules.scanEntries (root.below dir) sub).ofClass c
      = ((rules.listed sub c).map (dir ++ ·.names)).map root.below := by
    rw [ofClass_scanEntries, ← listed, List.map_map]
    exact List.map_congr_left fun f _ => (Path.below_append root dir f.names).symm
  rw [hwhole, hpart]
  apply List.Sublist.map
  -- both lists of names are in order, so it is enough that the one has what the other has
  have hwholeOrder : (((rules.listed entries c).filter (dir <+: ·.names)).map (·.names)).Pairwise
      (· < ·) := by
    rw [List.pairwise_map]
    exact ((Forest.pairwise_files hentries rules.enters []).filter _).filter _
  have hpartOrder : ((rules.listed sub c).map (dir ++ ·.names)).Pairwise (· < ·) := by
    rw [List.pairwise_map]
    have hfiles := (Forest.pairwise_files hsubEntries rules.enters []).filter
      (rules.classify ·.names = some c)
    exact hfiles.imp fun hlt => List.Lex.append_left (· < ·) hlt dir
  apply List.sublist_of_subperm_of_pairwise _ hwholeOrder hpartOrder
  apply List.subperm_of_subset
  · apply hwholeOrder.imp
    rintro names _ hlt rfl
    exact List.lt_irrefl _ hlt
  · intro names hnames
    obtain ⟨⟨_, content⟩, hf, rfl⟩ := List.mem_map.mp hnames
    obtain ⟨hf, hwithin⟩ := List.mem_filter.mp hf
    obtain ⟨rest, rfl⟩ := of_decide_eq_true hwithin
    obtain ⟨hholds, -, hwholeClass⟩ := mem_listed_iff.mp hf
    have hne : rest ≠ [] := ((hsub.holds_append_iff hentries).mp hholds).ne_nil
    have hrest := mem_listed_of_below hentries hsub hdir hf (hclass rest hne hwholeClass)
    exact List.mem_map.mpr ⟨⟨rest, content⟩, hrest, rfl⟩

/-- What the scan of the directory drops, because it is excluded or because a directory on the way
is not entered, the scan of the tree drops as well. -/
theorem below_notMem_paths {content : Content} (hholds : sub.Holds names content)
    (hdropped : matchesAny rules.excluded (relativeText names) = true ∨
      ¬ FoundFile.Entered rules.enters 0 ⟨names, content⟩) (root : Path) :
    (root.below dir).below names ∉ (rules.scanEntries root entries).paths := by
  intro hmem
  obtain ⟨c, hmem⟩ := ScanResult.mem_paths_iff.mp hmem
  obtain ⟨⟨names', content'⟩, hg, hpath⟩ := mem_ofClass_iff.mp hmem
  obtain ⟨hwhole, hentered, hclass⟩ := mem_listed_iff.mp hg
  obtain rfl := names_eq_of_below_eq hentries hsub hholds hwhole hpath
  rcases hdropped with hmatch | hpruned
  · exact not_excluded_of_classify hclass (matchesAny_below hdir hholds.ne_nil hmatch)
  · exact hpruned (entered_of_below hdir hentered)

end Directory

end ScanRules

/-! ### Two scans -/

/-- What a scan of a tree finds, against what a scan of the directory at `dir` in it finds. -/
structure ScanResult.AgreesWithin (dir : Path) (whole part : ScanResult) : Prop where
  readmeFiles : (whole.readmeFiles.filter (·.Within dir)).Sublist part.readmeFiles
  codeFiles : (whole.codeFiles.filter (·.Within dir)).Sublist part.codeFiles
  readme_or_absent : ∀ path ∈ part.readmeFiles, path ∈ whole.paths → path ∈ whole.readmeFiles
  documentation_or_absent : ∀ path ∈ part.documentation, path ∈ whole.paths →
    path ∈ whole.documentation
  /-- Code may be documentation in the tree. -/
  code_or_absent : ∀ path ∈ part.codeFiles, path ∈ whole.paths →
    path ∈ whole.codeFiles ∨ path ∈ whole.documentation

namespace ScanRules

theorem scanEntries_agreesWithin (rules : ScanRules) {entries sub : Forest}
    (hentries : entries.WellFormed) {dir : List Name} (hdir : dir ≠ [])
    (hsub : entries.HasDirectory dir sub) (root : Path) :
    (rules.scanEntries root entries).AgreesWithin (root.below dir)
      (rules.scanEntries (root.below dir) sub) where
  readmeFiles := by
    apply filter_within_sublist (c := .readme) hentries hsub hdir
    exact fun names hnames => classify_readme_of_below hdir hnames
  codeFiles := by
    apply filter_within_sublist (c := .code) hentries hsub hdir
    exact fun names hnames => classify_code_of_below hdir hnames
  readme_or_absent := by
    intro path hpart hwhole
    obtain ⟨c, names, hwhole, hne, hclass, hbelow⟩ :=
      exists_classes_of_below (c := .readme) hentries hsub hpart hwhole
    obtain rfl := classify_below_of_readme hne hclass hbelow
    exact hwhole
  documentation_or_absent := by
    intro path hpart hwhole
    obtain ⟨c, names, hwhole, hne, hclass, hbelow⟩ :=
      exists_classes_of_below (c := .documentation) hentries hsub hpart hwhole
    obtain rfl := classify_below_of_documentation hdir hne hclass hbelow
    exact hwhole
  code_or_absent := by
    intro path hpart hwhole
    obtain ⟨c, names, hwhole, hne, hclass, hbelow⟩ :=
      exists_classes_of_below (c := .code) hentries hsub hpart hwhole
    rcases classify_below_of_code hne hclass hbelow with rfl | rfl
    · exact Or.inl hwhole
    · exact Or.inr hwhole

/-- Compares the scan of a tree with the scan of a directory below its root, by the same rules.
Below the directory, the readmes and the code of the tree are sublists of those of the directory. A
readme or a document of the directory has the same class in the tree or is absent there; code may
also be documentation. What is dropped in the directory is absent in the tree. -/
theorem scan_subdirectory (rules : ScanRules) {fs : FileSystem} (hfs : fs.WellFormed) {root : Path}
    {entries : Forest} (hnode : fs.node root = .ok (.directory entries)) {dir : List Name}
    {sub : Forest} (hdir : dir ≠ []) (hsub : entries.HasDirectory dir sub)
    (hexists : fs.exists? (root.below dir) = true) :
    ∃ whole part, rules.scan fs root = .ok whole ∧ rules.scan fs (root.below dir) = .ok part ∧
      whole.AgreesWithin (root.below dir) part ∧
      ∀ names content, sub.Holds names content →
        (matchesAny rules.excluded (relativeText names) = true ∨
          ¬ FoundFile.Entered rules.enters 0 ⟨names, content⟩) →
        (root.below dir).below names ∉ whole.paths := by
  have hentries : entries.WellFormed := hfs.node hnode
  have hpartNode := FileSystem.node_below hentries hnode hdir hsub hexists
  refine ⟨rules.scanEntries root entries, rules.scanEntries (root.below dir) sub, ?_, ?_, ?_, ?_⟩
  · rw [scan, hnode]
  · rw [scan, hpartNode]
  · exact scanEntries_agreesWithin rules hentries hdir hsub root
  · intro names content hholds hdropped
    exact below_notMem_paths hentries hsub hdir hholds hdropped root

/-- The entries of `/docs`: the files `README.md`, `a.rs`, `b.rs`, `c.rs` and `tmp/d.rs`. -/
def sourcesInDocs : Forest :=
  .cons (encode "README.md") (.file (.octets []))
    (.cons (encode "a.rs") (.file (.octets []))
      (.cons (encode "b.rs") (.file (.octets []))
        (.cons (encode "c.rs") (.file (.octets []))
          (.cons (encode "tmp") (.directory (.cons (encode "d.rs") (.file (.octets [])) .nil))
            .nil))))

/-- A machine with the directory `/docs` and the file `/top.rs`. -/
def docsAndTop : FileSystem where
  root := .directory (.cons (encode "docs") (.directory sourcesInDocs)
    (.cons (encode "top.rs") (.file (.octets [])) .nil))

theorem wellFormed_docsAndTop : docsAndTop.WellFormed := by
  have hvalid : ∀ n ∈ ["docs", "top.rs", "README.md", "a.rs", "b.rs", "c.rs", "tmp", "d.rs"],
      Name.Valid (encode n) := by decide
  have htop : encode "docs" < encode "top.rs" := by decide
  have hlt : (["README.md", "a.rs", "b.rs", "c.rs", "tmp"].map encode).Pairwise (· < ·) := by decide
  simp only [List.forall_mem_cons] at hvalid
  simp only [List.map_cons, List.map_nil, List.pairwise_cons, List.forall_mem_cons] at hlt
  simp [docsAndTop, sourcesInDocs, FileSystem.WellFormed, Forest.WellFormed, Node.WellFormed,
    Forest.toList, hvalid, htop, hlt]

/-- What starts with `docs/a` is documentation, and what starts with `docs/b` is excluded, which
nothing does as seen from `/docs`. There, `a.rs` and `b.rs` are code. -/
theorem scan_subdirectory_docsAndTop :
    let path := Path.ofString
    let config : ImportConfig := { markdownExcept "" with
      docPatterns := ["docs/a*"], excludePatterns := ["docs/b*", "tmp/**"],
      codeExtensions := ["rs"] }
    ∃ rules whole part, ofConfig config = .ok rules ∧
      rules.scan docsAndTop (path "/") = .ok whole ∧ rules.scan docsAndTop (path "/docs") = .ok part ∧
      whole = {
        readmeFiles := [path "/docs/README.md"], documentation := [path "/docs/a.rs"],
        codeFiles := [path "/docs/c.rs", path "/top.rs"] } ∧
      part = {
        readmeFiles := [path "/docs/README.md"],
        codeFiles := [path "/docs/a.rs", path "/docs/b.rs", path "/docs/c.rs"] } ∧
      whole.AgreesWithin (path "/docs") part ∧ path "/docs/tmp/d.rs" ∉ whole.paths := by
  intro path config
  let rules : ScanRules := {
    documentation := [[.literal 'd', .literal 'o', .literal 'c', .literal 's', .literal '/',
      .literal 'a', .anyRun]]
    excluded := [[.literal 'd', .literal 'o', .literal 'c', .literal 's', .literal '/',
      .literal 'b', .anyRun], [.literal 't', .literal 'm', .literal 'p', .anyDescendants]]
    prunedDirectories := [[.literal 't', .literal 'm', .literal 'p']]
    codeExtensions := ["rs"] }
  have hnode : docsAndTop.node (path "/") = .ok docsAndTop.root := by cbv
  have hbelow : (path "/").below [encode "docs"] = path "/docs" := by decide
  have hexists : docsAndTop.exists? ((path "/").below [encode "docs"]) = true := by cbv
  have hsub : docsAndTop.root.entries.HasDirectory [encode "docs"] sourcesInDocs :=
    .inside (List.mem_cons_self ..) .here
  have hholds : sourcesInDocs.Holds [encode "tmp", encode "d.rs"] (.octets []) := by
    have hfile : (Forest.cons (encode "d.rs") (.file (.octets [])) .nil).Holds [encode "d.rs"]
        (.octets []) := .file (List.mem_cons_self ..)
    exact .inside (by simp [sourcesInDocs, Forest.toList]) hfile
  obtain ⟨whole, part, hwhole, hpart, hagrees, hdropped⟩ := scan_subdirectory rules
    wellFormed_docsAndTop hnode (List.cons_ne_nil _ _) hsub hexists
  have habsent := hdropped _ _ hholds (Or.inl (by decide +kernel))
  have hpartNode := FileSystem.node_below (wellFormed_docsAndTop.node hnode) hnode
    (List.cons_ne_nil _ _) hsub hexists
  rw [hbelow] at hpart hagrees habsent hpartNode
  refine ⟨rules, whole, part, rfl, hwhole, hpart, ?_, ?_, hagrees, habsent⟩
  · rw [scan, hnode] at hwhole
    rw [← Except.ok.inj hwhole]
    decide +kernel
  · rw [scan, hpartNode] at hpart
    rw [← Except.ok.inj hpart]
    decide +kernel

end ScanRules

end KnowledgeImport
