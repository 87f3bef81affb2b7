import KnowledgeImport.Proofs.Import.Assembly
import KnowledgeImport.Proofs.Scan.Baseline
import KnowledgeImport.Proofs.Scan.OneFile

/-!
# Extensions of source code

However settings write an extension of source code, with dots in front or in another case
(`SpellsExtension`), a scan finds the files that have it (`ScanRules.scan_codeExtensions`).  An
extension is brought into one form where a configuration is assembled, and compared in lower case
where a file is classified; that form is in lower case already
(`ScanRules.codeExtensions_of_ofConfig_assemble`), and so the two agree.
-/

namespace KnowledgeImport

open Text Glob

/-! ### Letter case -/

theorem toList_asciiLower (s : String) : (asciiLower s).toList = s.toList.map Char.toLower :=
  String.toList_ofList

/-- Two texts that differ in case only have a dot or have none. -/
theorem dot_mem_of_asciiLower_eq {s t : String} (h : asciiLower s = asciiLower t)
    (hs : '.' ∈ s.toList) : '.' ∈ t.toList := by
  have hmem : '.' ∈ (asciiLower t).toList := by
    rw [← h, toList_asciiLower]
    exact List.mem_map.mpr ⟨'.', hs, rfl⟩
  rw [toList_asciiLower] at hmem
  obtain ⟨c, hc, hdot⟩ := List.mem_map.mp hmem
  exact toLower_eq_dot_iff.mp hdot ▸ hc

/-! ### Spellings of an extension -/

/-- The text writes the extension, with any number of dots in front and in whatever case. -/
def SpellsExtension (x e : String) : Prop :=
  ∃ (n : Nat) (r : String), x.toList = List.replicate n '.' ++ r.toList ∧
    asciiLower r = asciiLower e

theorem normalExtension_eq_iff {x e : String} (he : '.' ∉ e.toList) :
    normalExtension x = asciiLower e ↔ SpellsExtension x e := by
  constructor
  · intro h
    refine ⟨(x.toList.takeWhile (· = '.')).length,
      String.ofList (x.toList.dropWhile (· = '.')), ?_, h⟩
    have hdots : x.toList.takeWhile (· = '.')
        = List.replicate (x.toList.takeWhile (· = '.')).length '.' := by
      refine List.eq_replicate_of_mem fun c hc => ?_
      have hdot := List.mem_takeWhile_imp hc
      exact of_decide_eq_true hdot
    rw [← hdots, String.toList_ofList, List.takeWhile_append_dropWhile]
  · rintro ⟨n, r, hx, hr⟩
    -- all the dots there are stand in front
    have hdot : '.' ∉ r.toList := fun hmem => he (dot_mem_of_asciiLower_eq hr hmem)
    have hdrop : x.toList.dropWhile (· = '.') = r.toList := by
      rw [hx, List.dropWhile_append_of_pos (by simp)]
      cases hlist : r.toList with
      | nil => rfl
      | cons c cs =>
        have hc : c ≠ '.' := by
          rintro rfl
          exact hdot (hlist ▸ List.mem_cons_self ..)
        exact List.dropWhile_cons_of_neg (by simpa using hc)
    rw [normalExtension, hdrop, String.ofList_toList, hr]

namespace ScanRules

variable {config : ImportConfig} {rules : ScanRules} {entries : Forest}

/-! ### Files with an extension -/

theorem asciiLower_codeExtensions_assemble (options : ImportOptions)
    (extensions : PatternExtensions) :
    (ImportConfig.assemble options extensions).codeExtensions.map asciiLower
      = (ImportConfig.assemble options extensions).codeExtensions := by
  refine (List.map_congr_left fun e he => ?_).trans (List.map_id _)
  exact (ImportConfig.isNormalExtension_of_mem he).asciiLower_eq

/-- The list of an assembled configuration is in the form in which files are compared with it. -/
theorem codeExtensions_of_ofConfig_assemble {options : ImportOptions}
    {extensions : PatternExtensions} (h : ofConfig (.assemble options extensions) = .ok rules) :
    rules.codeExtensions = (ImportConfig.assemble options extensions).codeExtensions := by
  obtain ⟨-, -, -, hcode⟩ := ofConfig_eq_ok_iff.mp h
  rw [← hcode, asciiLower_codeExtensions_assemble]

/-- A file with an extension is source code iff the extension is in the list, whatever its case. -/
theorem isCode_append_iff {stem : Name} {e : String} (hstem : stem ≠ []) (he : '.' ∉ e.toList)
    (hname : stem ++ 0x2E :: encode e ≠ [0x2E, 0x2E]) :
    rules.isCode (stem ++ 0x2E :: encode e) = true ↔ asciiLower e ∈ rules.codeExtensions := by
  have hdot : 0x2E ∉ encode e := by
    intro hmem
    obtain ⟨c, hc, hnat⟩ := exists_of_mem_encode (by decide) hmem
    have hc' : c = '.' := Char.toNat_inj.mp hnat
    exact he (hc' ▸ hc)
  have hext : (stem ++ 0x2E :: encode e).extension? = some (encode e) :=
    (Name.extension?_eq_some_iff hname).mpr ⟨stem, hstem, rfl, hdot⟩
  rw [isCode, hext, Option.bind_some, decode?_encode]
  exact List.contains_iff_mem

/-- A file that no pattern of documentation finds is listed as code iff its extension is one of
source code. -/
theorem below_mem_codeFiles_iff (hrules : ofConfig config = .ok rules)
    (hentries : entries.WellFormed) (root : Path) {f : FoundFile}
    (hfile : rules.ComesTo config entries f)
    (hdoc : ∀ text ∈ config.docPatterns, ¬ Finds text f.names) :
    root.below f.names ∈ (rules.scanEntries root entries).codeFiles ↔
      rules.isCode (f.names.getLastD []) = true := by
  have hkept := hfile.not_excluded hrules
  have hnone : ¬ matchesAny rules.documentation (relativeText f.names) = true := by
    rw [matchesAny_ofStrings_iff (ofConfig_eq_ok_iff.mp hrules).1]
    rintro ⟨text, htext, hfinds⟩
    exact hdoc text htext hfinds
  refine (hfile.below_mem_ofClass_iff hentries root (c := .code)).trans ?_
  constructor
  · intro hclass
    exact (classify_eq_code_iff.mp hclass).2.2.2
  · intro hcode
    rw [classify_of_isCode hkept hcode, if_neg hnone]

/-! ### The same extensions -/

/-- Where the entries of the list of extensions stand, and how often, does not matter. -/
theorem scan_withExtensions {extensions : List String}
    (h : ∀ e, e ∈ extensions ↔ e ∈ rules.codeExtensions) (fs : FileSystem) (root : Path) :
    ({ rules with codeExtensions := extensions }).scan fs root = rules.scan fs root := by
  have hcode (name : Name) :
      ({ rules with codeExtensions := extensions }).isCode name = rules.isCode name := by
    rw [isCode, isCode]
    split
    · rw [Bool.eq_iff_iff, List.contains_iff_mem, List.contains_iff_mem, h]
    · rfl
  have hclass (names : List Name) :
      ({ rules with codeExtensions := extensions }).classify names = rules.classify names := by
    rw [classify, classify, hcode]
  have hlist (r : ScanResult) (f : FoundFile) :
      ({ rules with codeExtensions := extensions }).listFile root r f = rules.listFile root r f := by
    rw [listFile, listFile, hclass]
  -- the walk itself asks for directories only
  unfold scan scanEntries
  simp only [funext₂ hlist]
  rfl

/-- The list of extensions goes into the rules as it is, and into nothing else. -/
theorem ofConfig_withExtensions (config : ImportConfig) (extensions : List String) :
    ofConfig { config with codeExtensions := extensions }
      = (ofConfig config).map fun rules =>
          { rules with codeExtensions := extensions.map asciiLower } := by
  unfold ofConfig
  dsimp only
  cases PatternSet.ofStrings config.docPatterns with
  | error e => rfl
  | ok documentation =>
    cases PatternSet.ofStrings config.excludePatterns with
    | error e => rfl
    | ok excluded =>
      cases PatternSet.ofStrings (config.excludePatterns.filterMap prunedPattern?) with
      | error e => rfl
      | ok pruned => rfl

/-- Configurations whose extensions of source code have the same forms find the same in every
tree. -/
theorem scan_congr_of_sameExtensions (options : ImportOptions) (extensions : PatternExtensions)
    {other : List String}
    (h : ∀ e, e ∈ other.map normalExtension ↔ e ∈ extensions.codeExtensions.map normalExtension)
    (fs : FileSystem) (root : Path) :
    (ofConfig (.assemble options { extensions with codeExtensions := other })).map
        (·.scan fs root)
      = (ofConfig (.assemble options extensions)).map (·.scan fs root) := by
  have hother := asciiLower_codeExtensions_assemble options
    { extensions with codeExtensions := other }
  have hlists : ImportConfig.assemble options { extensions with codeExtensions := other }
      = { ImportConfig.assemble options extensions with codeExtensions :=
          (ImportConfig.assemble options
            { extensions with codeExtensions := other }).codeExtensions } := rfl
  rw [hlists, ofConfig_withExtensions, hother]
  cases hrules : ofConfig (.assemble options extensions) with
  | error e => rfl
  | ok rules =>
    have hsame (e : String) : e ∈ (ImportConfig.assemble options
        { extensions with codeExtensions := other }).codeExtensions ↔ e ∈ rules.codeExtensions := by
      rw [codeExtensions_of_ofConfig_assemble hrules, ImportConfig.mem_codeExtensions_assemble_iff,
        ImportConfig.mem_codeExtensions_assemble_iff, ← List.mem_map, ← List.mem_map, h]
    exact congrArg Except.ok (scan_withExtensions hsame fs root)

/-- Under an assembled configuration, a file that a scan comes to and no pattern of documentation
finds is listed as code iff its extension is one of the baseline, whatever its case, or settings
spell it: with any number of dots in front, and in whatever case. Extensions of source code that
have the same forms, one by one, make the same configuration, and already if they have the same
forms in whatever order and number, every scan finds the same or fails alike. -/
theorem scan_codeExtensions {options : ImportOptions} {extensions : PatternExtensions}
    {rules : ScanRules} (hrules : ofConfig (.assemble options extensions) = .ok rules)
    {fs : FileSystem} (hfs : fs.WellFormed) {entries : Forest}
    (hnode : fs.node options.root = .ok (.directory entries)) :
    (∃ found, rules.scan fs options.root = .ok found ∧
      ∀ (dirs : List Name) (stem : Name) (e : String) (content : Content),
        stem ≠ [] → '.' ∉ e.toList →
        rules.ComesTo (.assemble options extensions) entries
          ⟨dirs ++ [stem ++ 0x2E :: encode e], content⟩ →
        (∀ text ∈ (ImportConfig.assemble options extensions).docPatterns,
          ¬ Finds text (dirs ++ [stem ++ 0x2E :: encode e])) →
        (options.root.below (dirs ++ [stem ++ 0x2E :: encode e]) ∈ found.codeFiles ↔
          asciiLower e ∈ baselineCodeExtensions ∨
            ∃ x ∈ extensions.codeExtensions, SpellsExtension x e)) ∧
    (∀ other : List String,
      other.map normalExtension = extensions.codeExtensions.map normalExtension →
      ImportConfig.assemble options { extensions with codeExtensions := other }
        = .assemble options extensions) ∧
    ∀ other : List String,
      (∀ e, e ∈ other.map normalExtension ↔ e ∈ extensions.codeExtensions.map normalExtension) →
      ∀ (fs : FileSystem) (root : Path),
        (ofConfig (.assemble options { extensions with codeExtensions := other })).map
            (·.scan fs root)
          = (ofConfig (.assemble options extensions)).map (·.scan fs root) := by
  have hentries : entries.WellFormed := hfs.node hnode
  refine ⟨⟨rules.scanEntries options.root entries, by rw [scan, hnode], ?_⟩, ?_, ?_⟩
  · intro dirs stem e content hstem he hfile hdoc
    have hvalid : Name.Valid (stem ++ 0x2E :: encode e) :=
      hfile.holds.forall_names hereditary_wellFormed hentries _ (by simp)
    -- dots and letter case are gone from both sides before they are compared
    refine (below_mem_codeFiles_iff hrules hentries options.root hfile hdoc).trans ?_
    rw [List.getLastD_concat, isCode_append_iff hstem he hvalid.ne_parent,
      codeExtensions_of_ofConfig_assemble hrules, ImportConfig.mem_codeExtensions_assemble_iff]
    simp only [normalExtension_eq_iff he]
  · intro other h
    rw [ImportConfig.assemble, ImportConfig.assemble, h]
  · intro other h fs root
    exact scan_congr_of_sameExtensions options extensions h fs root

end ScanRules

/-! ### Extensions that are hard to spell -/

/-- The extensions `zig` and `Ünï`, and the one with nothing in it. -/
def oddExtensions : PatternExtensions where
  codeExtensions := ["..ZIG", "Ünï", "."]

/-- The files `b.`, `c.ÜNï`, `d.ünï` and `main.zig`. -/
def oddEntries : Forest :=
  .cons (encode "b.") (.file (.octets []))
    (.cons (encode "c.ÜNï") (.file (.octets []))
      (.cons (encode "d.ünï") (.file (.octets []))
        (.cons (encode "main.zig") (.file (.octets [])) .nil)))

theorem wellFormed_oddEntries : oddEntries.WellFormed := by
  have hvalid : ∀ n ∈ ["b.", "c.ÜNï", "d.ünï", "main.zig"], Name.Valid (encode n) := by decide
  have hlt : (["b.", "c.ÜNï", "d.ünï", "main.zig"].map encode).Pairwise (· < ·) := by decide
  simp only [List.forall_mem_cons] at hvalid
  simp only [List.map_cons, List.map_nil, List.pairwise_cons, List.forall_mem_cons] at hlt
  simp [oddEntries, Forest.WellFormed, Node.WellFormed, Forest.toList, hvalid, hlt]

/-- Dots in front, the case of ASCII letters and an extension with nothing in it make no difference,
but the case of other letters does. -/
theorem ScanRules.scan_codeExtensions_odd :
    ∃ rules found, ofConfig (.assemble rootOptions oddExtensions) = .ok rules ∧
      rules.scan { root := .directory oddEntries } (Path.ofString "/") = .ok found ∧
      Path.ofString "/b." ∈ found.codeFiles ∧ Path.ofString "/c.ÜNï" ∈ found.codeFiles ∧
      Path.ofString "/d.ünï" ∉ found.codeFiles ∧ Path.ofString "/main.zig" ∈ found.codeFiles ∧
      ImportConfig.assemble rootOptions { codeExtensions := ["zig", ".ÜNï", ""] }
        = .assemble rootOptions oddExtensions := by
  have hfs : FileSystem.WellFormed { root := .directory oddEntries } := wellFormed_oddEntries
  have hnode : FileSystem.node { root := .directory oddEntries } rootOptions.root
      = .ok (.directory oddEntries) := by
    cbv
  obtain ⟨rules, hrules⟩ : ∃ rules, ofConfig (.assemble rootOptions oddExtensions) = .ok rules := by
    have hlists : ImportConfig.assemble rootOptions oddExtensions
        = { ImportConfig.assemble rootOptions {} with
            codeExtensions := baselineCodeExtensions ++ ["zig", "Ünï", ""] } := by
      decide +kernel
    rw [hlists, ofConfig_withExtensions, ofConfig_assemble]
    exact ⟨_, rfl⟩
  obtain ⟨⟨found, hscan, hfound⟩, hsame, -⟩ := scan_codeExtensions hrules hfs hnode
  have hcomes {name : Name} {content : Content} (hholds : oddEntries.Holds [name] content)
      (hkept : ∀ text ∈ baselineExcludePatterns, ¬ Finds text [name]) :
      rules.ComesTo (.assemble rootOptions oddExtensions) oddEntries ⟨[name], content⟩ := by
    refine ⟨hholds, ?_, hkept⟩
    -- nothing has to be entered on the way to a file in the root
    intro k hk hpos
    rw [List.length_singleton] at hk
    omega
  refine ⟨rules, found, hrules, hscan, ?_, ?_, ?_, ?_, hsame _ (by decide +kernel)⟩
  · refine (hfound [] (encode "b") "" (.octets []) (by decide) (by decide)
      (hcomes (.file (.head _)) (by decide +kernel)) (by decide +kernel)).mpr ?_
    exact Or.inr ⟨".", by decide, 1, "", by decide, rfl⟩
  · refine (hfound [] (encode "c") "ÜNï" (.octets []) (by decide) (by decide)
      (hcomes (.file (.tail _ (.head _))) (by decide +kernel)) (by decide +kernel)).mpr ?_
    exact Or.inr ⟨"Ünï", by decide, 0, "Ünï", by decide, by decide⟩
  · intro hmem
    have hcode := (hfound [] (encode "d") "ünï" (.octets []) (by decide) (by decide)
      (hcomes (.file (.tail _ (.tail _ (.head _)))) (by decide +kernel)) (by decide +kernel)).mp hmem
    rcases hcode with hcode | ⟨x, hx, hspells⟩
    · exact absurd hcode (by decide)
    · have hnone : ∀ x ∈ oddExtensions.codeExtensions, normalExtension x ≠ asciiLower "ünï" := by
        decide
      exact hnone x hx ((normalExtension_eq_iff (by decide)).mpr hspells)
  · refine (hfound [] (encode "main") "zig" (.octets []) (by decide) (by decide)
      (hcomes (.file (.tail _ (.tail _ (.tail _ (.head _))))) (by decide +kernel))
      (by decide +kernel)).mpr ?_
    exact Or.inr ⟨"..ZIG", by decide, 2, "ZIG", by decide, by decide⟩

end KnowledgeImport
