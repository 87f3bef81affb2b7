import KnowledgeImport.CommandLine.Session
import KnowledgeImport.Proofs.Settings.Entries
import KnowledgeImport.Proofs.Text.Encoding
import KnowledgeImport.Proofs.Yaml.BlankText

/-!
# Settings files

A file with a mapping gives settings exactly if its entries are acceptable (`Settings.Acceptable`),
and then each setting has the value of its entry, or its default (`Settings.Filled`); the order of
the entries makes no difference.  A file of white space gives the defaults.  No settings have a count
of zero, and an import whose settings are refused sends nothing (`settings_accepted`).
-/

namespace KnowledgeImport

open Text Yaml

/-- The file at the path has this text. -/
def FileSystem.HasText (fs : FileSystem) (path : Path) (text : String) : Prop :=
  ∃ content, fs.readFile path = .ok content ∧ content.toOctets = encode text

namespace Settings

variable {fs : FileSystem} {path : Path} {text : String} {named named' : List (String × Tree)}
  {s : Settings}

/-! ### Entries of acceptable files -/

/-- What the entries of a settings file have to be: they are for known settings, none is for the
same setting as another, each has a value of its setting's type, and no count is zero. -/
structure Acceptable (named : List (String × Tree)) : Prop where
  known : ∀ n ∈ named, n.1 ∈ components.map (·.name)
  nodup : (named.map (·.1)).Nodup
  typed : ∀ n ∈ named, ∀ c ∈ components, c.name = n.1 → ∃ x, c.reads n.2 x
  nonzero : ∀ n ∈ named, n.1 = "upload_concurrency" ∨ n.1 = "timeout_secs" → ¬ n.2.IsCount 0

/-- Each setting has the value of its entry, or its default if there is none. -/
def Filled (named : List (String × Tree)) (s : Settings) : Prop :=
  ∀ c ∈ components, (Never named c.name → c.get s = c.get {}) ∧
    ∀ t, (c.name, t) ∈ named → c.reads t (c.get s)

/-- The order of the entries does not decide whether they are acceptable. -/
theorem Acceptable.perm (h : Acceptable named) (hperm : named.Perm named') :
    Acceptable named' where
  known n hn := h.known n (hperm.mem_iff.mpr hn)
  nodup := (hperm.map _).nodup_iff.mp h.nodup
  typed n hn := h.typed n (hperm.mem_iff.mpr hn)
  nonzero n hn := h.nonzero n (hperm.mem_iff.mpr hn)

theorem Filled.perm (h : Filled named s) (hperm : named.Perm named') : Filled named' s := by
  intro c hc
  obtain ⟨hdefault, hread⟩ := h c hc
  have hnever : Never named c.name ↔ Never named' c.name := never_congr (hperm.filter _)
  exact ⟨fun hnone => hdefault (hnever.mpr hnone), fun t ht => hread t (hperm.mem_iff.mpr ht)⟩

/-- What fills settings has values of their types. -/
theorem Filled.typed (h : Filled named s) {n : String × Tree} (hn : n ∈ named)
    {c : Component Tree Settings} (hc : c ∈ components) (hname : c.name = n.1) :
    ∃ x, c.reads n.2 x :=
  ⟨_, (h c hc).2 n.2 (hname ▸ hn)⟩

/-- Acceptable entries fill some settings. -/
theorem Acceptable.exists_filled (h : Acceptable named) : ∃ s, Filled named s := by
  have hgiven : ∃ s, Given components named {} s := by
    refine (exists_given_iff components_components {}).mpr fun c hc => ?_
    by_cases hnever : Never named c.name
    · exact .inl hnever
    · obtain ⟨t, ht⟩ := not_never_iff.mp hnever
      exact .inr ((once_iff_of_nodup h.nodup).mpr ⟨t, ht, h.typed _ ht c hc rfl⟩)
  obtain ⟨s, hs⟩ := hgiven
  exact ⟨s, (given_iff_of_nodup h.nodup).mp hs⟩

/-- A count is zero only if an entry says so. -/
theorem count_eq_zero_iff {name : String} {count default : Nat} (hdefault : default ≠ 0)
    (h : (Never named name → count = default) ∧ ∀ t, (name, t) ∈ named → t.IsCount count) :
    count = 0 ↔ ∃ t, (name, t) ∈ named ∧ t.IsCount 0 := by
  obtain ⟨hnone, hread⟩ := h
  constructor
  · rintro rfl
    have hgiven : ¬ Never named name := fun hnever => hdefault (hnone hnever).symm
    obtain ⟨t, ht⟩ := not_never_iff.mp hgiven
    exact ⟨t, ht, hread t ht⟩
  · rintro ⟨t, ht, hzero⟩
    exact (hread t ht).unique hzero

theorem Filled.uploadConcurrency_eq_zero_iff (h : Filled named s) :
    s.uploadConcurrency = 0 ↔ ∃ t, ("upload_concurrency", t) ∈ named ∧ t.IsCount 0 :=
  count_eq_zero_iff (show defaultConcurrency ≠ 0 by decide)
    (h _ (Key.component_mem .uploadConcurrency))

theorem Filled.timeoutSecs_eq_zero_iff (h : Filled named s) :
    s.timeoutSecs = 0 ↔ ∃ t, ("timeout_secs", t) ∈ named ∧ t.IsCount 0 :=
  count_eq_zero_iff (show defaultTimeout ≠ 0 by decide) (h _ (Key.component_mem .timeoutSecs))

/-! ### Reading files -/

theorem load_of_hasText (h : fs.HasText path text) : load fs path = ofText text := by
  obtain ⟨content, hread, hoctets⟩ := h
  rw [load, hread]
  dsimp only
  rw [decode?_eq_encode_iff.mpr hoctets]

theorem ofText_of_isAllBlank (h : isAllBlank text = true) : ofText text = .ok {} := by
  rw [ofText, if_pos h]
  rfl

/-- Text that is not blank gives the settings it spells if their counts are not zero. -/
theorem ofText_eq_ok_iff (h : isAllBlank text = false) :
    ofText text = .ok s ↔ ofYaml text = .ok s ∧ s.uploadConcurrency ≠ 0 ∧ s.timeoutSecs ≠ 0 := by
  have hblank : ¬ isAllBlank text = true := by simp [h]
  rw [ofText, if_neg hblank, bind_eq_ok_iff]
  simp only [mapError_eq_ok_iff]
  constructor
  · rintro ⟨s', hyaml, hchecked⟩
    have hconcurrency : s'.uploadConcurrency ≠ 0 := by
      intro hzero
      rw [if_pos hzero] at hchecked
      exact throw_bind_ne_ok hchecked
    have htimeout : s'.timeoutSecs ≠ 0 := by
      intro hzero
      rw [if_neg hconcurrency, if_pos hzero] at hchecked
      exact throw_bind_ne_ok hchecked
    rw [if_neg hconcurrency, if_neg htimeout] at hchecked
    obtain rfl := pure_eq_ok_iff.mp hchecked
    exact ⟨hyaml, hconcurrency, htimeout⟩
  · rintro ⟨hyaml, hconcurrency, htimeout⟩
    refine ⟨s, hyaml, ?_⟩
    rw [if_neg hconcurrency, if_neg htimeout]
    rfl

/-- No settings have a count of zero. -/
theorem one_le_of_load (h : load fs path = .ok s) :
    1 ≤ s.uploadConcurrency ∧ 1 ≤ s.timeoutSecs := by
  rw [load] at h
  split at h
  case h_1 => cases h
  case h_2 content _ =>
    split at h
    case h_1 => cases h
    case h_2 text _ =>
      cases hblank : isAllBlank text with
      | true =>
        rw [ofText_of_isAllBlank hblank] at h
        obtain rfl := Except.ok.inj h
        decide
      | false =>
        obtain ⟨-, hconcurrency, htimeout⟩ := (ofText_eq_ok_iff hblank).mp h
        exact ⟨Nat.one_le_iff_ne_zero.mpr hconcurrency, Nat.one_le_iff_ne_zero.mpr htimeout⟩

/-- What settings a file with a mapping gives. -/
theorem load_eq_ok_iff (hfile : fs.HasText path text) (htext : SpelledBy named text) :
    load fs path = .ok s ↔ Acceptable named ∧ Filled named s := by
  obtain ⟨es, -, hmapping⟩ := id htext
  have hblank : isAllBlank text = false := by
    by_contra hblank
    exact Tree.not_spelledBy_of_isAllBlank (eq_true_of_ne_false hblank) es hmapping
  rw [load_of_hasText hfile, ofText_eq_ok_iff hblank, ofYaml_eq_ok_iff htext]
  constructor
  · rintro ⟨⟨hknown, hgiven⟩, hconcurrency, htimeout⟩
    -- every entry has a component, so no name stands twice and any entry is the only one
    have hnames (n : String × Tree) (hn : n ∈ named) : ∃ c ∈ components, c.name = n.1 := by
      obtain ⟨key, hkey⟩ := hknown n hn
      exact ⟨_, key.component_mem, key.component_name.trans hkey⟩
    have hnodup := hgiven.nodup hnames
    have hfilled : Filled named s := (given_iff_of_nodup hnodup).mp hgiven
    have htyped (n : String × Tree) (hn : n ∈ named) (c : Component Tree Settings)
        (hc : c ∈ components) (hname : c.name = n.1) : ∃ x, c.reads n.2 x :=
      hfilled.typed hn hc hname
    refine ⟨⟨fun n hn => List.mem_map.mpr (hnames n hn), hnodup, htyped, ?_⟩, hfilled⟩
    rintro ⟨name, t⟩ hn (rfl | rfl) hzero
    · exact hconcurrency (hfilled.uploadConcurrency_eq_zero_iff.mpr ⟨t, hn, hzero⟩)
    · exact htimeout (hfilled.timeoutSecs_eq_zero_iff.mpr ⟨t, hn, hzero⟩)
  · rintro ⟨hok, hfilled⟩
    refine ⟨⟨fun n hn => ?_, (given_iff_of_nodup hok.nodup).mpr hfilled⟩, fun hzero => ?_,
      fun hzero => ?_⟩
    · obtain ⟨c, hc, hname⟩ := List.mem_map.mp (hok.known n hn)
      obtain ⟨key, -, rfl⟩ := List.mem_map.mp hc
      exact ⟨key, key.component_name.symm.trans hname⟩
    · obtain ⟨t, ht, hcount⟩ := hfilled.uploadConcurrency_eq_zero_iff.mp hzero
      exact hok.nonzero _ ht (.inl rfl) hcount
    · obtain ⟨t, ht, hcount⟩ := hfilled.timeoutSecs_eq_zero_iff.mp hzero
      exact hok.nonzero _ ht (.inr rfl) hcount

/-- A file with a mapping gives settings if its entries are acceptable. -/
theorem exists_load_eq_ok_iff (hfile : fs.HasText path text) (htext : SpelledBy named text) :
    (∃ s, load fs path = .ok s) ↔ Acceptable named := by
  simp only [load_eq_ok_iff hfile htext]
  constructor
  · rintro ⟨_, hok, -⟩
    exact hok
  · intro hok
    obtain ⟨s, hs⟩ := hok.exists_filled
    exact ⟨s, hok, hs⟩

end Settings

/-! ### Imports with settings -/

/-- An import whose settings are refused ends before anything is sent. -/
theorem Invocation.run_of_settings_error {σ : Type} {i : Invocation} {fs : FileSystem}
    {e : SettingsFileError} (h : i.settings fs = .error e) (server : Server σ) (state : σ) :
    (i.run fs server state).outcome = .error (.settings e) ∧
      (i.run fs server state).link = { state } := by
  have hsetup : i.setUp fs = .error (.settings e) := by
    rw [setUp, h]
    rfl
  rw [run, hsetup]
  exact ⟨rfl, rfl⟩

/-- A settings file with a mapping is accepted exactly if its keys are among the seven, none stands
twice, each has a value of its type, and the counts are not zero; then each setting is the value of
its key, or its default, whatever the order of the keys. No settings have a count of zero. White
space gives the defaults, and with a file that is refused nothing is sent to the backend. -/
theorem settings_accepted :
    (∀ fs path text named, FileSystem.HasText fs path text → Settings.SpelledBy named text →
      ((∃ s, Settings.load fs path = .ok s) ↔ Settings.Acceptable named) ∧
      ∀ s, Settings.load fs path = .ok s ↔
        Settings.Acceptable named ∧ Settings.Filled named s) ∧
    (∀ fs path text named fs' path' text' named', FileSystem.HasText fs path text →
      Settings.SpelledBy named text → FileSystem.HasText fs' path' text' →
      Settings.SpelledBy named' text' → named.Perm named' →
      ∀ s, Settings.load fs path = .ok s ↔ Settings.load fs' path' = .ok s) ∧
    (∀ fs path s, Settings.load fs path = .ok s →
      1 ≤ s.uploadConcurrency ∧ 1 ≤ s.timeoutSecs) ∧
    (∀ fs path text, FileSystem.HasText fs path text → isAllBlank text = true →
      Settings.load fs path = .ok {}) ∧
    ∀ (σ : Type) (i : Invocation) fs (server : Server σ) (state : σ) path e,
      i.config = some path → Settings.load fs (Path.ofString path) = .error e →
      (i.run fs server state).outcome = .error (.settings e) ∧
        (i.run fs server state).link = { state } := by
  refine ⟨fun fs path text named hfile htext => ?_, ?_, fun fs path s => Settings.one_le_of_load,
    fun fs path text hfile hblank => ?_, fun σ i fs server state path e hconfig hload => ?_⟩
  · exact ⟨Settings.exists_load_eq_ok_iff hfile htext,
      fun s => Settings.load_eq_ok_iff hfile htext⟩
  · intro fs path text named fs' path' text' named' hfile htext hfile' htext' hperm s
    rw [Settings.load_eq_ok_iff hfile htext, Settings.load_eq_ok_iff hfile' htext']
    exact ⟨fun h => ⟨h.1.perm hperm, h.2.perm hperm⟩,
      fun h => ⟨h.1.perm hperm.symm, h.2.perm hperm.symm⟩⟩
  · rw [Settings.load_of_hasText hfile, Settings.ofText_of_isAllBlank hblank]
  · refine Invocation.run_of_settings_error ?_ server state
    rw [Invocation.settings, hconfig]
    exact hload

/-! ### A list with an alias -/

namespace Settings

/-- A machine with the file `/s`. -/
def fileSystemWith (content : Content) : FileSystem where
  root := .directory (.cons [0x73] (.file content) .nil)

/-- A machine with the text in the file `/s`. -/
def fileSystemWithText (text : String) : FileSystem := fileSystemWith (.octets (encode text))

theorem hasText_fileSystemWithText (text : String) :
    (fileSystemWithText text).HasText (Path.ofString "/s") text := by
  have hread (content : Content) :
      (fileSystemWith content).readFile (Path.ofString "/s") = .ok content := by cbv
  exact ⟨_, hread _, rfl⟩

def plain (text : String) : Tree := .scalar none .plain text

/-- A list of texts, and a count in the base sixteen. -/
def listAndCount : List (String × Tree) :=
  [("tags", .sequence [plain "a"]), ("timeout_secs", plain "0x1F"),
    ("doc_patterns", .sequence [plain "a"])]

/-- The second list stands as an alias for the first. -/
def listAndCountText : String := "tags: &t [a]\ntimeout_secs: 0x1F\ndoc_patterns: *t\n"

theorem named_map_plain (named : List (String × Tree)) :
    Named (named.map fun n => (plain n.1, n.2)) named := by
  rw [Named, List.forall₂_map_left_iff, List.forall₂_same]
  exact fun n _ => ⟨⟨_, _, rfl⟩, rfl⟩

theorem spelledBy_listAndCountText : SpelledBy listAndCount listAndCountText := by
  have hread : firstDocument listAndCountText = ({
      parts := [.mappingStart, .scalar none .plain "tags", .sequenceStart, .scalar none .plain "a",
        .sequenceEnd, .scalar none .plain "timeout_secs", .scalar none .plain "0x1F",
        .scalar none .plain "doc_patterns", .alias 0, .mappingEnd]
      targets := [(0, 2)] }, true) := by decide +kernel
  refine ⟨_, named_map_plain _, _, hread, rfl, ?_⟩
  refine .mapping (.cons .scalar (.sequence (.cons .scalar .nil)) ?_)
  refine .cons .scalar .scalar (.cons .scalar ?_ .nil)
  exact .reference (.sequence (.cons .scalar .nil))

/-- The same with the list behind its count. -/
def countAndList : List (String × Tree) :=
  [("timeout_secs", plain "0x1F"), ("doc_patterns", .sequence [plain "a"]),
    ("tags", .sequence [plain "a"])]

def countAndListText : String := "timeout_secs: 0x1F\ndoc_patterns: &t [a]\ntags: *t\n"

theorem spelledBy_countAndListText : SpelledBy countAndList countAndListText := by
  have hread : firstDocument countAndListText = ({
      parts := [.mappingStart, .scalar none .plain "timeout_secs", .scalar none .plain "0x1F",
        .scalar none .plain "doc_patterns", .sequenceStart, .scalar none .plain "a", .sequenceEnd,
        .scalar none .plain "tags", .alias 0, .mappingEnd]
      targets := [(0, 4)] }, true) := by decide +kernel
  refine ⟨_, named_map_plain _, _, hread, rfl, ?_⟩
  refine .mapping (.cons .scalar .scalar (.cons .scalar (.sequence (.cons .scalar .nil)) ?_))
  exact .cons .scalar (.reference (.sequence (.cons .scalar .nil))) .nil

theorem spelledBy_zeroTimeout : SpelledBy [("timeout_secs", plain "0")] "timeout_secs: 0" := by
  have hread : firstDocument "timeout_secs: 0" = ({
      parts := [.mappingStart, .scalar none .plain "timeout_secs", .scalar none .plain "0",
        .mappingEnd] }, true) := by decide +kernel
  exact ⟨_, named_map_plain _, _, hread, rfl, .mapping (.cons .scalar .scalar .nil)⟩

theorem isCount_plain {text : String} {n : Nat} (h : unsignedBelow? (2 ^ 64) text = some n) :
    (plain text).IsCount n :=
  ⟨_, _, _, rfl, .inl rfl, unsignedBelow?_eq_some_iff.mp h⟩

/-- The settings of the list and the count. -/
def listAndCountSettings : Settings :=
  { docPatterns := ["a"], timeoutSecs := 31, tags := ["a"] }

theorem filled_listAndCount : Filled listAndCount listAndCountSettings := by
  have hlist : (Tree.sequence [plain "a"]).IsTexts ["a"] :=
    Tree.isTexts_sequence_iff.mpr (.cons ⟨_, _, rfl⟩ .nil)
  have hcount : (plain "0x1F").IsCount 31 := isCount_plain (by decide +kernel)
  rw [Filled, forall_mem_components]
  intro key
  cases key <;> simp [listAndCount, listAndCountSettings, Key.component, Never, hlist, hcount]

theorem acceptable_listAndCount : Acceptable listAndCount where
  known := by simp [listAndCount, components, Key.all, Key.component]
  nodup := by decide
  typed n hn c hc hname := filled_listAndCount.typed hn hc hname
  nonzero n hn hname hzero := by
    obtain ⟨-, hread⟩ := filled_listAndCount _ (Key.component_mem .timeoutSecs)
    have hcount : n.2.IsCount 31 := by
      refine hread n.2 ?_
      obtain rfl | rfl | rfl : n = _ ∨ n = _ ∨ n = _ := by simpa [listAndCount] using hn
      all_goals simp [listAndCount, Key.component] at hname ⊢
    cases hcount.unique hzero

theorem not_acceptable_zeroTimeout : ¬ Acceptable [("timeout_secs", plain "0")] := by
  intro h
  exact h.nonzero _ List.mem_cons_self (.inr rfl) (isCount_plain (by decide +kernel))

theorem settings_accepted_alias :
    load (fileSystemWithText listAndCountText) (Path.ofString "/s") = .ok listAndCountSettings ∧
    load (fileSystemWithText countAndListText) (Path.ofString "/s") = .ok listAndCountSettings ∧
    1 ≤ listAndCountSettings.uploadConcurrency ∧
    load (fileSystemWithText "\t\n") (Path.ofString "/s") = .ok {} ∧
    ∃ e, load (fileSystemWithText "timeout_secs: 0") (Path.ofString "/s") = .error e ∧
      (Invocation.run { projectId := "p", backendUrl := "", config := some "/s" }
        (fileSystemWithText "timeout_secs: 0") (fun _ state => (.dropped, state)) ()).link
          = { state := () } := by
  obtain ⟨hmapping, hperm, hcounts, hblank, hrefused⟩ := settings_accepted
  have hload := ((hmapping _ _ _ _ (hasText_fileSystemWithText _)
    spelledBy_listAndCountText).2 _).mpr ⟨acceptable_listAndCount, filled_listAndCount⟩
  have hrotated : listAndCount.Perm countAndList := @List.perm_append_comm _ [_] [_, _]
  refine ⟨hload, ?_, (hcounts _ _ _ hload).1, ?_, ?_⟩
  · exact (hperm _ _ _ _ _ _ _ _ (hasText_fileSystemWithText _) spelledBy_listAndCountText
      (hasText_fileSystemWithText _) spelledBy_countAndListText hrotated _).mp hload
  · exact hblank _ _ _ (hasText_fileSystemWithText _) (by decide)
  · have hnone := (hmapping _ _ _ _ (hasText_fileSystemWithText _)
      spelledBy_zeroTimeout).1.not.mpr not_acceptable_zeroTimeout
    cases hzero : load (fileSystemWithText "timeout_secs: 0") (Path.ofString "/s") with
    | ok s => exact absurd ⟨s, hzero⟩ hnone
    | error e => exact ⟨e, rfl, (hrefused _ _ _ _ _ _ _ rfl hzero).2⟩

end Settings

end KnowledgeImport
