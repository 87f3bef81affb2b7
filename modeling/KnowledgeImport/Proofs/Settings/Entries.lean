import KnowledgeImport.Proofs.Records
import KnowledgeImport.Proofs.Settings.Values

/-!
# Settings from entries

Each key of the settings stands for a component of its own type (`Settings.Key.component`).  From
the entries of a mapping settings are read if every key is known and stands once, and the components
with an entry have its value (`Settings.readEntries_eq_ok_iff`, `Settings.ofYaml_eq_ok_iff`).
-/

namespace KnowledgeImport

open Yaml

namespace Settings

/-- What a key is written as, and which trees have its values. -/
def Key.component : Key → Component Tree Settings
  | .docPatterns =>
    ⟨"doc_patterns", _, Tree.IsTexts, Settings.docPatterns, fun s x => { s with docPatterns := x }⟩
  | .excludePatterns =>
    ⟨"exclude_patterns", _, Tree.IsTexts, Settings.excludePatterns,
      fun s x => { s with excludePatterns := x }⟩
  | .codeExtensions =>
    ⟨"code_extensions", _, Tree.IsTexts, Settings.codeExtensions,
      fun s x => { s with codeExtensions := x }⟩
  | .uploadConcurrency =>
    ⟨"upload_concurrency", _, Tree.IsCount, Settings.uploadConcurrency,
      fun s x => { s with uploadConcurrency := x }⟩
  | .timeoutSecs =>
    ⟨"timeout_secs", _, Tree.IsCount, Settings.timeoutSecs,
      fun s x => { s with timeoutSecs := x }⟩
  | .knowledgeType =>
    ⟨"knowledge_type", _, Tree.IsText, Settings.knowledgeType,
      fun s x => { s with knowledgeType := x }⟩
  | .tags => ⟨"tags", _, Tree.IsTexts, Settings.tags, fun s x => { s with tags := x }⟩

/-- The components of the settings. -/
def components : List (Component Tree Settings) := Key.all.map Key.component

namespace Key

variable {key : Key} {name : String}

theorem mem_all (key : Key) : key ∈ all := by cases key <;> decide

theorem component_mem (key : Key) : key.component ∈ components :=
  List.mem_map_of_mem (mem_all key)

theorem component_name (key : Key) : key.component.name = key.name := by cases key <;> rfl

theorem ofName?_eq_some_iff : ofName? name = some key ↔ key.name = name := by
  constructor
  · intro h
    simpa using List.find?_some h
  · rintro rfl
    cases key <;> rfl

theorem name_injective : Function.Injective Key.name := by
  intro key other h
  have hfind : ofName? other.name = some key := ofName?_eq_some_iff.mpr h
  rw [ofName?_eq_some_iff.mpr rfl] at hfind
  exact (Option.some.inj hfind).symm

theorem ofName?_eq_none_iff : ofName? name = none ↔ ∀ key : Key, key.name ≠ name := by
  simp [ofName?, mem_all]

end Key

theorem forall_mem_components {P : Component Tree Settings → Prop} :
    (∀ c ∈ components, P c) ↔ ∀ key : Key, P key.component := by
  simp [components, Key.mem_all]

theorem components_components : Components components where
  nodup := by decide
  get_set := by
    rw [forall_mem_components]
    rintro ⟨⟩ <;> simp [Key.component]
  get_set_of_ne := by
    simp only [forall_mem_components]
    rintro ⟨⟩ ⟨⟩ <;> simp [Key.component]
  ext := by
    rintro ⟨⟩ ⟨⟩ h
    simpa [components, Key.all, Key.component] using h

/-! ### Entries -/

variable {d : Document} {t : Tree} {parts rest rest' : List Part} {s s' : Settings}

/-- A value that is read is put into the settings, and the parts after it remain. -/
theorem store_eq_ok_iff {α : Type} {P : α → Prop} {store : α → Settings}
    {read : Except SettingsError (α × List Part)}
    {f : α × List Part → Except SettingsError (Settings × List Part)}
    (hread : ∀ x ps, read = .ok (x, ps) ↔ P x ∧ rest = ps)
    (hf : ∀ x ps, f (x, ps) = .ok (store x, ps)) :
    read >>= f = .ok (s', rest') ↔ (∃ x, P x ∧ store x = s') ∧ rest = rest' := by
  simp only [bind_eq_ok_iff, Prod.exists, hread, hf, Except.ok.injEq, Prod.mk.injEq]
  constructor
  · rintro ⟨x, _, ⟨hx, rfl⟩, hstore, hrest⟩
    exact ⟨⟨x, hx, hstore⟩, hrest⟩
  · rintro ⟨⟨x, hx, hstore⟩, hrest⟩
    exact ⟨x, rest, ⟨hx, rfl⟩, hstore, hrest⟩

theorem readValue_eq_ok_iff (hd : d.Resolved) (h : d.Holds t parts rest) {key : Key}
    {label : String} :
    readValue d key label s parts = .ok (s', rest') ↔
      (∃ x, key.component.reads t x ∧ key.component.set s x = s') ∧ rest = rest' := by
  cases key with
  | docPatterns | excludePatterns | codeExtensions | tags =>
    exact store_eq_ok_iff (fun _ _ => readTexts_eq_ok_iff hd h) fun _ _ => rfl
  | uploadConcurrency | timeoutSecs =>
    exact store_eq_ok_iff (fun _ _ => readCount_eq_ok_iff hd h) fun _ _ => rfl
  | knowledgeType =>
    exact store_eq_ok_iff (fun _ _ => readText_eq_ok_iff hd h) fun _ _ => rfl

/-- The keys of the entries are scalars with these names. -/
def Named (es : List (Tree × Tree)) (named : List (String × Tree)) : Prop :=
  List.Forall₂ (fun e n => e.1.IsText n.1 ∧ e.2 = n.2) es named

/-- An entry for a key is put into its component, and no other may be for the same key. -/
theorem given_cons_key {key : Key} {named : List (String × Tree)} :
    Given components ((key.name, t) :: named) s s' ↔ ∃ x, key.component.reads t x ∧
      Never named key.name ∧ Given components named (key.component.set s x) s' := by
  rw [← key.component_name]
  exact given_cons_put components_components key.component_mem

/-- One entry: its key is known and has not been set, and is set to the value. -/
theorem readEntries_succ_eq_ok_iff (hd : d.Resolved) {k : Tree} {name : String}
    (hname : k.IsText name) {behind middle : List Part} (hkey : d.Holds k parts behind)
    (h : d.Holds t behind middle) {steps : Nat} {seen : List Key} :
    readEntries d (steps + 1) seen s parts = .ok s' ↔
      ∃ key : Key, key.name = name ∧ key ∉ seen ∧ ∃ x, key.component.reads t x ∧
        readEntries d steps (key :: seen) (key.component.set s x) middle = .ok s' := by
  -- the key is one scalar or an alias for one, and no end of the mapping
  obtain ⟨p, ps, rfl, -, hend⟩ := hkey.exists_cons
  have hread : readText d .top "field identifier" (p :: ps) = .ok (name, behind) :=
    (readText_eq_ok_iff hd hkey).mpr ⟨hname, rfl⟩
  rw [readEntries]
  swap
  · exact hend
  rw [bind_eq_ok_iff]
  simp only [hread, Except.ok.injEq, exists_eq_left']
  cases hfind : Key.ofName? name with
  | none =>
    rw [Key.ofName?_eq_none_iff] at hfind
    refine iff_of_false throw_ne_ok ?_
    rintro ⟨key, hkey, -⟩
    exact hfind key hkey
  | some key =>
    obtain rfl := Key.ofName?_eq_some_iff.mp hfind
    dsimp only
    simp only [Key.name_injective.eq_iff, exists_eq_left]
    split_ifs with hseen
    · rw [List.contains_iff_mem] at hseen
      exact iff_of_false throw_bind_ne_ok fun hnew => hnew.1 hseen
    · rw [List.contains_iff_mem] at hseen
      rw [and_iff_right hseen]
      simp only [bind_eq_ok_iff, Prod.exists, readValue_eq_ok_iff hd h]
      constructor
      · rintro ⟨_, _, ⟨⟨x, hx, rfl⟩, rfl⟩, hentries⟩
        exact ⟨x, hx, hentries⟩
      · rintro ⟨x, hx, hentries⟩
        exact ⟨_, _, ⟨⟨x, hx, rfl⟩, rfl⟩, hentries⟩

/-- What the entries make of settings. `seen` are the keys that have been set. -/
theorem readEntries_eq_ok_iff (hd : d.Resolved) {es : List (Tree × Tree)}
    {named : List (String × Tree)} (hnamed : Named es named) (h : d.HoldsEntries es parts rest)
    {steps : Nat} (hsteps : es.length ≤ steps) {seen : List Key} :
    readEntries d steps seen s parts = .ok s' ↔
      (∀ n ∈ named, ∃ key : Key, key.name = n.1) ∧ Given components named s s' ∧
        ∀ key ∈ seen, Never named key.name := by
  -- along the entries; what has been seen grows by the key of each
  induction hnamed generalizing parts steps seen s with
  | nil =>
    cases h
    have hread : readEntries d steps seen s (.mappingEnd :: rest) = .ok s := by
      cases steps <;> rfl
    rw [hread, Except.ok.injEq, given_nil components_components,
      and_iff_right (List.forall_mem_nil _)]
    exact (and_iff_left fun _ _ => List.not_mem_nil).symm
  | @cons e n es named he hnamed ih =>
    obtain ⟨name, value⟩ := n
    obtain ⟨hname, hvalue⟩ := he
    cases h with
    | @cons _ t _ _ _ _ _ hkey h hes =>
      obtain rfl : t = value := hvalue
      obtain ⟨steps, rfl⟩ : ∃ n, steps = n + 1 :=
        Nat.exists_eq_add_one.mpr (Nat.lt_of_lt_of_le (Nat.succ_pos _) hsteps)
      have hsteps : es.length ≤ steps := Nat.le_of_succ_le_succ hsteps
      rw [readEntries_succ_eq_ok_iff hd hname hkey h, List.forall_mem_cons]
      constructor
      · rintro ⟨key, rfl, hseen, x, hx, hentries⟩
        obtain ⟨hnames, hgiven, hnew⟩ := (ih hes hsteps).mp hentries
        obtain ⟨hnever, hnew⟩ := List.forall_mem_cons.mp hnew
        refine ⟨⟨⟨key, rfl⟩, hnames⟩, given_cons_key.mpr ⟨x, hx, hnever, hgiven⟩, ?_⟩
        intro other hother
        refine never_cons.mpr ⟨fun heq => hseen ?_, hnew other hother⟩
        rwa [← Key.name_injective heq]
      · rintro ⟨⟨⟨key, rfl⟩, hnames⟩, hgiven, hnew⟩
        obtain ⟨x, hx, hnever, hgiven⟩ := given_cons_key.mp hgiven
        refine ⟨key, rfl, fun hseen => (never_cons.mp (hnew key hseen)).1 rfl, x, hx, ?_⟩
        refine (ih hes hsteps).mpr ⟨hnames, hgiven, List.forall_mem_cons.mpr ⟨hnever, ?_⟩⟩
        exact fun other hother => (never_cons.mp (hnew other hother)).2

/-! ### Documents -/

/-- The text is a mapping whose keys are these names. -/
def SpelledBy (named : List (String × Tree)) (text : String) : Prop :=
  ∃ es, Named es named ∧ (Tree.mapping es).SpelledBy text

/-- What settings a text spells. -/
theorem ofYaml_eq_ok_iff {named : List (String × Tree)} {text : String}
    (h : SpelledBy named text) :
    ofYaml text = .ok s ↔ (∀ n ∈ named, ∃ key : Key, key.name = n.1) ∧
      Given components named {} s := by
  obtain ⟨es, hnamed, d, hd, hwhole, hholds⟩ := h
  have hresolved : d.Resolved := Document.resolved_firstDocument hd
  obtain ⟨p, ps, hparts, -⟩ := hholds.exists_cons
  have hp : ¬ p.IsAlias := hresolved.head p (by rw [hparts]; rfl)
  rw [hparts] at hholds
  cases hholds with
  | reference => exact absurd trivial hp
  | mapping hes =>
    have hsteps : es.length ≤ ps.length := Nat.le_of_lt hes.length_entries_lt
    have hread : ofYaml text = readEntries d ps.length [] {} ps := by
      rw [ofYaml, hd]
      dsimp only
      rw [ofDocument, hparts, hwhole]
      dsimp only
      cases readEntries d ps.length [] {} ps <;> rfl
    rw [hread, readEntries_eq_ok_iff hresolved hnamed hes hsteps]
    exact and_congr_right' (and_iff_left (List.forall_mem_nil _))

end Settings

end KnowledgeImport
