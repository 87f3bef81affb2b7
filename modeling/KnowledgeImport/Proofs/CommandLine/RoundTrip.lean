import KnowledgeImport.Proofs.CommandLine.CodeFlags
import Mathlib.Data.List.Perm.Subperm
import Mathlib.Logic.Function.Basic

/-!
# Invocations as command lines

Any values of parameters are written as a command line with one argument for each
(`Parameter.arguments`), an invocation by those of its fields that are set.  In whatever order the
arguments stand, they spell each parameter once, so all of them count
(`Parameter.Values.ofArguments_eq`).  Hence what an invocation is written as stands for that
invocation, and without its URL for the invocation with the URL of the environment or the default
(`Invocation.ofArguments_arguments`).
-/

namespace KnowledgeImport

namespace Parameter

/-- The argument that gives a parameter its value; a switch is given by its name. -/
def argument (o : Occurrence) : String :=
  if o.1.takesValue then o.1.option ++ "=" ++ o.2 else o.1.option

/-- The parameters that have a value, in the order of the help. -/
def occurrences (values : Parameter → Option String) : List Occurrence :=
  all.filterMap fun p => (values p).map (p, ·)

/-- The command line that gives the parameters their values. -/
def arguments (values : Parameter → Option String) : List String :=
  (occurrences values).map argument

/-- The values can be given on one command line. -/
structure Values (values : Parameter → Option String) : Prop where
  switch : ∀ p v, values p = some v → p.takesValue = false → p.IsSwitch ∧ v = "true"
  oneFlag : values .includeCodeExamples = none ∨ values .noCodeExamples = none
  noEmptyPath : ∀ p, p.isPath = true → values p ≠ some ""

theorem mem_all (p : Parameter) : p ∈ all := by
  cases p <;> decide

theorem mem_occurrences_iff {values : Parameter → Option String} {p : Parameter} {v : String} :
    (p, v) ∈ occurrences values ↔ values p = some v := by
  simp [occurrences, mem_all]

theorem nodup_occurrences (values : Parameter → Option String) :
    ((occurrences values).map (·.1)).Nodup := by
  rw [occurrences, List.map_filterMap]
  refine List.Nodup.filterMap (fun p q r hp hq => ?_) (by decide)
  have heq {p : Parameter} (h : r ∈ ((values p).map (p, ·)).map (·.1)) : p = r := by
    simp only [Option.map_map, Option.mem_def, Option.map_eq_some_iff, Function.comp] at h
    obtain ⟨_, -, rfl⟩ := h
    rfl
  rw [heq hp, heq hq]

end Parameter

/-! ### Parameters given in any order -/

/-- The parameters are given the values, each once and in any order. -/
structure Gives (os : List Occurrence) (values : Parameter → Option String) : Prop where
  once : (os.map (·.1)).Nodup
  mem_iff : ∀ p v, (p, v) ∈ os ↔ values p = some v

variable {values : Parameter → Option String} {os : List Occurrence} {as : Assignment}
  {p : Parameter}

theorem gives_of_perm (h : os.Perm (Parameter.occurrences values)) : Gives os values where
  once := (h.map _).nodup_iff.mpr (Parameter.nodup_occurrences values)
  mem_iff _ _ := h.mem_iff.trans Parameter.mem_occurrences_iff

namespace Gives

theorem mem_map_iff (h : Gives os values) : p ∈ os.map (·.1) ↔ (values p).isSome := by
  simp [h.mem_iff, Option.isSome_iff_exists]

/-- Of the two flags for code examples one is given at most. -/
theorem length_codeFlags_le (h : Gives os values)
    (hone : values .includeCodeExamples = none ∨ values .noCodeExamples = none) :
    (codeFlags os).length ≤ 1 := by
  have hnodup : (codeFlags os).Nodup := h.once.filter _
  have hmem (p : Parameter) (hp : p ∈ codeFlags os) : (values p).isSome ∧ p.IsCodeFlag := by
    rw [codeFlags, List.mem_filter, h.mem_map_iff, decide_eq_true_iff] at hp
    exact hp
  obtain hnone | hnone := hone
  · refine (@List.Nodup.subperm _ _ [.noCodeExamples] hnodup fun p hp => ?_).length_le
    obtain ⟨hsome, rfl | rfl⟩ := hmem p hp
    · simp [hnone] at hsome
    · exact List.mem_singleton_self _
  · refine (@List.Nodup.subperm _ _ [.includeCodeExamples] hnodup fun p hp => ?_).length_le
    obtain ⟨hsome, rfl | rfl⟩ := hmem p hp
    · exact List.mem_singleton_self _
    · simp [hnone] at hsome

/-- A parameter counts if it has a value. -/
theorem has_eq (h : Gives os values) (hvalues : Parameter.Values values) (hcounts : as.Counts os) :
    as.has p = (values p).isSome := by
  rw [Bool.eq_iff_iff, ← h.mem_map_iff]
  by_cases hp : p.IsCodeFlag
  · have hmem : p ∈ codeFlags os ↔ p ∈ os.map (·.1) := by
      rw [codeFlags, List.mem_filter, decide_eq_true_iff, and_iff_left hp]
    have hlength := h.length_codeFlags_le hvalues.oneFlag
    rw [hcounts.has_codeFlag_iff hp, ← hmem]
    cases hflags : codeFlags os with
    | nil => simp
    | cons q qs =>
      rw [hflags, List.length_cons] at hlength
      obtain rfl : qs = [] := List.eq_nil_of_length_eq_zero (by omega)
      simp [eq_comm]
  · rw [hcounts.has_other_iff hp]

theorem value?_eq (h : Gives os values) (hcounts : as.Counts os) (hp : ¬ p.IsCodeFlag) :
    as.value? p = values p := by
  rw [Assignment.value?]
  cases hfind : as.find? (·.1 = p) with
  | none =>
    rw [List.find?_eq_none] at hfind
    rw [Option.map_none, eq_comm, Option.eq_none_iff_forall_ne_some]
    intro v hv
    have hmem := (hcounts.mem_iff hp).mpr ((h.mem_iff p v).mpr hv)
    simpa using hfind _ hmem
  | some o =>
    have hname : o.1 = p := by simpa using List.find?_some hfind
    subst hname
    exact ((h.mem_iff _ _).mp ((hcounts.mem_iff hp).mp (List.mem_of_find?_eq_some hfind))).symm

theorem clean (h : Gives os values) (hvalues : Parameter.Values values) : Assignment.Clean os where
  once := h.once.sublist (List.filter_sublist.map _)
  noEmptyPath o ho hempty :=
    hvalues.noEmptyPath o.1 hempty.1 (((h.mem_iff o.1 o.2).mp ho).trans (by rw [hempty.2]))

/-- All the parameters can be given. -/
theorem exists_giveAll (h : Gives os values) (hvalues : Parameter.Values values) :
    ∃ as, Assignment.giveAll [] os = .ok as := by
  refine Assignment.exists_giveAll_iff.mpr ⟨h.clean hvalues, ?_⟩
  match codeFlags os, h.length_codeFlags_le hvalues.oneFlag with
  | [], _ => exact .nil
  | [p], _ => exact .singleton p

theorem spelled (h : Gives os values) (hvalues : Parameter.Values values) :
    Spelled (os.map Parameter.argument) os := by
  have hswitch (o : Occurrence) (ho : o ∈ os) : o.1.takesValue = false →
      o.1.IsSwitch ∧ o.2 = "true" := hvalues.switch o.1 o.2 ((h.mem_iff _ _).mp ho)
  clear h
  induction os with
  | nil => exact .nil
  | cons o os ih =>
    obtain ⟨p, v⟩ := o
    obtain ⟨ho, hos⟩ := List.forall_mem_cons.mp hswitch
    rw [List.map_cons, Parameter.argument]
    split_ifs with hp
    · exact .joined hp (ih hos)
    · obtain ⟨hp, rfl⟩ := ho (Bool.eq_false_iff.mpr hp)
      exact .switch hp (ih hos)

end Gives

/-- What a command line that gives each parameter its value stands for, whatever the order of its
arguments is. -/
theorem Parameter.Values.ofArguments_eq (hvalues : Parameter.Values values) {projectId : String}
    (hproject : values .projectId = some projectId) (environmentUrl : Option String)
    {args : List String} (h : args.Perm (Parameter.arguments values)) :
    Invocation.ofArguments environmentUrl args = .ok {
      projectId
      backendUrl := ((values .backendUrl).or environmentUrl).getD defaultBackendUrl
      includeCodeExamples := (values .includeCodeExamples).isSome
      noCodeExamples := (values .noCodeExamples).isSome
      dryRun := (values .dryRun).isSome
      path := values .path
      config := values .config
      json := (values .json).isSome } := by
  obtain ⟨os, rfl, hos⟩ : ∃ os : List Occurrence,
      args = os.map Parameter.argument ∧ os.Perm (Parameter.occurrences values) :=
    (congrFun₂ (List.eq_map_comp_perm Parameter.argument) _ _).mpr h
  have hgives := gives_of_perm hos
  obtain ⟨as, has⟩ := hgives.exists_giveAll hvalues
  have hcounts := Assignment.counts_of_giveAll has
  refine Invocation.ofArguments_eq_ok_iff.mpr ⟨as, ⟨os, hgives.spelled hvalues, has⟩, ?_⟩
  refine Invocation.ofAssignment_eq_ok_iff.mpr ⟨projectId, ?_, ?_⟩
  · rw [hgives.value?_eq hcounts (by decide), hproject]
  · simp only [hgives.has_eq hvalues hcounts]
    rw [hgives.value?_eq hcounts (by decide), hgives.value?_eq hcounts (by decide),
      hgives.value?_eq hcounts (by decide)]

/-- A parameter can be left out. -/
theorem Parameter.Values.update_none (h : Parameter.Values values) (p : Parameter) :
    Parameter.Values (Function.update values p none) := by
  have hle (q : Parameter) (v : String) (hv : Function.update values p none q = some v) :
      values q = some v := by
    rw [Function.update_apply] at hv
    split_ifs at hv
    exact hv
  have hnone (q : Parameter) (hq : values q = none) : Function.update values p none q = none := by
    rw [Function.update_apply, hq, ite_self]
  exact
    { switch := fun q v hv => h.switch q v (hle q v hv)
      oneFlag := h.oneFlag.imp (hnone _) (hnone _)
      noEmptyPath := fun q hq hempty => h.noEmptyPath q hq (hle q "" hempty) }

/-! ### Invocations -/

namespace Invocation

/-- The value of a parameter in an invocation; a switch that is on has the value `true`. -/
def value? (i : Invocation) : Parameter → Option String
  | .projectId => some i.projectId
  | .backendUrl => some i.backendUrl
  | .includeCodeExamples => if i.includeCodeExamples then some "true" else none
  | .noCodeExamples => if i.noCodeExamples then some "true" else none
  | .dryRun => if i.dryRun then some "true" else none
  | .path => i.path
  | .config => i.config
  | .json => if i.json then some "true" else none
  | .help | .version => none

theorem values_value? {i : Invocation}
    (hflags : ¬ (i.includeCodeExamples = true ∧ i.noCodeExamples = true))
    (hpath : i.path ≠ some "") (hconfig : i.config ≠ some "") : Parameter.Values i.value? where
  switch p v hv hp := by
    cases p with
    | projectId | backendUrl | path | config => cases hp
    | help | version => cases hv
    | includeCodeExamples | noCodeExamples | dryRun | json =>
      obtain ⟨-, rfl⟩ : _ ∧ "true" = v := by simpa [value?] using hv
      exact ⟨trivial, rfl⟩
  oneFlag := by
    by_cases hinclude : i.includeCodeExamples = true
    · have hno : ¬ i.noCodeExamples = true := fun hno => hflags ⟨hinclude, hno⟩
      exact .inr (if_neg hno)
    · exact .inl (if_neg hinclude)
  noEmptyPath p hp := by
    cases p with
    | path => exact hpath
    | config => exact hconfig
    | _ => cases hp

/-- An invocation, written with one argument for each field that is set, is read back in whatever
order the arguments stand and whatever URL the environment has. Without the argument for the URL it
is read with the URL of the environment, or with the default if the environment has none. -/
theorem ofArguments_arguments (i : Invocation)
    (hflags : ¬ (i.includeCodeExamples = true ∧ i.noCodeExamples = true))
    (hpath : i.path ≠ some "") (hconfig : i.config ≠ some "") (environmentUrl : Option String) :
    (∀ args : List String, args.Perm (Parameter.arguments i.value?) →
      ofArguments environmentUrl args = .ok i) ∧
    ∀ args : List String,
      args.Perm (Parameter.arguments (Function.update i.value? .backendUrl none)) →
      ofArguments environmentUrl args
        = .ok { i with backendUrl := environmentUrl.getD defaultBackendUrl } := by
  have hvalues := values_value? hflags hpath hconfig
  have hisSome (b : Bool) : (if b then some "true" else none).isSome = b := by cases b <;> rfl
  refine ⟨fun args hargs => ?_, fun args hargs => ?_⟩
  · rw [hvalues.ofArguments_eq rfl environmentUrl hargs]
    simp only [value?, hisSome, Option.some_or, Option.getD_some]
  · rw [(hvalues.update_none .backendUrl).ofArguments_eq rfl environmentUrl hargs]
    simp [value?, hisSome]

/-- Values that are empty, or look like options, or hold an equals sign. -/
def awkward : Invocation where
  projectId := ""
  backendUrl := "--json"
  includeCodeExamples := true
  path := some "-x"
  config := some "a=b c"
  json := true

theorem ofArguments_arguments_awkward :
    ofArguments (some "http://elsewhere") ["--json", "--config=a=b c", "--archon-url=--json",
      "--path=-x", "--include-code-examples", "--project-id="] = .ok awkward ∧
    ofArguments none ["--path=-x", "--include-code-examples", "--project-id=", "--json",
      "--config=a=b c"] = .ok { awkward with backendUrl := defaultBackendUrl } := by
  have hboth := ofArguments_arguments awkward (by decide) (by decide) (by decide)
  exact ⟨(hboth _).1 _ (by decide), (hboth none).2 _ (by decide)⟩

end Invocation

end KnowledgeImport
