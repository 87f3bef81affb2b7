import KnowledgeImport.Proofs.CommandLine.Occurrences
import Mathlib.Data.List.Chain
import Mathlib.Data.List.Nodup
import Mathlib.Tactic.MkIffOfInductiveProp
import Mathlib.Tactic.Tauto

/-!
# The flags for code examples

Two parameters take each other back, so of these only the last one counts; all others count once
they are given (`Assignment.Counts`).  Giving parameters from left to right succeeds if no path is
empty, none but the two flags is given twice, and of these two neither is given twice in a row
(`Assignment.exists_giveAll_iff`).  So a command line switches code examples off exactly if the
last flag for them says so (`Invocation.codeExamples_lastFlag`).
-/

namespace KnowledgeImport

namespace Parameter

/-- The parameter is one of the two flags for code examples. -/
def IsCodeFlag (p : Parameter) : Prop := p = .includeCodeExamples ∨ p = .noCodeExamples

instance : DecidablePred IsCodeFlag := fun p => inferInstanceAs (Decidable (p = _ ∨ p = _))

theorem opposite?_eq_none_iff {p : Parameter} : p.opposite? = none ↔ ¬ p.IsCodeFlag := by
  cases p <;> simp [opposite?, IsCodeFlag]

/-- What a flag takes back is the other flag. -/
theorem IsCodeFlag.exists_opposite {p : Parameter} (h : p.IsCodeFlag) :
    ∃ q, p.opposite? = some q ∧ q.IsCodeFlag ∧ ∀ r, r.IsCodeFlag → r ≠ p → r = q := by
  obtain rfl | rfl := h
  · exact ⟨_, rfl, .inr rfl, fun r hr hne => hr.resolve_left hne⟩
  · exact ⟨_, rfl, .inl rfl, fun r hr hne => hr.resolve_right hne⟩

end Parameter

/-- The flags for code examples in the order in which they are given. -/
def codeFlags (os : List Occurrence) : List Parameter := (os.map (·.1)).filter (·.IsCodeFlag)

/-- The other parameters, with their values, in the order in which they are given. -/
def otherParameters (os : List Occurrence) : List Occurrence := os.filter (¬ ·.1.IsCodeFlag)

theorem codeFlags_append (os os' : List Occurrence) :
    codeFlags (os ++ os') = codeFlags os ++ codeFlags os' := by
  rw [codeFlags, List.map_append, List.filter_append]
  rfl

theorem otherParameters_append (os os' : List Occurrence) :
    otherParameters (os ++ os') = otherParameters os ++ otherParameters os' :=
  List.filter_append ..

/-! ### Giving parameters -/

namespace Assignment

variable {as as' : Assignment} {os : List Occurrence} {p : Parameter} {value : String}

/-- What counts after the parameters were given: of the flags for code examples the last one, and
all others. -/
structure Counts (as : Assignment) (os : List Occurrence) : Prop where
  others : otherParameters as = otherParameters os
  flag : codeFlags as = (codeFlags os).getLast?.toList

theorem has_iff : as.has p = true ↔ p ∈ as.map (·.1) := by
  simp [has]

theorem isSome_value? : (as.value? p).isSome = as.has p := by
  rw [value?, Option.isSome_map, List.isSome_find?]
  rfl

/-- After the others the parameter does not count: it is not the last flag for code examples, or it
is none of these flags and was not given at all. -/
def Fresh (os : List Occurrence) (p : Parameter) : Prop :=
  if p.IsCodeFlag then (codeFlags os).getLast? ≠ some p else p ∉ os.map (·.1)

theorem Counts.mem_iff (h : as.Counts os) (hp : ¬ p.IsCodeFlag) :
    (p, value) ∈ as ↔ (p, value) ∈ os := by
  have hmem := congrArg ((p, value) ∈ ·) h.others
  simpa [otherParameters, hp] using hmem

theorem Counts.has_codeFlag_iff (h : as.Counts os) (hp : p.IsCodeFlag) :
    as.has p = true ↔ (codeFlags os).getLast? = some p := by
  rw [has_iff, ← Option.mem_toList, ← h.flag, codeFlags, List.mem_filter, decide_eq_true_iff,
    and_iff_left hp]

theorem Counts.has_other_iff (h : as.Counts os) (hp : ¬ p.IsCodeFlag) :
    as.has p = true ↔ p ∈ os.map (·.1) := by
  simp only [has_iff, List.mem_map, Prod.exists, exists_and_right, exists_eq_right, h.mem_iff hp]

theorem Counts.fresh_iff (h : as.Counts os) : Fresh os p ↔ ¬ as.has p = true := by
  rw [Fresh]
  split_ifs with hp
  · rw [h.has_codeFlag_iff hp]
  · rw [h.has_other_iff hp]

/-- A parameter can be given if it does not count yet and a path is not empty. -/
theorem give_eq_ok_iff : as.give p (some value) = .ok as' ↔
    ¬ as.has p = true ∧ ¬ (p.isPath = true ∧ value = "") ∧
      as.withoutOpposite p ++ [(p, value)] = as' := by
  rw [give, fault?, add]
  split_ifs with hhas hempty
  · simp [hhas]
  · have hempty' : p.isPath = true ∧ value = "" := by simpa using hempty
    simp [hempty']
  · have hempty' : ¬ (p.isPath = true ∧ value = "") := by simpa using hempty
    simp [hhas, hempty']

/-- Whatever is given, all parameters but the flags stay. -/
theorem otherParameters_withoutOpposite :
    otherParameters (as.withoutOpposite p) = otherParameters as := by
  rw [withoutOpposite]
  by_cases hp : p.IsCodeFlag
  · obtain ⟨q, hq, hflag, -⟩ := hp.exists_opposite
    rw [hq, Option.elim_some, without, otherParameters, otherParameters, List.filter_filter]
    refine List.filter_congr fun o _ => ?_
    rw [← Bool.decide_and, decide_eq_decide, and_iff_left_iff_imp]
    rintro ho rfl
    exact ho hflag
  · rw [Parameter.opposite?_eq_none_iff.mpr hp, Option.elim_none]

/-- A flag takes back the other one; so if it did not count itself, no flag is left. -/
theorem codeFlags_withoutOpposite (hp : p.IsCodeFlag) (hhas : ¬ as.has p = true) :
    codeFlags (as.withoutOpposite p) = [] := by
  obtain ⟨q, hq, -, hother⟩ := hp.exists_opposite
  rw [withoutOpposite, hq, Option.elim_some, without, codeFlags, List.filter_eq_nil_iff]
  rintro r hr
  obtain ⟨o, ho, rfl⟩ := List.mem_map.mp hr
  rw [List.mem_filter, decide_eq_true_iff] at ho
  rw [decide_eq_true_iff]
  intro hflag
  refine ho.2 (hother o.1 hflag ?_)
  rintro rfl
  exact hhas (Assignment.has_iff.mpr (List.mem_map_of_mem ho.1))

theorem Counts.give (h : as.Counts os) (hgiven : as.give p (some value) = .ok as') :
    as'.Counts (os ++ [(p, value)]) := by
  obtain ⟨hhas, -, rfl⟩ := give_eq_ok_iff.mp hgiven
  refine ⟨?_, ?_⟩
  · rw [otherParameters_append, otherParameters_append, otherParameters_withoutOpposite, h.others]
  · rw [codeFlags_append, codeFlags_append]
    by_cases hp : p.IsCodeFlag
    · have hsingle : codeFlags [(p, value)] = [p] := by simp [codeFlags, hp]
      rw [codeFlags_withoutOpposite hp hhas, hsingle, List.getLast?_concat]
      rfl
    · have hnone : codeFlags [(p, value)] = [] := by simp [codeFlags, hp]
      rw [hnone, List.append_nil, List.append_nil, ← h.flag, withoutOpposite,
        Parameter.opposite?_eq_none_iff.mpr hp, Option.elim_none]

theorem giveAll_concat {o : Occurrence} : giveAll [] (os ++ [o]) = .ok as' ↔
    ∃ as, giveAll [] os = .ok as ∧ as.give o.1 (some o.2) = .ok as' := by
  rw [giveAll, List.foldlM_append, bind_eq_ok_iff]
  simp [giveAll]

theorem counts_of_giveAll (h : giveAll [] os = .ok as) : as.Counts os := by
  induction os using List.reverseRecOn generalizing as with
  | nil =>
    obtain rfl : [] = as := pure_eq_ok_iff.mp h
    exact ⟨rfl, rfl⟩
  | append_singleton os o ih =>
    obtain ⟨before, hbefore, hgiven⟩ := giveAll_concat.mp h
    exact (ih hbefore).give hgiven

/-- Apart from the flags for code examples nothing is wrong with the parameters. -/
@[mk_iff]
structure Clean (os : List Occurrence) : Prop where
  once : ((otherParameters os).map (·.1)).Nodup
  noEmptyPath : ∀ o ∈ os, ¬ (o.1.isPath = true ∧ o.2 = "")

theorem nodup_concat_iff {o : Occurrence} (ho : ¬ o.1.IsCodeFlag) :
    ((otherParameters (os ++ [o])).map (·.1)).Nodup ↔
      ((otherParameters os).map (·.1)).Nodup ∧ o.1 ∉ os.map (·.1) := by
  have hmem : o.1 ∈ (otherParameters os).map (·.1) ↔ o.1 ∈ os.map (·.1) := by
    simp [otherParameters, ho]
  have hsingle : otherParameters [o] = [o] := by simp [otherParameters, ho]
  rw [otherParameters_append, hsingle, List.map_append, List.map_singleton,
    ← List.concat_eq_append, List.nodup_concat, hmem, and_comm]

theorem isChain_concat_iff {p : Parameter} {ps : List Parameter} :
    (ps ++ [p]).IsChain (· ≠ ·) ↔ ps.IsChain (· ≠ ·) ∧ ps.getLast? ≠ some p := by
  rw [List.isChain_append]
  cases ps.getLast? with
  | none => simp
  | some q => simp

/-- What one more parameter changes. -/
theorem clean_concat_iff {o : Occurrence} :
    Clean (os ++ [o]) ∧ (codeFlags (os ++ [o])).IsChain (· ≠ ·) ↔
      (Clean os ∧ (codeFlags os).IsChain (· ≠ ·)) ∧ Fresh os o.1 ∧
        ¬ (o.1.isPath = true ∧ o.2 = "") := by
  rw [clean_iff, clean_iff, List.forall_mem_append, List.forall_mem_singleton, Fresh]
  split_ifs with ho
  · have hflag : codeFlags [o] = [o.1] := by simp [codeFlags, ho]
    have hnone : otherParameters [o] = [] := by simp [otherParameters, ho]
    rw [codeFlags_append, hflag, isChain_concat_iff, otherParameters_append, hnone, List.append_nil]
    tauto
  · have hnone : codeFlags [o] = [] := by simp [codeFlags, ho]
    rw [codeFlags_append, hnone, List.append_nil, nodup_concat_iff ho]
    tauto

/-- All parameters can be given from left to right if nothing is wrong with them, and no flag for
code examples is given twice in a row. -/
theorem exists_giveAll_iff :
    (∃ as, giveAll [] os = .ok as) ↔ Clean os ∧ (codeFlags os).IsChain (· ≠ ·) := by
  induction os using List.reverseRecOn with
  | nil => exact iff_of_true ⟨[], rfl⟩ ⟨⟨List.nodup_nil, List.forall_mem_nil _⟩, List.IsChain.nil⟩
  | append_singleton os o ih =>
    rw [clean_concat_iff, ← ih]
    constructor
    · rintro ⟨as', hall⟩
      obtain ⟨as, hbefore, hgiven⟩ := giveAll_concat.mp hall
      obtain ⟨hhas, hpath, -⟩ := give_eq_ok_iff.mp hgiven
      exact ⟨⟨as, hbefore⟩, (counts_of_giveAll hbefore).fresh_iff.mpr hhas, hpath⟩
    · rintro ⟨⟨as, hbefore⟩, hfresh, hpath⟩
      have hhas := (counts_of_giveAll hbefore).fresh_iff.mp hfresh
      exact ⟨_, giveAll_concat.mpr ⟨as, hbefore, give_eq_ok_iff.mpr ⟨hhas, hpath, rfl⟩⟩⟩

end Assignment

/-! ### Invocations -/

/-- The flag for code examples that the argument is. -/
def codeFlag? (a : String) : Option Parameter :=
  if a = "--include-code-examples" then some .includeCodeExamples
  else if a = "--no-code-examples" then some .noCodeExamples
  else none

theorem codeFlag?_option (p : Parameter) :
    codeFlag? p.option = if p.IsCodeFlag then some p else none := by
  cases p <;> rfl

theorem codeFlag?_eq_none {a : String} (h : ∀ p : Parameter, a ≠ p.option) :
    codeFlag? a = none := by
  have hinclude : a ≠ "--include-code-examples" := h .includeCodeExamples
  have hno : a ≠ "--no-code-examples" := h .noCodeExamples
  rw [codeFlag?, if_neg hinclude, if_neg hno]

theorem codeFlag?_option_value (p : Parameter) (value : String) :
    codeFlag? (p.option ++ "=" ++ value) = none := by
  refine codeFlag?_eq_none fun q heq => ?_
  have hshape := congrArg Argument.ofString heq
  rw [Argument.ofString_option_value, Argument.ofString_option] at hshape
  cases (Argument.option.inj hshape).2

theorem codeFlag?_word {a : String} (h : Argument.IsWord a) : codeFlag? a = none := by
  refine codeFlag?_eq_none fun q heq => ?_
  have hshape := congrArg Argument.ofString heq
  rw [Argument.ofString_eq_word_iff.mpr h, Argument.ofString_option] at hshape
  cases hshape

theorem Parameter.not_isCodeFlag_of_takesValue {p : Parameter} (h : p.takesValue = true) :
    ¬ p.IsCodeFlag := by
  rintro (rfl | rfl) <;> cases h

/-- The flags that are spelled are those arguments that are flags; no value is one of them. -/
theorem Spelled.codeFlags_eq {as : List String} {os : List Occurrence} (h : Spelled as os) :
    codeFlags os = as.filterMap codeFlag? := by
  have hcons (o : Occurrence) (os : List Occurrence) :
      codeFlags (o :: os) = if o.1.IsCodeFlag then o.1 :: codeFlags os else codeFlags os := by
    simp [codeFlags, List.filter_cons]
  induction h with
  | nil | divider => rfl
  | @switch p as os hp h ih =>
    rw [hcons, List.filterMap_cons, codeFlag?_option, ← ih]
    split_ifs <;> rfl
  | @joined p value as os hp h ih =>
    rw [hcons, if_neg (Parameter.not_isCodeFlag_of_takesValue hp), List.filterMap_cons,
      codeFlag?_option_value, ih]
  | @apart p value as os hp hvalue h ih =>
    have hflag := Parameter.not_isCodeFlag_of_takesValue hp
    rw [hcons, if_neg hflag, List.filterMap_cons, codeFlag?_option, if_neg hflag,
      List.filterMap_cons, codeFlag?_word hvalue, ih]

namespace Invocation

variable {environmentUrl : Option String} {arguments : List String} {i : Invocation}
  {as : Assignment} {os : List Occurrence}

/-- Apart from the flags for code examples the parameters make an invocation. -/
structure OtherwiseValid (os : List Occurrence) : Prop extends Assignment.Clean os where
  project : .projectId ∈ os.map (·.1)

theorem ofArguments_eq_ok_iff : ofArguments environmentUrl arguments = .ok i ↔
    ∃ as, (∃ os, Spelled arguments os ∧ Assignment.giveAll [] os = .ok as) ∧
      ofAssignment environmentUrl as = .ok i := by
  rw [ofArguments, bind_eq_ok_iff]
  simp only [Assignment.ofArguments_eq_ok_iff]

/-- What an assignment that has a project stands for. -/
theorem ofAssignment_eq_ok_iff : ofAssignment environmentUrl as = .ok i ↔
    ∃ projectId, as.value? .projectId = some projectId ∧ {
      projectId
      backendUrl := ((as.value? .backendUrl).or environmentUrl).getD defaultBackendUrl
      includeCodeExamples := as.has .includeCodeExamples
      noCodeExamples := as.has .noCodeExamples
      dryRun := as.has .dryRun
      path := as.value? .path
      config := as.value? .config
      json := as.has .json } = i := by
  rw [ofAssignment]
  cases as.value? .projectId with
  | none => simp
  | some projectId => simp only [Except.ok.injEq, Option.some.injEq, exists_eq_left']

theorem exists_ofAssignment_iff :
    (∃ i, ofAssignment environmentUrl as = .ok i) ↔ as.has .projectId = true := by
  rw [← Assignment.isSome_value?, Option.isSome_iff_exists]
  constructor
  · rintro ⟨i, hi⟩
    obtain ⟨projectId, hproject, -⟩ := ofAssignment_eq_ok_iff.mp hi
    exact ⟨projectId, hproject⟩
  · rintro ⟨projectId, hproject⟩
    exact ⟨_, ofAssignment_eq_ok_iff.mpr ⟨projectId, hproject, rfl⟩⟩

/-- Code examples are off exactly if a flag for them was given and the last one switches them off;
never are both flags set. A command line on which nothing else is wrong is an invocation exactly if
none of the flags is given twice in a row. The flags that are given are those arguments that are
flags; no value is taken for one. -/
theorem codeExamples_lastFlag (environmentUrl : Option String) (arguments : List String) :
    (∀ i, ofArguments environmentUrl arguments = .ok i → ∃ os, Spelled arguments os ∧
      (i.codeExamplesEnabled = false ↔ (codeFlags os).getLast? = some .noCodeExamples) ∧
      ¬ (i.includeCodeExamples = true ∧ i.noCodeExamples = true)) ∧
    ∀ os, Spelled arguments os → codeFlags os = arguments.filterMap codeFlag? ∧
      (OtherwiseValid os → ((∃ i, ofArguments environmentUrl arguments = .ok i) ↔
        (codeFlags os).IsChain (· ≠ ·))) := by
  refine ⟨fun i hi => ?_, fun os hos => ⟨hos.codeFlags_eq, fun hvalid => ?_⟩⟩
  · obtain ⟨as, ⟨os, hos, has⟩, hi⟩ := ofArguments_eq_ok_iff.mp hi
    obtain ⟨projectId, -, rfl⟩ := ofAssignment_eq_ok_iff.mp hi
    have hcounts := Assignment.counts_of_giveAll has
    have hinclude := hcounts.has_codeFlag_iff (.inl rfl)
    have hno := hcounts.has_codeFlag_iff (.inr rfl)
    refine ⟨os, hos, ?_, ?_⟩
    · rw [codeExamplesEnabled, Bool.not_eq_false', hno]
    · rw [hinclude, hno]
      rintro ⟨hlast, hlast'⟩
      rw [hlast] at hlast'
      cases hlast'
  · constructor
    · rintro ⟨i, hi⟩
      obtain ⟨as, ⟨os', hos', has⟩, -⟩ := ofArguments_eq_ok_iff.mp hi
      rw [hos.codeFlags_eq, ← hos'.codeFlags_eq]
      exact (Assignment.exists_giveAll_iff.mp ⟨as, has⟩).2
    · intro hchain
      obtain ⟨as, has⟩ := Assignment.exists_giveAll_iff.mpr ⟨hvalid.toClean, hchain⟩
      have hproject := ((Assignment.counts_of_giveAll has).has_other_iff (by decide)).mpr
        hvalid.project
      obtain ⟨i, hi⟩ := exists_ofAssignment_iff.mpr hproject
      exact ⟨i, ofArguments_eq_ok_iff.mpr ⟨as, ⟨os, hos, has⟩, hi⟩⟩

/-- Both flags, one of them twice, and an option whose value looks like one. -/
def interleavedFlags : List String :=
  ["--no-code-examples", "--include-code-examples", "--project-id", "p",
    "--path=--include-code-examples", "--no-code-examples"]

theorem codeExamples_lastFlag_interleaved :
    interleavedFlags.filterMap codeFlag?
      = [.noCodeExamples, .includeCodeExamples, .noCodeExamples] ∧
    (∃ os, Spelled interleavedFlags os ∧ OtherwiseValid os) ∧
    ∃ i, ofArguments none interleavedFlags = .ok i ∧ i.codeExamplesEnabled = false := by
  let os : List Occurrence := [(.noCodeExamples, "true"), (.includeCodeExamples, "true"),
    (.projectId, "p"), (.path, "--include-code-examples"), (.noCodeExamples, "true")]
  have hos : Spelled interleavedFlags os := by
    refine @Spelled.switch .noCodeExamples _ _ trivial ?_
    refine @Spelled.switch .includeCodeExamples _ _ trivial ?_
    refine @Spelled.apart .projectId "p" _ _ rfl (fun h => absurd h (by decide)) ?_
    refine @Spelled.joined .path "--include-code-examples" _ _ rfl ?_
    exact @Spelled.switch .noCodeExamples _ _ trivial .nil
  have hvalid : OtherwiseValid os :=
    { once := by decide, noEmptyPath := by decide, project := by decide }
  obtain ⟨hlast, haccepted⟩ := codeExamples_lastFlag none interleavedFlags
  obtain ⟨hflags, haccepted⟩ := haccepted os hos
  obtain ⟨i, hi⟩ := (haccepted hvalid).mpr (by decide)
  obtain ⟨os', hos', hoff, -⟩ := hlast i hi
  have hflags' : codeFlags os' = codeFlags os := by rw [hos'.codeFlags_eq, hos.codeFlags_eq]
  refine ⟨hflags.symm, ⟨os, hos, hvalid⟩, i, hi, hoff.mpr ?_⟩
  rw [hflags']
  rfl

end Invocation

end KnowledgeImport
