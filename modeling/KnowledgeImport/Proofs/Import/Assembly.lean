import KnowledgeImport.Import.Config
import Mathlib.Data.List.Nodup

/-!
# The lists of a configuration

A list of a configuration is its baseline and then what settings add: the entries that the baseline
lacks, each where it stands first (`extend_eq_append`).  The entries are taken one after the other
into a list that grows, and what carries the proofs is that a list without repetitions keeps being
one (`nodup_addNew`).  Extensions of source code are brought into one form before
(`normalExtension`), which may make equal what was not.  A configuration that is assembled from its
own lists is the same again (`ImportConfig.assemble_lists`).
-/

namespace KnowledgeImport

open Text

/-! ### Extending a list -/

theorem extend_cons (baseline : List String) (e : String) (extra : List String) :
    extend baseline (e :: extra) = extend (addNew baseline e) extra := rfl

theorem addNew_of_mem {entries : List String} {e : String} (h : e ∈ entries) :
    addNew entries e = entries := by
  rw [addNew, if_pos (List.contains_iff_mem.mpr h)]

theorem addNew_of_notMem {entries : List String} {e : String} (h : e ∉ entries) :
    addNew entries e = entries ++ [e] := by
  rw [addNew, if_neg (fun hcontains => h (List.contains_iff_mem.mp hcontains))]

theorem mem_addNew_iff {entries : List String} {e s : String} :
    s ∈ addNew entries e ↔ s ∈ entries ∨ s = e := by
  by_cases h : e ∈ entries
  · rw [addNew_of_mem h]
    constructor
    · exact Or.inl
    · rintro (hs | rfl)
      · exact hs
      · exact h
  · rw [addNew_of_notMem h, List.mem_append, List.mem_singleton]

/-- A list without repetitions has none after an entry is added. -/
theorem nodup_addNew {entries : List String} (h : entries.Nodup) (e : String) :
    (addNew entries e).Nodup := by
  by_cases he : e ∈ entries
  · rwa [addNew_of_mem he]
  · rw [addNew_of_notMem he, List.nodup_append]
    refine ⟨h, List.nodup_singleton e, ?_⟩
    intro s hs t ht heq
    obtain rfl := List.mem_singleton.mp ht
    exact he (heq ▸ hs)

theorem nodup_extend {baseline : List String} (h : baseline.Nodup) (extra : List String) :
    (extend baseline extra).Nodup := by
  -- the list so far is the baseline of the entries that are left
  induction extra generalizing baseline with
  | nil => exact h
  | cons e extra ih => exact ih (nodup_addNew h e)

theorem mem_extend_iff {baseline extra : List String} {s : String} :
    s ∈ extend baseline extra ↔ s ∈ baseline ∨ s ∈ extra := by
  induction extra generalizing baseline with
  | nil => simp [extend]
  | cons e extra ih =>
    rw [extend_cons, ih, mem_addNew_iff, List.mem_cons, or_assoc]

/-- The entries that the baseline lacks are added, each where it stands first. -/
theorem extend_eq_append (baseline extra : List String) :
    extend baseline extra = baseline ++ (extra.removeAll baseline).eraseDups := by
  induction extra generalizing baseline with
  | nil => simp [extend]
  | cons e extra ih =>
    rw [extend_cons, ih, List.cons_removeAll]
    by_cases he : e ∈ baseline
    · rw [addNew_of_mem he, if_neg (by simpa using he)]
    · -- what is added is looked for among the added entries from then on
      have hrest : extra.removeAll (baseline ++ [e])
          = (extra.removeAll baseline).filter fun s => !s == e := by
        rw [List.removeAll, List.removeAll, List.filter_filter]
        refine List.filter_congr fun s _ => ?_
        simp [Bool.and_comm, beq_eq_decide]
      rw [addNew_of_notMem he, if_pos (by simpa using he), List.eraseDups_cons, hrest,
        List.append_assoc, List.singleton_append]

/-- A list without repetitions that starts with the baseline is all that it adds to it. -/
theorem extend_append_self {baseline more : List String} (h : (baseline ++ more).Nodup) :
    extend baseline more = baseline ++ more := by
  induction more generalizing baseline with
  | nil => simp [extend]
  | cons e more ih =>
    have he : e ∉ baseline := by
      intro hmem
      exact (List.nodup_append.mp h).2.2 e hmem e (List.mem_cons_self ..) rfl
    have hmore : baseline ++ e :: more = (baseline ++ [e]) ++ more := by simp
    rw [extend_cons, addNew_of_notMem he, hmore]
    exact ih (hmore ▸ h)

theorem extend_of_subset {baseline extra : List String} (h : extra ⊆ baseline) :
    extend baseline extra = baseline := by
  induction extra with
  | nil => rfl
  | cons e extra ih =>
    rw [List.cons_subset] at h
    rw [extend_cons, addNew_of_mem h.1, ih h.2]

/-- To extend the baseline by the extended list is to extend it once. -/
theorem extend_extend {baseline : List String} (h : baseline.Nodup) (extra : List String) :
    extend baseline (extend baseline extra) = extend baseline extra := by
  have hnodup := nodup_extend h extra
  rw [extend_eq_append baseline extra] at hnodup ⊢
  rw [extend, List.foldl_append, ← extend, ← extend, extend_of_subset (List.Subset.refl baseline),
    extend_append_self hnodup]

/-! ### The form of an extension -/

theorem toList_normalExtension (e : String) :
    (normalExtension e).toList = (e.toList.dropWhile (· = '.')).map Char.toLower := by
  simp [normalExtension, asciiLower]

theorem toLower_of_isUpper {c : Char} (h : c.isUpper = true) :
    65 ≤ c.val ∧ c.val ≤ 90 ∧ c.toLower.val = c.val + 32 :=
  have hupper := of_decide_eq_true h
  ⟨hupper.1, hupper.2, congrArg Char.val (dif_pos hupper)⟩

theorem toLower_of_not_isUpper {c : Char} (h : c.isUpper = false) : c.toLower = c :=
  dif_neg (of_decide_eq_false h)

/-- What is a dot in lower case is a dot, for the small letters stand behind it. -/
theorem toLower_eq_dot_iff {c : Char} : c.toLower = '.' ↔ c = '.' := by
  constructor
  · intro h
    cases hupper : c.isUpper with
    | false => rwa [toLower_of_not_isUpper hupper] at h
    | true =>
      obtain ⟨hlower, hle, hval⟩ := toLower_of_isUpper hupper
      have hcode : c.val + 32 = 46 := hval.symm.trans (congrArg Char.val h)
      grind [UInt32.toNat_add]
  · rintro rfl
    rfl

theorem isUpper_toLower (c : Char) : c.toLower.isUpper = false := by
  cases hupper : c.isUpper with
  | false => rwa [toLower_of_not_isUpper hupper]
  | true =>
    obtain ⟨hlower, hle, hval⟩ := toLower_of_isUpper hupper
    refine decide_eq_false fun hsmall => ?_
    have hagain : c.val + 32 ≤ 90 := hval ▸ hsmall.2
    grind [UInt32.toNat_add]

/-- The text is in the form in which extensions are compared: it starts with no dot and has no ASCII
letter in upper case. -/
structure IsNormalExtension (e : String) : Prop where
  noDot : e.toList.head? ≠ some '.'
  noUpper : ∀ c ∈ e.toList, c.isUpper = false

theorem isNormalExtension_normalExtension (e : String) : IsNormalExtension (normalExtension e) where
  noDot := by
    rw [toList_normalExtension, List.head?_map]
    intro h
    obtain ⟨c, hc, hdot⟩ := Option.map_eq_some_iff.mp h
    have hhead := List.head?_dropWhile_not (fun c : Char => decide (c = '.')) e.toList
    rw [hc] at hhead
    exact of_decide_eq_false hhead (toLower_eq_dot_iff.mp hdot)
  noUpper := by
    rw [toList_normalExtension, List.forall_mem_map]
    exact fun c _ => isUpper_toLower c

theorem IsNormalExtension.asciiLower_eq {e : String} (h : IsNormalExtension e) :
    asciiLower e = e := by
  have hlower : e.toList.map Char.toLower = e.toList := by
    refine (List.map_congr_left fun c hc => ?_).trans (List.map_id _)
    exact toLower_of_not_isUpper (h.noUpper c hc)
  rw [asciiLower, hlower, String.ofList_toList]

theorem IsNormalExtension.normalExtension_eq {e : String} (h : IsNormalExtension e) :
    normalExtension e = e := by
  have hdrop : e.toList.dropWhile (· = '.') = e.toList := by
    cases hlist : e.toList with
    | nil => rfl
    | cons c cs =>
      have hc : c ≠ '.' := by
        rintro rfl
        exact h.noDot (by rw [hlist]; rfl)
      exact List.dropWhile_cons_of_neg (by simpa using hc)
  rw [normalExtension, hdrop, String.ofList_toList, h.asciiLower_eq]

/-- An entry of the list of extensions is one of the baseline or the form of one that was added. -/
theorem ImportConfig.mem_codeExtensions_assemble_iff {options : ImportOptions}
    {extensions : PatternExtensions} {e : String} :
    e ∈ (assemble options extensions).codeExtensions ↔
      e ∈ baselineCodeExtensions ∨ ∃ x ∈ extensions.codeExtensions, normalExtension x = e := by
  rw [assemble, mem_extend_iff, List.mem_map]

theorem ImportConfig.isNormalExtension_of_mem {options : ImportOptions}
    {extensions : PatternExtensions} {e : String}
    (h : e ∈ (assemble options extensions).codeExtensions) : IsNormalExtension e := by
  -- letter by letter, not over all the characters there are
  have hbaseline : ∀ e ∈ baselineCodeExtensions,
      e.toList.head? ≠ some '.' ∧ e.toList.all (!·.isUpper) = true := by decide
  rcases mem_codeExtensions_assemble_iff.mp h with h | ⟨x, -, rfl⟩
  · obtain ⟨hdot, hupper⟩ := hbaseline e h
    refine ⟨hdot, fun c hc => ?_⟩
    simpa using List.all_eq_true.mp hupper c hc
  · exact isNormalExtension_normalExtension x

/-! ### Assembling -/

/-- Every list of a configuration is its baseline followed by the entries that settings add and the
baseline lacks, each where it stands first, and no entry is there twice. Extensions of source code
are brought into one form before: the leading dots are left out, and ASCII letters are in lower
case. Assembling a configuration from its own lists changes nothing. -/
theorem ImportConfig.assemble_lists (options : ImportOptions) (extensions : PatternExtensions) :
    let config := assemble options extensions
    config.docPatterns = baselineDocPatterns
      ++ (extensions.docPatterns.removeAll baselineDocPatterns).eraseDups ∧
    config.excludePatterns = baselineExcludePatterns
      ++ (extensions.excludePatterns.removeAll baselineExcludePatterns).eraseDups ∧
    config.codeExtensions = baselineCodeExtensions
      ++ ((extensions.codeExtensions.map normalExtension).removeAll
          baselineCodeExtensions).eraseDups ∧
    config.docPatterns.Nodup ∧ config.excludePatterns.Nodup ∧ config.codeExtensions.Nodup ∧
    (∀ e ∈ config.codeExtensions, e.toList.head? ≠ some '.' ∧ ∀ c ∈ e.toList, c.isUpper = false) ∧
    assemble options {
      docPatterns := config.docPatterns
      excludePatterns := config.excludePatterns
      codeExtensions := config.codeExtensions } = config := by
  intro config
  have hdoc : baselineDocPatterns.Nodup := by decide
  have hexcl : baselineExcludePatterns.Nodup := by decide
  have hcode : baselineCodeExtensions.Nodup := by decide
  -- the entries of the last list have the form that assembling brings them into
  have hnormal : config.codeExtensions.map normalExtension = config.codeExtensions := by
    refine (List.map_congr_left fun e he => ?_).trans (List.map_id _)
    exact (isNormalExtension_of_mem he).normalExtension_eq
  refine ⟨extend_eq_append .., extend_eq_append .., extend_eq_append .., nodup_extend hdoc _,
    nodup_extend hexcl _, nodup_extend hcode _, ?_, ?_⟩
  · intro e he
    have hform := isNormalExtension_of_mem he
    exact ⟨hform.noDot, hform.noUpper⟩
  · have hdocAgain : extend baselineDocPatterns config.docPatterns = config.docPatterns :=
      extend_extend hdoc _
    have hexclAgain :
        extend baselineExcludePatterns config.excludePatterns = config.excludePatterns :=
      extend_extend hexcl _
    have hcodeAgain : extend baselineCodeExtensions (config.codeExtensions.map normalExtension)
        = config.codeExtensions := by
      rw [hnormal]
      exact extend_extend hcode _
    rw [assemble, hdocAgain, hexclAgain, hcodeAgain]
    rfl

end KnowledgeImport
