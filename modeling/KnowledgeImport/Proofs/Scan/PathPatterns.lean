import KnowledgeImport.Proofs.Glob.Literals
import KnowledgeImport.Proofs.Scan.Candidates
import KnowledgeImport.Proofs.Text.Transparency

/-!
# Patterns of one text on a path

Where a pattern is a text with stars on one side, the names on a path tell whether one of the
candidates of the path matches it: how the last of them ends (`matchesAny_endingIn_iff`), how one of
them starts (`matchesAny_startingWith_iff`), or which directories there are
(`matchesAny_below_iff`).  Candidates are compared as they are shown.  That makes no difference for
a text that is ASCII (`suffix_relativeOctets_iff`, `prefix_relativeOctets_iff`).
-/

namespace KnowledgeImport

open Text Glob

/-! ### The octets of a path -/

theorem relativeOctets_singleton (n : Name) : relativeOctets [n] = mend n := by
  rw [relativeOctets, relativeText, List.map_singleton, List.intercalate_singleton]
  rfl

theorem relativeOctets_append {d rest : List Name} (hd : d ≠ []) (hrest : rest ≠ []) :
    relativeOctets (d ++ rest) = relativeOctets d ++ slash :: relativeOctets rest := by
  rw [relativeOctets, relativeText_append hd hrest, List.flatMap_append, List.flatMap_cons]
  rfl

/-- What starts a list and lacks an element of it stands before that element. -/
theorem prefix_append_cons_iff {α : Type} {a : α} {t : List α} (ha : a ∉ t) (u v : List α) :
    t <+: u ++ a :: v ↔ t <+: u := by
  constructor
  · intro h
    have hcut : u ++ [a] <+: u ++ a :: v := ⟨v, by simp⟩
    rcases List.prefix_or_prefix_of_prefix h hcut with h | h
    · rcases List.prefix_concat_iff.mp h with rfl | h
      · exact absurd (List.mem_append_right u (List.mem_singleton_self a)) ha
      · exact h
    · exact absurd (h.subset (List.mem_append_right u (List.mem_singleton_self a))) ha
  · intro h
    exact h.trans (List.prefix_append ..)

theorem suffix_append_cons_iff {α : Type} {a : α} {t : List α} (ha : a ∉ t) (u v : List α) :
    t <:+ u ++ a :: v ↔ t <:+ v := by
  have ha' : a ∉ t.reverse := fun h => ha (List.mem_reverse.mp h)
  rw [← List.reverse_prefix, List.reverse_append, List.reverse_cons, List.append_assoc,
    List.singleton_append, prefix_append_cons_iff ha', List.reverse_prefix]

/-- A path ends as its last name does. -/
theorem suffix_relativeOctets_iff {t : List Octet} (ht : Ascii t) (hslash : slash ∉ t)
    (dirs : List Name) (name : Name) :
    t <:+ relativeOctets (dirs ++ [name]) ↔ t <:+ name := by
  cases dirs with
  | nil => rw [List.nil_append, relativeOctets_singleton, suffix_mend_iff ht]
  | cons n dirs =>
    rw [relativeOctets_append (List.cons_ne_nil _ _) (List.cons_ne_nil _ _),
      suffix_append_cons_iff hslash, relativeOctets_singleton, suffix_mend_iff ht]

theorem relativeOctets_cons_cons (n m : Name) (rest : List Name) :
    relativeOctets (n :: m :: rest) = mend n ++ slash :: relativeOctets (m :: rest) := by
  rw [← relativeOctets_singleton n]
  exact relativeOctets_append (List.cons_ne_nil n []) (List.cons_ne_nil m rest)

/-- A path starts as its first name does. -/
theorem prefix_relativeOctets_iff {t : List Octet} (ht : Ascii t) (hslash : slash ∉ t)
    (n : Name) (rest : List Name) : t <+: relativeOctets (n :: rest) ↔ t <+: n := by
  cases rest with
  | nil => rw [relativeOctets_singleton, prefix_mend_iff ht]
  | cons m rest => rw [relativeOctets_cons_cons, prefix_append_cons_iff hslash, prefix_mend_iff ht]

theorem slash_not_mem_mend {n : Name} (hn : n.SlashFree) : slash ∉ mend n := by
  intro hmem
  obtain ⟨u, v, huv⟩ := List.append_of_mem hmem
  obtain ⟨m, r, rfl, -, -⟩ := exists_of_mend_eq (by decide) (by decide) huv
  exact hn (List.mem_append_right m (List.mem_cons_self ..))

/-- A path starts with a text and a slash iff its first name is the text and others follow. -/
theorem prefix_slash_relativeOctets_iff {t : List Octet} (ht : Ascii t) (hslash : slash ∉ t)
    {n : Name} (hn : n.SlashFree) (rest : List Name) :
    t ++ [slash] <+: relativeOctets (n :: rest) ↔ n = t ∧ rest ≠ [] := by
  have hmend := slash_not_mem_mend hn
  cases rest with
  | nil =>
    rw [relativeOctets_singleton]
    refine iff_of_false (fun h => hmend (h.subset ?_)) (fun h => h.2 rfl)
    exact List.mem_append_right t (List.mem_singleton_self slash)
  | cons m rest =>
    rw [relativeOctets_cons_cons, ← mend_eq_iff ht]
    constructor
    · rintro ⟨w, hw⟩
      rw [List.append_assoc, List.singleton_append] at hw
      -- both texts end where the first slash is
      have hle : t <+: mend n :=
        (prefix_append_cons_iff hslash _ _).mp (hw ▸ List.prefix_append t (slash :: w))
      have hge : mend n <+: t :=
        (prefix_append_cons_iff hmend _ _).mp (hw ▸ List.prefix_append (mend n) (slash :: _))
      exact ⟨hge.eq_of_length_le hle.length_le, List.cons_ne_nil m rest⟩
    · rintro ⟨rfl, -⟩
      exact ⟨relativeOctets (m :: rest), by simp⟩

/-! ### Patterns and the names on a path -/

theorem matchesAny_eq_true_iff (set : PatternSet) (cs : List Char) :
    matchesAny set cs = true ↔ ∃ p ∈ set, matchesAny [p] cs = true := by
  simp only [matchesAny, PatternSet.isMatch, List.any_eq_true, List.mem_singleton, exists_eq_left]
  constructor
  · rintro ⟨c, hc, p, hp, hmatch⟩
    exact ⟨p, hp, c, hc, hmatch⟩
  · rintro ⟨p, hp, c, hc, hmatch⟩
    exact ⟨c, hc, p, hp, hmatch⟩

/-- The text is ASCII and has no slash. -/
def Plain (t : String) : Prop := Ascii (encode t) ∧ slash ∉ encode t

instance : DecidablePred Plain :=
  fun t => inferInstanceAs (Decidable (Ascii (encode t) ∧ slash ∉ encode t))

section

variable {t : String} {dirs : List Name} {name : Name}

theorem matchesAny_endingIn_iff (ht : Plain t) (hfree : ∀ n ∈ dirs ++ [name], n.SlashFree) :
    matchesAny [endingIn t] (relativeText (dirs ++ [name])) = true ↔ encode t <:+ name := by
  rw [matchesAny_relativeText_iff _ (by simp) hfree]
  simp only [PatternSet.isMatch, List.any_cons, List.any_nil, Bool.or_false, isMatch_endingIn_iff]
  constructor
  · rintro ⟨s, hne, hs, hmatch⟩
    rcases List.suffix_concat_iff.mp hs with rfl | ⟨above, rfl, -⟩
    · exact absurd rfl hne
    · exact (suffix_relativeOctets_iff ht.1 ht.2 above name).mp hmatch
  · intro h
    exact ⟨dirs ++ [name], by simp, List.suffix_refl _,
      (suffix_relativeOctets_iff ht.1 ht.2 dirs name).mpr h⟩

theorem matchesAny_startingWith_iff (ht : Plain t) (hfree : ∀ n ∈ dirs ++ [name], n.SlashFree) :
    matchesAny [startingWith t] (relativeText (dirs ++ [name])) = true
      ↔ ∃ n ∈ dirs ++ [name], encode t <+: n := by
  rw [matchesAny_relativeText_iff _ (by simp) hfree]
  simp only [PatternSet.isMatch, List.any_cons, List.any_nil, Bool.or_false,
    isMatch_startingWith_iff]
  constructor
  · rintro ⟨s, hne, hs, hmatch⟩
    obtain ⟨n, rest, rfl⟩ := List.exists_cons_of_ne_nil hne
    exact ⟨n, hs.subset (List.mem_cons_self ..),
      (prefix_relativeOctets_iff ht.1 ht.2 n rest).mp hmatch⟩
  · rintro ⟨n, hn, hprefix⟩
    obtain ⟨above, rest, hsplit⟩ := List.append_of_mem hn
    exact ⟨n :: rest, List.cons_ne_nil n rest, ⟨above, hsplit.symm⟩,
      (prefix_relativeOctets_iff ht.1 ht.2 n rest).mpr hprefix⟩

/-- The path that some of the last names make starts with a text and a slash iff a directory has
that name. -/
theorem exists_suffix_prefix_slash_iff (ht : Plain t) (hfree : ∀ n ∈ dirs ++ [name], n.SlashFree) :
    (∃ s, s ≠ [] ∧ s <:+ dirs ++ [name] ∧ encode t ++ [slash] <+: relativeOctets s)
      ↔ encode t ∈ dirs := by
  constructor
  · rintro ⟨s, hne, hs, hmatch⟩
    obtain ⟨n, rest, rfl⟩ := List.exists_cons_of_ne_nil hne
    have hn : n.SlashFree := hfree n (hs.subset (List.mem_cons_self ..))
    obtain ⟨rfl, hrest⟩ := (prefix_slash_relativeOctets_iff ht.1 ht.2 hn rest).mp hmatch
    -- something follows the name, so it is not the last one
    rcases List.suffix_concat_iff.mp hs with hnil | ⟨above, hsplit, habove⟩
    · cases hnil
    · cases above with
      | nil => exact absurd (List.cons.inj hsplit).2 hrest
      | cons m above =>
        rw [(List.cons.inj hsplit).1]
        exact habove.subset (List.mem_cons_self ..)
  · intro hmem
    obtain ⟨above, rest, rfl⟩ := List.append_of_mem hmem
    refine ⟨encode t :: (rest ++ [name]), List.cons_ne_nil _ _, ⟨above, by simp⟩, ?_⟩
    have hn : Name.SlashFree (encode t) := ht.2
    exact (prefix_slash_relativeOctets_iff ht.1 ht.2 hn _).mpr ⟨rfl, by simp⟩

theorem matchesAny_below_iff (ht : Plain t) (hfree : ∀ n ∈ dirs ++ [name], n.SlashFree) :
    matchesAny [below t] (relativeText (dirs ++ [name])) = true ↔ encode t ∈ dirs := by
  rw [matchesAny_relativeText_iff _ (by simp) hfree, ← exists_suffix_prefix_slash_iff ht hfree]
  simp only [PatternSet.isMatch, List.any_cons, List.any_nil, Bool.or_false, isMatch_below_iff]

theorem matchesAny_deepBelow_iff (ht : Plain t) (hfree : ∀ n ∈ dirs ++ [name], n.SlashFree) :
    matchesAny [deepBelow t] (relativeText (dirs ++ [name])) = true ↔ encode t ∈ dirs := by
  rw [matchesAny_relativeText_iff _ (by simp) hfree, ← exists_suffix_prefix_slash_iff ht hfree]
  simp only [PatternSet.isMatch, List.any_cons, List.any_nil, Bool.or_false, isMatch_deepBelow_iff]

end

end KnowledgeImport
