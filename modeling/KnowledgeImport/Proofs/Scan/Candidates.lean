import KnowledgeImport.Scan.Rules
import KnowledgeImport.Proofs.FileTree.Names
import KnowledgeImport.Proofs.Text.Utf8
import Mathlib.Data.List.Infix

/-!
# The candidates of a path

Patterns are compared with a path and with all that follows one of its slashes.  Where the names of
the path have no slash, these texts are the paths that its last names make
(`candidates_relativeText`, `matchesAny_relativeText_iff`).  A candidate of a directory's path, with
more behind it, is a candidate of a path below that directory (`mem_candidates_append`).
-/

namespace KnowledgeImport

open Text Glob

/-- A name without a slash is displayed without one. -/
theorem Name.SlashFree.not_mem_display {n : Name} (h : n.SlashFree) :
    '/' ∉ n.display.toList := by
  intro hmem
  obtain ⟨b, hb, heq⟩ := mem_of_mem_decodeLossy hmem (by decide) (by decide)
  obtain rfl : b = Path.separator := UInt8.toNat_inj.mp heq
  exact h hb

/-! ### Texts with slashes between the parts -/

/-- What follows the slashes of a text is found behind its first slash. -/
theorem afterSlashes_append {p : List Char} (hp : '/' ∉ p) (cs : List Char) :
    afterSlashes (p ++ '/' :: cs) = candidates cs := by
  induction p with
  | nil => simp [afterSlashes, candidates]
  | cons c p ih =>
    rw [List.mem_cons, not_or] at hp
    rw [List.cons_append, afterSlashes, if_neg (Ne.symm hp.1), ih hp.2]

theorem afterSlashes_eq_nil {p : List Char} (hp : '/' ∉ p) : afterSlashes p = [] := by
  induction p with
  | nil => rfl
  | cons c p ih =>
    rw [List.mem_cons, not_or] at hp
    rw [afterSlashes, if_neg (Ne.symm hp.1), ih hp.2]

/-- The candidates of slash-free parts with slashes between them: one for each run of last parts. -/
theorem candidates_intercalate {parts : List (List Char)} (hne : parts ≠ [])
    (hparts : ∀ p ∈ parts, '/' ∉ p) :
    candidates (['/'].intercalate parts)
      = (parts.tails.filter (· ≠ [])).map ['/'].intercalate := by
  induction parts with
  | nil => exact absurd rfl hne
  | cons p ps ih =>
    have hp : '/' ∉ p := hparts p (List.mem_cons_self ..)
    rw [List.tails_cons, List.filter_cons_of_pos (by simp), List.map_cons]
    cases ps with
    | nil =>
      rw [List.intercalate_singleton, candidates, afterSlashes_eq_nil hp]
      rfl
    | cons q qs =>
      rw [candidates, ← ih (List.cons_ne_nil _ _) fun r hr => hparts r (List.mem_cons_of_mem _ hr),
        List.intercalate_cons_cons, List.append_assoc, List.singleton_append,
        afterSlashes_append hp]

/-- What follows a slash of a text follows it in a longer text too, with more behind it. -/
theorem mem_afterSlashes_append {c cs : List Char} (h : c ∈ afterSlashes cs) (r : List Char) :
    c ++ r ∈ afterSlashes (cs ++ r) := by
  induction cs with
  | nil => cases h
  | cons d cs ih =>
    rw [List.cons_append, afterSlashes]
    rw [afterSlashes] at h
    by_cases hd : d = '/'
    · rw [if_pos hd, List.mem_cons] at h ⊢
      rcases h with rfl | h
      · exact Or.inl rfl
      · exact Or.inr (ih h)
    · rw [if_neg hd] at h ⊢
      exact ih h

/-- A candidate of a text, with more behind it, is a candidate of the longer text. -/
theorem mem_candidates_append {c cs : List Char} (h : c ∈ candidates cs) (r : List Char) :
    c ++ r ∈ candidates (cs ++ r) := by
  rw [candidates, List.mem_cons] at h ⊢
  rcases h with rfl | h
  · exact Or.inl rfl
  · exact Or.inr (mem_afterSlashes_append h r)

/-! ### Paths below the root -/

/-- The path of what lies below a directory. -/
theorem relativeText_append {d rest : List Name} (hd : d ≠ []) (hrest : rest ≠ []) :
    relativeText (d ++ rest) = relativeText d ++ '/' :: relativeText rest := by
  induction d with
  | nil => exact absurd rfl hd
  | cons n d ih =>
    cases d with
    | nil =>
      obtain ⟨m, rest, rfl⟩ := List.exists_cons_of_ne_nil hrest
      rw [relativeText, List.singleton_append, List.map_cons, List.map_cons,
        List.intercalate_cons_cons, List.append_assoc, relativeText, List.map_singleton,
        List.intercalate_singleton]
      rfl
    | cons m d =>
      have h := ih (List.cons_ne_nil _ _)
      simp only [relativeText, List.cons_append, List.map_cons, List.intercalate_cons_cons] at h ⊢
      rw [h]
      simp

/-- The octets of a path below the root, as patterns are compared with them. -/
def relativeOctets (names : List Name) : List Octet :=
  (relativeText names).flatMap String.utf8EncodeChar

/-- The candidates of a path are the paths that its last names make. -/
theorem candidates_relativeText {names : List Name} (hne : names ≠ [])
    (hfree : ∀ n ∈ names, n.SlashFree) :
    candidates (relativeText names) = (names.tails.filter (· ≠ [])).map relativeText := by
  rw [relativeText, candidates_intercalate (by simpa using hne)]
  · -- a run of names is empty iff the run of their texts is
    have hnil : (fun s : List (List Char) => decide (s ≠ [])) ∘
        List.map (fun n : Name => n.display.toList) = fun s => decide (s ≠ []) := by
      funext s
      simp
    rw [List.map_tails, List.filter_map, hnil, List.map_map]
    rfl
  · intro p hp
    obtain ⟨n, hn, rfl⟩ := List.mem_map.mp hp
    exact (hfree n hn).not_mem_display

/-- A set matches some candidate of a path iff it matches the path that some of its last names
make. -/
theorem matchesAny_relativeText_iff (set : PatternSet) {names : List Name} (hne : names ≠ [])
    (hfree : ∀ n ∈ names, n.SlashFree) :
    matchesAny set (relativeText names) = true
      ↔ ∃ s, s ≠ [] ∧ s <:+ names ∧ set.isMatch (relativeOctets s) = true := by
  rw [matchesAny, candidates_relativeText hne hfree, List.any_map, List.any_filter]
  simp [relativeOctets, and_left_comm]

end KnowledgeImport
