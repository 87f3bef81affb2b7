import KnowledgeImport.Proofs.Scan.Candidates
import KnowledgeImport.Proofs.Text.Boundaries
import KnowledgeImport.Proofs.Text.Transparency

/-!
# The candidates of a path among its octets

The octets that patterns are compared with are those of the path from some place on: from the front,
and from behind each slash (`candidateOffsets`, `matchesAny_eq_any_slices`).  A slash is one octet,
which no longer character has, so a path may be cut at every such place (`isValid_candidateOffset`).
Where the path is made of parts without slashes, it is cut in front of each of them, and what is
left are the paths that its last parts make (`matchesAny_iff_exists_suffix`).
-/

namespace KnowledgeImport

open Text Glob

/-- Where the candidates of a path begin among its octets: at the front, and behind each slash. -/
def candidateOffsets (bs : List Octet) : List Nat :=
  0 :: (bs.findIdxs (· = Path.separator)).map (· + 1)

/-- The octets of a path from each of these places on. -/
def slices (bs : List Octet) : List (List Octet) :=
  (candidateOffsets bs).map bs.drop

theorem separator_toNat_lt : Path.separator.toNat < 0x80 := by decide

/-- No octet of another character than the slash is that of the slash. -/
theorem separator_notMem_utf8EncodeChar {c : Char} (hc : c ≠ '/') :
    Path.separator ∉ String.utf8EncodeChar c := by
  intro hmem
  have hnat : c.toNat = '/'.toNat := (eq_of_mem_utf8EncodeChar hmem separator_toNat_lt).2
  exact hc (Char.toNat_inj.mp hnat)

/-- What is behind the octets of slashes are the octets of what is behind slashes. -/
theorem map_drop_findIdxs (cs : List Char) :
    ((cs.flatMap String.utf8EncodeChar).findIdxs (· = Path.separator)).map
        (fun i => (cs.flatMap String.utf8EncodeChar).drop (i + 1))
      = (afterSlashes cs).map (·.flatMap String.utf8EncodeChar) := by
  induction cs with
  | nil => rfl
  | cons c cs ih =>
    rw [List.flatMap_cons, List.findIdxs_append, List.findIdxs_start (s := 0 + _), List.map_append,
      List.map_map]
    -- the octets of the first character do not change what is behind a later slash
    have hlater : ((fun i => (String.utf8EncodeChar c ++ cs.flatMap String.utf8EncodeChar).drop
          (i + 1)) ∘ (· + (0 + (String.utf8EncodeChar c).length)))
        = fun i => (cs.flatMap String.utf8EncodeChar).drop (i + 1) := by
      funext i
      have hplace : i + (0 + (String.utf8EncodeChar c).length) + 1
          = (String.utf8EncodeChar c).length + (i + 1) := by omega
      rw [Function.comp_apply, hplace, List.drop_length_add_append]
    rw [hlater, ih, afterSlashes]
    by_cases hc : c = '/'
    · rw [if_pos hc, hc]
      rfl
    · have hnone : (String.utf8EncodeChar c).findIdxs (· = Path.separator) = [] := by
        rw [List.findIdxs_eq_nil_iff]
        intro b hb
        have hne : b ≠ Path.separator := ne_of_mem_of_not_mem hb (separator_notMem_utf8EncodeChar hc)
        exact decide_eq_false hne
      rw [if_neg hc, hnone]
      rfl

/-- The slices of a path are the octets of its candidates. -/
theorem slices_encode (text : String) :
    slices (encode text) = (candidates text.toList).map (·.flatMap String.utf8EncodeChar) := by
  rw [slices, candidateOffsets, candidates, List.map_cons, List.map_map, List.map_cons,
    ← map_drop_findIdxs]
  rfl

/-- A set matches some candidate of a path iff it matches some slice of its octets. -/
theorem matchesAny_eq_any_slices (set : PatternSet) (text : String) :
    matchesAny set text.toList = (slices (encode text)).any set.isMatch := by
  rw [slices_encode, List.any_map]
  rfl

/-- A path may be cut where a candidate begins. -/
theorem isValid_candidateOffset {text : String} {place : Nat}
    (h : place ∈ candidateOffsets (encode text)) : (String.Pos.Raw.mk place).IsValid text := by
  rw [candidateOffsets, List.mem_cons, List.mem_map] at h
  rcases h with rfl | ⟨i, hi, rfl⟩
  · exact isValid_length_encode "" text
  · -- the octets up to the slash are those of the characters up to it
    obtain ⟨hlt, hslash⟩ := List.mem_findIdxs_iff_exists_getElem_pos.mp hi
    have hsplit : text.toList.flatMap String.utf8EncodeChar
        = (encode text).take i ++ Path.separator :: (encode text).drop (i + 1) := by
      rw [← of_decide_eq_true hslash, List.getElem_cons_drop, List.take_append_drop, encode]
    obtain ⟨p, c, q, htext, hc, hp, -⟩ := exists_of_encode_eq separator_toNat_lt hsplit
    have hplace : i + 1 = (encode (String.ofList (p ++ [c]))).length := by
      have hone : (String.utf8EncodeChar c).length = 1 := by
        rw [show c = '/' from Char.toNat_inj.mp hc]
        rfl
      have hfront : (p.flatMap String.utf8EncodeChar).length = i := by
        rw [hp, List.length_take_of_le hlt.le]
      rw [encode, String.toList_ofList, List.flatMap_append, List.length_append, hfront,
        List.flatMap_singleton, hone]
    have htext' : text = String.ofList (p ++ [c]) ++ String.ofList q := by
      rw [← String.ofList_append, List.append_assoc, List.singleton_append, ← htext,
        String.ofList_toList]
    rw [hplace, htext']
    exact isValid_length_encode _ _

/-! ### Paths made of parts -/

theorem length_filter_tails {α : Type} [DecidableEq α] (l : List α) :
    (l.tails.filter (· ≠ [])).length = l.length := by
  induction l with
  | nil => rfl
  | cons a l ih =>
    rw [List.tails_cons, List.filter_cons_of_pos (by simp), List.length_cons, ih, List.length_cons]

/-- The slices of a path made of parts are the paths that its last parts make. -/
theorem slices_intercalate {parts : List String} (hne : parts ≠ [])
    (hparts : ∀ p ∈ parts, '/' ∉ p.toList) :
    slices (encode ("/".intercalate parts))
      = (parts.tails.filter (· ≠ [])).map fun s => encode ("/".intercalate s) := by
  have hchars : ∀ p ∈ parts.map String.toList, '/' ∉ p := List.forall_mem_map.mpr hparts
  -- a run of parts is empty iff the run of their characters is
  have hnil : (fun s : List (List Char) => decide (s ≠ [])) ∘ List.map String.toList
      = fun s => decide (s ≠ []) := by
    funext s
    simp
  have hslash : "/".toList = ['/'] := rfl
  rw [slices_encode, String.toList_intercalate, hslash, candidates_intercalate (by simpa using hne) hchars,
    List.map_tails, List.filter_map, hnil, List.map_map, List.map_map]
  refine List.map_congr_left fun s _ => ?_
  rw [encode, String.toList_intercalate]
  rfl

/-- A path that begins with a part that has a character has one too. -/
theorem encode_intercalate_ne_nil {p : String} (hp : p ≠ "") (rest : List String) :
    encode ("/".intercalate (p :: rest)) ≠ [] := by
  intro hnil
  have hempty : "/".intercalate (p :: rest) = "" := encode_injective hnil
  cases rest with
  | nil =>
    rw [String.intercalate_singleton] at hempty
    exact hp hempty
  | cons q rest =>
    rw [String.intercalate_cons_cons, String.append_assoc, String.append_eq_empty_iff] at hempty
    exact hp hempty.1

/-- Where the parts of a path have a character each and no slash, a set matches some candidate of
the path iff it matches the path that some of the last parts make.  The candidates are cut from the
octets of the path at places where a text may be cut; none is empty, and each part begins one. -/
theorem matchesAny_iff_exists_suffix (set : PatternSet) {parts : List String} (hne : parts ≠ [])
    (hparts : ∀ p ∈ parts, p ≠ "" ∧ '/' ∉ p.toList) :
    let text := "/".intercalate parts
    (matchesAny set text.toList = true ↔
      ∃ s, s ≠ [] ∧ s <:+ parts ∧ set.isMatch (encode ("/".intercalate s)) = true) ∧
    matchesAny set text.toList = (slices (encode text)).any set.isMatch ∧
    slices (encode text)
      = (parts.tails.filter (· ≠ [])).map (fun s => encode ("/".intercalate s)) ∧
    (∀ place ∈ candidateOffsets (encode text), (String.Pos.Raw.mk place).IsValid text) ∧
    [] ∉ slices (encode text) ∧
    (slices (encode text)).length = parts.length := by
  intro text
  have hslices := slices_intercalate hne fun p hp => (hparts p hp).2
  refine ⟨?_, matchesAny_eq_any_slices set text, hslices,
    fun place => isValid_candidateOffset, ?_, ?_⟩
  · rw [matchesAny_eq_any_slices, hslices, List.any_map, List.any_filter]
    simp [and_left_comm]
  · rw [hslices]
    intro hmem
    obtain ⟨s, hs, hempty⟩ := List.mem_map.mp hmem
    rw [List.mem_filter, List.mem_tails] at hs
    obtain ⟨p, rest, rfl⟩ := List.exists_cons_of_ne_nil (of_decide_eq_true hs.2)
    exact encode_intercalate_ne_nil (hparts p (hs.1.subset (List.mem_cons_self ..))).1 rest hempty
  · rw [hslices, List.length_map, length_filter_tails]

/-- The names below the root of a character of two octets, of an octet that begins no character, and
of a character of four octets. -/
def awkwardNames : List Name := [encode "é", [0xFF], encode "😀.md"]

/-- The pattern of what is below a directory whose name is displayed as U+FFFD. -/
def belowAwkward : PatternSet := [[.literal '\uFFFD', .literal '/', .anyRun]]

theorem matchesAny_iff_exists_suffix_awkwardNames :
    matchesAny belowAwkward (relativeText awkwardNames) = true ∧
      candidateOffsets (encode "é/\uFFFD/😀.md") = [0, 3, 7] ∧
      (String.Pos.Raw.mk 7).IsValid "é/\uFFFD/😀.md" ∧
      (slices (encode "é/\uFFFD/😀.md")).length = 3 := by
  have hparts : ∀ p ∈ ["é", "\uFFFD", "😀.md"], p ≠ "" ∧ '/' ∉ p.toList := by decide +kernel
  obtain ⟨hmatches, -, -, hvalid, -, hlength⟩ :=
    matchesAny_iff_exists_suffix belowAwkward (List.cons_ne_nil _ _) hparts
  have htext : "/".intercalate ["é", "\uFFFD", "😀.md"] = "é/\uFFFD/😀.md" := by decide +kernel
  have hnames : relativeText awkwardNames = "é/\uFFFD/😀.md".toList := by decide +kernel
  have hoffsets : candidateOffsets (encode "é/\uFFFD/😀.md") = [0, 3, 7] := by decide +kernel
  rw [htext] at hmatches hvalid hlength
  refine ⟨?_, hoffsets, hvalid 7 (by rw [hoffsets]; decide), hlength⟩
  rw [hnames, hmatches]
  exact ⟨["\uFFFD", "😀.md"], List.cons_ne_nil _ _, ⟨["é"], rfl⟩, by decide +kernel⟩

end KnowledgeImport
