import KnowledgeImport.Scan.Repository
import KnowledgeImport.Proofs.FileTree.Walk
import Mathlib.Tactic.MkIffOfInductiveProp

/-!
# Trees that a machine can have

Every entry has a name that a path can ask for, and the entries of a directory are in increasing
order of their names (`FileSystem.WellFormed`).  A walk through such a tree finds the files in
increasing order of their names, and so no file twice (`Forest.pairwise_files`).  The path of a file
below a root has the names of the root and then its own (`Path.names_below`), so files have
different paths (`Path.below_inj`), and each path ends in the name of its file
(`Path.fileName?_below`).
-/

namespace KnowledgeImport

open Text

/-- A name that a path can ask for. -/
@[mk_iff]
structure Name.Valid (n : Name) : Prop where
  ne_nil : n ≠ []
  slashFree : n.SlashFree
  ne_current : n ≠ [0x2E]
  ne_parent : n ≠ [0x2E, 0x2E]

instance : DecidablePred Name.Valid :=
  fun n => decidable_of_iff _ (Name.valid_iff n).symm

mutual

/-- The entries of all directories in the tree below a node have valid names in order. -/
def Node.WellFormed : Node → Prop
  | .file _ | .link _ => True
  | .directory entries => entries.WellFormed

/-- The entries of a directory, and of those below them, have valid names in order. -/
def Forest.WellFormed : Forest → Prop
  | .nil => True
  | .cons name node rest =>
    name.Valid ∧ node.WellFormed ∧ (∀ e ∈ rest.toList, name < e.1) ∧ rest.WellFormed

end

/-- All directories of a machine have entries with valid names in order. -/
def FileSystem.WellFormed (fs : FileSystem) : Prop := fs.root.WellFormed

/-- A machine with the empty files `/README.md` and `/a.rs`. -/
def readmeAndSource : FileSystem where
  root := .directory (.cons (encode "README.md") (.file (.octets []))
    (.cons (encode "a.rs") (.file (.octets [])) .nil))

theorem Forest.WellFormed.of_mem {entries : Forest} (h : entries.WellFormed) {e : Name × Node}
    (he : e ∈ entries.toList) : e.1.Valid ∧ e.2.WellFormed := by
  fun_induction Forest.toList entries with
  | case1 => cases he
  | case2 name node rest ih =>
    rcases List.mem_cons.mp he with rfl | he
    · exact ⟨h.1, h.2.1⟩
    · exact ih h.2.2.2 he

theorem hereditary_wellFormed : Hereditary Name.Valid Node.WellFormed :=
  fun _ h _ he => Forest.WellFormed.of_mem h he

/-- A path through a well-formed tree leads to a well-formed node. -/
theorem FileSystem.WellFormed.node {fs : FileSystem} (hfs : fs.WellFormed) {p : Path} {node : Node}
    (h : fs.node p = .ok node) : node.WellFormed :=
  hereditary_wellFormed.node hfs h

/-! ### The order of a walk -/

/-- The names under which entries hold a file start with the name of an entry. -/
theorem Forest.Holds.exists_head {entries : Forest} {names : List Name} {content : Content}
    (h : entries.Holds names content) :
    ∃ e ∈ entries.toList, ∃ rest, names = e.1 :: rest := by
  cases h with
  | file h => exact ⟨_, h, [], rfl⟩
  | inside h hsub => exact ⟨_, h, _, rfl⟩

theorem append_cons_lt {names rest rest' : List Name} {n n' : Name} (h : n < n') :
    names ++ n :: rest < names ++ n' :: rest' := by
  induction names with
  | nil => exact List.cons_lt_cons_iff.mpr (Or.inl h)
  | cons name names ih => exact List.cons_lt_cons_iff.mpr (Or.inr ⟨rfl, ih⟩)

mutual

theorem Node.pairwise_files_all (names : List Name) :
    ∀ node : Node, node.WellFormed →
      (node.files entersAll names).Pairwise fun f g => f.names < g.names
  | .file content, _ => List.pairwise_singleton _ _
  | .link target, _ => List.Pairwise.nil
  | .directory entries, h => by
    rw [Node.files, entersAll, if_pos rfl]
    exact Forest.pairwise_files_all names entries h

theorem Forest.pairwise_files_all (names : List Name) :
    ∀ entries : Forest, entries.WellFormed →
      (entries.files entersAll names).Pairwise fun f g => f.names < g.names
  | .nil, _ => List.Pairwise.nil
  | .cons name node rest, h => by
    obtain ⟨-, hnode, hlt, hrest⟩ := h
    rw [Forest.files, List.pairwise_append]
    refine ⟨Node.pairwise_files_all _ node hnode, Forest.pairwise_files_all names rest hrest, ?_⟩
    intro f hf g hg
    -- what is found here goes on with this name, what is found later with a greater one
    obtain ⟨tail, hfnames⟩ : ∃ tail, f.names = names ++ name :: tail := by
      rcases (Node.mem_files_iff _ f node).mp hf with ⟨hnames, -⟩ | ⟨sub, ns, hnames, -, -⟩
      · exact ⟨[], hnames⟩
      · exact ⟨ns, by rw [hnames, List.append_assoc, List.singleton_append]⟩
    obtain ⟨ns, hgnames, hholds⟩ := (Forest.mem_files_below_iff names g rest).mp hg
    obtain ⟨e, he, tail', rfl⟩ := hholds.exists_head
    rw [hfnames, hgnames]
    exact append_cons_lt (hlt e he)

end

/-- A walk finds the files in increasing order of their names. -/
theorem Forest.pairwise_files {entries : Forest} (h : entries.WellFormed)
    (enters : List Name → Bool) (names : List Name) :
    (entries.files enters names).Pairwise fun f g => f.names < g.names := by
  rw [Forest.files_eq_filter]
  exact (Forest.pairwise_files_all names entries h).filter _

/-! ### Paths below a root -/

namespace Path

theorem names_append_separator (xs ys : List Octet) :
    Path.names ⟨xs ++ separator :: ys⟩ = Path.names ⟨xs⟩ ++ Path.names ⟨ys⟩ := by
  simp only [names, List.splitOn]
  rw [List.splitOnP_append_cons _ _ (by decide), List.filter_append]

theorem names_of_valid {n : Name} (hn : n.Valid) : Path.names ⟨n⟩ = [n] := by
  have hsplit : n.splitOn separator = [n] := by
    have hfree : ∀ m ∈ [n], separator ∉ m := List.forall_mem_singleton.mpr hn.slashFree
    have h := List.splitOn_intercalate separator hfree (List.cons_ne_nil _ _)
    rwa [List.intercalate_singleton] at h
  rw [names, hsplit]
  simp [hn.ne_nil]

/-- A path that is joined with a name has that name as its last. -/
theorem names_join (p : Path) {n : Name} (hn : n.Valid) : (p.join ⟨n⟩).names = p.names ++ [n] := by
  have hrelative : isAbsolute ⟨n⟩ = false := by
    rw [isAbsolute, beq_eq_false_iff_ne]
    intro hhead
    exact hn.slashFree (List.mem_of_mem_head? hhead)
  obtain ⟨octets⟩ := p
  by_cases hempty : octets = []
  · subst hempty
    rw [join, hrelative]
    exact names_of_valid hn
  by_cases hlast : octets.getLast? = some separator
  · -- the slash at the end of the path is the one in front of the name
    obtain ⟨init, rfl⟩ := List.getLast?_eq_some_iff.mp hlast
    have hp : Path.names ⟨init ++ [separator]⟩ = Path.names ⟨init⟩ :=
      (names_append_separator init []).trans (List.append_nil _)
    rw [join, hp]
    simpa [hrelative, names_of_valid hn] using names_append_separator init n
  · have hjoined : Path.names ⟨octets ++ separator :: n⟩ = Path.names ⟨octets⟩ ++ [n] := by
      rw [names_append_separator, names_of_valid hn]
    rw [join]
    simpa [hrelative, hempty, hlast] using hjoined

/-- The path of what lies below a root has the names of the root and then its own. -/
theorem names_below (root : Path) {names : List Name} (h : ∀ n ∈ names, n.Valid) :
    (root.below names).names = root.names ++ names := by
  induction names generalizing root with
  | nil => exact (List.append_nil _).symm
  | cons n names ih =>
    obtain ⟨hn, hnames⟩ := List.forall_mem_cons.mp h
    rw [below, List.foldl_cons, ← below, ih _ hnames, names_join root hn, List.append_assoc,
      List.singleton_append]

theorem below_inj {root : Path} {names names' : List Name} (h : ∀ n ∈ names, n.Valid)
    (h' : ∀ n ∈ names', n.Valid) (heq : root.below names = root.below names') : names = names' := by
  have hnames := congrArg Path.names heq
  rw [names_below root h, names_below root h'] at hnames
  exact List.append_cancel_left hnames

/-- The path of what lies below a root ends in its last name. -/
theorem fileName?_below (root : Path) {names : List Name} (hne : names ≠ [])
    (h : ∀ n ∈ names, n.Valid) : (root.below names).fileName? = names.getLast? := by
  obtain ⟨init, n, rfl⟩ := (List.eq_nil_or_concat names).resolve_left hne
  have hn : n.Valid := h n (by simp)
  have hlast : ((root.below (init.concat n)).names.filter (· ≠ [0x2E])).getLast? = some n := by
    rw [names_below root h, List.concat_eq_append, ← List.append_assoc, List.filter_append,
      List.filter_cons_of_pos (by simpa using hn.ne_current), List.filter_nil,
      List.getLast?_append, List.getLast?_singleton]
    rfl
  rw [fileName?, hlast]
  simp [hn.ne_parent]

end Path

end KnowledgeImport
