import KnowledgeImport.FileTree.Lookup
import Mathlib.Data.List.Basic
import Mathlib.Data.List.TakeWhile
import Mathlib.Tactic.SplitIfs

/-!
# Names in a tree

What holds of a tree and is passed on by directories to their entries (`Hereditary`) holds of
whatever a path leads to (`Hereditary.node`).  So it is with trees in which no entry has a slash in
its name (`FileSystem.SlashFree.node`).  Where a file is put in such a tree, it stays one
(`FileSystem.SlashFree.put`).  The extension of a name is what its last dot sets off
(`Name.extension?_eq_some_iff`).
-/

namespace KnowledgeImport

/-- A name of a directory entry, which has no slash in it. -/
def Name.SlashFree (n : Name) : Prop := Path.separator ∉ n

instance : DecidablePred Name.SlashFree :=
  fun n => inferInstanceAs (Decidable (Path.separator ∉ n))

mutual

/-- No name in the tree below a node has a slash. -/
def Node.SlashFree : Node → Prop
  | .file _ | .link _ => True
  | .directory entries => entries.SlashFree

/-- No name in the entries of a directory, or below them, has a slash. -/
def Forest.SlashFree : Forest → Prop
  | .nil => True
  | .cons name node rest => name.SlashFree ∧ node.SlashFree ∧ rest.SlashFree

end

/-- No name in the files of a machine has a slash. -/
def FileSystem.SlashFree (fs : FileSystem) : Prop := fs.root.SlashFree

theorem Forest.SlashFree.of_mem {entries : Forest} (h : entries.SlashFree) {e : Name × Node}
    (he : e ∈ entries.toList) : e.1.SlashFree ∧ e.2.SlashFree := by
  fun_induction Forest.toList entries with
  | case1 => cases he
  | case2 name node rest ih =>
    rcases List.mem_cons.mp he with rfl | he
    · exact ⟨h.1, h.2.1⟩
    · exact ih h.2.2 he

theorem Forest.mem_toList_of_find? {entries : Forest} {name : Name} {node : Node}
    (h : entries.find? name = some node) : (name, node) ∈ entries.toList := by
  fun_induction Forest.find? name entries with
  | case1 => cases h
  | case2 node' rest =>
    obtain rfl := Option.some.inj h
    exact List.mem_cons_self ..
  | case3 n node' rest hn ih => exact List.mem_cons_of_mem _ (ih h)

/-! ### What a directory passes on -/

/-- If this holds of a directory, then it holds of its entries: `R` of their names, `Q` of their
nodes. -/
def Hereditary (R : Name → Prop) (Q : Node → Prop) : Prop :=
  ∀ entries, Q (.directory entries) → ∀ e ∈ entries.toList, R e.1 ∧ Q e.2

theorem hereditary_slashFree : Hereditary Name.SlashFree Node.SlashFree :=
  fun _ h _ he => Forest.SlashFree.of_mem h he

/-- Where a path is followed from: the root directory or the working directory. -/
def FileSystem.start (fs : FileSystem) (p : Path) : Except OsError Trail :=
  if p.isAbsolute then .ok [] else follow fs.root linkLimit [] fs.cwd.components

/-- A path that is resolved is not empty, and was followed from its start. -/
theorem FileSystem.follow_of_resolve {fs : FileSystem} {p : Path} {t : Trail}
    (h : fs.resolve p = .ok t) :
    p.octets ≠ [] ∧ ∃ start, fs.start p = .ok start ∧
      follow fs.root linkLimit start p.components = .ok t := by
  simp only [FileSystem.resolve, bind, Except.bind, pure, Except.pure, throw, throwThe,
    MonadExceptOf.throw] at h
  rw [FileSystem.start]
  split_ifs at h with hempty _ _ habs
  · rw [if_pos habs]
    exact ⟨by simpa using hempty, [], rfl, h⟩
  · rw [if_neg habs]
    cases hstart : follow fs.root linkLimit [] fs.cwd.components with
    | error e => rw [hstart] at h; cases h
    | ok start =>
      rw [hstart] at h
      exact ⟨by simpa using hempty, start, rfl, h⟩

namespace Hereditary

variable {R : Name → Prop} {Q : Node → Prop}

theorem trailNode {root : Node} (hroot : Q root) {t : Trail} (h : ∀ e ∈ t, R e.1 ∧ Q e.2) :
    Q (Trail.node root t) := by
  cases t with
  | nil => exact hroot
  | cons e t => exact (h e (List.mem_cons_self ..)).2

/-- What holds of the root holds of all that is passed when a path is followed. -/
theorem follow (hQ : Hereditary R Q) {root : Node} (hroot : Q root) {links : Nat} {here t : Trail}
    {todo : List Path.Component} (hhere : ∀ e ∈ here, R e.1 ∧ Q e.2)
    (h : KnowledgeImport.follow root links here todo = .ok t) : ∀ e ∈ t, R e.1 ∧ Q e.2 := by
  fun_induction KnowledgeImport.follow root links here todo with
  | case1 links here =>
    obtain rfl := Except.ok.inj h
    exact hhere
  | case2 links here todo entries hnode ih => exact ih hhere h
  | case3 links here todo entries hnode ih =>
    exact ih (fun e he => hhere e (List.mem_of_mem_tail he)) h
  | case4 | case5 | case6 | case9 => cases h
  | case7 here todo entries hnode name hname target hfind links ih =>
    refine ih ?_ h
    by_cases habs : target.isAbsolute = true
    · rw [dif_pos habs]
      exact List.forall_mem_nil _
    · rw [dif_neg habs]
      exact hhere
  | case8 links here todo entries hnode name hname node hlink hfind ih =>
    have hentries : Q (.directory entries) := hnode ▸ trailNode hroot hhere
    have hentry := hQ entries hentries _ (Forest.mem_toList_of_find? hfind)
    exact ih (List.forall_mem_cons.mpr ⟨hentry, hhere⟩) h

/-- What holds of the root holds of the node that a path leads to. -/
theorem node (hQ : Hereditary R Q) {fs : FileSystem} (hroot : Q fs.root) {p : Path} {node : Node}
    (h : fs.node p = .ok node) : Q node := by
  rw [FileSystem.node] at h
  cases hresolve : fs.resolve p with
  | error e => rw [hresolve] at h; cases h
  | ok t =>
    rw [hresolve] at h
    obtain rfl := Except.ok.inj h
    obtain ⟨-, start, hstart, ht⟩ := fs.follow_of_resolve hresolve
    have hpassed : ∀ e ∈ start, R e.1 ∧ Q e.2 := by
      unfold FileSystem.start at hstart
      split_ifs at hstart
      · obtain rfl := Except.ok.inj hstart
        exact List.forall_mem_nil _
      · exact hQ.follow hroot (List.forall_mem_nil _) hstart
    exact trailNode hroot (hQ.follow hroot hpassed ht)

end Hereditary

/-- A path through a slash-free tree leads to a slash-free node. -/
theorem FileSystem.SlashFree.node {fs : FileSystem} (hfs : fs.SlashFree) {p : Path} {node : Node}
    (h : fs.node p = .ok node) : node.SlashFree :=
  hereditary_slashFree.node hfs h

/-! ### Putting files -/

/-- No part of a list that was split holds what it was split at. -/
theorem not_mem_of_mem_splitOn {α : Type} [BEq α] [LawfulBEq α] {a : α} {xs part : List α}
    (h : part ∈ xs.splitOn a) : a ∉ part := by
  induction xs generalizing part with
  | nil =>
    rw [List.splitOn_nil, List.mem_singleton] at h
    rw [h]
    exact List.not_mem_nil
  | cons x xs ih =>
    rw [List.splitOn_cons_eq_if_modifyHead] at h
    split at h
    · rcases List.mem_cons.mp h with rfl | h
      · exact List.not_mem_nil
      · exact ih h
    · rename_i hx
      obtain ⟨q, qs, hsplit⟩ := List.exists_cons_of_ne_nil (List.splitOn_ne_nil a xs)
      rw [hsplit] at h
      rcases List.mem_cons.mp h with rfl | h
      · rw [List.mem_cons, not_or]
        refine ⟨fun heq => hx (by rw [heq, beq_self_eq_true]), ih ?_⟩
        rw [hsplit]
        exact List.mem_cons_self ..
      · refine ih ?_
        rw [hsplit]
        exact List.mem_cons_of_mem _ h

/-- The names in a path have no slash. -/
theorem Path.slashFree_of_mem_components {p : Path} {n : Name} (h : .entry n ∈ p.components) :
    n.SlashFree := by
  rw [Path.components, List.mem_append] at h
  rcases h with h | h
  · obtain ⟨m, hm, heq⟩ := List.mem_map.mp h
    have hsplit : m ∈ p.octets.splitOn Path.separator := (List.mem_filter.mp hm).1
    rw [Path.Component.ofName] at heq
    split_ifs at heq
    obtain rfl := Path.Component.entry.inj heq
    exact not_mem_of_mem_splitOn hsplit
  · split_ifs at h
    · cases List.mem_singleton.mp h
    · cases h

theorem Forest.SlashFree.put {entries : Forest} (h : entries.SlashFree) {name : Name}
    (hname : name.SlashFree) {change : Option Node → Node}
    (hchange : ∀ o : Option Node, (∀ node ∈ o, node.SlashFree) → (change o).SlashFree) :
    (entries.put name change).SlashFree := by
  fun_induction Forest.put name change entries with
  | case1 => exact ⟨hname, hchange none (by simp), h⟩
  | case2 node rest => exact ⟨hname, hchange (some node) (by simpa using h.2.1), h.2.2⟩
  | case3 n node rest hn hlt => exact ⟨hname, hchange none (by simp), h⟩
  | case4 n node rest hn hlt ih => exact ⟨h.1, h.2.1, ih h.2.2⟩

/-- Putting a slash-free node at the end of slash-free names. -/
theorem Forest.SlashFree.insert {node : Node} (hnode : node.SlashFree) {names : List Name}
    (hnames : ∀ n ∈ names, n.SlashFree) {entries : Forest} (h : entries.SlashFree) :
    (Forest.insert names node entries).SlashFree := by
  induction names generalizing entries with
  | nil => exact h
  | cons name names ih =>
    rw [List.forall_mem_cons] at hnames
    cases names with
    | nil =>
      rw [Forest.insert]
      refine h.put hnames.1 fun o ho => ?_
      split
      · rename_i g
        by_cases hdir : node.isDirectory = true
        · rw [if_pos hdir]
          exact ho _ rfl
        · rw [if_neg hdir]
          exact hnode
      · exact hnode
    | cons name' names =>
      rw [Forest.insert]
      · refine h.put hnames.1 fun o ho => ?_
        split
        · rename_i g
          exact ih hnames.2 (ho _ rfl)
        · exact ih hnames.2 trivial
      · simp

/-- One more step leads from slash-free names to slash-free names. -/
theorem FileSystem.SlashFree.place {fs : FileSystem} (hfs : fs.SlashFree) {names : List Name}
    (hnames : ∀ n ∈ names, n.SlashFree) {step : Path.Component}
    (hstep : ∀ n, step = .entry n → n.SlashFree) : ∀ n ∈ fs.place names step, n.SlashFree := by
  intro n hn
  unfold FileSystem.place at hn
  cases hfollow : follow fs.root linkLimit [] (names.map .entry ++ [step]) with
  | ok trail =>
    rw [hfollow] at hn
    have htrail := hereditary_slashFree.follow hfs (List.forall_mem_nil _) hfollow
    obtain ⟨e, he, rfl⟩ := List.mem_map.mp hn
    exact (htrail e (List.mem_reverse.mp he)).1
  | error e =>
    rw [hfollow] at hn
    cases step with
    | entry m =>
      rcases List.mem_append.mp hn with hn | hn
      · exact hnames n hn
      · obtain rfl := List.mem_singleton.mp hn
        exact hstep n rfl
    | parent => exact hnames n ((List.dropLast_sublist names).subset hn)
    | current => exact hnames n hn

/-- Putting a slash-free node leaves the files of a machine slash-free. -/
theorem FileSystem.SlashFree.put {fs : FileSystem} (hfs : fs.SlashFree) (p : Path) {node : Node}
    (hnode : node.SlashFree) : (fs.put p node).SlashFree := by
  -- the names gathered on the way stay slash-free, step by step
  have hplaces : ∀ (steps : List Path.Component) (names : List Name),
      (∀ n, .entry n ∈ steps → n.SlashFree) → (∀ n ∈ names, n.SlashFree) →
        ∀ n ∈ steps.foldl fs.place names, n.SlashFree := by
    intro steps
    induction steps with
    | nil => exact fun names _ hnames => hnames
    | cons step steps ih =>
      intro names hsteps hnames
      refine ih _ (fun n hn => hsteps n (List.mem_cons_of_mem _ hn)) ?_
      refine hfs.place hnames fun n hn => hsteps n ?_
      rw [hn]
      exact List.mem_cons_self ..
  have hentries : fs.root.entries.SlashFree := by
    have hroot : fs.root.SlashFree := hfs
    cases hnodeRoot : fs.root with
    | directory g => rwa [hnodeRoot] at hroot
    | file content => exact trivial
    | link target => exact trivial
  have hnames := hplaces p.components [] (fun n hn => Path.slashFree_of_mem_components hn)
    (List.forall_mem_nil _)
  exact hentries.insert hnode hnames

/-! ### Extensions -/

/-- A name has an extension iff it is a stem, a dot and the extension, which has no dot. -/
theorem Name.extension?_eq_some_iff {n e : Name} (h : n ≠ [0x2E, 0x2E]) :
    n.extension? = some e ↔ ∃ stem, stem ≠ [] ∧ n = stem ++ 0x2E :: e ∧ 0x2E ∉ e := by
  have htail {stem e : Name} (he : 0x2E ∉ e) :
      ((stem ++ 0x2E :: e).reverse.takeWhile (· ≠ 0x2E)).reverse = e := by
    have hne : ∀ b ∈ e.reverse, decide (b ≠ 0x2E) = true := by
      intro b hb
      exact decide_eq_true fun heq => he (heq ▸ List.mem_reverse.mp hb)
    rw [List.reverse_append, List.reverse_cons, List.append_assoc,
      List.takeWhile_append_of_pos hne]
    simp
  simp only [extension?]
  constructor
  · intro he
    split_ifs at he with hcond
    by_cases hdot : 0x2E ∈ n.reverse
    · -- the name is cut at its last dot
      obtain ⟨as, bs, hsplit, has⟩ := List.eq_append_cons_of_mem hdot
      obtain rfl : n = bs.reverse ++ 0x2E :: as.reverse := by
        rw [← List.reverse_reverse n, hsplit]
        simp
      have has' : 0x2E ∉ as.reverse := fun hmem => has (List.mem_reverse.mp hmem)
      rw [htail has'] at he hcond
      obtain rfl := Option.some.inj he
      refine ⟨bs.reverse, ?_, rfl, has'⟩
      rintro hnil
      rw [hnil] at hcond
      simp at hcond
    · have hall : n.reverse.takeWhile (· ≠ 0x2E) = n.reverse := by
        refine List.takeWhile_eq_self_iff.mpr fun b hb => ?_
        exact decide_eq_true fun heq => hdot (heq ▸ hb)
      rw [hall, List.reverse_reverse] at hcond
      omega
  · rintro ⟨stem, hstem, rfl, he⟩
    have hpos : 0 < stem.length := List.length_pos_iff.mpr hstem
    rw [htail he, if_pos ⟨by simp; omega, h⟩]
end KnowledgeImport
