import KnowledgeImport.Proofs.FileTree.WellFormed

/-!
# Directories below a directory

Where a directory of a tree is reached through directories only (`Forest.HasDirectory`), what the
tree holds below it is what the directory holds (`Forest.HasDirectory.holds_append_iff`).  The path
of the directory below the root of the tree leads to it, if the system takes the path at all
(`FileSystem.node_below`): following a path goes on where following its first steps ends
(`follow_append`), so the links on the way to the root are passed as before, and there are none
behind it.
-/

namespace KnowledgeImport

open Text

namespace Forest

/-- The directory with the entries `dir` is reached from the entries under these names, through
directories only. -/
inductive HasDirectory : Forest → List Name → Forest → Prop
  | here {entries : Forest} : HasDirectory entries [] entries
  | inside {entries sub dir : Forest} {name : Name} {names : List Name}
      (h : (name, .directory sub) ∈ entries.toList) (hsub : HasDirectory sub names dir) :
      HasDirectory entries (name :: names) dir

/-- An entry is found under its name, for no two entries have the same one. -/
theorem WellFormed.find?_of_mem {entries : Forest} (h : entries.WellFormed) {name : Name}
    {node : Node} (hmem : (name, node) ∈ entries.toList) : entries.find? name = some node := by
  fun_induction Forest.toList entries with
  | case1 => cases hmem
  | case2 n node' rest ih =>
    obtain ⟨-, -, hlt, hrest⟩ := h
    rw [find?]
    rcases List.mem_cons.mp hmem with heq | hmem
    · obtain ⟨rfl, rfl⟩ := Prod.mk.inj heq
      rw [if_pos rfl]
    · have hne : n ≠ name := by
        rintro rfl
        exact List.lt_irrefl _ (hlt _ hmem)
      rw [if_neg hne]
      exact ih hrest hmem

/-- What entries hold under several names lies in an entry that has the first one. -/
theorem Holds.of_cons {entries : Forest} {name : Name} {names : List Name} {content : Content}
    (h : entries.Holds (name :: names) content) :
    (name, .file content) ∈ entries.toList ∨
      ∃ sub, (name, .directory sub) ∈ entries.toList ∧ sub.Holds names content := by
  cases h with
  | file h => exact Or.inl h
  | inside h hsub => exact Or.inr ⟨_, h, hsub⟩

namespace HasDirectory

variable {entries dir : Forest} {names : List Name}

/-- What holds of a tree holds of the names that lead to a directory, and of the directory. -/
theorem forall_names {R : Name → Prop} {Q : Node → Prop} (hQ : Hereditary R Q)
    (h : entries.HasDirectory names dir) (hentries : Q (.directory entries)) :
    (∀ n ∈ names, R n) ∧ Q (.directory dir) := by
  induction h with
  | here => exact ⟨List.forall_mem_nil _, hentries⟩
  | inside h hsub ih =>
    obtain ⟨hname, hnode⟩ := hQ _ hentries _ h
    obtain ⟨hnames, hdir⟩ := ih hnode
    exact ⟨List.forall_mem_cons.mpr ⟨hname, hnames⟩, hdir⟩

/-- A tree holds below a directory what the directory holds. -/
theorem holds_append_iff (h : entries.HasDirectory names dir) (hentries : entries.WellFormed)
    {rest : List Name} {content : Content} :
    entries.Holds (names ++ rest) content ↔ dir.Holds rest content := by
  induction h with
  | here => exact Iff.rfl
  | @inside entries sub dir name names hmem hsub ih =>
    have hfind := hentries.find?_of_mem hmem
    rw [← ih (hentries.of_mem hmem).2, List.cons_append]
    constructor
    · intro hholds
      -- the first name is that of one entry only, which is the directory
      rcases hholds.of_cons with hfile | ⟨sub', hmem', hholds⟩
      · rw [hentries.find?_of_mem hfile] at hfind
        cases hfind
      · rw [hentries.find?_of_mem hmem'] at hfind
        obtain rfl := Node.directory.inj (Option.some.inj hfind)
        exact hholds
    · exact fun hholds => .inside hmem hholds

end HasDirectory

end Forest

/-! ### Following a path in two parts -/

/-- One step to an entry that is no link. -/
theorem follow_entry {root : Node} (links : Nat) {here : Trail} (todo : List Path.Component)
    {entries : Forest} {name : Name} {node : Node} (hhere : here.node root = .directory entries)
    (hname : ¬ name.length > longestName) (hfind : entries.find? name = some node)
    (hlink : ∀ target, node ≠ .link target) :
    follow root links here (.entry name :: todo) = follow root links ((name, node) :: here) todo := by
  rw [follow, hhere]
  cases node with
  | link target => exact absurd rfl (hlink target)
  | file content | directory sub => simp [hname, hfind]

/-- Following steps and then more: the first steps fail, and so does the whole, or the others are
followed from where they end, with the links that are left. -/
theorem follow_append (root : Node) (links : Nat) (here : Trail) (xs : List Path.Component) :
    (∃ e, ∀ ys, follow root links here (xs ++ ys) = .error e) ∨
      ∃ t left, follow root links here xs = .ok t ∧
        ∀ ys, follow root links here (xs ++ ys) = follow root left t ys := by
  fun_induction follow root links here xs with
  | case1 links here => exact Or.inr ⟨here, links, rfl, fun ys => rfl⟩
  | case2 links here todo entries hnode ih =>
    have hstep (ys : List Path.Component) : follow root links here (.current :: todo ++ ys)
        = follow root links here (todo ++ ys) := by
      rw [List.cons_append, follow, hnode]
    simpa only [hstep] using ih
  | case3 links here todo entries hnode ih =>
    have hstep (ys : List Path.Component) : follow root links here (.parent :: todo ++ ys)
        = follow root links here.tail (todo ++ ys) := by
      rw [List.cons_append, follow, hnode]
    simpa only [hstep] using ih
  | case4 links here todo entries hnode name hname =>
    left
    refine ⟨.nameTooLong, fun ys => ?_⟩
    rw [List.cons_append, follow, hnode]
    simp [hname]
  | case5 links here todo entries hnode name hname hfind =>
    left
    refine ⟨.notFound, fun ys => ?_⟩
    rw [List.cons_append, follow, hnode]
    simp [hname, hfind]
  | case6 here todo entries hnode name hname target hfind =>
    left
    refine ⟨.tooManyLinks, fun ys => ?_⟩
    rw [List.cons_append, follow, hnode]
    simp [hname, hfind]
  | case7 here todo entries hnode name hname target hfind links ih =>
    have hstep (ys : List Path.Component) :
        follow root (links + 1) here (.entry name :: todo ++ ys)
          = follow root links (if h : target.isAbsolute then [] else here)
              (target.components ++ todo ++ ys) := by
      rw [List.cons_append, follow, hnode]
      simp [hname, hfind]
    rcases ih with ⟨e, he⟩ | ⟨t, left, ht, hleft⟩
    · exact Or.inl ⟨e, fun ys => (hstep ys).trans (he ys)⟩
    · exact Or.inr ⟨t, left, ht, fun ys => (hstep ys).trans (hleft ys)⟩
  | case8 links here todo entries hnode name hname node hlink hfind ih =>
    have hstep (ys : List Path.Component) : follow root links here (.entry name :: todo ++ ys)
        = follow root links ((name, node) :: here) (todo ++ ys) := by
      apply follow_entry links (todo ++ ys) hnode hname hfind
      rintro target rfl
      exact hlink target rfl
    simpa only [hstep] using ih
  | case9 links here step todo hnode =>
    left
    refine ⟨.notDirectory, fun ys => ?_⟩
    rw [List.cons_append, follow]
    split
    · rename_i entries heq
      exact absurd heq (hnode entries)
    · rfl

/-- Who at most is to stay ends where he is. -/
theorem eq_of_follow_stay {root : Node} {links : Nat} {here t : Trail} {stay : Prop}
    [Decidable stay] (h : follow root links here (if stay then [.current] else []) = .ok t) :
    t = here := by
  split_ifs at h
  · cases hhere : here.node root with
    | directory entries =>
      rw [follow, hhere] at h
      rw [follow] at h
      exact (Except.ok.inj h).symm
    | file content | link target =>
      rw [follow, hhere] at h
      cases h
  · rw [follow] at h
    exact (Except.ok.inj h).symm

/-- From a directory of a well-formed tree, the names of a directory below it lead to that one, if
none of them is too long. -/
theorem Forest.HasDirectory.node_of_follow {entries dir : Forest} {names : List Name}
    (h : entries.HasDirectory names dir) (hentries : entries.WellFormed) {root : Node}
    {links : Nat} {here t : Trail} (hhere : here.node root = .directory entries)
    (hfollow : follow root links here (names.map .entry) = .ok t) :
    t.node root = .directory dir := by
  induction h generalizing here with
  | here =>
    rw [List.map_nil, follow] at hfollow
    obtain rfl := Except.ok.inj hfollow
    exact hhere
  | @inside entries sub dir name names hmem hsub ih =>
    have hfind := hentries.find?_of_mem hmem
    by_cases hname : name.length > longestName
    · rw [List.map_cons, follow, hhere] at hfollow
      simp [hname] at hfollow
    · rw [List.map_cons, follow_entry links _ hhere hname hfind (by simp)] at hfollow
      exact ih (hentries.of_mem hmem).2 rfl hfollow

/-! ### Paths below a path -/

namespace Path

theorem below_append (root : Path) (names rest : List Name) :
    root.below (names ++ rest) = (root.below names).below rest :=
  List.foldl_append

/-- A path with a name behind it starts with the path and ends with the name. -/
theorem octets_join (p : Path) (hp : p.octets ≠ []) {n : Name} (hn : n.Valid) :
    (p.join ⟨n⟩).octets = p.octets ++ n ∨ (p.join ⟨n⟩).octets = p.octets ++ separator :: n := by
  have hrelative : isAbsolute ⟨n⟩ = false := by
    rw [isAbsolute, beq_eq_false_iff_ne]
    intro hhead
    exact hn.slashFree (List.mem_of_mem_head? hhead)
  have hempty : p.octets.isEmpty = false := by simpa using hp
  unfold join
  rw [hrelative, hempty]
  by_cases hlast : (p.octets.getLast? == some separator) = true
  · left
    simp [hlast]
  · right
    simp [hlast]

/-- A path with names behind it starts with the path. -/
theorem prefix_below (p : Path) (hp : p.octets ≠ []) {names : List Name}
    (h : ∀ n ∈ names, n.Valid) : p.octets <+: (p.below names).octets := by
  induction names generalizing p with
  | nil => exact List.prefix_rfl
  | cons n names ih =>
    obtain ⟨hn, hnames⟩ := List.forall_mem_cons.mp h
    have hjoin : p.octets <+: (p.join ⟨n⟩).octets := by
      rcases octets_join p hp hn with heq | heq
      · rw [heq]
        exact List.prefix_append _ _
      · rw [heq]
        exact List.prefix_append _ _
    have hne : (p.join ⟨n⟩).octets ≠ [] := by
      intro hnil
      rw [hnil, List.prefix_nil] at hjoin
      exact hp hjoin
    exact hjoin.trans (ih _ hne hnames)

theorem isAbsolute_below (p : Path) (hp : p.octets ≠ []) {names : List Name}
    (h : ∀ n ∈ names, n.Valid) : (p.below names).isAbsolute = p.isAbsolute := by
  obtain ⟨b, bs, hb⟩ := List.exists_cons_of_ne_nil hp
  obtain ⟨rest, hrest⟩ := prefix_below p hp h
  rw [isAbsolute, isAbsolute, ← hrest, hb]
  rfl

/-- The steps to what lies below a path are those of the names of the path, and then those of its
own names. -/
theorem components_below (p : Path) (hp : p.octets ≠ []) {names : List Name} (hne : names ≠ [])
    (h : ∀ n ∈ names, n.Valid) :
    (p.below names).components
      = p.names.map Component.ofName ++ names.map Component.entry := by
  have hentries : names.map Component.ofName = names.map Component.entry := by
    apply List.map_congr_left
    intro n hn
    have hvalid := h n hn
    rw [Component.ofName, if_neg hvalid.ne_current, if_neg hvalid.ne_parent]
  -- the last octet is that of a name
  have hlast : (p.below names).octets.getLast? ≠ some separator := by
    obtain ⟨init, n, rfl⟩ := (List.eq_nil_or_concat names).resolve_left hne
    rw [List.concat_eq_append] at h ⊢
    have hn : n.Valid := h n (by simp)
    have hinit : ∀ m ∈ init, m.Valid := fun m hm => h m (by simp [hm])
    have hpne : (p.below init).octets ≠ [] := by
      intro hnil
      have hbelow := prefix_below p hp hinit
      rw [hnil, List.prefix_nil] at hbelow
      exact hp hbelow
    obtain ⟨b, hb⟩ : ∃ b, n.getLast? = some b := ⟨_, List.getLast?_eq_some_getLast hn.ne_nil⟩
    have hsep : b ≠ separator := by
      rintro rfl
      exact hn.slashFree (List.mem_of_getLast? hb)
    rw [below_append]
    show ((p.below init).join ⟨n⟩).octets.getLast? ≠ _
    rcases octets_join (p.below init) hpne hn with heq | heq
    · rw [heq, List.getLast?_append, hb]
      simpa using hsep
    · rw [heq, List.getLast?_append, List.getLast?_cons, hb]
      simpa using hsep
  rw [components, names_below p h, List.map_append, hentries, if_neg (by simpa using hlast),
    List.append_nil]

/-- The path lies at or below the directory, name by name. -/
def Within (p dir : Path) : Prop := dir.names <+: p.names

instance (p dir : Path) : Decidable (p.Within dir) :=
  inferInstanceAs (Decidable (dir.names <+: p.names))

theorem within_below_iff (root : Path) {names dir : List Name} (h : ∀ n ∈ names, n.Valid)
    (hdir : ∀ n ∈ dir, n.Valid) : (root.below names).Within (root.below dir) ↔ dir <+: names := by
  rw [Within, names_below root h, names_below root hdir, List.prefix_append_right_inj]

end Path

/-! ### The node of a path below a root -/

namespace FileSystem

theorem node_eq_ok_iff {fs : FileSystem} {p : Path} {node : Node} :
    fs.node p = .ok node ↔ ∃ t, fs.resolve p = .ok t ∧ t.node fs.root = node := by
  rw [FileSystem.node]
  cases fs.resolve p with
  | error e => simp [bind, Except.bind]
  | ok t => simp [bind, Except.bind, pure, Except.pure]

/-- The path of a directory below a root leads to it, if it leads anywhere. -/
theorem node_below {fs : FileSystem} {root : Path} {entries dir : Forest} {names : List Name}
    (hentries : entries.WellFormed) (hnode : fs.node root = .ok (.directory entries))
    (hne : names ≠ []) (hdir : entries.HasDirectory names dir)
    (hexists : fs.exists? (root.below names) = true) :
    fs.node (root.below names) = .ok (.directory dir) := by
  have hvalid := (hdir.forall_names hereditary_wellFormed hentries).1
  obtain ⟨t, ht, hroot⟩ := node_eq_ok_iff.mp hnode
  obtain ⟨hp, start, hstart, hfollow⟩ := follow_of_resolve ht
  obtain ⟨t', ht'⟩ : ∃ t', fs.resolve (root.below names) = .ok t' := by
    unfold exists? at hexists
    split at hexists
    · rename_i node hbelow
      obtain ⟨t', ht', -⟩ := node_eq_ok_iff.mp hbelow
      exact ⟨t', ht'⟩
    · cases hexists
  obtain ⟨-, start', hstart', hfollow'⟩ := follow_of_resolve ht'
  -- both paths start in the same place
  have hsameStart : fs.start (root.below names) = fs.start root := by
    unfold FileSystem.start
    rw [Path.isAbsolute_below root hp hvalid]
  rw [hsameStart, hstart] at hstart'
  obtain rfl := Except.ok.inj hstart'
  rw [Path.components_below root hp hne hvalid] at hfollow'
  rcases follow_append fs.root linkLimit start (root.names.map Path.Component.ofName) with
    ⟨e, he⟩ | ⟨mid, left, hmid, hleft⟩
  · rw [he] at hfollow'
    cases hfollow'
  · rw [Path.components, hleft] at hfollow
    obtain rfl := eq_of_follow_stay hfollow
    rw [hleft] at hfollow'
    exact node_eq_ok_iff.mpr ⟨t', ht', hdir.node_of_follow hentries hroot hfollow'⟩

end FileSystem

end KnowledgeImport
