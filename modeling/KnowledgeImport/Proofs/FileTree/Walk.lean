import KnowledgeImport.Scan.Walk
import KnowledgeImport.Proofs.FileTree.Names

/-!
# The files that a walk finds

A walk that goes into every directory finds exactly the files that the tree holds
(`Forest.mem_files_iff`).  A walk that leaves some directories out finds those of them, in the same
order, whose directories were all entered (`Forest.files_eq_filter`).
-/

namespace KnowledgeImport

/-- Goes into every directory. -/
def entersAll (_ : List Name) : Bool := true

/-- The entries hold a regular file under these names: the last one is the file's, the others are
those of directories on the way. -/
inductive Forest.Holds : Forest → List Name → Content → Prop
  | file {entries : Forest} {name : Name} {content : Content}
      (h : (name, .file content) ∈ entries.toList) : Holds entries [name] content
  | inside {entries sub : Forest} {name : Name} {names : List Name} {content : Content}
      (h : (name, .directory sub) ∈ entries.toList) (hsub : Holds sub names content) :
      Holds entries (name :: names) content

namespace Forest

theorem Holds.ne_nil {entries : Forest} {names : List Name} {content : Content}
    (h : entries.Holds names content) : names ≠ [] := by
  cases h <;> exact List.cons_ne_nil _ _

/-- What holds of a tree holds of the names under which it holds a file. -/
theorem Holds.forall_names {R : Name → Prop} {Q : Node → Prop} (hQ : Hereditary R Q)
    {entries : Forest} (hentries : Q (.directory entries)) {names : List Name} {content : Content}
    (h : entries.Holds names content) : ∀ n ∈ names, R n := by
  induction h with
  | file h => exact List.forall_mem_singleton.mpr (hQ _ hentries _ h).1
  | inside h hsub ih =>
    obtain ⟨hname, hnode⟩ := hQ _ hentries _ h
    exact List.forall_mem_cons.mpr ⟨hname, ih hnode⟩

/-- Names under which a slash-free tree holds a file are slash-free. -/
theorem Holds.slashFree {entries : Forest} (hentries : entries.SlashFree) {names : List Name}
    {content : Content} (h : entries.Holds names content) : ∀ n ∈ names, n.SlashFree :=
  h.forall_names hereditary_slashFree hentries

/-- What further entries hold is held with one more in front. -/
theorem Holds.cons {rest : Forest} {names : List Name} {content : Content}
    (h : rest.Holds names content) (name : Name) (node : Node) :
    (Forest.cons name node rest).Holds names content := by
  cases h with
  | file h => exact .file (List.mem_cons_of_mem _ h)
  | inside h hsub => exact .inside (List.mem_cons_of_mem _ h) hsub

/-- What entries hold is held by the first of them or by the others. -/
theorem holds_cons_iff {name : Name} {node : Node} {rest : Forest} {names : List Name}
    {content : Content} :
    (Forest.cons name node rest).Holds names content ↔
      (names = [name] ∧ node = .file content) ∨
      (∃ sub ns, names = name :: ns ∧ node = .directory sub ∧ sub.Holds ns content) ∨
      rest.Holds names content := by
  constructor
  · rintro (h | ⟨h, hsub⟩)
    · rcases List.mem_cons.mp h with heq | h
      · obtain ⟨rfl, rfl⟩ := Prod.mk.inj heq
        exact Or.inl ⟨rfl, rfl⟩
      · exact Or.inr (Or.inr (.file h))
    · rcases List.mem_cons.mp h with heq | h
      · obtain ⟨rfl, rfl⟩ := Prod.mk.inj heq
        exact Or.inr (Or.inl ⟨_, _, rfl, rfl, hsub⟩)
      · exact Or.inr (Or.inr (.inside h hsub))
  · rintro (⟨rfl, rfl⟩ | ⟨sub, ns, rfl, rfl, hsub⟩ | h)
    · exact .file (List.mem_cons_self ..)
    · exact .inside (List.mem_cons_self ..) hsub
    · exact h.cons name node

end Forest

/-! ### Finding every file -/

mutual

/-- The files found at a node that has the given names: itself, or what its directory holds. -/
theorem Node.mem_files_iff (names : List Name) (f : FoundFile) :
    ∀ node : Node, f ∈ node.files entersAll names ↔
      (f.names = names ∧ node = .file f.content) ∨
      ∃ sub ns, f.names = names ++ ns ∧ node = .directory sub ∧ sub.Holds ns f.content
  | .file content => by
    cases f
    simp [Node.files, eq_comm]
  | .link target => by simp [Node.files]
  | .directory entries => by
    rw [Node.files, entersAll, if_pos rfl, Forest.mem_files_below_iff names f entries]
    simp

/-- The files found among the entries of a directory that has the given names are those that the
entries hold. -/
theorem Forest.mem_files_below_iff (names : List Name) (f : FoundFile) :
    ∀ entries : Forest, f ∈ entries.files entersAll names ↔
      ∃ ns, f.names = names ++ ns ∧ entries.Holds ns f.content
  | .nil => by
    simp only [Forest.files, List.not_mem_nil, false_iff]
    rintro ⟨ns, -, ⟨⟨⟩⟩ | ⟨⟨⟩⟩⟩
  | .cons name node rest => by
    rw [Forest.files, List.mem_append, Node.mem_files_iff _ f node,
      Forest.mem_files_below_iff _ f rest]
    simp only [Forest.holds_cons_iff]
    constructor
    · rintro ((⟨hf, hnode⟩ | ⟨sub, ns, hf, hnode, hsub⟩) | ⟨ns, hf, hrest⟩)
      · exact ⟨[name], hf, Or.inl ⟨rfl, hnode⟩⟩
      · rw [List.append_assoc] at hf
        exact ⟨name :: ns, hf, Or.inr (Or.inl ⟨sub, ns, rfl, hnode, hsub⟩)⟩
      · exact ⟨ns, hf, Or.inr (Or.inr hrest)⟩
    · rintro ⟨ns, hf, ⟨rfl, hnode⟩ | ⟨sub, ns, rfl, hnode, hsub⟩ | hrest⟩
      · exact Or.inl (Or.inl ⟨hf, hnode⟩)
      · refine Or.inl (Or.inr ⟨sub, ns, ?_, hnode, hsub⟩)
        rwa [List.append_assoc]
      · exact Or.inr ⟨ns, hf, hrest⟩

end

/-- A walk that goes into every directory finds the files that the tree holds. -/
theorem Forest.mem_files_iff (entries : Forest) (f : FoundFile) :
    f ∈ entries.files entersAll [] ↔ entries.Holds f.names f.content := by
  simp [Forest.mem_files_below_iff]

/-! ### Leaving directories out -/

/-- Every directory on the way to a file is entered, of those with more than `above` names. -/
def FoundFile.Entered (enters : List Name → Bool) (above : Nat) (f : FoundFile) : Prop :=
  ∀ k < f.names.length, above < k → enters (f.names.take k) = true

instance (enters : List Name → Bool) (above : Nat) :
    DecidablePred (FoundFile.Entered enters above) :=
  fun f => inferInstanceAs (Decidable (∀ k < f.names.length, above < k → _))

/-- Of the directories on the way to a file in a directory, the uppermost is that directory. -/
theorem FoundFile.entered_iff {enters : List Name → Bool} {above : Nat} {f : FoundFile}
    {names ns : List Name} (hlen : names.length = above + 1) (hf : f.names = names ++ ns)
    (hns : ns ≠ []) :
    f.Entered enters above ↔ enters names = true ∧ f.Entered enters names.length := by
  have hpos : 0 < ns.length := List.length_pos_iff.mpr hns
  have htake : f.names.take (above + 1) = names := by rw [hf, ← hlen, List.take_left]
  have hlt : above + 1 < f.names.length := by
    rw [hf, List.length_append]
    omega
  rw [hlen]
  constructor
  · intro h
    refine ⟨htake ▸ h (above + 1) hlt (Nat.lt_succ_self above), ?_⟩
    intro k hk hak
    exact h k hk (by omega)
  · rintro ⟨hdir, h⟩ k hk hak
    by_cases heq : k = above + 1
    · rw [heq, htake]
      exact hdir
    · exact h k hk (by omega)

mutual

/-- A walk finds those files of a full walk whose directories it enters. -/
theorem Node.files_eq_filter (enters : List Name → Bool) (above : Nat) (names : List Name)
    (hlen : names.length = above + 1) :
    ∀ node : Node, node.files enters names
      = (node.files entersAll names).filter (FoundFile.Entered enters above ·)
  | .file content => by
    refine (List.filter_eq_self.mpr fun f hf => ?_).symm
    obtain rfl := List.mem_singleton.mp hf
    rw [decide_eq_true_eq]
    intro k hk hak
    dsimp only at hk
    omega
  | .link target => rfl
  | .directory entries => by
    have hfull : (Node.directory entries).files entersAll names = entries.files entersAll names :=
      rfl
    have hentered : ∀ f ∈ entries.files entersAll names,
        f.Entered enters above ↔ enters names = true ∧ f.Entered enters names.length := by
      intro f hf
      obtain ⟨ns, hnames, hholds⟩ := (Forest.mem_files_below_iff names f entries).mp hf
      exact FoundFile.entered_iff hlen hnames hholds.ne_nil
    rw [Node.files, hfull]
    -- a directory that is refused loses all its files, for each has the directory on its way
    by_cases hdir : enters names = true
    · rw [if_pos hdir, Forest.files_eq_filter enters names entries]
      refine List.filter_congr fun f hf => ?_
      rw [decide_eq_decide, hentered f hf, and_iff_right hdir]
    · rw [if_neg hdir]
      refine (List.filter_eq_nil_iff.mpr fun f hf => ?_).symm
      rw [decide_eq_true_eq, hentered f hf]
      exact fun h => hdir h.1

/-- A walk among entries finds those files of a full walk whose directories it enters. -/
theorem Forest.files_eq_filter (enters : List Name → Bool) (names : List Name) :
    ∀ entries : Forest, entries.files enters names
      = (entries.files entersAll names).filter (FoundFile.Entered enters names.length ·)
  | .nil => rfl
  | .cons name node rest => by
    rw [Forest.files, Forest.files, List.filter_append,
      Node.files_eq_filter enters names.length (names ++ [name]) (List.length_append ..) node,
      Forest.files_eq_filter enters names rest]

end

end KnowledgeImport
