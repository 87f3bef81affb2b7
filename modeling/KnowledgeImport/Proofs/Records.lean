import Mathlib.Data.List.Nodup
import Mathlib.Data.List.Perm.Basic

/-!
# Records filled from left to right

A reader takes entries as they come, skips those that name no component of a record, and puts the
value of each other into its component.  If no component is named twice, what it gives does not
depend on the order of the entries: every component has the value of its only entry, or the value
from before if it has none (`Given`).  That this is what putting one entry after the other comes to
is proved once (`given_nil`, `given_cons_skip`, `given_cons_put`), for any components that are
independent of each other and make up the record (`Components`).  Where every entry has to name a
component, no name stands twice (`Given.nodup`), and any entry of a name is the only one
(`given_iff_of_nodup`).
-/

namespace KnowledgeImport

/-- A component of a record: its name, what its content may be read from, and how it stands in the
record. -/
structure Component (δ ρ : Type) where
  name : String
  Content : Type
  reads : δ → Content → Prop
  get : ρ → Content
  set : ρ → Content → ρ

/-- The components have names of their own, do not depend on each other and make up the record. -/
structure Components {δ ρ : Type} (cs : List (Component δ ρ)) : Prop where
  nodup : (cs.map (·.name)).Nodup
  get_set : ∀ c ∈ cs, ∀ r x, c.get (c.set r x) = x
  get_set_of_ne : ∀ c ∈ cs, ∀ c' ∈ cs, c.name ≠ c'.name → ∀ r x, c'.get (c.set r x) = c'.get r
  ext : ∀ r r', (∀ c ∈ cs, c.get r = c.get r') → r = r'

/-! ### Entries -/

section

variable {δ : Type} {es es' : List (String × δ)} {name key : String} {d : δ} {P : δ → Prop}

/-- There is one entry of the name, and it has the property. -/
def Once (es : List (String × δ)) (name : String) (P : δ → Prop) : Prop :=
  ∃ d, es.filter (·.1 = name) = [(name, d)] ∧ P d

/-- There is no entry of the name. -/
def Never (es : List (String × δ)) (name : String) : Prop := name ∉ es.map (·.1)

instance : Decidable (Never es name) := inferInstanceAs (Decidable (name ∉ es.map (·.1)))

theorem never_cons : Never ((key, d) :: es) name ↔ name ≠ key ∧ Never es name := by
  rw [Never, List.map_cons, List.mem_cons, not_or]
  rfl

theorem never_iff : Never es name ↔ es.filter (·.1 = name) = [] := by
  rw [Never, List.filter_eq_nil_iff, List.mem_map, not_exists]
  simp only [decide_eq_true_iff, not_and]

/-- The first entry is the only one of its name. -/
theorem once_cons_self : Once ((name, d) :: es) name P ↔ Never es name ∧ P d := by
  rw [Once, never_iff]
  simp

theorem once_cons_of_ne (h : key ≠ name) : Once ((key, d) :: es) name P ↔ Once es name P := by
  rw [Once, Once, List.filter_cons_of_neg (by simpa using h)]

theorem Once.not_never (h : Once es name P) : ¬ Never es name := by
  obtain ⟨d, hd, -⟩ := h
  rw [never_iff, hd]
  exact List.cons_ne_nil _ _

/-- How often there is an entry of a name does not depend on the order. -/
theorem once_congr (h : (es.filter (·.1 = name)).Perm (es'.filter (·.1 = name))) :
    Once es name P ↔ Once es' name P := by
  refine exists_congr fun d => and_congr_left' ⟨fun heq => ?_, fun heq => ?_⟩
  · rw [heq] at h
    exact List.perm_singleton.mp h.symm
  · rw [heq] at h
    exact List.perm_singleton.mp h

theorem never_congr (h : (es.filter (·.1 = name)).Perm (es'.filter (·.1 = name))) :
    Never es name ↔ Never es' name := by
  rw [never_iff, never_iff, ← List.length_eq_zero_iff, h.length_eq, List.length_eq_zero_iff]

theorem not_never_iff : ¬ Never es name ↔ ∃ d, (name, d) ∈ es := by
  rw [Never, not_not, List.mem_map]
  constructor
  · rintro ⟨⟨_, d⟩, hmem, rfl⟩
    exact ⟨d, hmem⟩
  · rintro ⟨d, hmem⟩
    exact ⟨_, hmem, rfl⟩

/-- If no name stands twice, an entry is the only one of its name. -/
theorem once_iff_of_nodup (h : (es.map (·.1)).Nodup) :
    Once es name P ↔ ∃ d, (name, d) ∈ es ∧ P d := by
  refine exists_congr fun d => and_congr_left' ⟨fun heq => ?_, fun hmem => ?_⟩
  · have hfilter : (name, d) ∈ es.filter (·.1 = name) := by
      rw [heq]
      exact List.mem_cons_self
    exact List.mem_of_mem_filter hfilter
  · induction es with
    | nil => cases hmem
    | cons e es ih =>
      obtain ⟨hnew, hes⟩ := List.nodup_cons.mp h
      obtain rfl | hmem := List.mem_cons.mp hmem
      · rw [List.filter_cons_of_pos (by simp), never_iff.mp hnew]
      · have hne : e.1 ≠ name := by
          rintro rfl
          exact hnew (List.mem_map.mpr ⟨_, hmem, rfl⟩)
        rw [List.filter_cons_of_neg (by simpa using hne), ih hes hmem]

/-- If each entry is the only one of its name, no name stands twice. -/
theorem nodup_of_once (h : ∀ e ∈ es, Once es e.1 fun _ => True) : (es.map (·.1)).Nodup := by
  rw [List.nodup_iff_count_le_one]
  intro name
  by_cases hmem : name ∈ es.map (·.1)
  · obtain ⟨e, he, rfl⟩ := List.mem_map.mp hmem
    obtain ⟨d, hd, -⟩ := h e he
    have hcount : (es.map (·.1)).count e.1 = (es.filter (·.1 = e.1)).length := by
      rw [List.count, List.countP_map, List.countP_eq_length_filter]
      rfl
    rw [hcount, hd]
    exact Nat.le_refl 1
  · rw [List.count_eq_zero_of_not_mem hmem]
    exact Nat.zero_le 1

end

/-! ### Records -/

section

variable {δ ρ : Type} {cs : List (Component δ ρ)} {c : Component δ ρ} {es es' : List (String × δ)}
  {r r' : ρ} {key : String} {d : δ}

theorem Components.eq_of_name_eq (hcs : Components cs) {c' : Component δ ρ} (hc : c ∈ cs)
    (hc' : c' ∈ cs) (h : c.name = c'.name) : c = c' :=
  List.inj_on_of_nodup_map hcs.nodup hc hc' h

/-- Each component has the value of its only entry, or the value from before if it has none. -/
def Given (cs : List (Component δ ρ)) (es : List (String × δ)) (r r' : ρ) : Prop :=
  ∀ c ∈ cs, Never es c.name ∧ c.get r' = c.get r ∨ Once es c.name fun d => c.reads d (c.get r')

theorem given_nil (hcs : Components cs) : Given cs [] r r' ↔ r = r' := by
  constructor
  · intro h
    refine hcs.ext r r' fun c hc => ?_
    obtain ⟨-, hget⟩ | honce := h c hc
    · exact hget.symm
    · exact absurd List.not_mem_nil honce.not_never
  · rintro rfl c -
    exact .inl ⟨List.not_mem_nil, rfl⟩

/-- An entry that names no component makes no difference. -/
theorem given_cons_skip (hkey : ∀ c ∈ cs, c.name ≠ key) :
    Given cs ((key, d) :: es) r r' ↔ Given cs es r r' := by
  refine forall₂_congr fun c hc => ?_
  rw [never_cons, and_iff_right (hkey c hc), once_cons_of_ne (hkey c hc).symm]

/-- The first entry is put into its component, and no other may have its name. -/
theorem given_cons_put (hcs : Components cs) (hc : c ∈ cs) :
    Given cs ((c.name, d) :: es) r r' ↔
      ∃ x, c.reads d x ∧ Never es c.name ∧ Given cs es (c.set r x) r' := by
  constructor
  · intro h
    obtain ⟨hnever, -⟩ | honce := h c hc
    · exact absurd rfl (never_cons.mp hnever).1
    · obtain ⟨hnew, hread⟩ := once_cons_self.mp honce
      -- its own component is settled now, and to the others the entry means nothing
      refine ⟨_, hread, hnew, fun c' hc' => ?_⟩
      by_cases hne : c.name = c'.name
      · obtain rfl := hcs.eq_of_name_eq hc hc' hne
        exact .inl ⟨hnew, (hcs.get_set c hc ..).symm⟩
      · rw [hcs.get_set_of_ne c hc c' hc' hne]
        have hrest := h c' hc'
        rwa [never_cons, and_iff_right (Ne.symm hne), once_cons_of_ne hne] at hrest
  · rintro ⟨x, hread, hnew, h⟩ c' hc'
    by_cases hne : c.name = c'.name
    · obtain rfl := hcs.eq_of_name_eq hc hc' hne
      obtain ⟨-, hget⟩ | honce := h c hc
      · rw [hcs.get_set c hc] at hget
        exact .inr (once_cons_self.mpr ⟨hnew, hget ▸ hread⟩)
      · exact absurd hnew honce.not_never
    · rw [never_cons, and_iff_right (Ne.symm hne), once_cons_of_ne hne]
      have hrest := h c' hc'
      rwa [hcs.get_set_of_ne c hc c' hc' hne] at hrest

/-- There is a record with these contents if there is a content for each component; `A` says which
may have none. -/
theorem exists_given_iff (hcs : Components cs) (r : ρ) {A : Component δ ρ → Prop} :
    (∃ r', ∀ c ∈ cs, A c ∧ c.get r' = c.get r ∨ Once es c.name fun d => c.reads d (c.get r')) ↔
      ∀ c ∈ cs, A c ∨ Once es c.name fun d => ∃ x, c.reads d x := by
  constructor
  · rintro ⟨r', h⟩ c hc
    refine (h c hc).imp And.left ?_
    rintro ⟨d, hd, hread⟩
    exact ⟨d, hd, _, hread⟩
  · intro h
    -- one component after the other, the last one first
    suffices hsome : ∀ cs' : List (Component δ ρ), cs'.Sublist cs → ∃ r',
        (∀ c ∈ cs', A c ∧ c.get r' = c.get r ∨ Once es c.name fun d => c.reads d (c.get r')) ∧
        ∀ c ∈ cs, c ∉ cs' → c.get r' = c.get r by
      obtain ⟨r', hr', -⟩ := hsome cs (List.Sublist.refl cs)
      exact ⟨r', hr'⟩
    intro cs'
    induction cs' with
    | nil => exact fun _ => ⟨r, List.forall_mem_nil _, fun _ _ _ => rfl⟩
    | cons c cs' ih =>
      intro hsub
      have hc : c ∈ cs := hsub.subset List.mem_cons_self
      have hnew : c ∉ cs' := (List.nodup_cons.mp (hsub.nodup hcs.nodup.of_map)).1
      obtain ⟨r', hr', hrest⟩ := ih ((List.sublist_cons_self c cs').trans hsub)
      obtain hA | ⟨d, hd, x, hread⟩ := h c hc
      · refine ⟨r', List.forall_mem_cons.mpr ⟨.inl ⟨hA, hrest c hc hnew⟩, hr'⟩, fun c' hc' hmem => ?_⟩
        exact hrest c' hc' fun hmem' => hmem (List.mem_cons_of_mem _ hmem')
      · have hother (c' : Component δ ρ) (hc' : c' ∈ cs) (hne : c' ≠ c) :
            c'.get (c.set r' x) = c'.get r' :=
          hcs.get_set_of_ne c hc c' hc' (fun hname => hne (hcs.eq_of_name_eq hc' hc hname.symm)) ..
        refine ⟨c.set r' x, List.forall_mem_cons.mpr ⟨.inr ⟨d, hd, ?_⟩, fun c' hmem => ?_⟩,
          fun c' hc' hmem => ?_⟩
        · rwa [hcs.get_set c hc]
        · have hc' : c' ∈ cs := hsub.subset (List.mem_cons_of_mem _ hmem)
          rw [hother c' hc' fun heq => hnew (heq ▸ hmem)]
          exact hr' c' hmem
        · rw [List.mem_cons, not_or] at hmem
          rw [hother c' hc' hmem.1, hrest c' hc' hmem.2]

/-- If there is an entry for each component, it is the only one. -/
theorem given_and_not_never : (Given cs es r r' ∧ ∀ c ∈ cs, ¬ Never es c.name) ↔
    ∀ c ∈ cs, Once es c.name fun d => c.reads d (c.get r') := by
  constructor
  · rintro ⟨h, hnever⟩ c hc
    exact (h c hc).resolve_left fun hnone => hnever c hc hnone.1
  · exact fun h => ⟨fun c hc => .inr (h c hc), fun c hc => (h c hc).not_never⟩

/-- If every entry names a component, none does twice. -/
theorem Given.nodup (h : Given cs es r r') (hnames : ∀ e ∈ es, ∃ c ∈ cs, c.name = e.1) :
    (es.map (·.1)).Nodup := by
  refine nodup_of_once fun e he => ?_
  obtain ⟨c, hc, hname⟩ := hnames e he
  rw [← hname]
  obtain ⟨hnever, -⟩ | ⟨d, hd, -⟩ := h c hc
  · rw [hname] at hnever
    exact absurd hnever (not_never_iff.mpr ⟨e.2, he⟩)
  · exact ⟨d, hd, trivial⟩

/-- If no name stands twice, each component has the value of any entry of its name. -/
theorem given_iff_of_nodup (hnodup : (es.map (·.1)).Nodup) :
    Given cs es r r' ↔ ∀ c ∈ cs, (Never es c.name → c.get r' = c.get r) ∧
      ∀ d, (c.name, d) ∈ es → c.reads d (c.get r') := by
  refine forall₂_congr fun c _ => ?_
  rw [once_iff_of_nodup hnodup]
  constructor
  · rintro (⟨hnever, hget⟩ | ⟨d, hd, hread⟩)
    · exact ⟨fun _ => hget, fun d hd => absurd hnever (not_never_iff.mpr ⟨d, hd⟩)⟩
    · refine ⟨fun hnever => absurd hnever (not_never_iff.mpr ⟨d, hd⟩), fun d' hd' => ?_⟩
      obtain ⟨-, rfl⟩ := Prod.mk.inj (List.inj_on_of_nodup_map hnodup hd hd' rfl)
      exact hread
  · rintro ⟨hget, hread⟩
    by_cases hnever : Never es c.name
    · exact .inl ⟨hnever, hget hnever⟩
    · obtain ⟨d, hd⟩ := not_never_iff.mp hnever
      exact .inr ⟨d, hd, hread d hd⟩

end

end KnowledgeImport
