import KnowledgeImport.Proofs.Json.Trees
import KnowledgeImport.Proofs.Records
import Mathlib.Data.List.Forall2
import Mathlib.Data.List.Nodup

/-!
# Records from objects and arrays

A record whose fields are independent components is read from an object whatever the order of its
members is: each field has the value of the only member of its name, or its initial value if it may
be absent and is; members of other names make no difference (`RecordField.readRecord_ofMembers`).
From an array it is read if there is one element for each field, in their order
(`RecordField.readRecord_array`).
-/

namespace KnowledgeImport.Json

/-- The object with these members. -/
def Draft.ofMembers (ms : List (String × Draft)) : Draft :=
  .object (ms.map fun m => (.text (.text m.1), m.2)) none

/-- A reader who skips values of members finds no fault in them. -/
def Skippable (ms : List (String × Draft)) : Prop := ∀ m ∈ ms, m.2.looseFault? = none

theorem Draft.WrittenBy.skippable {ms : List (String × Draft)} {s : String}
    (h : (Draft.ofMembers ms).WrittenBy s) : Skippable ms := by
  obtain ⟨_, ⟨-, parts, hparts, -⟩, -⟩ := h
  induction ms generalizing parts with
  | nil => exact List.forall_mem_nil _
  | cons m ms ih =>
    obtain ⟨cs, rest, ⟨_, _, _, _, -, -, -, hd, -⟩, hms, -⟩ := hparts
    exact List.forall_mem_cons.mpr ⟨m.2.looseFault?_eq_none hd, ih rest hms⟩

namespace RecordField

variable {ρ : Type} {field : RecordField ρ} {fields : List (RecordField ρ)}
  {c : Component Draft ρ} {cs : List (Component Draft ρ)} {r r' initial : ρ}

/-- The field stands for the component. -/
structure Is (field : RecordField ρ) (c : Component Draft ρ) : Prop where
  name_eq : field.name = c.name
  set_eq_ok_iff : ∀ {d r r'}, field.set d r = .ok r' ↔ ∃ x, c.reads d x ∧ c.set r x = r'

/-- A field from a reading stands for a component of what can be read. -/
theorem is_of {α : Type} {name : String} {read : Reading α} {reads : Draft → α → Prop}
    {get : ρ → α} {store : ρ → α → ρ} {required : Bool}
    (hread : ∀ {d x}, read d = .ok x ↔ reads d x) :
    (RecordField.of name read store required).Is ⟨name, α, reads, get, store⟩ where
  name_eq := rfl
  set_eq_ok_iff := by
    intro d r r'
    show (read d).map (store r) = _ ↔ _
    simp only [map_eq_ok_iff, hread]

/-- The fields stand for the components, in their order. -/
structure Comprise (fields : List (RecordField ρ)) (cs : List (Component Draft ρ)) : Prop
    extends Components cs where
  fields : List.Forall₂ Is fields cs

theorem exists_is_of_mem (h : List.Forall₂ Is fields cs) (hfield : field ∈ fields) :
    ∃ c ∈ cs, field.Is c := by
  induction h with
  | nil => cases hfield
  | cons his _ ih =>
    obtain rfl | hfield := List.mem_cons.mp hfield
    · exact ⟨_, List.mem_cons_self, his⟩
    · obtain ⟨c, hc, his⟩ := ih hfield
      exact ⟨c, List.mem_cons_of_mem _ hc, his⟩

theorem exists_mem_is (h : List.Forall₂ Is fields cs) (hc : c ∈ cs) :
    ∃ field ∈ fields, field.Is c := by
  induction h with
  | nil => cases hc
  | cons his _ ih =>
    obtain rfl | hc := List.mem_cons.mp hc
    · exact ⟨_, List.mem_cons_self, his⟩
    · obtain ⟨field, hfield, his⟩ := ih hc
      exact ⟨field, List.mem_cons_of_mem _ hfield, his⟩

/-- The fields have the names of the components. -/
theorem Comprise.mem_names_iff (h : Comprise fields cs) {key : String} :
    key ∈ fields.map (·.name) ↔ ∃ c ∈ cs, c.name = key := by
  rw [List.mem_map]
  constructor
  · rintro ⟨field, hfield, rfl⟩
    obtain ⟨c, hc, his⟩ := exists_is_of_mem h.fields hfield
    exact ⟨c, hc, his.name_eq.symm⟩
  · rintro ⟨c, hc, rfl⟩
    obtain ⟨field, hfield, his⟩ := exists_mem_is h.fields hc
    exact ⟨field, hfield, his.name_eq⟩

/-- A name finds the field of its component. -/
theorem Comprise.find?_eq (h : Comprise fields cs) (hc : c ∈ cs) :
    ∃ field, fields.find? (·.name = c.name) = some field ∧ field.Is c := by
  obtain ⟨field, hfield, his⟩ := exists_mem_is h.fields hc
  cases hfind : fields.find? (·.name = c.name) with
  | none =>
    rw [List.find?_eq_none] at hfind
    exact absurd (decide_eq_true his.name_eq) (hfind field hfield)
  | some found =>
    obtain ⟨c', hc', his'⟩ := exists_is_of_mem h.fields (List.mem_of_find?_eq_some hfind)
    have hname : found.name = c.name := by simpa using List.find?_some hfind
    obtain rfl := h.eq_of_name_eq hc' hc (his'.name_eq.symm.trans hname)
    exact ⟨found, rfl, his'⟩

theorem Comprise.find?_eq_none (h : Comprise fields cs) {key : String}
    (hkey : ∀ c ∈ cs, c.name ≠ key) : fields.find? (·.name = key) = none := by
  rw [List.find?_eq_none]
  intro field hfield hname
  obtain ⟨c, hc, his⟩ := exists_is_of_mem h.fields hfield
  exact hkey c hc (his.name_eq.symm.trans (of_decide_eq_true hname))

/-! ### Objects -/

variable {ms ms' : List (String × Draft)} {key : String} {d : Draft} {seen seen' : List String}

/-- The keys that name fields, the last one first. -/
def declared (fields : List (RecordField ρ)) (ms : List (String × Draft)) : List String :=
  ((ms.map (·.1)).filter (· ∈ fields.map (·.name))).reverse

theorem mem_declared (h : Comprise fields cs) (hc : c ∈ cs) :
    c.name ∈ declared fields ms ↔ ¬ Never ms c.name := by
  rw [declared, List.mem_reverse, List.mem_filter, decide_eq_true_iff, Never, not_not,
    and_iff_left (h.mem_names_iff.mpr ⟨c, hc, rfl⟩)]

theorem declared_cons_of_mem (h : Comprise fields cs) (hc : c ∈ cs) :
    declared fields ((c.name, d) :: ms) ++ seen = declared fields ms ++ c.name :: seen := by
  have hmem : c.name ∈ fields.map (·.name) := h.mem_names_iff.mpr ⟨c, hc, rfl⟩
  rw [declared, List.map_cons, List.filter_cons_of_pos (by simpa using hmem), List.reverse_cons,
    List.append_assoc]
  rfl

theorem declared_cons_of_notMem (h : Comprise fields cs) (hkey : ∀ c ∈ cs, c.name ≠ key) :
    declared fields ((key, d) :: ms) = declared fields ms := by
  have hmem : key ∉ fields.map (·.name) := by
    rw [h.mem_names_iff]
    rintro ⟨c, hc, hname⟩
    exact hkey c hc hname
  rw [declared, List.map_cons, List.filter_cons_of_neg (by simpa using hmem)]
  rfl

/-- A member that names no field is skipped. -/
theorem readMembers_cons_skip (h : Comprise fields cs) (hkey : ∀ c ∈ cs, c.name ≠ key)
    (hd : d.looseFault? = none) {rest : List (Draft × Draft)} :
    readMembers fields seen r ((.text (.text key), d) :: rest) = readMembers fields seen r rest := by
  rw [readMembers, Draft.readKey]
  dsimp only [bind, Except.bind]
  rw [h.find?_eq_none hkey, hd]

/-- A member that names a field is put into its component, if none before has its name. -/
theorem readMembers_cons_eq_ok_iff (h : Comprise fields cs) (hc : c ∈ cs)
    {rest : List (Draft × Draft)} :
    readMembers fields seen r ((.text (.text c.name), d) :: rest) = .ok (seen', r') ↔
      c.name ∉ seen ∧ ∃ x, c.reads d x ∧
        readMembers fields (c.name :: seen) (c.set r x) rest = .ok (seen', r') := by
  obtain ⟨field, hfind, his⟩ := h.find?_eq hc
  rw [readMembers, bind_eq_ok_iff]
  simp only [Draft.readKey, Except.ok.injEq, exists_eq_left']
  rw [hfind]
  dsimp only
  split_ifs with hseen
  · rw [List.contains_iff_mem] at hseen
    exact iff_of_false throw_bind_ne_ok fun hnew => hnew.1 hseen
  · rw [List.contains_iff_mem] at hseen
    rw [and_iff_right hseen]
    simp only [bind_eq_ok_iff, his.set_eq_ok_iff]
    constructor
    · rintro ⟨_, ⟨x, hread, rfl⟩, hrest⟩
      exact ⟨x, hread, hrest⟩
    · rintro ⟨x, hread, hrest⟩
      exact ⟨_, ⟨x, hread, rfl⟩, hrest⟩

/-- What the members make of a record, and which names have been seen behind them. -/
theorem readMembers_eq_ok_iff (h : Comprise fields cs) (hms : Skippable ms) :
    readMembers fields seen r (ms.map fun m => (.text (.text m.1), m.2)) = .ok (seen', r') ↔
      Given cs ms r r' ∧ (∀ c ∈ cs, c.name ∈ seen → Never ms c.name) ∧
        declared fields ms ++ seen = seen' := by
  induction ms generalizing seen r with
  | nil =>
    rw [List.map_nil, readMembers, Except.ok.injEq, Prod.mk.injEq, given_nil h.toComponents,
      and_comm, and_congr_right_iff]
    exact fun _ => (and_iff_right fun _ _ _ => List.not_mem_nil).symm
  | cons m ms ih =>
    obtain ⟨key, d⟩ := m
    obtain ⟨hd, hskip⟩ := List.forall_mem_cons.mp hms
    rw [List.map_cons]
    by_cases hkey : ∃ c ∈ cs, c.name = key
    · obtain ⟨c, hc, rfl⟩ := hkey
      rw [readMembers_cons_eq_ok_iff h hc, declared_cons_of_mem h hc,
        given_cons_put h.toComponents hc]
      simp only [ih hskip]
      constructor
      · rintro ⟨hfirst, x, hread, hrest, hnew, hseen⟩
        refine ⟨⟨x, hread, hnew c hc List.mem_cons_self, hrest⟩, fun c' hc' hmem => ?_, hseen⟩
        exact never_cons.mpr
          ⟨fun heq => hfirst (heq ▸ hmem), hnew c' hc' (List.mem_cons_of_mem _ hmem)⟩
      · rintro ⟨⟨x, hread, hnever, hrest⟩, hnew, hseen⟩
        refine ⟨fun hmem => (never_cons.mp (hnew c hc hmem)).1 rfl, x, hread, hrest,
          fun c' hc' hmem => ?_, hseen⟩
        obtain hname | hmem := List.mem_cons.mp hmem
        · rwa [hname]
        · exact (never_cons.mp (hnew c' hc' hmem)).2
    · -- a member of another name changes neither the record nor what has been seen
      have hskipped (c : Component Draft ρ) (hc : c ∈ cs) : c.name ≠ key :=
        fun hname => hkey ⟨c, hc, hname⟩
      rw [readMembers_cons_skip h hskipped hd, declared_cons_of_notMem h hskipped,
        given_cons_skip hskipped, ih hskip]
      refine and_congr_right' (and_congr_left' (forall₂_congr fun c hc => ?_))
      rw [never_cons, and_iff_right (hskipped c hc)]

/-- What a record is if it is read from an object. Fields that are required must not be absent. -/
theorem readRecord_ofMembers (h : Comprise fields cs) (expected : String) {required : Bool}
    (hrequired : ∀ field ∈ fields, field.required = required) (hms : Skippable ms) :
    readRecord expected fields initial (Draft.ofMembers ms) = .ok r ↔
      Given cs ms initial r ∧ (required = true → ∀ c ∈ cs, ¬ Never ms c.name) := by
  have hmissing : fields.find? (fun field => field.required &&
      !(declared fields ms).contains field.name) = none ↔
      (required = true → ∀ c ∈ cs, ¬ Never ms c.name) := by
    rw [List.find?_eq_none]
    constructor
    · intro hnone hreq c hc
      obtain ⟨field, hfield, his⟩ := exists_mem_is h.fields hc
      have hseen := hnone field hfield
      rw [hrequired field hfield, hreq, his.name_eq] at hseen
      exact (mem_declared h hc).mp (by simpa using hseen)
    · intro hgiven field hfield
      obtain ⟨c, hc, his⟩ := exists_is_of_mem h.fields hfield
      rw [hrequired field hfield, his.name_eq]
      cases required with
      | false => simp
      | true => simpa using (mem_declared h hc).mpr (hgiven rfl c hc)
  rw [Draft.ofMembers, readRecord, bind_eq_ok_iff, ← hmissing]
  simp only [Prod.exists, readMembers_eq_ok_iff h hms]
  constructor
  · rintro ⟨_, r', ⟨hgiven, -, rfl⟩, hread⟩
    rw [List.append_nil] at hread
    split at hread
    case h_1 => exact absurd hread throw_ne_ok
    case h_2 hnone =>
      obtain rfl := pure_eq_ok_iff.mp hread
      exact ⟨hgiven, hnone⟩
  · rintro ⟨hgiven, hnone⟩
    refine ⟨_, r, ⟨hgiven, fun _ _ => nofun, rfl⟩, ?_⟩
    rw [List.append_nil, hnone]
    rfl

/-- The members of these names are the same, maybe in another order. -/
def SameMembers (names : List String) (ms ms' : List (String × Draft)) : Prop :=
  (ms.filter (·.1 ∈ names)).Perm (ms'.filter (·.1 ∈ names))

theorem SameMembers.perm_filter {names : List String} (h : SameMembers names ms ms')
    {name : String} (hname : name ∈ names) :
    (ms.filter (·.1 = name)).Perm (ms'.filter (·.1 = name)) := by
  have hfilter (ms : List (String × Draft)) :
      (ms.filter (·.1 ∈ names)).filter (·.1 = name) = ms.filter (·.1 = name) := by
    rw [List.filter_filter]
    refine List.filter_congr fun m _ => ?_
    rw [← Bool.decide_and, decide_eq_decide, and_iff_left_iff_imp]
    rintro rfl
    exact hname
  rw [← hfilter ms, ← hfilter ms']
  exact h.filter _

/-- How a record is read from texts of objects. There is exactly one member for each component, and
it has the component's value; or there may be none, and the component has its initial value. -/
structure ReadsObjects (read : Reading ρ) (cs : List (Component Draft ρ)) (required : Bool)
    (initial : ρ) : Prop where
  accepts_iff : ∀ ms s, (Draft.ofMembers ms).WrittenBy s → ((∃ r, readString read s = .ok r) ↔
    ∀ c ∈ cs, (required = false ∧ Never ms c.name) ∨
      Once ms c.name fun d => ∃ x, c.reads d x)
  reads_iff : ∀ ms s, (Draft.ofMembers ms).WrittenBy s → ∀ r, (readString read s = .ok r ↔
    ∀ c ∈ cs, (required = false ∧ Never ms c.name) ∧ c.get r = c.get initial ∨
      Once ms c.name fun d => c.reads d (c.get r))
  congr : ∀ ms s ms' s', (Draft.ofMembers ms).WrittenBy s → (Draft.ofMembers ms').WrittenBy s' →
    SameMembers (cs.map (·.name)) ms ms' →
    ∀ r, (readString read s = .ok r ↔ readString read s' = .ok r)

theorem given_and_required {required : Bool} :
    (Given cs ms initial r ∧ (required = true → ∀ c ∈ cs, ¬ Never ms c.name)) ↔
      ∀ c ∈ cs, (required = false ∧ Never ms c.name) ∧ c.get r = c.get initial ∨
        Once ms c.name fun d => c.reads d (c.get r) := by
  cases required with
  | false => simp [Given]
  | true => simpa using given_and_not_never

/-- A record whose fields are independent components is read from objects by the names of its
fields. -/
theorem Comprise.readsObjects (h : Comprise fields cs) (expected : String) {required : Bool}
    (hrequired : ∀ field ∈ fields, field.required = required) (initial : ρ) :
    ReadsObjects (readRecord expected fields initial) cs required initial := by
  have hreads (ms : List (String × Draft)) (s : String) (hs : (Draft.ofMembers ms).WrittenBy s)
      (r : ρ) : readString (readRecord expected fields initial) s = .ok r ↔
        ∀ c ∈ cs, (required = false ∧ Never ms c.name) ∧ c.get r = c.get initial ∨
          Once ms c.name fun d => c.reads d (c.get r) := by
    rw [hs.readString_eq_ok_iff, readRecord_ofMembers h expected hrequired hs.skippable,
      given_and_required]
  refine ⟨fun ms s hs => ?_, hreads, fun ms s ms' s' hs hs' hsame r => ?_⟩
  · simp only [hreads ms s hs]
    exact exists_given_iff h.toComponents initial
  · have hfilter (c : Component Draft ρ) (hc : c ∈ cs) :=
      hsame.perm_filter (List.mem_map_of_mem hc)
    rw [hreads ms s hs, hreads ms' s' hs']
    exact forall₂_congr fun c hc => or_congr (and_congr_left' (and_congr_right' (never_congr
      (hfilter c hc)))) (once_congr (hfilter c hc))

/-! ### Arrays -/

theorem readInOrder_eq_ok_iff (hcs : Components cs) {expected : String} {n : Nat}
    {fs : List (RecordField ρ)} (hrequired : ∀ field ∈ fs, field.required = true)
    {cs' : List (Component Draft ρ)} (h : List.Forall₂ Is fs cs') (hsub : cs'.Sublist cs)
    {ds : List Draft} :
    readInOrder fields expected n none r fs ds = .ok r' ↔
      List.Forall₂ (fun c d => c.reads d (c.get r')) cs' ds ∧
        ∀ c ∈ cs, c ∉ cs' → c.get r' = c.get r := by
  induction h generalizing n r ds with
  | nil =>
    cases ds with
    | nil =>
      rw [readInOrder, Except.ok.injEq, and_iff_right .nil]
      constructor
      · rintro rfl _ _ _
        rfl
      · intro hget
        exact hcs.ext r r' fun c hc => (hget c hc List.not_mem_nil).symm
    | cons d ds => simp [readInOrder]
  | @cons field c fs cs' his _ ih =>
    obtain ⟨hfield, hrequired⟩ := List.forall_mem_cons.mp hrequired
    have hc : c ∈ cs := hsub.subset List.mem_cons_self
    have hrest' : cs'.Sublist cs := (List.sublist_cons_self c cs').trans hsub
    have hnew : c ∉ cs' := (List.nodup_cons.mp (hsub.nodup hcs.nodup.of_map)).1
    cases ds with
    | nil => simp [readInOrder, hfield]
    | cons d ds =>
      rw [readInOrder, bind_eq_ok_iff, List.forall₂_cons]
      simp only [his.set_eq_ok_iff, ih hrequired hrest']
      constructor
      · rintro ⟨_, ⟨x, hread, rfl⟩, hrest, hget⟩
        have hx := hget c hc hnew
        rw [hcs.get_set c hc] at hx
        refine ⟨⟨hx ▸ hread, hrest⟩, fun c' hc' hmem => ?_⟩
        rw [List.mem_cons, not_or] at hmem
        rw [hget c' hc' hmem.2, hcs.get_set_of_ne c hc c' hc' ?_]
        exact fun hname => hmem.1 (hcs.eq_of_name_eq hc' hc hname.symm)
      · rintro ⟨⟨hread, hrest⟩, hget⟩
        refine ⟨_, ⟨_, hread, rfl⟩, hrest, fun c' hc' hmem => ?_⟩
        by_cases hname : c.name = c'.name
        · obtain rfl := hcs.eq_of_name_eq hc hc' hname
          rw [hcs.get_set c hc]
        · rw [hcs.get_set_of_ne c hc c' hc' hname]
          refine hget c' hc' fun hmem' => ?_
          obtain rfl | hmem' := List.mem_cons.mp hmem'
          · exact hname rfl
          · exact hmem hmem'

/-- A record is read from an array if there is one element for each field, in their order. -/
theorem readRecord_array (h : Comprise fields cs) (expected : String)
    (hrequired : ∀ field ∈ fields, field.required = true) {ds : List Draft} :
    readRecord expected fields initial (.array ds none) = .ok r ↔
      List.Forall₂ (fun c d => c.reads d (c.get r)) cs ds := by
  rw [readRecord, readInOrder_eq_ok_iff h.toComponents hrequired h.fields (List.Sublist.refl cs)]
  exact and_iff_left fun c hc hnot => absurd hc hnot

end RecordField

end KnowledgeImport.Json
