import KnowledgeImport.Proofs.Json.Acceptance
import KnowledgeImport.Proofs.Json.Members
import KnowledgeImport.Proofs.Json.Trees

/-!
# How much of JSON is read

The grammar of JSON sets no bounds: every text of it is written with a tree (`Draft.WrittenBy`).  It
is read as a value exactly if the tree keeps within three limits (`Draft.WithinLimits`): arrays and
objects are not nested too deep, no number is too large, and no half of a surrogate pair stands alone
(`Value.exists_ofString?_iff`).  What stands under a key is said of trees as of values
(`Draft.Has`), and for a tree that has a value it is the same (`Value.has_iff`).
-/

namespace KnowledgeImport.Json

open Draft Value

/-! ### The limits -/

namespace Draft

mutual

/-- How deep arrays and objects are nested in the tree. -/
def depth : Draft → Nat
  | .array elements _ => elementsDepth elements + 1
  | .object members _ => membersDepth members + 1
  | .null | .bool _ | .numeral _ | .text _ | .openText .. | .broken _ => 0

/-- How deep they are nested in the deepest of the elements. -/
def elementsDepth : List Draft → Nat
  | [] => 0
  | d :: ds => max d.depth (elementsDepth ds)

/-- How deep they are nested in the deepest of the members. -/
def membersDepth : List (Draft × Draft) → Nat
  | [] => 0
  | m :: ms => max (memberDepth m) (membersDepth ms)

/-- How deep they are nested in the value of the member. -/
def memberDepth : Draft × Draft → Nat
  | (_, d) => d.depth

end

mutual

/-- The parts of the tree that have no parts, keys included. -/
def leaves : Draft → List Draft
  | .array elements _ => elementsLeaves elements
  | .object members _ => membersLeaves members
  | .null => [.null]
  | .bool b => [.bool b]
  | .numeral n => [.numeral n]
  | .text s => [.text s]
  | .openText strict loose => [.openText strict loose]
  | .broken f => [.broken f]

/-- Those of the elements. -/
def elementsLeaves : List Draft → List Draft
  | [] => []
  | d :: ds => d.leaves ++ elementsLeaves ds

/-- Those of the members. -/
def membersLeaves : List (Draft × Draft) → List Draft
  | [] => []
  | m :: ms => memberLeaves m ++ membersLeaves ms

/-- Those of the key and the value of the member. -/
def memberLeaves : Draft × Draft → List Draft
  | (key, d) => key.leaves ++ d.leaves

end

/-- A number that is not too large, or a text in which no half of a surrogate pair stands alone;
other leaves have nothing to keep to. -/
def Keeps : Draft → Prop
  | .numeral n => ∃ x, n.number? = some x
  | .text s => ∃ t, s = .text t
  | _ => True

/-- The tree keeps within what is read. -/
structure WithinLimits (d : Draft) : Prop where
  /-- Arrays and objects are nested at most as deep as is allowed. -/
  depth : d.depth ≤ nestingLimit
  /-- No number is too large. -/
  numbers : ∀ n, .numeral n ∈ d.leaves → ∃ x, n.number? = some x
  /-- No half of a surrogate pair stands alone. -/
  texts : ∀ s, .text s ∈ d.leaves → ∃ t, s = .text t

theorem withinLimits_iff {d : Draft} :
    d.WithinLimits ↔ d.depth ≤ nestingLimit ∧ ∀ x ∈ d.leaves, x.Keeps := by
  constructor
  · intro h
    refine ⟨h.depth, fun x hx => ?_⟩
    cases x with
    | numeral n => exact h.numbers n hx
    | text s => exact h.texts s hx
    | null | bool | array | object | openText | broken => trivial
  · rintro ⟨hdepth, hkeeps⟩
    exact ⟨hdepth, fun n hn => hkeeps _ hn, fun s hs => hkeeps _ hs⟩

end Draft

/-! ### Trees with a value -/

namespace Value

mutual

/-- A tree that can be written has a value exactly if it is not too deep and its leaves keep within
the limits. -/
theorem exists_ofDraft?_iff : ∀ (d : Draft) {cs : List Char}, d.Written cs → ∀ {k : Nat},
    (∃ v, ofDraft? k d = some v) ↔ d.depth ≤ k ∧ ∀ x ∈ d.leaves, x.Keeps
  | .null, _, _, k | .bool _, _, _, k => by
    simp [ofDraft?, Draft.depth, leaves, Keeps]
  | .numeral n, _, _, k => by
    simp [ofDraft?, Draft.depth, leaves, Keeps]
  | .text s, _, _, k => by
    cases s <;> simp [ofDraft?, Draft.depth, leaves, Keeps]
  | .array elements ending, cs, h, k => by
    obtain ⟨rfl, parts, hparts, -⟩ := h
    have helements := exists_ofDrafts?_iff elements hparts (k := k - 1)
    simp only [ofDraft?_array_eq_some_iff, Draft.depth, leaves]
    constructor
    · rintro ⟨_, -, hk, vs, hvs, rfl⟩
      obtain ⟨hdepth, hkeeps⟩ := helements.mp ⟨vs, hvs⟩
      exact ⟨by omega, hkeeps⟩
    · rintro ⟨hdepth, hkeeps⟩
      obtain ⟨vs, hvs⟩ := helements.mpr ⟨by omega, hkeeps⟩
      exact ⟨_, trivial, by omega, vs, hvs, rfl⟩
  | .object members ending, cs, h, k => by
    obtain ⟨rfl, parts, hparts, -⟩ := h
    have hmembers := exists_ofMembers?_iff members hparts (k := k - 1)
    simp only [ofDraft?_object_eq_some_iff, Draft.depth, leaves]
    constructor
    · rintro ⟨_, -, hk, ms, hms, rfl⟩
      obtain ⟨hdepth, hkeeps⟩ := hmembers.mp ⟨ms, hms⟩
      exact ⟨by omega, hkeeps⟩
    · rintro ⟨hdepth, hkeeps⟩
      obtain ⟨ms, hms⟩ := hmembers.mpr ⟨by omega, hkeeps⟩
      exact ⟨_, trivial, by omega, ms, hms, rfl⟩
  | .openText .., _, h, _ => h.elim
  | .broken _, _, h, _ => h.elim

theorem exists_ofDrafts?_iff : ∀ (ds : List Draft) {parts : List (List Char)},
    ElementsWritten ds parts → ∀ {k : Nat}, (∃ vs, ofDrafts? k ds = some vs) ↔
      Draft.elementsDepth ds ≤ k ∧ ∀ x ∈ elementsLeaves ds, x.Keeps
  | [], _, _, k => by simp [ofDrafts?, Draft.elementsDepth, elementsLeaves]
  | d :: ds, _, h, k => by
    obtain ⟨cs, rest, hd, hds, -⟩ := h
    have hvalue := exists_ofDraft?_iff d hd (k := k)
    have hvalues := exists_ofDrafts?_iff ds hds (k := k)
    rw [Draft.elementsDepth, Nat.max_le, elementsLeaves, List.forall_mem_append, and_and_and_comm,
      ← hvalue, ← hvalues]
    simp only [ofDrafts?_cons_eq_some_iff]
    constructor
    · rintro ⟨_, v, vs, hv, hvs, -⟩
      exact ⟨⟨v, hv⟩, vs, hvs⟩
    · rintro ⟨⟨v, hv⟩, vs, hvs⟩
      exact ⟨_, v, vs, hv, hvs, rfl⟩

theorem exists_ofMembers?_iff : ∀ (ms : List (Draft × Draft)) {parts : List (List Char)},
    MembersWritten ms parts → ∀ {k : Nat}, (∃ vs, ofMembers? k ms = some vs) ↔
      Draft.membersDepth ms ≤ k ∧ ∀ x ∈ membersLeaves ms, x.Keeps
  | [], _, _, k => by simp [ofMembers?, Draft.membersDepth, membersLeaves]
  | m :: ms, _, h, k => by
    obtain ⟨cs, rest, hm, hms, -⟩ := h
    have hvalue := exists_ofMember?_iff m hm (k := k)
    have hvalues := exists_ofMembers?_iff ms hms (k := k)
    rw [Draft.membersDepth, Nat.max_le, membersLeaves, List.forall_mem_append, and_and_and_comm,
      ← hvalue, ← hvalues]
    simp only [ofMembers?_cons_eq_some_iff]
    constructor
    · rintro ⟨_, v, vs, hv, hvs, -⟩
      exact ⟨⟨v, hv⟩, vs, hvs⟩
    · rintro ⟨⟨v, hv⟩, vs, hvs⟩
      exact ⟨_, v, vs, hv, hvs, rfl⟩

theorem exists_ofMember?_iff : ∀ (m : Draft × Draft) {cs : List Char}, MemberWritten m cs →
    ∀ {k : Nat}, (∃ v, ofMember? k m = some v) ↔
      Draft.memberDepth m ≤ k ∧ ∀ x ∈ memberLeaves m, x.Keeps
  | (.text s, d), _, h, k => by
    obtain ⟨_, _, _, _, -, -, -, hd, -⟩ := h
    have hvalue := exists_ofDraft?_iff d hd (k := k)
    rw [Draft.memberDepth, memberLeaves, leaves, List.forall_mem_append, List.forall_mem_singleton,
      and_left_comm, ← hvalue]
    simp only [ofMember?_eq_some_iff, Keeps]
    constructor
    · rintro ⟨_, t, v, heq, hv, -⟩
      exact ⟨⟨t, Draft.text.inj heq⟩, v, hv⟩
    · rintro ⟨⟨t, rfl⟩, v, hv⟩
      exact ⟨_, t, v, rfl, hv, rfl⟩
  | (.null, _), _, h, _ | (.bool _, _), _, h, _ | (.numeral _, _), _, h, _
  | (.array .., _), _, h, _ | (.object .., _), _, h, _ | (.openText .., _), _, h, _
  | (.broken _, _), _, h, _ => by
    rw [MemberWritten] at h
    · exact h.elim
    · simp

end

/-! ### Values that are spelled are written -/

mutual

/-- What spells a value is written with a tree. -/
theorem exists_written : ∀ (v : Value) {cs : List Char}, v.Spelled cs → ∃ d : Draft, d.Written cs
  | .null, _, h => ⟨.null, h⟩
  | .bool b, _, h => ⟨.bool b, h⟩
  | .number _, _, h => by
    obtain ⟨n, hn, -⟩ := h
    exact ⟨.numeral n, hn⟩
  | .text s, _, h => ⟨.text (.text s), h⟩
  | .array elements, _, h => by
    obtain ⟨parts, hparts, hcs⟩ := h
    obtain ⟨ds, hds⟩ := exists_elementsWritten elements hparts
    exact ⟨.array ds none, rfl, parts, hds, hcs⟩
  | .object members, _, h => by
    obtain ⟨parts, hparts, hcs⟩ := h
    obtain ⟨ds, hds⟩ := exists_membersWritten members hparts
    exact ⟨.object ds none, rfl, parts, hds, hcs⟩

theorem exists_elementsWritten : ∀ (vs : List Value) {parts : List (List Char)},
    ElementsSpelled vs parts → ∃ ds, ElementsWritten ds parts
  | [], _, h => ⟨[], h⟩
  | v :: vs, _, h => by
    obtain ⟨cs, rest, hv, hvs, rfl⟩ := h
    obtain ⟨d, hd⟩ := exists_written v hv
    obtain ⟨ds, hds⟩ := exists_elementsWritten vs hvs
    exact ⟨d :: ds, cs, rest, hd, hds, rfl⟩

theorem exists_membersWritten : ∀ (ms : List (String × Value)) {parts : List (List Char)},
    MembersSpelled ms parts → ∃ ds, MembersWritten ds parts
  | [], _, h => ⟨[], h⟩
  | m :: ms, _, h => by
    obtain ⟨cs, rest, hm, hms, rfl⟩ := h
    obtain ⟨d, hd⟩ := exists_memberWritten m hm
    obtain ⟨ds, hds⟩ := exists_membersWritten ms hms
    exact ⟨d :: ds, cs, rest, hd, hds, rfl⟩

theorem exists_memberWritten : ∀ (m : String × Value) {cs : List Char},
    MemberSpelled m cs → ∃ d, MemberWritten d cs
  | (key, v), _, h => by
    obtain ⟨k, before, after, w, hkey, hbefore, hafter, hv, rfl⟩ := h
    obtain ⟨d, hd⟩ := exists_written v hv
    exact ⟨(.text (.text key), d), k, before, after, w, hkey, hbefore, hafter, hd, rfl⟩

end

/-! ### Texts that are read -/

/-- A text is read as the value of the tree with which it is written. -/
theorem ofString?_of_writtenBy {d : Draft} {s : String} (h : d.WrittenBy s) :
    ofString? s = ofDraft? nestingLimit d := by
  rw [ofString?, h.draft_eq]

/-- What is read is the value of a tree with which the text is written. -/
theorem ofString?_eq_some_iff_written {s : String} {v : Value} :
    ofString? s = some v ↔ ∃ d : Draft, d.WrittenBy s ∧ ofDraft? nestingLimit d = some v := by
  constructor
  · intro h
    obtain ⟨⟨cs, hspelled, hs⟩, -⟩ := ofString?_eq_some_iff.mp h
    obtain ⟨d, hd⟩ := exists_written v hspelled
    have hwritten : d.WrittenBy s := ⟨cs, hd, hs⟩
    exact ⟨d, hwritten, ofString?_of_writtenBy hwritten ▸ h⟩
  · rintro ⟨d, hwritten, hd⟩
    rw [ofString?_of_writtenBy hwritten, hd]

/-- The tree of a text has a value exactly if it keeps within the limits. -/
theorem exists_ofDraft?_of_writtenBy {d : Draft} {s : String} (h : d.WrittenBy s) :
    (∃ v, ofDraft? nestingLimit d = some v) ↔ d.WithinLimits := by
  obtain ⟨cs, hcs, -⟩ := h
  rw [exists_ofDraft?_iff d hcs, withinLimits_iff]

/-- Exactly the texts of JSON that keep within the limits are read. -/
theorem exists_ofString?_iff {s : String} :
    (∃ v, ofString? s = some v) ↔ ∃ d : Draft, d.WrittenBy s ∧ d.WithinLimits := by
  simp only [ofString?_eq_some_iff_written]
  constructor
  · rintro ⟨v, d, hwritten, hd⟩
    exact ⟨d, hwritten, (exists_ofDraft?_of_writtenBy hwritten).mp ⟨v, hd⟩⟩
  · rintro ⟨d, hwritten, hlimits⟩
    obtain ⟨v, hd⟩ := (exists_ofDraft?_of_writtenBy hwritten).mpr hlimits
    exact ⟨v, d, hwritten, hd⟩

end Value

/-! ### Members of trees -/

/-- The tree is an object, and its last member with the key has this tree. -/
def Draft.Has (d : Draft) (key : String) (x : Draft) : Prop :=
  ∃ front back, d = .object (front ++ (.text (.text key), x) :: back) none ∧
    ∀ m ∈ back, m.1 ≠ .text (.text key)

namespace Value

/-- The member has the key and the value of the other one. -/
def MemberOf (k : Nat) (d : Draft × Draft) (m : String × Value) : Prop :=
  d.1 = .text (.text m.1) ∧ ofDraft? k d.2 = some m.2

theorem forall₂_memberOf {k : Nat} {ds : List (Draft × Draft)} {ms : List (String × Value)}
    (h : ofMembers? k ds = some ms) : List.Forall₂ (MemberOf k) ds ms := by
  induction ds generalizing ms with
  | nil =>
    obtain rfl : [] = ms := Option.some.inj h
    exact .nil
  | cons d ds ih =>
    obtain ⟨m, rest, hm, hrest, rfl⟩ := ofMembers?_cons_eq_some_iff.mp h
    obtain ⟨key, v, hkey, hv, rfl⟩ := ofMember?_eq_some_iff.mp hm
    exact .cons ⟨hkey, hv⟩ (ih hrest)

/-- None has the key, or none of the others has. -/
theorem forall_ne_key_iff {k : Nat} {ds : List (Draft × Draft)} {ms : List (String × Value)}
    (h : List.Forall₂ (MemberOf k) ds ms) (key : String) :
    (∀ d ∈ ds, d.1 ≠ .text (.text key)) ↔ ∀ m ∈ ms, m.1 ≠ key := by
  induction h with
  | nil => simp
  | cons hm _ ih =>
    rw [List.forall_mem_cons, List.forall_mem_cons, ih, hm.1]
    simp

/-- What stands against a part of one list is a part of the other. -/
theorem exists_append_of_forall₂ {α β : Type} {r : α → β → Prop} {as : List α} {front : List β}
    {b : β} {back : List β} (h : List.Forall₂ r as (front ++ b :: back)) :
    ∃ front' a back', as = front' ++ a :: back' ∧ r a b ∧ List.Forall₂ r back' back := by
  obtain ⟨a, back', hab, hback, has⟩ :=
    List.forall₂_cons_right_iff.mp (List.forall₂_drop_append _ _ _ h)
  refine ⟨as.take front.length, a, back', ?_, hab, hback⟩
  rw [← has, List.take_append_drop]

/-- Under a key, a tree with a value has what has the value under it. -/
theorem has_iff {k : Nat} {d : Draft} {v : Value} (h : ofDraft? k d = some v) {key : String}
    {x : Value} : v.Has key x ↔ ∃ e, d.Has key e ∧ ofDraft? (k - 1) e = some x := by
  constructor
  · rintro ⟨front, back, rfl, hback⟩
    obtain ⟨-, ds, rfl, hds⟩ := exists_drafts_of_object h
    obtain ⟨front', ⟨_, e⟩, back', rfl, ⟨rfl, he⟩, hrest⟩ :=
      exists_append_of_forall₂ (forall₂_memberOf hds)
    exact ⟨e, ⟨front', back', rfl, (forall_ne_key_iff hrest key).mpr hback⟩, he⟩
  · rintro ⟨e, ⟨front, back, rfl, hback⟩, he⟩
    obtain ⟨-, -, ms, hms, rfl⟩ := ofDraft?_object_eq_some_iff.mp h
    obtain ⟨front', ⟨_, y⟩, back', rfl, ⟨hkey, hy⟩, hrest⟩ :=
      exists_append_of_forall₂ (forall₂_memberOf hms).flip
    obtain rfl := Spelling.text.inj (Draft.text.inj hkey)
    obtain rfl := Option.some.inj (he.symm.trans hy)
    exact ⟨front', back', rfl, (forall_ne_key_iff hrest.flip key).mp hback⟩

/-- A tree with a value has a value under each of its keys. -/
theorem exists_has_of_has {k : Nat} {d e : Draft} {v : Value} (h : ofDraft? k d = some v)
    {key : String} (he : d.Has key e) : ∃ x, ofDraft? (k - 1) e = some x := by
  obtain ⟨front, back, rfl, -⟩ := he
  obtain ⟨-, -, ms, hms, rfl⟩ := ofDraft?_object_eq_some_iff.mp h
  obtain ⟨_, ⟨_, x⟩, _, -, ⟨-, hx⟩, -⟩ := exists_append_of_forall₂ (forall₂_memberOf hms).flip
  exact ⟨x, hx⟩

end Value

end KnowledgeImport.Json
