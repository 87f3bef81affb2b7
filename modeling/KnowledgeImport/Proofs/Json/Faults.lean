import KnowledgeImport.Json.Value
import KnowledgeImport.Proofs.Json.Scanning

/-!
# Trees and their values

Which value a tree has, read backwards: an array or an object has one if it ends well and all its
parts have one (`Value.ofDraft?_array_eq_some_iff`, `Value.ofDraft?_object_eq_some_iff`).  So a tree
into which something without a value was put has none (`Draft.Faulty`), and where reading breaks off
there is none at all (`faulty_collapse`, `faulty_collapseAt`, `step_of_breaks`).
-/

namespace KnowledgeImport.Json

open Draft Value

/-! ### The value of a tree -/

theorem Value.ofDraft?_array_eq_some_iff {k : Nat} {ds : List Draft} {ending : Option Fault}
    {v : Value} : ofDraft? k (.array ds ending) = some v ↔
      ending = none ∧ k ≠ 0 ∧ ∃ vs, ofDrafts? (k - 1) ds = some vs ∧ .array vs = v := by
  cases ending with
  | some f => simp [ofDraft?]
  | none =>
    rw [ofDraft?]
    split_ifs with hk
    · simp [hk]
    · simp [hk]

theorem Value.ofDraft?_object_eq_some_iff {k : Nat} {ds : List (Draft × Draft)}
    {ending : Option Fault} {v : Value} : ofDraft? k (.object ds ending) = some v ↔
      ending = none ∧ k ≠ 0 ∧ ∃ ms, ofMembers? (k - 1) ds = some ms ∧ .object ms = v := by
  cases ending with
  | some f => simp [ofDraft?]
  | none =>
    rw [ofDraft?]
    split_ifs with hk
    · simp [hk]
    · simp [hk]

theorem Value.ofDrafts?_cons_eq_some_iff {k : Nat} {d : Draft} {ds : List Draft}
    {vs : List Value} : ofDrafts? k (d :: ds) = some vs ↔
      ∃ v rest, ofDraft? k d = some v ∧ ofDrafts? k ds = some rest ∧ v :: rest = vs := by
  simp [ofDrafts?, Option.bind_eq_some_iff]

theorem Value.ofMembers?_cons_eq_some_iff {k : Nat} {d : Draft × Draft}
    {ds : List (Draft × Draft)} {ms : List (String × Value)} :
    ofMembers? k (d :: ds) = some ms ↔
      ∃ m rest, ofMember? k d = some m ∧ ofMembers? k ds = some rest ∧ m :: rest = ms := by
  simp [ofMembers?, Option.bind_eq_some_iff]

theorem Value.ofMember?_eq_some_iff {k : Nat} {key d : Draft} {m : String × Value} :
    ofMember? k (key, d) = some m ↔
      ∃ s v, key = .text (.text s) ∧ ofDraft? k d = some v ∧ (s, v) = m := by
  unfold ofMember?
  split
  case h_1 heq =>
    obtain ⟨rfl, rfl⟩ := Prod.mk.injEq .. ▸ heq
    simp [Option.bind_eq_some_iff]
  case h_2 hne =>
    constructor
    · rintro ⟨⟩
    · rintro ⟨s, v, rfl, -, -⟩
      exact absurd rfl (hne s d)

/-- Only the tree of an array has an array as its value. -/
theorem Value.exists_drafts_of_array {k : Nat} {d : Draft} {vs : List Value}
    (h : ofDraft? k d = some (.array vs)) : k ≠ 0 ∧ ∃ ds, ofDrafts? (k - 1) ds = some vs := by
  cases d with
  | array ds ending =>
    obtain ⟨-, hk, _, hds, ⟨⟩⟩ := ofDraft?_array_eq_some_iff.mp h
    exact ⟨hk, ds, hds⟩
  | object =>
    obtain ⟨-, -, _, -, ⟨⟩⟩ := ofDraft?_object_eq_some_iff.mp h
  | numeral =>
    obtain ⟨_, -, ⟨⟩⟩ := Option.map_eq_some_iff.mp h
  | text s => cases s <;> cases h
  | null | bool | openText | broken => cases h

/-- Only the tree of an object has an object as its value. -/
theorem Value.exists_drafts_of_object {k : Nat} {d : Draft} {ms : List (String × Value)}
    (h : ofDraft? k d = some (.object ms)) :
    k ≠ 0 ∧ ∃ ds, d = .object ds none ∧ ofMembers? (k - 1) ds = some ms := by
  cases d with
  | array =>
    obtain ⟨-, -, _, -, ⟨⟩⟩ := ofDraft?_array_eq_some_iff.mp h
  | object ds ending =>
    obtain ⟨rfl, hk, _, hds, ⟨⟩⟩ := ofDraft?_object_eq_some_iff.mp h
    exact ⟨hk, ds, rfl, hds⟩
  | numeral =>
    obtain ⟨_, -, ⟨⟩⟩ := Option.map_eq_some_iff.mp h
  | text s => cases s <;> cases h
  | null | bool | openText | broken => cases h

/-- Only the tree of a text has a text as its value. -/
theorem Value.eq_text_of_ofDraft? {k : Nat} {d : Draft} {t : String}
    (h : ofDraft? k d = some (.text t)) : d = .text (.text t) := by
  cases d with
  | array =>
    obtain ⟨-, -, _, -, ⟨⟩⟩ := ofDraft?_array_eq_some_iff.mp h
  | object =>
    obtain ⟨-, -, _, -, ⟨⟩⟩ := ofDraft?_object_eq_some_iff.mp h
  | numeral =>
    obtain ⟨_, -, ⟨⟩⟩ := Option.map_eq_some_iff.mp h
  | text s =>
    cases s with
    | text s =>
      cases h
      rfl
    | faulty f => cases h
  | null | bool | openText | broken => cases h

/-! ### Trees without a value -/

/-- The tree has no value. -/
def Draft.Faulty (d : Draft) : Prop := ∀ k, ofDraft? k d = none

theorem faulty_broken (f : Fault) : (Draft.broken f).Faulty := fun _ => rfl

theorem Value.ofDrafts?_append_faulty {d : Draft} (h : d.Faulty) (k : Nat) (ds : List Draft) :
    ofDrafts? k (ds ++ [d]) = none := by
  induction ds with
  | nil => simp [ofDrafts?, h k]
  | cons e ds ih => simp [ofDrafts?, ih]

theorem Value.ofMembers?_append_faulty {key d : Draft} (h : d.Faulty) (k : Nat)
    (ds : List (Draft × Draft)) : ofMembers? k (ds ++ [(key, d)]) = none := by
  have hmember : ofMember? k (key, d) = none := by
    rw [Option.eq_none_iff_forall_ne_some]
    rintro m hm
    obtain ⟨s, v, -, hv, -⟩ := ofMember?_eq_some_iff.mp hm
    rw [h k] at hv
    cases hv
  induction ds with
  | nil => simp [ofMembers?, hmember]
  | cons e ds ih => simp [ofMembers?, ih]

theorem faulty_array {ds : List Draft} {d : Draft} (h : d.Faulty) :
    (Draft.array (ds ++ [d]) none).Faulty := by
  intro k
  rw [Option.eq_none_iff_forall_ne_some]
  intro v hv
  obtain ⟨-, -, vs, hvs, -⟩ := ofDraft?_array_eq_some_iff.mp hv
  rw [ofDrafts?_append_faulty h] at hvs
  cases hvs

theorem faulty_object {ds : List (Draft × Draft)} {key d : Draft} (h : d.Faulty) :
    (Draft.object (ds ++ [(key, d)]) none).Faulty := by
  intro k
  rw [Option.eq_none_iff_forall_ne_some]
  intro v hv
  obtain ⟨-, -, vs, hvs, -⟩ := ofDraft?_object_eq_some_iff.mp hv
  rw [ofMembers?_append_faulty h] at hvs
  cases hvs

/-- A frame that ends with a tree without a value in it has none. -/
theorem faulty_close_put {d : Draft} (h : d.Faulty) (f : Frame) :
    ((f.put d).close none).Faulty := by
  cases f with
  | array read =>
    rw [Frame.put, Frame.close, List.reverse_cons]
    exact faulty_array h
  | object read =>
    rw [Frame.put, Frame.close, List.reverse_cons]
    exact faulty_object (faulty_broken _)
  | member read key =>
    rw [Frame.put, Frame.close, List.reverse_cons]
    exact faulty_object h

/-- Where reading breaks off there is no value. -/
theorem faulty_collapse {d : Draft} (h : d.Faulty) (frames : List Frame) :
    (Frame.collapse d frames).Faulty := by
  induction frames generalizing d with
  | nil => exact h
  | cons f rest ih => exact ih (faulty_close_put h f)

/-- So it does where a key is due, whatever stands in its place. -/
theorem faulty_collapse_object (d : Draft) (read : List (Draft × Draft)) (frames : List Frame) :
    (Frame.collapse d (.object read :: frames)).Faulty := by
  refine faulty_collapse ?_ frames
  rw [Frame.put, Frame.close, List.reverse_cons]
  exact faulty_object (faulty_broken _)

theorem faulty_collapseAt (fault : Fault) (frames : List Frame) :
    (Frame.collapseAt fault frames).Faulty := by
  cases frames with
  | nil => exact faulty_broken fault
  | cons f rest =>
    refine faulty_collapse ?_ rest
    cases f with
    | array | object => exact fun _ => rfl
    | member read key =>
      rw [Frame.close, List.reverse_cons]
      exact faulty_object (faulty_broken _)

theorem faulty_atEnd (frames : List Frame) (due : Due) : (atEnd frames due).Faulty := by
  cases due with
  | separator => exact faulty_collapseAt _ frames
  | value | key | colon => exact faulty_collapse (faulty_broken _) frames

theorem faulty_stop (t : Token) : (stop t).Faulty := by
  intro k
  cases t <;> rfl

/-- A broken token finishes reading. -/
theorem step_of_breaks {t : Token} (h : t.Breaks) (frames : List Frame) (due : Due) :
    ∃ d, step frames due t = .finished d ∧ d.Faulty := by
  cases due with
  | value => cases h <;> exact ⟨_, rfl, faulty_collapse (fun _ => rfl) frames⟩
  | key => cases h <;> exact ⟨_, rfl, faulty_collapse (fun _ => rfl) frames⟩
  | colon => cases h <;> exact ⟨_, rfl, faulty_collapse (faulty_broken _) frames⟩
  | separator => cases h <;> exact ⟨_, rfl, faulty_collapseAt _ frames⟩

end KnowledgeImport.Json
