import KnowledgeImport.Json.Value
import Mathlib.Data.List.Nodup
import Mathlib.Tactic.SplitIfs

/-!
# Members of objects

Where a key is repeated, the last member with it counts: `Value.Has` says what is looked up, and the
lookup of a key depends only on the members with that key (`Value.get?_object_congr`).
`Value.settled` is what is left of a value when only the members that count are kept, in all objects
of it; nothing in it is repeated, and every key is looked up as before (`Value.get?_settled`).
-/

namespace KnowledgeImport.Json

namespace Value

/-! ### Looking up a key -/

/-- The value is an object, and its last member with the key has this value. -/
def Has (v : Value) (key : String) (x : Value) : Prop :=
  ∃ front back, v = .object (front ++ (key, x) :: back) ∧ ∀ m ∈ back, m.1 ≠ key

theorem get?_object (key : String) (ms : List (String × Value)) :
    (object ms).get? key = ((ms.filter (·.1 = key)).getLast?).map (·.2) := by
  rw [get?, List.findRev?_eq_find?_reverse, List.getLast?_filter]

theorem get?_eq_some_iff {v : Value} {key : String} {x : Value} :
    v.get? key = some x ↔ v.Has key x := by
  constructor
  · intro h
    cases v with
    | object ms =>
      rw [get?, List.findRev?_eq_find?_reverse, Option.map_eq_some_iff] at h
      obtain ⟨⟨k, y⟩, hfind, rfl⟩ := h
      obtain ⟨hkey, back, front, hms, hback⟩ := List.find?_eq_some_iff_append.mp hfind
      obtain rfl := of_decide_eq_true hkey
      refine ⟨front.reverse, back.reverse, ?_, fun m hm => ?_⟩
      · rw [← List.reverse_reverse ms, hms]
        simp
      · simpa using hback m (List.mem_reverse.mp hm)
    | null | bool | number | text | array => cases h
  · rintro ⟨front, back, rfl, hback⟩
    have hnone : back.filter (·.1 = key) = [] := by
      rw [List.filter_eq_nil_iff]
      intro m hm
      simpa using hback m hm
    rw [get?_object, List.filter_append, List.filter_cons, if_pos (by simp), hnone,
      List.getLast?_append_cons]
    rfl

/-- Only the members with the key matter. -/
theorem get?_object_congr {ms ms' : List (String × Value)} {keys : List String}
    (h : ms.filter (·.1 ∈ keys) = ms'.filter (·.1 ∈ keys)) {key : String} (hkey : key ∈ keys) :
    (object ms).get? key = (object ms').get? key := by
  have hfilter (ms : List (String × Value)) :
      ms.filter (·.1 = key) = (ms.filter (·.1 ∈ keys)).filter (·.1 = key) := by
    rw [List.filter_filter]
    refine List.filter_congr fun m _ => ?_
    by_cases hm : m.1 = key
    · simp [hm, hkey]
    · simp [hm]
  rw [get?_object, get?_object, hfilter ms, hfilter ms', h]

theorem get?_object_cons (key : String) (m : String × Value) (ms : List (String × Value)) :
    (object (m :: ms)).get? key
      = ((object ms).get? key).or (if m.1 = key then some m.2 else none) := by
  rw [get?, get?, List.findRev?]
  cases ms.findRev? (·.1 = key) with
  | some x => rfl
  | none => by_cases hm : m.1 = key <;> simp [hm]

/-- A key is missing if no member has it. -/
theorem get?_object_eq_none_iff {key : String} {ms : List (String × Value)} :
    (object ms).get? key = none ↔ key ∉ ms.map Prod.fst := by
  induction ms with
  | nil => simp [get?]
  | cons m ms ih =>
    rw [get?_object_cons, Option.or_eq_none_iff, ih, List.map_cons, List.mem_cons, not_or, and_comm]
    by_cases hm : m.1 = key
    · simp [hm]
    · simp [hm, Ne.symm hm]

/-! ### What counts -/

mutual

/-- What is left of the value when of members with the same key only the last one is kept, in all
objects of it. -/
def settled : Value → Value
  | .array elements => .array (settledElements elements)
  | .object members => .object (settledMembers members)
  | .null => .null
  | .bool b => .bool b
  | .number n => .number n
  | .text s => .text s

/-- What is left of elements. -/
def settledElements : List Value → List Value
  | [] => []
  | v :: vs => v.settled :: settledElements vs

/-- What is left of members. -/
def settledMembers : List (String × Value) → List (String × Value)
  | [] => []
  | m :: ms =>
    if m.1 ∈ ms.map Prod.fst then settledMembers ms else settledMember m :: settledMembers ms

/-- What is left of a member that is kept. -/
def settledMember : String × Value → String × Value
  | (key, v) => (key, v.settled)

end

mutual

/-- No object of the value has two members with the same key. -/
def Distinct : Value → Prop
  | .array elements => ElementsDistinct elements
  | .object members => (members.map Prod.fst).Nodup ∧ MembersDistinct members
  | .null | .bool _ | .number _ | .text _ => True

/-- No object of the elements has. -/
def ElementsDistinct : List Value → Prop
  | [] => True
  | v :: vs => v.Distinct ∧ ElementsDistinct vs

/-- No object of the members has. -/
def MembersDistinct : List (String × Value) → Prop
  | [] => True
  | m :: ms => MemberDistinct m ∧ MembersDistinct ms

/-- No object of the value of the member has. -/
def MemberDistinct : String × Value → Prop
  | (_, v) => v.Distinct

end

/-- What is left has the same keys. -/
theorem mem_keys_settledMembers {key : String} {ms : List (String × Value)} :
    key ∈ (settledMembers ms).map Prod.fst ↔ key ∈ ms.map Prod.fst := by
  induction ms with
  | nil => rfl
  | cons m ms ih =>
    rw [settledMembers]
    split_ifs with hm
    · rw [ih, List.map_cons, List.mem_cons]
      constructor
      · exact Or.inr
      · rintro (rfl | h)
        · exact hm
        · exact h
    · obtain ⟨k, v⟩ := m
      rw [settledMember, List.map_cons, List.map_cons, List.mem_cons, List.mem_cons, ih]

theorem nodup_keys_settledMembers (ms : List (String × Value)) :
    ((settledMembers ms).map Prod.fst).Nodup := by
  induction ms with
  | nil => exact List.nodup_nil
  | cons m ms ih =>
    rw [settledMembers]
    split_ifs with hm
    · exact ih
    · obtain ⟨k, v⟩ := m
      rw [settledMember, List.map_cons, List.nodup_cons, mem_keys_settledMembers]
      exact ⟨hm, ih⟩

mutual

theorem distinct_settled : ∀ v : Value, v.settled.Distinct
  | .array vs => elementsDistinct_settled vs
  | .object ms => ⟨nodup_keys_settledMembers ms, membersDistinct_settled ms⟩
  | .null | .bool _ | .number _ | .text _ => trivial

theorem elementsDistinct_settled : ∀ vs : List Value, ElementsDistinct (settledElements vs)
  | [] => trivial
  | v :: vs => ⟨distinct_settled v, elementsDistinct_settled vs⟩

theorem membersDistinct_settled : ∀ ms : List (String × Value), MembersDistinct (settledMembers ms)
  | [] => trivial
  | m :: ms => by
    rw [settledMembers]
    split_ifs
    · exact membersDistinct_settled ms
    · exact ⟨memberDistinct_settled m, membersDistinct_settled ms⟩

theorem memberDistinct_settled : ∀ m : String × Value, MemberDistinct (settledMember m)
  | (_, v) => distinct_settled v

end

/-- Every key is looked up as before. -/
theorem get?_settled (v : Value) (key : String) :
    v.settled.get? key = (v.get? key).map settled := by
  cases v with
  | object ms =>
    rw [settled]
    induction ms with
    | nil => rfl
    | cons m ms ih =>
      rw [settledMembers, get?_object_cons]
      split_ifs with hmem hm hm
      · -- the member does not count, as there is another one behind it
        have hsome : ((object ms).get? key).isSome = true := by
          rw [Option.isSome_iff_ne_none, Ne, get?_object_eq_none_iff, not_not, ← hm]
          exact hmem
        rw [ih, Option.or_of_isSome hsome]
      · rw [ih, Option.or_none]
      · obtain ⟨k, v⟩ := m
        rw [settledMember, get?_object_cons, ih, if_pos hm]
        cases (object ms).get? key <;> rfl
      · obtain ⟨k, v⟩ := m
        rw [settledMember, get?_object_cons, ih, if_neg hm, Option.or_none, Option.or_none]
  | null | bool | number | text | array => rfl

end Value

end KnowledgeImport.Json
