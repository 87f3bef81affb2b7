import KnowledgeImport.Proofs.Json.FieldValues
import KnowledgeImport.Proofs.Json.Writing
import Mathlib.Data.List.Nodup

/-!
# Records that are written in the order of their fields

A record that is written as an object, with one member for each of its fields in their order, is
read by setting one field after the other (`RecordField.readRecord_object`).  For this it takes
fields with different names, for a member is given to the field that has its name
(`RecordField.find?_of_mem`).
-/

namespace KnowledgeImport.Json

open Lexer

/-! ### Readings of drafts -/

namespace Draft

@[simp] theorem readText_text (expected s : String) :
    readText expected (.text (.text s)) = .ok s := rfl

theorem readCount_integer {n : Nat} (hn : n < wordLimit) :
    readCount (.numeral (integer false n)) = .ok n :=
  readCount_eq_ok_iff.mpr ⟨_, rfl, digitsValue_toDigits n, hn⟩

theorem readList_texts (ss : List String) (expected : String) :
    readList (readText expected) (Value.texts ss).draft = .ok ss := by
  refine readTexts_eq_ok_iff.mpr ?_
  rw [Value.texts, Value.draft, Value.elementDrafts_eq_map, List.map_map]
  rfl

end Draft

theorem Value.integral_texts (ss : List String) : (Value.texts ss).Integral := by
  rw [Value.texts, Value.Integral, Value.elementsIntegral_iff, List.forall_mem_map]
  intro s _
  trivial

theorem Value.ofDrafts?_texts (depth : Nat) (ss : List String) :
    ofDrafts? depth (elementDrafts (ss.map .text)) = some (ss.map .text) := by
  induction ss with
  | nil => rfl
  | cons s ss ih =>
    rw [List.map_cons, elementDrafts, ofDrafts?, ih]
    rfl

/-- A list of texts written on one line is a JSON text of it. -/
theorem Value.ofString?_compact_texts (ss : List String) :
    ofString? (texts ss).compact = some (texts ss) := by
  rw [compact, ofString?_chars blank_compact (integral_texts ss)]
  show ofDraft? nestingLimit (.array (elementDrafts (ss.map .text)) none) = _
  rw [ofDraft?, if_neg (by decide), ofDrafts?_texts]
  rfl

/-! ### Records -/

namespace RecordField

variable {ρ : Type} {fields : List (RecordField ρ)}

/-- Among fields with different names, a name finds its field. -/
theorem find?_of_mem (hnodup : (fields.map (·.name)).Nodup) {field : RecordField ρ}
    (hmem : field ∈ fields) : fields.find? (·.name = field.name) = some field := by
  induction fields with
  | nil => cases hmem
  | cons f fields ih =>
    rw [List.map_cons, List.nodup_cons] at hnodup
    rcases List.mem_cons.mp hmem with rfl | hmem
    · exact List.find?_cons_of_pos (decide_eq_true rfl)
    · have hne : f.name ≠ field.name := by
        intro heq
        exact hnodup.1 (heq ▸ List.mem_map_of_mem hmem)
      rw [List.find?_cons_of_neg (by simpa using hne), ih hnodup.2 hmem]

/-- The member of an object for a field and its value. -/
def member (p : RecordField ρ × Draft) : Draft × Draft := (.text (.text p.1.name), p.2)

/-- Members for different fields that have not been seen set these fields, one after the other. -/
theorem readMembers_members (hnodup : (fields.map (·.name)).Nodup)
    {ps : List (RecordField ρ × Draft)} (hfields : ∀ p ∈ ps, p.1 ∈ fields) (seen : List String)
    (hseen : (seen.reverse ++ ps.map (·.1.name)).Nodup) {r r' : ρ}
    (hset : ps.foldlM (fun r p => p.1.set p.2 r) r = .ok r') :
    readMembers fields seen r (ps.map member) = .ok ((ps.map (·.1.name)).reverse ++ seen, r') := by
  induction ps generalizing seen r with
  | nil =>
    obtain rfl : r = r' := Except.ok.inj hset
    rfl
  | cons p ps ih =>
    rw [List.forall_mem_cons] at hfields
    have hnew : p.1.name ∉ seen := by
      intro hmem
      rw [List.nodup_append] at hseen
      exact hseen.2.2 p.1.name (List.mem_reverse.mpr hmem) p.1.name (List.mem_cons_self ..) rfl
    rw [List.foldlM_cons] at hset
    cases hp : p.1.set p.2 r with
    | error e => rw [hp] at hset; cases hset
    | ok r₁ =>
      rw [hp] at hset
      have hfind := find?_of_mem hnodup hfields.1
      have hstep : readMembers fields seen r (member p :: ps.map member)
          = readMembers fields (p.1.name :: seen) r₁ (ps.map member) := by
        rw [member, readMembers]
        simp [Draft.readKey, bind, Except.bind, hfind, hnew, hp]
      have hrest := ih hfields.2 (p.1.name :: seen) (by simpa using hseen) hset
      rw [List.map_cons, hstep, hrest, List.map_cons, List.reverse_cons, List.append_assoc]
      rfl

/-- An object with one member for each field, in their order, is read by setting the fields. -/
theorem readRecord_object (expected : String) (hnodup : (fields.map (·.name)).Nodup)
    {initial r : ρ} (ds : List Draft) (hlen : ds.length = fields.length)
    (hset : (fields.zip ds).foldlM (fun r p => p.1.set p.2 r) initial = .ok r) :
    readRecord expected fields initial (.object ((fields.zip ds).map member) none) = .ok r := by
  have hnames : (fields.zip ds).map (·.1.name) = fields.map (·.name) := by
    have hfst : (fields.zip ds).map Prod.fst = fields := List.map_fst_zip (Nat.le_of_eq hlen.symm)
    have hcomp := congrArg (List.map RecordField.name) hfst
    rwa [List.map_map] at hcomp
  have hread := readMembers_members hnodup (fun p hp => (List.of_mem_zip hp).1) []
    (by rw [hnames]; exact hnodup) hset
  rw [hnames, List.append_nil] at hread
  -- every field has been seen, so none is missing
  have hmissing : fields.find? (fun field => field.required &&
      !(fields.map (·.name)).reverse.contains field.name) = none := by
    rw [List.find?_eq_none]
    intro field hfield
    have hseen : field.name ∈ (fields.map (·.name)).reverse :=
      List.mem_reverse.mpr (List.mem_map_of_mem hfield)
    rw [List.contains_iff_mem.mpr hseen, Bool.not_true, Bool.and_false]
    exact Bool.false_ne_true
  rw [readRecord, hread]
  dsimp only [bind, Except.bind]
  rw [hmissing]
  rfl

end RecordField

end KnowledgeImport.Json
