import KnowledgeImport.Proofs.Text.Encoding
import Mathlib.Data.List.Basic

/-!
# Cutting a text among its octets

A text may be cut before an octet only where the octets so far are those of a text
(`String.Pos.Raw.IsValid`).  A text of several parts may be cut behind each of them
(`isValid_length_encode`), and so before each of its characters: these begin where the octets of the
characters before them end (`getElem?_charOffsetsFrom`).
-/

namespace KnowledgeImport.Text

theorem length_flatMap_utf8EncodeChar (cs : List Char) :
    (cs.flatMap String.utf8EncodeChar).length = (String.ofList cs).utf8ByteSize := by
  rw [← String.size_toByteArray, String.toByteArray_ofList, List.utf8Encode,
    List.size_toByteArray]

/-- A text has as many octets as it takes. -/
theorem length_encode (s : String) : (encode s).length = s.utf8ByteSize := by
  rw [encode, length_flatMap_utf8EncodeChar, String.ofList_toList]

/-- A text may be cut behind a part of it. -/
theorem isValid_length_encode (front back : String) :
    (String.Pos.Raw.mk (encode front).length).IsValid (front ++ back) := by
  rw [String.Pos.Raw.isValid_iff_exists_append, length_encode]
  exact ⟨front, back, rfl, rfl⟩

/-! ### Where characters begin -/

/-- The places among the octets at which the characters of a text begin, if the first does at
`place`. -/
def charOffsetsFrom : Nat → List Char → List Nat
  | _, [] => []
  | place, c :: cs => place :: charOffsetsFrom (place + c.utf8Size) cs

/-- The places among the octets of a text at which its characters begin. -/
def charOffsets (s : String) : List Nat :=
  charOffsetsFrom 0 s.toList

/-- The octets of a text in front of the place where its character of number `n` begins, if it has so
many. -/
def octetsBefore (n : Nat) (s : String) : List Octet :=
  match (charOffsets s)[n]? with
  | some place => (encode s).take place
  | none => encode s

theorem length_charOffsetsFrom (place : Nat) (cs : List Char) :
    (charOffsetsFrom place cs).length = cs.length := by
  induction cs generalizing place with
  | nil => rfl
  | cons c cs ih => rw [charOffsetsFrom, List.length_cons, ih, List.length_cons]

theorem getElem?_charOffsetsFrom {n : Nat} {cs : List Char} (h : n < cs.length) (place : Nat) :
    (charOffsetsFrom place cs)[n]?
      = some (place + ((cs.take n).flatMap String.utf8EncodeChar).length) := by
  induction cs generalizing n place with
  | nil => cases h
  | cons c cs ih =>
    cases n with
    | zero => rfl
    | succ n =>
      rw [charOffsetsFrom, List.getElem?_cons_succ, ih (Nat.lt_of_succ_lt_succ h), List.take_succ_cons,
        List.flatMap_cons, List.length_append, String.length_utf8EncodeChar, Nat.add_assoc]

end KnowledgeImport.Text
