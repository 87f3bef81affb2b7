import KnowledgeImport.Proofs.Text.Utf8
import Mathlib.Data.List.Basic

/-!
# Reading what was encoded

The octets of a character are read as that character, whatever follows them
(`Utf8.pieces_utf8EncodeChar_append`).  The first octet tells how many there are and, where it is
the first or the last of its kind, narrows the second (`Utf8.lead_three`, `Utf8.lead_four`); what
the others bring is added up by `Utf8.piecesFrom_inside` and `Utf8.piecesFrom_last`.  So a text that
was encoded is read back (`decode?_encode`).
-/

namespace KnowledgeImport.Text

namespace Utf8

theorem piecesFrom_cons (held : Option Pending) (b : Octet) (bs : List Octet) :
    piecesFrom held (b :: bs) = (step held b).1 ++ piecesFrom (step held b).2 bs := by
  cases held <;> rfl

/-! ### ASCII characters -/

/-- The character of an ASCII octet. -/
def asciiChar (b : Octet) : Char := Char.ofNat b.toNat

theorem start_of_ascii {b : Octet} (hb : b.toNat < 0x80) : start b = ([some (asciiChar b)], none) := by
  rw [start, lead, if_pos hb]
  rfl

/-! ### Octets of a longer character -/

section Lead

variable {b : Octet}

theorem lead_two (h : 0xC2 ≤ b.toNat) (h' : b.toNat < 0xE0) :
    lead b = .begins ⟨b.toNat - 0xC0, 1, 0x80, 0xBF⟩ := by
  simp only [lead]
  rw [if_neg (by omega), if_neg (by omega), if_pos h']

theorem lead_three (h : 0xE0 ≤ b.toNat) (h' : b.toNat < 0xF0) :
    lead b = .begins ⟨b.toNat - 0xE0, 2, if b.toNat = 0xE0 then 0xA0 else 0x80,
      if b.toNat = 0xED then 0x9F else 0xBF⟩ := by
  simp only [lead]
  rw [if_neg (by omega), if_neg (by omega), if_neg (by omega)]
  by_cases hfirst : b.toNat = 0xE0
  · simp [hfirst]
  · by_cases hsurrogate : b.toNat = 0xED
    · simp [hsurrogate]
    · simp [hfirst, hsurrogate, h']

theorem lead_four (h : 0xF0 ≤ b.toNat) (h' : b.toNat < 0xF5) :
    lead b = .begins ⟨b.toNat - 0xF0, 3, if b.toNat = 0xF0 then 0x90 else 0x80,
      if b.toNat = 0xF4 then 0x8F else 0xBF⟩ := by
  simp only [lead]
  rw [if_neg (by omega), if_neg (by omega), if_neg (by omega), if_neg (by omega),
    if_neg (by omega), if_neg (by omega)]
  by_cases hfirst : b.toNat = 0xF0
  · simp [hfirst]
  · by_cases hlast : b.toNat = 0xF4
    · simp [hlast]
    · have hlt : b.toNat < 0xF4 := by omega
      simp [hfirst, hlast, hlt]

end Lead

/-- The first octet of a longer character is kept in hand. -/
theorem pieces_cons_of_lead {b : Octet} {p : Pending} (h : lead b = .begins p) (bs : List Octet) :
    pieces (b :: bs) = piecesFrom (some p) bs := by
  rw [pieces, piecesFrom_cons, step, start, h]
  rfl

section Further

variable {bits : Nat} {low high b : Octet}

/-- The last octet of a character brings its last bits. -/
theorem piecesFrom_last (hlow : low.toNat ≤ b.toNat) (hhigh : b.toNat ≤ high.toNat)
    (bs : List Octet) :
    piecesFrom (some ⟨bits, 1, low, high⟩) (b :: bs)
      = some (Char.ofNat (bits * 64 + (b.toNat - 0x80))) :: pieces bs := by
  have hrange : low ≤ b ∧ b ≤ high :=
    ⟨UInt8.le_iff_toNat_le.mpr hlow, UInt8.le_iff_toNat_le.mpr hhigh⟩
  rw [piecesFrom_cons, step, if_pos hrange]
  rfl

/-- An octet before the last brings bits, and the next may be any that goes on. -/
theorem piecesFrom_inside (hlow : low.toNat ≤ b.toNat) (hhigh : b.toNat ≤ high.toNat) (more : Nat)
    (bs : List Octet) :
    piecesFrom (some ⟨bits, more + 2, low, high⟩) (b :: bs)
      = piecesFrom (some ⟨bits * 64 + (b.toNat - 0x80), more + 1, 0x80, 0xBF⟩) bs := by
  have hrange : low ≤ b ∧ b ≤ high :=
    ⟨UInt8.le_iff_toNat_le.mpr hlow, UInt8.le_iff_toNat_le.mpr hhigh⟩
  rw [piecesFrom_cons, step, if_pos hrange]
  rfl

end Further

/-- The octet goes on with a character. -/
def Continues (b : Octet) : Prop :=
  (0x80 : Octet).toNat ≤ b.toNat ∧ b.toNat ≤ (0xBF : Octet).toNat

section Characters

variable {a b c d : Octet} (bs : List Octet)

theorem pieces_two (ha : 0xC2 ≤ a.toNat) (ha' : a.toNat < 0xE0) (hb : Continues b) :
    pieces (a :: b :: bs)
      = some (Char.ofNat ((a.toNat - 0xC0) * 64 + (b.toNat - 0x80))) :: pieces bs := by
  rw [pieces_cons_of_lead (lead_two ha ha'), piecesFrom_last hb.1 hb.2]

/-- The second octet makes the number of the character large enough, and none of a surrogate. -/
theorem pieces_three (ha : 0xE0 ≤ a.toNat) (ha' : a.toNat < 0xF0) (hb : Continues b)
    (hfirst : a.toNat = 0xE0 → 0xA0 ≤ b.toNat) (hsurrogate : a.toNat = 0xED → b.toNat ≤ 0x9F)
    (hc : Continues c) :
    pieces (a :: b :: c :: bs) = some (Char.ofNat
      (((a.toNat - 0xE0) * 64 + (b.toNat - 0x80)) * 64 + (c.toNat - 0x80))) :: pieces bs := by
  have hlow : (if a.toNat = 0xE0 then 0xA0 else 0x80 : Octet).toNat ≤ b.toNat := by
    split_ifs with h
    · exact hfirst h
    · exact hb.1
  have hhigh : b.toNat ≤ (if a.toNat = 0xED then 0x9F else 0xBF : Octet).toNat := by
    split_ifs with h
    · exact hsurrogate h
    · exact hb.2
  rw [pieces_cons_of_lead (lead_three ha ha'), piecesFrom_inside hlow hhigh 0,
    piecesFrom_last hc.1 hc.2]

/-- The second octet makes the number of the character large enough, and not too large. -/
theorem pieces_four (ha : 0xF0 ≤ a.toNat) (ha' : a.toNat < 0xF5) (hb : Continues b)
    (hfirst : a.toNat = 0xF0 → 0x90 ≤ b.toNat) (hlast : a.toNat = 0xF4 → b.toNat ≤ 0x8F)
    (hc : Continues c) (hd : Continues d) :
    pieces (a :: b :: c :: d :: bs) = some (Char.ofNat
      ((((a.toNat - 0xF0) * 64 + (b.toNat - 0x80)) * 64 + (c.toNat - 0x80)) * 64
        + (d.toNat - 0x80))) :: pieces bs := by
  have hlow : (if a.toNat = 0xF0 then 0x90 else 0x80 : Octet).toNat ≤ b.toNat := by
    split_ifs with h
    · exact hfirst h
    · exact hb.1
  have hhigh : b.toNat ≤ (if a.toNat = 0xF4 then 0x8F else 0xBF : Octet).toNat := by
    split_ifs with h
    · exact hlast h
    · exact hb.2
  rw [pieces_cons_of_lead (lead_four ha ha'), piecesFrom_inside hlow hhigh 1,
    piecesFrom_inside hc.1 hc.2 0, piecesFrom_last hd.1 hd.2]

end Characters

/-- The octets of a character are read as the character. -/
theorem pieces_utf8EncodeChar_append (c : Char) (bs : List Octet) :
    pieces (String.utf8EncodeChar c ++ bs) = some c :: pieces bs := by
  have hvalid : c.toNat < 0xD800 ∨ 0xDFFF < c.toNat ∧ c.toNat < 0x110000 := c.valid
  have hchar {n : Nat} (hn : n = c.toNat) : some (Char.ofNat n) = some c := by
    rw [hn, Char.ofNat_toNat]
  have hoctet {k : Nat} (hk : k < 256) : (UInt8.ofNat k).toNat = k := by
    rw [UInt8.toNat_ofNat', Nat.mod_eq_of_lt hk]
  have hnumber : c.val.toNat = c.toNat := rfl
  simp only [String.utf8EncodeChar, hnumber]
  have hcontinues {k : Nat} (hk : k < 64) : Continues (UInt8.ofNat (k + 0x80)) := by
    rw [Continues, hoctet (by omega)]
    exact ⟨Nat.le_add_left .., Nat.le_of_lt_succ (Nat.add_lt_add_right hk 0x80)⟩
  -- one case for each number of octets; what they bring is the number of the character again
  split_ifs with h1 h2 h3
  · have hb : (UInt8.ofNat c.toNat).toNat = c.toNat := hoctet (by omega)
    rw [List.singleton_append, pieces, piecesFrom_cons, step, start_of_ascii (by omega), asciiChar,
      hchar hb]
    rfl
  · have ha : (UInt8.ofNat (c.toNat / 64 % 32 + 192)).toNat = c.toNat / 64 % 32 + 192 :=
      hoctet (by omega)
    have hb : (UInt8.ofNat (c.toNat % 64 + 128)).toNat = c.toNat % 64 + 128 := hoctet (by omega)
    rw [List.cons_append, List.singleton_append,
      pieces_two bs (by omega) (by omega) (hcontinues (by omega)), hchar (by omega)]
  · have ha : (UInt8.ofNat (c.toNat / 4096 % 16 + 224)).toNat = c.toNat / 4096 % 16 + 224 :=
      hoctet (by omega)
    have hb : (UInt8.ofNat (c.toNat / 64 % 64 + 128)).toNat = c.toNat / 64 % 64 + 128 :=
      hoctet (by omega)
    have hc : (UInt8.ofNat (c.toNat % 64 + 128)).toNat = c.toNat % 64 + 128 := hoctet (by omega)
    rw [List.cons_append, List.cons_append, List.singleton_append,
      pieces_three bs (by omega) (by omega) (hcontinues (by omega)) (by omega) (by omega)
        (hcontinues (by omega)), hchar (by omega)]
  · have ha : (UInt8.ofNat (c.toNat / 262144 % 8 + 240)).toNat = c.toNat / 262144 % 8 + 240 :=
      hoctet (by omega)
    have hb : (UInt8.ofNat (c.toNat / 4096 % 64 + 128)).toNat = c.toNat / 4096 % 64 + 128 :=
      hoctet (by omega)
    have hc : (UInt8.ofNat (c.toNat / 64 % 64 + 128)).toNat = c.toNat / 64 % 64 + 128 :=
      hoctet (by omega)
    have hd : (UInt8.ofNat (c.toNat % 64 + 128)).toNat = c.toNat % 64 + 128 := hoctet (by omega)
    rw [List.cons_append, List.cons_append, List.cons_append, List.singleton_append,
      pieces_four bs (by omega) (by omega) (hcontinues (by omega)) (by omega) (by omega)
        (hcontinues (by omega)) (hcontinues (by omega)), hchar (by omega)]

/-- The octets of a text are read as its characters, whatever follows them. -/
theorem pieces_flatMap_append (cs : List Char) (bs : List Octet) :
    pieces (cs.flatMap String.utf8EncodeChar ++ bs) = cs.map some ++ pieces bs := by
  induction cs with
  | nil => rfl
  | cons c cs ih =>
    rw [List.flatMap_cons, List.append_assoc, pieces_utf8EncodeChar_append, ih, List.map_cons,
      List.cons_append]

theorem pieces_flatMap (cs : List Char) : pieces (cs.flatMap String.utf8EncodeChar) = cs.map some := by
  have h := pieces_flatMap_append cs []
  rwa [List.append_nil, show pieces [] = [] from rfl, List.append_nil] at h

end Utf8

/-! ### Texts -/

theorem mapM_id_eq_some_iff {α : Type} {l : List (Option α)} {as : List α} :
    l.mapM id = some as ↔ l = as.map some := by
  induction l generalizing as with
  | nil => cases as <;> simp
  | cons a l ih =>
    cases a with
    | none => cases as <;> simp
    | some a => cases as <;> simp [Option.bind_eq_some_iff, ih, and_comm]

/-- A text that was encoded is read back. -/
theorem decode?_encode (s : String) : decode? (encode s) = some s := by
  rw [decode?, encode, Utf8.pieces_flatMap, mapM_id_eq_some_iff.mpr rfl, Option.map_some,
    String.ofList_toList]

/-- A text at the front is shown as itself. -/
theorem decodeLossy_append (s : String) (bs : List Octet) :
    (decodeLossy (encode s ++ bs)).toList = s.toList ++ (decodeLossy bs).toList := by
  rw [decodeLossy, encode, Utf8.pieces_flatMap_append, decodeLossy, String.toList_ofList,
    String.toList_ofList, List.map_append, List.map_map]
  exact congrArg (· ++ _) (List.map_id s.toList)

end KnowledgeImport.Text
