import KnowledgeImport.Proofs.Text.Transparency

/-!
# Octets that spell a text

The strict reading takes the octets of a text and no others (`decode?_eq_encode_iff`).  The number of
a character brings back the octets that it was read from, for the second of them keeps it in the
range of their number (`Utf8.utf8EncodeChar_two`, `Utf8.utf8EncodeChar_three`,
`Utf8.utf8EncodeChar_four`).  So octets among which nothing is ill-formed begin with those of a
character (`Utf8.exists_char_of_pieces_cons`).
-/

namespace KnowledgeImport.Text

namespace Utf8

theorem toNat_val_ofNat {n : Nat} (h : n < 0xD800 ∨ 0xDFFF < n ∧ n < 0x110000) :
    (Char.ofNat n).val.toNat = n := by
  rw [Char.ofNat, dif_pos h]
  rfl

section Characters

variable {a b c d : Octet}

theorem ofNat_eq {n : Nat} (h : n = a.toNat) : UInt8.ofNat n = a := by
  rw [h, UInt8.ofNat_toNat]

theorem utf8EncodeChar_two (ha : 0xC2 ≤ a.toNat) (ha' : a.toNat < 0xE0) (hb : Continues b) :
    String.utf8EncodeChar (Char.ofNat ((a.toNat - 0xC0) * 64 + (b.toNat - 0x80))) = [a, b] := by
  have hb1 : 0x80 ≤ b.toNat := hb.1
  have hb2 : b.toNat ≤ 0xBF := hb.2
  rw [String.utf8EncodeChar, toNat_val_ofNat (by omega)]
  rw [if_neg (by omega), if_pos (by omega), ofNat_eq (a := a) (by omega),
    ofNat_eq (a := b) (by omega)]

theorem utf8EncodeChar_three (ha : 0xE0 ≤ a.toNat) (ha' : a.toNat < 0xF0) (hb : Continues b)
    (hfirst : a.toNat = 0xE0 → 0xA0 ≤ b.toNat) (hsurrogate : a.toNat = 0xED → b.toNat ≤ 0x9F)
    (hc : Continues c) :
    String.utf8EncodeChar (Char.ofNat
      (((a.toNat - 0xE0) * 64 + (b.toNat - 0x80)) * 64 + (c.toNat - 0x80))) = [a, b, c] := by
  have hb1 : 0x80 ≤ b.toNat := hb.1
  have hb2 : b.toNat ≤ 0xBF := hb.2
  have hc1 : 0x80 ≤ c.toNat := hc.1
  have hc2 : c.toNat ≤ 0xBF := hc.2
  rw [String.utf8EncodeChar, toNat_val_ofNat (by omega)]
  rw [if_neg (by omega), if_neg (by omega), if_pos (by omega), ofNat_eq (a := a) (by omega),
    ofNat_eq (a := b) (by omega), ofNat_eq (a := c) (by omega)]

theorem utf8EncodeChar_four (ha : 0xF0 ≤ a.toNat) (ha' : a.toNat < 0xF5) (hb : Continues b)
    (hfirst : a.toNat = 0xF0 → 0x90 ≤ b.toNat) (hlast : a.toNat = 0xF4 → b.toNat ≤ 0x8F)
    (hc : Continues c) (hd : Continues d) :
    String.utf8EncodeChar (Char.ofNat
      ((((a.toNat - 0xF0) * 64 + (b.toNat - 0x80)) * 64 + (c.toNat - 0x80)) * 64
        + (d.toNat - 0x80))) = [a, b, c, d] := by
  have hb1 : 0x80 ≤ b.toNat := hb.1
  have hb2 : b.toNat ≤ 0xBF := hb.2
  have hc1 : 0x80 ≤ c.toNat := hc.1
  have hc2 : c.toNat ≤ 0xBF := hc.2
  have hd1 : 0x80 ≤ d.toNat := hd.1
  have hd2 : d.toNat ≤ 0xBF := hd.2
  rw [String.utf8EncodeChar, toNat_val_ofNat (by omega)]
  rw [if_neg (by omega), if_neg (by omega), if_neg (by omega), ofNat_eq (a := a) (by omega),
    ofNat_eq (a := b) (by omega), ofNat_eq (a := c) (by omega), ofNat_eq (a := d) (by omega)]

/-- An octet in a range that may be narrowed goes on with a character. -/
theorem continues_of_range {low high : Octet} (hlow : 0x80 ≤ low.toNat) (hhigh : high.toNat ≤ 0xBF)
    (hb : low.toNat ≤ b.toNat ∧ b.toNat ≤ high.toNat) : Continues b :=
  ⟨hlow.trans hb.1, hb.2.trans hhigh⟩

end Characters

/-- While a character is in hand and nothing is ill-formed, an octet follows that goes on with it. -/
theorem exists_of_piecesFrom_some {bits missing : Nat} {low high : Octet} {bs : List Octet}
    {cs : List Char} (h : piecesFrom (some ⟨bits, missing, low, high⟩) bs = cs.map some) :
    ∃ b bs', bs = b :: bs' ∧ low.toNat ≤ b.toNat ∧ b.toNat ≤ high.toNat := by
  have hnone : none ∉ cs.map some := by simp
  cases bs with
  | nil => exact absurd (h ▸ List.mem_singleton_self none) hnone
  | cons b bs =>
    by_cases hrange : low ≤ b ∧ b ≤ high
    · exact ⟨b, bs, rfl, UInt8.le_iff_toNat_le.mp hrange.1, UInt8.le_iff_toNat_le.mp hrange.2⟩
    · rw [piecesFrom_cons, step, if_neg hrange] at h
      exact absurd (h ▸ List.mem_cons_self ..) hnone

/-- Octets among which nothing is ill-formed begin with those of a character. -/
theorem exists_char_of_pieces_cons {a : Octet} {bs : List Octet} {cs : List Char}
    (h : pieces (a :: bs) = cs.map some) :
    ∃ c cs' bs', cs = c :: cs' ∧ a :: bs = String.utf8EncodeChar c ++ bs' ∧
      pieces bs' = cs'.map some := by
  have hfirst {c : Char} {front bs' : List Octet} (hc : String.utf8EncodeChar c = front)
      (hpieces : cs.map some = some c :: pieces bs') (hsplit : a :: bs = front ++ bs') :
      ∃ c cs' bs', cs = c :: cs' ∧ a :: bs = String.utf8EncodeChar c ++ bs' ∧
        pieces bs' = cs'.map some := by
    obtain ⟨c', cs', rfl, hc', hrest⟩ := List.map_eq_cons_iff.mp hpieces
    refine ⟨c', cs', bs', rfl, ?_, hrest.symm⟩
    rw [Option.some.inj hc', hc, hsplit]
  -- one case for each number of octets that the first one announces
  by_cases hascii : a.toNat < 0x80
  · rw [pieces, piecesFrom_cons, step, start_of_ascii hascii, List.singleton_append] at h
    exact hfirst (utf8EncodeChar_asciiChar hascii) h.symm rfl
  by_cases htwo : 0xC2 ≤ a.toNat ∧ a.toNat < 0xE0
  · have hheld := h
    rw [pieces_cons_of_lead (lead_two htwo.1 htwo.2)] at hheld
    obtain ⟨b, bs, rfl, hb⟩ := exists_of_piecesFrom_some hheld
    rw [pieces_two bs htwo.1 htwo.2 hb] at h
    exact hfirst (utf8EncodeChar_two htwo.1 htwo.2 hb) h.symm rfl
  by_cases hthree : 0xE0 ≤ a.toNat ∧ a.toNat < 0xF0
  · have hheld := h
    rw [pieces_cons_of_lead (lead_three hthree.1 hthree.2)] at hheld
    obtain ⟨b, bs, rfl, hrange⟩ := exists_of_piecesFrom_some hheld
    rw [piecesFrom_inside hrange.1 hrange.2 0] at hheld
    obtain ⟨c, bs, rfl, hc⟩ := exists_of_piecesFrom_some hheld
    have hb : Continues b :=
      continues_of_range (by split_ifs <;> decide) (by split_ifs <;> decide) hrange
    have hleast : a.toNat = 0xE0 → 0xA0 ≤ b.toNat := fun ha => by simpa [ha] using hrange.1
    have hsurrogate : a.toNat = 0xED → b.toNat ≤ 0x9F := fun ha => by simpa [ha] using hrange.2
    rw [pieces_three bs hthree.1 hthree.2 hb hleast hsurrogate hc] at h
    exact hfirst (utf8EncodeChar_three hthree.1 hthree.2 hb hleast hsurrogate hc) h.symm rfl
  by_cases hfour : 0xF0 ≤ a.toNat ∧ a.toNat < 0xF5
  · have hheld := h
    rw [pieces_cons_of_lead (lead_four hfour.1 hfour.2)] at hheld
    obtain ⟨b, bs, rfl, hrange⟩ := exists_of_piecesFrom_some hheld
    rw [piecesFrom_inside hrange.1 hrange.2 1] at hheld
    obtain ⟨c, bs, rfl, hc⟩ := exists_of_piecesFrom_some hheld
    rw [piecesFrom_inside hc.1 hc.2 0] at hheld
    obtain ⟨d, bs, rfl, hd⟩ := exists_of_piecesFrom_some hheld
    have hb : Continues b :=
      continues_of_range (by split_ifs <;> decide) (by split_ifs <;> decide) hrange
    have hleast : a.toNat = 0xF0 → 0x90 ≤ b.toNat := fun ha => by simpa [ha] using hrange.1
    have hlast : a.toNat = 0xF4 → b.toNat ≤ 0x8F := fun ha => by simpa [ha] using hrange.2
    rw [pieces_four bs hfour.1 hfour.2 hb hleast hlast hc hd] at h
    exact hfirst (utf8EncodeChar_four hfour.1 hfour.2 hb hleast hlast hc hd) h.symm rfl
  -- any other octet begins nothing
  have hstray : lead a = .stray := by
    simp only [lead]
    split_ifs <;> first | rfl | omega
  rw [pieces, piecesFrom_cons, step, start, hstray] at h
  have hnone : none ∈ cs.map some := h ▸ List.mem_cons_self ..
  simp at hnone

/-- Octets that are read as some characters are the octets of these. -/
theorem eq_flatMap_of_pieces {bs : List Octet} {cs : List Char} (h : pieces bs = cs.map some) :
    bs = cs.flatMap String.utf8EncodeChar := by
  induction cs generalizing bs with
  | nil => exact pieces_eq_nil_iff.mp h
  | cons c cs ih =>
    cases bs with
    | nil => cases h
    | cons a bs =>
      obtain ⟨c', cs', bs', heq, hbs, hrest⟩ := exists_char_of_pieces_cons h
      obtain ⟨rfl, rfl⟩ := List.cons.inj heq
      rw [hbs, List.flatMap_cons, ← ih hrest]

end Utf8

/-- The octets of a text, and no others, are read as the text. -/
theorem decode?_eq_encode_iff {t : String} {bs : List Octet} :
    decode? bs = some t ↔ bs = encode t := by
  constructor
  · intro h
    obtain ⟨cs, hcs, rfl⟩ := Option.map_eq_some_iff.mp h
    rw [encode, String.toList_ofList]
    exact Utf8.eq_flatMap_of_pieces (mapM_id_eq_some_iff.mp hcs)
  · rintro rfl
    exact decode?_encode t

theorem encode_injective : Function.Injective encode := by
  intro s t h
  have hread := decode?_encode s
  rw [h, decode?_encode] at hread
  exact (Option.some.inj hread).symm

end KnowledgeImport.Text
