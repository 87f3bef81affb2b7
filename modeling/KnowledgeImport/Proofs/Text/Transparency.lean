import KnowledgeImport.Text.Ascii
import KnowledgeImport.Proofs.Text.Decoding
import Mathlib.Data.List.Basic
import Mathlib.Data.List.Infix

/-!
# Octets that stand for themselves

Octets that are shown as a text, and that text encoded again (`mend`), differ from the octets at the
start only where these are ill-formed.  An ASCII octet is never part of an ill-formed run or of a
longer character, so it cuts what is mended in two: `mend_append_cons` takes the cut through
`mend`, and `exists_of_mend_eq` takes it back.  Hence a text of ASCII characters stands at the front
or at the end of mended octets iff it stands there in the octets themselves (`prefix_mend_iff`,
`suffix_mend_iff`).
-/

namespace KnowledgeImport.Text

/-- The octets are those of ASCII characters other than NUL. -/
def Ascii (bs : List Octet) : Prop := ∀ b ∈ bs, b ≠ 0 ∧ b.toNat < 0x80

-- octet by octet of the text, not over all the octets there are
instance : DecidablePred Ascii :=
  fun bs => List.decidableBAll (fun b : Octet => b ≠ 0 ∧ b.toNat < 0x80) bs

/-! ### Decoding -/

namespace Utf8

/-- An ASCII octet ends what is in hand and is a character. -/
theorem step_of_ascii {held : Option Pending} (hheld : ∀ p ∈ held, p.AboveAscii) {b : Octet}
    (hb : b.toNat < 0x80) : step held b = (piecesFrom held [] ++ [some (asciiChar b)], none) := by
  cases held with
  | none => exact start_of_ascii hb
  | some p =>
    have hlow : ¬ p.low ≤ b := by
      have habove := (hheld p rfl).1
      rw [UInt8.le_iff_toNat_le]
      omega
    rw [step, if_neg (fun h => hlow h.1), start_of_ascii hb]
    rfl

/-- An ASCII octet cuts the pieces of a text in two. -/
theorem piecesFrom_append_cons {held : Option Pending} (hheld : ∀ p ∈ held, p.AboveAscii)
    (m : List Octet) {b : Octet} (hb : b.toNat < 0x80) (r : List Octet) :
    piecesFrom held (m ++ b :: r)
      = piecesFrom held m ++ some (asciiChar b) :: piecesFrom none r := by
  induction m generalizing held with
  | nil => rw [List.nil_append, piecesFrom_cons, step_of_ascii hheld hb, List.append_assoc]; rfl
  | cons a m ih =>
    rw [List.cons_append, piecesFrom_cons, piecesFrom_cons, ih (step_spec hheld a).1,
      List.append_assoc]

/-- What is in hand comes out in the end. -/
theorem piecesFrom_some_ne_nil (p : Pending) (bs : List Octet) : piecesFrom (some p) bs ≠ [] := by
  induction bs generalizing p with
  | nil => exact List.cons_ne_nil _ _
  | cons b bs ih =>
    rw [piecesFrom, step]
    split_ifs
    · exact List.cons_ne_nil _ _
    · exact ih _
    · exact List.cons_ne_nil _ _

theorem pieces_eq_nil_iff {bs : List Octet} : pieces bs = [] ↔ bs = [] := by
  constructor
  · intro h
    cases bs with
    | nil => rfl
    | cons b bs =>
      rw [pieces, piecesFrom, step, start] at h
      cases hlead : lead b with
      | ascii c => rw [hlead] at h; cases h
      | begins p => rw [hlead] at h; exact absurd h (piecesFrom_some_ne_nil p bs)
      | stray => rw [hlead] at h; cases h
  · rintro rfl
    rfl

/-- The characters that pieces are shown as. -/
def shown (ps : List Piece) : List Char := ps.map (·.getD '\uFFFD')

theorem ne_mark_of_ascii {c : Char} (hascii : c.toNat < 0x80) : c ≠ '\uFFFD' := by
  rintro rfl
  exact absurd hascii (by decide)

/-- What is in hand at the end is not shown as an ASCII character. -/
theorem notMem_shown_piecesFrom_nil (held : Option Pending) {c : Char} (hascii : c.toNat < 0x80) :
    c ∉ shown (piecesFrom held []) := by
  have hmark := ne_mark_of_ascii hascii
  cases held <;> simp [shown, piecesFrom, hmark]

/-- An octet that makes an ASCII character other than NUL is that of the character, and ends what
is in hand. -/
theorem step_of_mem_shown {held : Option Pending} (hheld : ∀ p ∈ held, p.AboveAscii) {b : Octet}
    {c : Char} (hnul : c ≠ '\x00') (hascii : c.toNat < 0x80) (h : c ∈ shown (step held b).1) :
    b.toNat = c.toNat ∧ shown (step held b).1 = shown (piecesFrom held []) ++ [c] ∧
      (step held b).2 = none := by
  obtain ⟨-, hpieces⟩ := step_spec hheld b
  have hmem : some c ∈ (step held b).1 := by
    obtain ⟨piece, hpiece, hc⟩ := List.mem_map.mp h
    cases piece with
    | none => exact absurd hc.symm (ne_mark_of_ascii hascii)
    | some d => exact hc ▸ hpiece
  have hb : c.toNat = b.toNat := hpieces c hmem hnul hascii
  have hchar : asciiChar b = c := by rw [asciiChar, ← hb, Char.ofNat_toNat]
  rw [step_of_ascii hheld (hb ▸ hascii), hchar]
  refine ⟨hb.symm, ?_, rfl⟩
  simp only [shown, List.map_append, List.map_cons, List.map_nil, Option.getD_some]

/-- An ASCII character other than NUL is shown for its own octet, and what is shown before and after
it is that for what stands before and after the octet. -/
theorem exists_of_shown_eq {held : Option Pending} (hheld : ∀ p ∈ held, p.AboveAscii)
    {bs : List Octet} {u v : List Char} {c : Char} (hnul : c ≠ '\x00') (hascii : c.toNat < 0x80)
    (h : shown (piecesFrom held bs) = u ++ c :: v) :
    ∃ m b r, bs = m ++ b :: r ∧ b.toNat = c.toNat ∧ shown (piecesFrom held m) = u ∧
      shown (pieces r) = v := by
  induction bs generalizing held u with
  | nil =>
    refine absurd ?_ (notMem_shown_piecesFrom_nil held hascii)
    rw [h]
    exact List.mem_append_right _ (List.mem_cons_self ..)
  | cons b bs ih =>
    obtain ⟨hnext, -⟩ := step_spec hheld b
    have hsplit (bs : List Octet) : shown (piecesFrom held (b :: bs))
        = shown (step held b).1 ++ shown (piecesFrom (step held b).2 bs) := by
      rw [piecesFrom_cons]
      exact List.map_append
    -- either the octet makes the character, or one of the further ones does
    have hlater {w : List Char} (hu : u = shown (step held b).1 ++ w)
        (hw : shown (piecesFrom (step held b).2 bs) = w ++ c :: v) :
        ∃ m b' r, b :: bs = m ++ b' :: r ∧ b'.toNat = c.toNat ∧ shown (piecesFrom held m) = u ∧
          shown (pieces r) = v := by
      obtain ⟨m, b', r, rfl, hb', hm, hr⟩ := ih hnext hw
      exact ⟨b :: m, b', r, rfl, hb', by rw [hsplit, hm, hu], hr⟩
    rw [hsplit, List.append_eq_append_iff] at h
    rcases h with ⟨w, hu, hw⟩ | ⟨w, hw, hv⟩
    · exact hlater hu hw
    · rcases List.cons_eq_append_iff.mp hv with ⟨rfl, hrest⟩ | ⟨w, rfl, hrest⟩
      · exact hlater (by rw [hw, List.append_nil, List.append_nil]) hrest
      · have hmem : c ∈ shown (step held b).1 := by simp [hw]
        obtain ⟨hb, hshown, hnone⟩ := step_of_mem_shown hheld hnul hascii hmem
        have hcut : shown (piecesFrom held []) ++ [c] = u ++ c :: w := hshown.symm.trans hw
        obtain ⟨hu, -, rfl⟩ := (List.append_cons_inj_of_notMem
          (notMem_shown_piecesFrom_nil held hascii) List.not_mem_nil).mp hcut
        rw [hnone] at hrest
        exact ⟨[], b, bs, rfl, hb, hu, hrest.symm⟩

end Utf8

/-! ### Encoding -/

/-- An ASCII octet is all there is of the character that it belongs to. -/
theorem eq_of_mem_utf8EncodeChar {c : Char} {b : Octet} (h : b ∈ String.utf8EncodeChar c)
    (hb : b.toNat < 0x80) : String.utf8EncodeChar c = [b] ∧ c.toNat = b.toNat := by
  rw [String.utf8EncodeChar] at h ⊢
  split_ifs at h ⊢ with hascii
  · obtain rfl := List.mem_singleton.mp h
    refine ⟨rfl, ?_⟩
    rw [UInt8.toNat_ofNat', Nat.mod_eq_of_lt (by omega)]
    rfl
  -- the octets of a longer character are all above ASCII
  all_goals
    have habove : 0x80 ≤ b.toNat := by
      simp only [List.mem_cons, List.not_mem_nil, or_false] at h
      rcases h with rfl | rfl | rfl | rfl <;> simp [UInt8.toNat_ofNat'] <;> omega
    omega

/-- An ASCII octet in a text that was encoded is that of a character in it. -/
theorem exists_of_mem_encode {s : String} {b : Octet} (hb : b.toNat < 0x80) (h : b ∈ encode s) :
    ∃ c ∈ s.toList, c.toNat = b.toNat := by
  obtain ⟨c, hc, hmem⟩ := List.mem_flatMap.mp h
  exact ⟨c, hc, (eq_of_mem_utf8EncodeChar hmem hb).2⟩

theorem utf8EncodeChar_asciiChar {b : Octet} (hb : b.toNat < 0x80) :
    String.utf8EncodeChar (Utf8.asciiChar b) = [b] := by
  have hval : (Utf8.asciiChar b).val.toNat = b.toNat := by
    rw [Utf8.asciiChar, Char.ofNat, dif_pos (Or.inl (by omega))]
    rfl
  rw [String.utf8EncodeChar, hval, if_pos (by omega), UInt8.ofNat_toNat]

/-- An ASCII octet cuts a text that was encoded in two. -/
theorem exists_of_encode_eq {cs : List Char} {u v : List Octet} {b : Octet} (hb : b.toNat < 0x80)
    (h : cs.flatMap String.utf8EncodeChar = u ++ b :: v) :
    ∃ p c q, cs = p ++ c :: q ∧ c.toNat = b.toNat ∧ p.flatMap String.utf8EncodeChar = u ∧
      q.flatMap String.utf8EncodeChar = v := by
  induction cs generalizing u with
  | nil => cases u <;> cases h
  | cons c cs ih =>
    -- either the octet is in the first character, or in one of the others
    have hlater {w : List Octet} (hu : u = String.utf8EncodeChar c ++ w)
        (hw : cs.flatMap String.utf8EncodeChar = w ++ b :: v) :
        ∃ p c' q, c :: cs = p ++ c' :: q ∧ c'.toNat = b.toNat ∧
          p.flatMap String.utf8EncodeChar = u ∧ q.flatMap String.utf8EncodeChar = v := by
      obtain ⟨p, c', q, rfl, hc', hp, hq⟩ := ih hw
      exact ⟨c :: p, c', q, rfl, hc', by rw [List.flatMap_cons, hp, hu], hq⟩
    rw [List.flatMap_cons, List.append_eq_append_iff] at h
    rcases h with ⟨w, hu, hw⟩ | ⟨w, hc, hv⟩
    · exact hlater hu hw
    · rcases List.cons_eq_append_iff.mp hv with ⟨rfl, hrest⟩ | ⟨w, rfl, hrest⟩
      · exact hlater (by rw [hc, List.append_nil, List.append_nil]) hrest
      · have hmem : b ∈ String.utf8EncodeChar c := by
          rw [hc]
          exact List.mem_append_right _ (List.mem_cons_self ..)
        obtain ⟨hencode, hnat⟩ := eq_of_mem_utf8EncodeChar hmem hb
        rw [hencode, eq_comm, List.append_eq_singleton_iff] at hc
        rcases hc with ⟨rfl, hb'⟩ | ⟨-, hb'⟩
        · obtain ⟨-, rfl⟩ := List.cons.inj hb'
          exact ⟨[], c, cs, rfl, hnat, rfl, hrest.symm⟩
        · cases hb'

/-! ### Octets shown and encoded again -/

/-- The octets of the text that octets are shown as. -/
def mend (bs : List Octet) : List Octet := encode (decodeLossy bs)

theorem mend_eq_flatMap (bs : List Octet) :
    mend bs = (Utf8.shown (Utf8.pieces bs)).flatMap String.utf8EncodeChar := by
  rw [mend, encode, decodeLossy, String.toList_ofList]
  rfl

theorem mend_nil : mend [] = [] := rfl

theorem mend_eq_nil_iff {bs : List Octet} : mend bs = [] ↔ bs = [] := by
  constructor
  · intro h
    rw [mend_eq_flatMap, List.flatMap_eq_nil_iff] at h
    have hshown : Utf8.shown (Utf8.pieces bs) = [] :=
      List.eq_nil_iff_forall_not_mem.mpr fun c hc => String.utf8EncodeChar_ne_nil (h c hc)
    exact Utf8.pieces_eq_nil_iff.mp (List.map_eq_nil_iff.mp hshown)
  · rintro rfl
    rfl

/-- An ASCII octet stays, and cuts what is mended in two. -/
theorem mend_append_cons (m : List Octet) {b : Octet} (hb : b.toNat < 0x80) (r : List Octet) :
    mend (m ++ b :: r) = mend m ++ b :: mend r := by
  have hcut : Utf8.pieces (m ++ b :: r)
      = Utf8.pieces m ++ some (Utf8.asciiChar b) :: Utf8.pieces r :=
    Utf8.piecesFrom_append_cons (by simp) m hb r
  simp only [mend_eq_flatMap, hcut, Utf8.shown, List.map_append, List.map_cons, Option.getD_some,
    List.flatMap_append, List.flatMap_cons, utf8EncodeChar_asciiChar hb, List.singleton_append]

/-- An ASCII octet other than NUL that stands in mended octets stood there before. -/
theorem exists_of_mend_eq {bs u v : List Octet} {b : Octet} (hnul : b ≠ 0) (hb : b.toNat < 0x80)
    (h : mend bs = u ++ b :: v) : ∃ m r, bs = m ++ b :: r ∧ mend m = u ∧ mend r = v := by
  rw [mend_eq_flatMap] at h
  obtain ⟨p, c, q, hshown, hc, hp, hq⟩ := exists_of_encode_eq hb h
  have hcnul : c ≠ '\x00' := by
    rintro rfl
    exact hnul (UInt8.toNat_inj.mp hc.symm)
  obtain ⟨m, b', r, rfl, hb', hm, hr⟩ :=
    Utf8.exists_of_shown_eq (by simp) hcnul (hc ▸ hb) hshown
  obtain rfl : b' = b := UInt8.toNat_inj.mp (hb'.trans hc)
  exact ⟨m, r, rfl, by rw [mend_eq_flatMap, ← hp, ← hm]; rfl, by rw [mend_eq_flatMap, ← hq, ← hr]⟩

/-! ### ASCII texts in mended octets -/

/-- Mending leaves an ASCII text at the front alone. -/
theorem mend_append {t : List Octet} (ht : Ascii t) (r : List Octet) :
    mend (t ++ r) = t ++ mend r := by
  induction t with
  | nil => rfl
  | cons b t ih =>
    rw [Ascii, List.forall_mem_cons] at ht
    rw [List.cons_append, List.cons_append, ← ih ht.2]
    exact mend_append_cons [] ht.1.2 _

theorem mend_of_ascii {t : List Octet} (ht : Ascii t) : mend t = t := by
  have h := mend_append ht []
  rwa [List.append_nil, mend_nil, List.append_nil] at h

/-- An ASCII text at the front of mended octets stood there before. -/
theorem exists_of_mend_eq_append {t : List Octet} (ht : Ascii t) {bs v : List Octet}
    (h : mend bs = t ++ v) : ∃ r, bs = t ++ r ∧ mend r = v := by
  induction t generalizing bs with
  | nil => exact ⟨bs, rfl, h⟩
  | cons b t ih =>
    rw [Ascii, List.forall_mem_cons] at ht
    obtain ⟨m, r, rfl, hm, hr⟩ := exists_of_mend_eq (u := []) ht.1.1 ht.1.2 h
    obtain rfl := mend_eq_nil_iff.mp hm
    obtain ⟨r', rfl, hr'⟩ := ih ht.2 hr
    exact ⟨r', rfl, hr'⟩

/-- An ASCII text at the end of mended octets stood there before. -/
theorem exists_of_mend_eq_append_right {t : List Octet} (ht : Ascii t) {bs u : List Octet}
    (h : mend bs = u ++ t) : ∃ m, bs = m ++ t ∧ mend m = u := by
  induction t generalizing u with
  | nil => exact ⟨bs, (List.append_nil _).symm, by rw [h, List.append_nil]⟩
  | cons b t ih =>
    rw [Ascii, List.forall_mem_cons] at ht
    obtain ⟨m, r, rfl, hm, hr⟩ := exists_of_mend_eq ht.1.1 ht.1.2 h
    have hrt : r = t := by
      obtain ⟨r', rfl, hr'⟩ := exists_of_mend_eq_append ht.2 (hr.trans (List.append_nil t).symm)
      rw [mend_eq_nil_iff.mp hr', List.append_nil]
    exact ⟨m, by rw [hrt], hm⟩

theorem mend_eq_iff {t : List Octet} (ht : Ascii t) {bs : List Octet} : mend bs = t ↔ bs = t := by
  constructor
  · intro h
    obtain ⟨m, rfl, hm⟩ := exists_of_mend_eq_append_right (u := []) ht h
    rw [mend_eq_nil_iff.mp hm, List.nil_append]
  · rintro rfl
    exact mend_of_ascii ht

theorem prefix_mend_iff {t : List Octet} (ht : Ascii t) {bs : List Octet} :
    t <+: mend bs ↔ t <+: bs := by
  constructor
  · rintro ⟨v, hv⟩
    obtain ⟨r, rfl, -⟩ := exists_of_mend_eq_append ht hv.symm
    exact List.prefix_append ..
  · rintro ⟨r, rfl⟩
    exact ⟨mend r, (mend_append ht r).symm⟩

theorem suffix_mend_iff {t : List Octet} (ht : Ascii t) {bs : List Octet} :
    t <:+ mend bs ↔ t <:+ bs := by
  constructor
  · rintro ⟨u, hu⟩
    obtain ⟨m, rfl, -⟩ := exists_of_mend_eq_append_right ht hu.symm
    exact List.suffix_append ..
  · rintro ⟨m, rfl⟩
    cases t with
    | nil => exact List.nil_suffix
    | cons b t =>
      have hb := ht b (List.mem_cons_self ..)
      have ht' : Ascii t := fun a ha => ht a (List.mem_cons_of_mem _ ha)
      rw [mend_append_cons m hb.2, mend_of_ascii ht']
      exact List.suffix_append ..

/-! ### Letter case -/

theorem ascii_encode_iff {s : String} :
    Ascii (encode s) ↔ ∀ c ∈ s.toList, c ≠ '\x00' ∧ c.toNat < 0x80 := by
  constructor
  · intro h c hc
    obtain ⟨b, hb⟩ := List.exists_mem_of_ne_nil _ (String.utf8EncodeChar_ne_nil (c := c))
    obtain ⟨hnul, hascii⟩ := h b (List.mem_flatMap.mpr ⟨c, hc, hb⟩)
    obtain ⟨-, hnat⟩ := eq_of_mem_utf8EncodeChar hb hascii
    refine ⟨?_, hnat ▸ hascii⟩
    rintro rfl
    exact hnul (UInt8.toNat_inj.mp hnat.symm)
  · intro h b hb
    obtain ⟨c, hc, hb⟩ := List.mem_flatMap.mp hb
    obtain ⟨hnul, hascii⟩ := h c hc
    have hencode : String.utf8EncodeChar c = [UInt8.ofNat c.toNat] := by
      have hle : c.val.toNat ≤ 127 := Nat.le_of_lt_succ hascii
      rw [String.utf8EncodeChar, if_pos hle]
      rfl
    rw [hencode, List.mem_singleton] at hb
    have hnat : b.toNat = c.toNat := by
      rw [hb, UInt8.toNat_ofNat', Nat.mod_eq_of_lt (by omega)]
    refine ⟨?_, by omega⟩
    rintro rfl
    exact hnul (Char.toNat_inj.mp hnat.symm)

/-- A character whose upper case is ASCII is ASCII. -/
theorem ascii_of_toUpper {c : Char} (h : c.toUpper ≠ '\x00' ∧ c.toUpper.toNat < 0x80) :
    c ≠ '\x00' ∧ c.toNat < 0x80 := by
  unfold Char.toUpper at h
  split_ifs at h with hlower
  · have hle : c.toNat ≤ 'z'.toNat := hlower.2
    refine ⟨?_, Nat.lt_of_le_of_lt hle (by decide)⟩
    rintro rfl
    exact absurd hlower.1 (by decide)
  · exact h

/-- A text whose upper case is ASCII is ASCII. -/
theorem ascii_of_asciiUpper {s : String} (h : Ascii (encode (asciiUpper s))) : Ascii (encode s) := by
  rw [ascii_encode_iff, asciiUpper, String.toList_ofList, List.forall_mem_map] at h
  exact ascii_encode_iff.mpr fun c hc => ascii_of_toUpper (h c hc)

end KnowledgeImport.Text
