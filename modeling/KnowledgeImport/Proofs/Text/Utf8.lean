import KnowledgeImport.Text.Utf8
import Mathlib.Tactic.SplitIfs

/-!
# ASCII characters of a decoded text

Overlong forms are ill-formed, so a decoder makes an ASCII character from the one octet of that
number and from nothing else.  What carries this through the octets of a longer character is a
bound on what is in hand (`Pending.AboveAscii`).  A text that was decoded from octets without a
slash has no slash (`mem_of_mem_decodeLossy`).
-/

namespace KnowledgeImport.Text

namespace Utf8

/-- The character in hand will be above the ASCII characters: its bits so far are enough for that,
or will be after the next octet, which has a lower bound. -/
def Pending.AboveAscii (p : Pending) : Prop :=
  0x80 ≤ p.low.toNat ∧
    (2 ≤ p.bits ∨ 2 ≤ p.missing ∧ 2 ≤ p.bits * 64 + (p.low.toNat - 0x80))

/-- An octet that begins a longer character puts a character above ASCII in hand. -/
theorem aboveAscii_of_lead {b : Octet} {p : Pending} (h : lead b = .begins p) : p.AboveAscii := by
  simp only [lead] at h
  split_ifs at h
  all_goals
    obtain rfl := Lead.begins.inj h
    clear h
    simp [Pending.AboveAscii]
  all_goals omega

/-- The number of a character made from a number, unless that number has none. -/
theorem toNat_ofNat_of_ne_nul {n : Nat} (h : Char.ofNat n ≠ '\x00') : (Char.ofNat n).toNat = n := by
  by_cases hn : n.isValidChar
  · rw [Char.ofNat, dif_pos hn]
    rfl
  · refine absurd ?_ h
    rw [Char.ofNat, dif_neg hn]
    rfl

/-- The pieces of an octet where a character may begin, and what it leaves in hand. -/
theorem start_spec (b : Octet) :
    (∀ p ∈ (start b).2, p.AboveAscii) ∧
      ∀ c : Char, some c ∈ (start b).1 → c ≠ '\x00' → c.toNat = b.toNat := by
  rw [start]
  cases hlead : lead b with
  | ascii c =>
    have hc : c = Char.ofNat b.toNat := by
      simp only [lead] at hlead
      split_ifs at hlead
      exact (Lead.ascii.inj hlead).symm
    refine ⟨by simp, ?_⟩
    rintro d hd hnul
    obtain rfl : d = c := by simpa using hd
    rw [hc]
    exact toNat_ofNat_of_ne_nul (hc ▸ hnul)
  | begins p => exact ⟨by simpa using aboveAscii_of_lead hlead, by simp⟩
  | stray => exact ⟨by simp, by simp⟩

/-- One octet keeps what is in hand above ASCII, and an ASCII character that it completes has its
number. -/
theorem step_spec {held : Option Pending} (hheld : ∀ p ∈ held, p.AboveAscii) (b : Octet) :
    (∀ p ∈ (step held b).2, p.AboveAscii) ∧
      ∀ c : Char, some c ∈ (step held b).1 → c ≠ '\x00' → c.toNat < 0x80 → c.toNat = b.toNat := by
  obtain ⟨hstart, hpieces⟩ := start_spec b
  cases held with
  | none => exact ⟨hstart, fun c hc hnul _ => hpieces c hc hnul⟩
  | some p =>
    obtain ⟨hlow, hbits⟩ := hheld p rfl
    rw [step]
    by_cases hb : p.low ≤ b ∧ b ≤ p.high
    · have hle : p.low.toNat ≤ b.toNat := UInt8.le_iff_toNat_le.mp hb.1
      rw [if_pos hb]
      by_cases hmissing : p.missing ≤ 1
      · -- the character is finished, and its bits put it above ASCII
        simp only [if_pos hmissing]
        refine ⟨by simp, ?_⟩
        intro c hc hnul hascii
        rw [List.mem_singleton, Option.some.injEq] at hc
        rw [hc] at hnul hascii
        rw [toNat_ofNat_of_ne_nul hnul] at hascii
        omega
      · simp only [if_neg hmissing]
        refine ⟨?_, by simp⟩
        intro q hq
        obtain rfl := Option.some.inj hq
        refine ⟨(by decide : 0x80 ≤ (0x80 : Octet).toNat), Or.inl ?_⟩
        show 2 ≤ p.bits * 64 + (b.toNat - 0x80)
        omega
    · rw [if_neg hb]
      refine ⟨hstart, ?_⟩
      intro c hc hnul _
      exact hpieces c (by simpa using hc) hnul

theorem mem_of_mem_piecesFrom {held : Option Pending} (hheld : ∀ p ∈ held, p.AboveAscii)
    {bs : List Octet} {c : Char} (h : some c ∈ piecesFrom held bs) (hnul : c ≠ '\x00')
    (hascii : c.toNat < 0x80) : ∃ b ∈ bs, b.toNat = c.toNat := by
  induction bs generalizing held with
  | nil => cases held <;> simp [piecesFrom] at h
  | cons b bs ih =>
    obtain ⟨hnext, hpieces⟩ := step_spec hheld b
    rw [piecesFrom, List.mem_append] at h
    rcases h with h | h
    · exact ⟨b, List.mem_cons_self .., (hpieces c h hnul hascii).symm⟩
    · obtain ⟨b', hb', heq⟩ := ih hnext h
      exact ⟨b', List.mem_cons_of_mem _ hb', heq⟩

end Utf8

/-- An ASCII character other than NUL stands in a decoded text only for its own octet. -/
theorem mem_of_mem_decodeLossy {bs : List Octet} {c : Char} (h : c ∈ (decodeLossy bs).toList)
    (hnul : c ≠ '\x00') (hascii : c.toNat < 0x80) : ∃ b ∈ bs, b.toNat = c.toNat := by
  rw [decodeLossy, String.toList_ofList, List.mem_map] at h
  obtain ⟨piece, hpiece, rfl⟩ := h
  cases piece with
  | none => exact absurd hascii (by decide)
  | some c => exact Utf8.mem_of_mem_piecesFrom (by simp) hpiece hnul hascii

end KnowledgeImport.Text
