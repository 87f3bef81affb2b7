import KnowledgeImport.Proofs.Glob.Language
import Mathlib.Data.List.Infix

/-!
# Patterns of one text

Most patterns are a text that stands for itself, with a star on one side or stars for all that lies
below it.  What such a pattern matches is told by comparing octets at one end
(`isMatch_endingIn_iff`, `isMatch_startingWith_iff`, `isMatch_below_iff`, `isMatch_deepBelow_iff`).
-/

namespace KnowledgeImport.Glob

open Text

/-- The characters of a text, each standing for itself. -/
def literals (t : String) : List Token := t.toList.map .literal

/-- `*t`. -/
def endingIn (t : String) : Pattern := .anyRun :: literals t

/-- `t*`. -/
def startingWith (t : String) : Pattern := literals t ++ [.anyRun]

/-- `t/**`. -/
def below (t : String) : Pattern := literals t ++ [.anyDescendants]

/-- `t/**/*`. -/
def deepBelow (t : String) : Pattern := literals t ++ [.anyBetween, .anyRun]

/-- Literals match the octets of their text. -/
theorem matchesAll_literals_iff (t : String) (w : List Octet) :
    MatchesAll (literals t) w ↔ w = encode t := by
  rw [literals, encode]
  induction t.toList generalizing w with
  | nil => rfl
  | cons c cs ih => simp [MatchesAll, Token.Matches, ih]

/-- Literals and what follows them match what starts with the octets of their text. -/
theorem matchesAll_literals_append_iff (t : String) (ts : List Token) (w : List Octet) :
    MatchesAll (literals t ++ ts) w ↔ ∃ v, w = encode t ++ v ∧ MatchesAll ts v := by
  simp [matchesAll_append, matchesAll_literals_iff]

/-- Literals and something else are not `**`. -/
theorem isEverything_literals_append {t : String} {ts : List Token} {last : Token}
    (hlast : ts.getLast? = some last) (hne : last ≠ .anyAncestors) :
    ¬ Pattern.isEverything (literals t ++ ts) = true := by
  rw [Pattern.isEverything_iff]
  intro h
  have hlast' := congrArg List.getLast? h
  rw [List.getLast?_append, hlast] at hlast'
  exact hne (Option.some.inj hlast')

theorem isMatch_literals_append_iff {t : String} {ts : List Token} {last : Token}
    (hlast : ts.getLast? = some last) (hne : last ≠ .anyAncestors) (w : List Octet) :
    Pattern.isMatch (literals t ++ ts) w = true ↔ ∃ v, w = encode t ++ v ∧ MatchesAll ts v := by
  rw [Pattern.isMatch_iff, or_iff_right (isEverything_literals_append hlast hne),
    matchesAll_literals_append_iff]

theorem isMatch_endingIn_iff (t : String) (w : List Octet) :
    (endingIn t).isMatch w = true ↔ encode t <:+ w := by
  have hnot : ¬ (endingIn t).isEverything = true := by simp [Pattern.isEverything_iff, endingIn]
  rw [Pattern.isMatch_iff, or_iff_right hnot, endingIn]
  simp [MatchesAll, Token.Matches, matchesAll_literals_iff, List.IsSuffix, eq_comm]

theorem isMatch_startingWith_iff (t : String) (w : List Octet) :
    (startingWith t).isMatch w = true ↔ encode t <+: w := by
  rw [startingWith, isMatch_literals_append_iff rfl (by simp)]
  simp [Token.Matches, List.IsPrefix, eq_comm]

theorem isMatch_below_iff (t : String) (w : List Octet) :
    (below t).isMatch w = true ↔ encode t ++ [slash] <+: w := by
  rw [below, isMatch_literals_append_iff rfl (by simp)]
  simp [Token.Matches, List.IsPrefix, eq_comm]

theorem isMatch_deepBelow_iff (t : String) (w : List Octet) :
    (deepBelow t).isMatch w = true ↔ encode t ++ [slash] <+: w := by
  rw [deepBelow, isMatch_literals_append_iff rfl (by simp)]
  constructor
  · rintro ⟨v, rfl, u, r, rfl, hu, -⟩
    -- one slash or two, the text is followed by a slash
    obtain ⟨u', rfl⟩ : ∃ u', u = slash :: u' := by
      rcases hu with rfl | ⟨u', rfl⟩ <;> exact ⟨_, rfl⟩
    exact ⟨u' ++ r, by simp⟩
  · rintro ⟨r, rfl⟩
    refine ⟨slash :: r, by simp, [slash], r, rfl, Or.inl rfl, ?_⟩
    simp [Token.Matches]

end KnowledgeImport.Glob
