import Mathlib.Data.List.Basic
import Mathlib.Data.List.Infix

/-!
# Lines of a text

Texts with line feeds between them have the lines of all of them (`linesOf_intercalate`).  So a
report whose lines begin with marks can be taken apart again: what follows a mark is found behind it
(`filterMap_afterMark?`), and lines that begin otherwise are left out
(`filterMap_afterMark?_eq_nil`).
Numbers are told apart by their digits (`toString_nat_injective`).
-/

namespace KnowledgeImport.Text

/-- The lines of a text. -/
def linesOf (s : String) : List String :=
  (s.toList.splitOn '\n').map String.ofList

/-- A text without a line break. -/
def OnOneLine (s : String) : Prop := '\n' ∉ s.toList

instance : DecidablePred OnOneLine :=
  fun s => inferInstanceAs (Decidable ('\n' ∉ s.toList))

@[simp] theorem onOneLine_append {s t : String} :
    OnOneLine (s ++ t) ↔ OnOneLine s ∧ OnOneLine t := by
  rw [OnOneLine, String.toList_append, List.mem_append, not_or, OnOneLine, OnOneLine]

theorem linesOf_of_onOneLine {s : String} (h : OnOneLine s) : linesOf s = [s] := by
  rw [linesOf, List.splitOn_eq_singleton h, List.map_singleton, String.ofList_toList]

theorem flatMap_linesOf {ls : List String} (h : ∀ l ∈ ls, OnOneLine l) : ls.flatMap linesOf = ls := by
  induction ls with
  | nil => rfl
  | cons l ls ih =>
    rw [List.forall_mem_cons] at h
    rw [List.flatMap_cons, linesOf_of_onOneLine h.1, ih h.2, List.singleton_append]

theorem linesOf_intercalate {ls : List String} (hne : ls ≠ []) :
    linesOf ("\n".intercalate ls) = ls.flatMap linesOf := by
  induction ls with
  | nil => exact absurd rfl hne
  | cons l ls ih =>
    cases ls with
    | nil => rw [String.intercalate_singleton, List.flatMap_singleton]
    | cons m ls =>
      have hfeed : "\n".toList = ['\n'] := rfl
      rw [String.intercalate_cons_cons, List.flatMap_cons, ← ih (List.cons_ne_nil _ _), linesOf,
        String.toList_append, String.toList_append, hfeed, List.append_assoc, List.singleton_append,
        List.splitOn_append_cons_self, List.map_append]
      rfl

/-! ### Marks -/

/-- The line begins with the mark. -/
def Begins (mark line : String) : Prop := mark.toList <+: line.toList

instance : DecidableRel Begins :=
  fun mark line => inferInstanceAs (Decidable (mark.toList <+: line.toList))

theorem begins_append (mark s : String) : Begins mark (mark ++ s) := by
  rw [Begins, String.toList_append]
  exact List.prefix_append _ _

theorem Begins.of_append {mark s line : String} (h : Begins (mark ++ s) line) : Begins mark line :=
  List.IsPrefix.trans (begins_append mark s) h

/-- Marks that no line begins with both of. -/
def Apart (mark other : String) : Prop := ¬ Begins mark other ∧ ¬ Begins other mark

instance : DecidableRel Apart :=
  fun mark other => inferInstanceAs (Decidable (¬ Begins mark other ∧ ¬ Begins other mark))

theorem Apart.not_begins {mark other line : String} (h : Apart mark other)
    (hline : Begins other line) : ¬ Begins mark line := by
  intro hmark
  rcases List.prefix_or_prefix_of_prefix hmark hline with hprefix | hprefix
  · exact h.1 hprefix
  · exact h.2 hprefix

/-- What follows the mark, if the line begins with it. -/
def afterMark? (mark line : String) : Option String :=
  if Begins mark line then some (String.ofList (line.toList.drop mark.toList.length)) else none

/-- What follows the mark on the lines of a text that begin with it. -/
def marked (mark text : String) : List String :=
  (linesOf text).filterMap (afterMark? mark)

theorem afterMark?_append (mark s : String) : afterMark? mark (mark ++ s) = some s := by
  rw [afterMark?, if_pos (begins_append mark s), String.toList_append, List.drop_left,
    String.ofList_toList]

theorem filterMap_afterMark? (mark : String) (ls : List String) :
    (ls.map (mark ++ ·)).filterMap (afterMark? mark) = ls := by
  have hsome : afterMark? mark ∘ (mark ++ ·) = some := funext (afterMark?_append mark)
  rw [List.filterMap_map, hsome, List.filterMap_some]

theorem filterMap_afterMark?_eq_nil {mark : String} {ls : List String}
    (h : ∀ l ∈ ls, ¬ Begins mark l) : ls.filterMap (afterMark? mark) = [] := by
  rw [List.filterMap_eq_nil_iff]
  exact fun l hl => if_neg (h l hl)

/-! ### Numbers -/

theorem toString_nat_injective : Function.Injective (toString : Nat → String) := by
  intro m n h
  rw [Nat.toString_eq_ofList_toDigits, Nat.toString_eq_ofList_toDigits, String.ofList_inj] at h
  rw [← Nat.ofDigitChars_ten_toDigits (n := m), h, Nat.ofDigitChars_ten_toDigits]

theorem onOneLine_toString (n : Nat) : OnOneLine (toString n) := by
  rw [OnOneLine, Nat.toString_eq_ofList_toDigits, String.toList_ofList]
  intro hmem
  have hdigit : '\n'.isDigit = true := Nat.isDigit_of_mem_toDigits (by decide) (by decide) hmem
  cases hdigit

end KnowledgeImport.Text
