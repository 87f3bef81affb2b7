import KnowledgeImport.Proofs.Json.Objects
import Mathlib.Algebra.GroupWithZero.Nat

/-!
# Values of fields

Which trees are read as a text, a truth value, a count, a list of texts, or one of several names, and
as which: for each reading what it takes for a tree to be read as a given value
(`Draft.readText_eq_ok_iff` and the like).
-/

namespace KnowledgeImport.Json.Draft

variable {d : Draft}

/-- The tree is the text. -/
def IsText (d : Draft) (s : String) : Prop := d = .text (.text s)

/-- The tree is the truth value. -/
def IsBool (d : Draft) (b : Bool) : Prop := d = .bool b

/-- The tree is a number of sixty-four bits, written with digits alone. -/
def IsCount (d : Draft) (n : Nat) : Prop :=
  ∃ digits, d = .numeral { whole := digits } ∧ digitsValue digits = n ∧ n < 2 ^ 64

/-- The tree is the list of the texts. -/
def IsTexts (d : Draft) (ss : List String) : Prop :=
  d = .array (ss.map fun s => .text (.text s)) none

/-- The tree is the name, or an object in which the name is the only key and stands for nothing. -/
def IsVariant (d : Draft) (name : String) : Prop :=
  d.IsText name ∨ d = ofMembers [(name, .null)]

theorem refuse_ne_ok {α : Type} {expected : String} {a : α} : d.refuse expected ≠ .ok a := by
  cases d with
  | numeral n =>
    rw [refuse]
    cases n.number? <;> simp
  | text s => cases s <;> simp [refuse]
  | _ => simp [refuse]

theorem readText_eq_ok_iff {expected s : String} : readText expected d = .ok s ↔ d.IsText s := by
  unfold readText
  split
  case h_1 => simp [IsText]
  case h_2 hne => exact iff_of_false refuse_ne_ok (hne s)

theorem readBool_eq_ok_iff {b : Bool} : readBool d = .ok b ↔ d.IsBool b := by
  unfold readBool
  split
  case h_1 => simp [IsBool]
  case h_2 hne => exact iff_of_false refuse_ne_ok (hne b)

theorem readNull_eq_ok_iff {u : Unit} : readNull d = .ok u ↔ d = .null := by
  unfold readNull
  split
  case h_1 => simp
  case h_2 hne => exact iff_of_false refuse_ne_ok hne

/-! ### Counts -/

/-- Digits alone are a natural number if it has sixty-four bits; no other number is one. -/
theorem number?_eq_natural_iff {n : Numeral} {k : Nat} : n.number? = some (.natural k) ↔
    ∃ digits, n = { whole := digits } ∧ digitsValue digits = k ∧ k < 2 ^ 64 := by
  obtain ⟨negative, whole, fraction, exponent⟩ := n
  have hlimit : wordLimit = 2 ^ 64 := rfl
  rw [Numeral.number?, Numeral.isInteger, hlimit]
  split_ifs with hnatural hnegative
  · simp only [Bool.and_eq_true, decide_eq_true_iff, List.isEmpty_iff, Option.isNone_iff_eq_none,
      Bool.not_eq_true'] at hnatural
    obtain ⟨⟨⟨rfl, rfl⟩, rfl⟩, hlt⟩ := hnatural
    constructor
    · rintro ⟨⟩
      exact ⟨whole, rfl, rfl, hlt⟩
    · rintro ⟨_, ⟨⟩, rfl, -⟩
      rfl
  · refine iff_of_false (by simp) ?_
    rintro ⟨_, ⟨⟩, rfl, hlt⟩
    exact hnatural (by simpa using hlt)
  · refine iff_of_false (by simp) ?_
    rintro ⟨_, ⟨⟩, rfl, hlt⟩
    exact hnatural (by simpa using hlt)

theorem readCount_eq_ok_iff {n : Nat} : readCount d = .ok n ↔ d.IsCount n := by
  unfold readCount
  split
  case h_1 m =>
    have hcount : (Draft.numeral m).IsCount n ↔ m.number? = some (.natural n) := by
      simp [IsCount, number?_eq_natural_iff]
    rw [hcount]
    split
    case h_1 k hk => simp [hk]
    case h_2 k hk => simp [hk]
    case h_3 hne _ => exact iff_of_false refuse_ne_ok (hne n)
  case h_2 hne =>
    refine iff_of_false refuse_ne_ok ?_
    rintro ⟨_, rfl, -⟩
    exact hne _ rfl

/-! ### Lists -/

theorem readElements_eq_ok_iff {α : Type} {read : Reading α} {ds : List Draft}
    {ending : Option Fault} {as : List α} : readElements read ending ds = .ok as ↔
      ending = none ∧ List.Forall₂ (fun d a => read d = .ok a) ds as := by
  induction ds generalizing as with
  | nil =>
    rw [List.forall₂_nil_left_iff]
    cases ending <;> simp [readElements, eq_comm]
  | cons d ds ih =>
    rw [readElements, bind_eq_ok_iff, List.forall₂_cons_left_iff]
    simp only [bind_eq_ok_iff, pure_eq_ok_iff, ih]
    constructor
    · rintro ⟨a, ha, rest, ⟨hending, hrest⟩, rfl⟩
      exact ⟨hending, a, rest, ha, hrest, rfl⟩
    · rintro ⟨hending, a, rest, ha, hrest, rfl⟩
      exact ⟨a, ha, rest, ⟨hending, hrest⟩, rfl⟩

theorem readTexts_eq_ok_iff {expected : String} {ss : List String} :
    readList (readText expected) d = .ok ss ↔ d.IsTexts ss := by
  unfold readList
  split
  case h_1 elements ending =>
    simp only [readElements_eq_ok_iff, readText_eq_ok_iff, IsTexts, IsText, Draft.array.injEq]
    rw [and_comm, ← List.forall₂_eq_eq_eq, List.forall₂_map_right_iff]
  case h_2 hne => exact iff_of_false refuse_ne_ok (hne _ _)

/-! ### Names -/

theorem named_eq_ok_iff {α : Type} {known : List String} {ofName? : String → Option α}
    {name : String} {a : α} :
    readVariant.named known ofName? name = .ok a ↔ ofName? name = some a := by
  rw [readVariant.named]
  cases ofName? name <;> simp

theorem readVariant_eq_ok_iff {α : Type} {known : List String} {ofName? : String → Option α}
    {a : α} :
    readVariant known ofName? d = .ok a ↔ ∃ name, d.IsVariant name ∧ ofName? name = some a := by
  unfold readVariant
  split
  case h_1 name =>
    rw [named_eq_ok_iff]
    simp [IsVariant, IsText, ofMembers]
  case h_2 key value rest ending =>
    have hvariant {name : String} : (Draft.object ((key, value) :: rest) ending).IsVariant name ↔
        key.IsText name ∧ value = .null ∧ rest = [] ∧ ending = none := by
      simp [IsVariant, IsText, ofMembers, and_assoc]
    simp only [bind_eq_ok_iff, readText_eq_ok_iff, named_eq_ok_iff, readNull_eq_ok_iff, hvariant]
    constructor
    · rintro ⟨name, hkey, a', ha, _, hnull, hend⟩
      split at hend
      case h_1 =>
        obtain rfl := pure_eq_ok_iff.mp hend
        exact ⟨name, ⟨hkey, hnull, rfl, rfl⟩, ha⟩
      case h_2 | h_3 => exact absurd hend throw_ne_ok
    · rintro ⟨name, ⟨hkey, hnull, rfl, rfl⟩, ha⟩
      exact ⟨name, hkey, a, ha, (), hnull, rfl⟩
  case h_3 | h_4 | h_5 =>
    refine iff_of_false throw_ne_ok ?_
    rintro ⟨name, htext | hvariant, -⟩
    · cases htext
    · cases hvariant
  case h_6 hname hkey _ _ _ =>
    refine iff_of_false throw_ne_ok ?_
    rintro ⟨name, rfl | rfl, -⟩
    · exact hname name rfl
    · exact hkey _ _ _ _ rfl

end KnowledgeImport.Json.Draft
