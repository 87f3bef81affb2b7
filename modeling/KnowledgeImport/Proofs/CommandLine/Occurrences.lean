import KnowledgeImport.CommandLine.Invocation
import KnowledgeImport.Proofs.Results
import Mathlib.Data.List.Basic
import Mathlib.Tactic.SplitIfs

/-!
# What arguments spell

Which arguments spell which parameters, said without a reader (`Spelled`): a switch is one argument,
a value stands behind an equals sign or is an argument of its own, and `--` may stand at the end.
Reading arguments one after the other, where a parameter counts only when the next one comes up,
comes to the same as giving all that they spell from left to right
(`Assignment.ofArguments_eq_ok_iff`).
-/

namespace KnowledgeImport

/-- A parameter that is given, with its value; a switch has the value `true`. -/
abbrev Occurrence := Parameter × String

namespace Parameter

/-- The parameter is a switch of an invocation; those that ask for information are not. -/
def IsSwitch : Parameter → Prop
  | .includeCodeExamples | .noCodeExamples | .dryRun | .json => True
  | _ => False

theorem ofName?_eq_some_iff {s : String} {p : Parameter} : ofName? s = some p ↔ s = p.name := by
  constructor
  · intro h
    have hname : p.name = s := by simpa using List.find?_some h
    exact hname.symm
  · rintro rfl
    cases p <;> rfl

theorem equals_notMem_name (p : Parameter) : '=' ∉ p.name.toList := by
  cases p <;> decide

theorem IsSwitch.takesValue {p : Parameter} (h : p.IsSwitch) : p.takesValue = false := by
  cases p <;> first | rfl | exact absurd h id

end Parameter

/-! ### Single arguments -/

namespace Argument

/-- The argument does not start with a dash, or it is a dash alone. -/
def IsWord (a : String) : Prop := a.toList.head? = some '-' → a = "-"

theorem ofString_option (p : Parameter) : ofString p.option = .option p.name none := by
  cases p <;> rfl

/-- Behind two dashes the name goes up to an equals sign, and the value is what follows it. -/
theorem ofString_of_dashes {a : String} {cs : List Char} (h : a.toList = '-' :: '-' :: cs)
    (hne : cs ≠ []) :
    ofString a = .option (String.ofList (cs.takeWhile (· ≠ '=')))
      ((cs.dropWhile (· ≠ '=')).tail?.map String.ofList) := by
  rw [ofString, h]
  split
  case h_1 heq =>
    cases heq
    exact absurd rfl hne
  case h_2 heq =>
    cases heq
    cases cs.dropWhile (· ≠ '=') <;> rfl
  case h_3 hother heq =>
    cases heq
    exact absurd rfl hother
  case h_4 hother => exact absurd rfl (hother _ _)

theorem ofString_option_value (p : Parameter) (value : String) :
    ofString (p.option ++ "=" ++ value) = .option p.name (some value) := by
  have hchars : (p.option ++ "=" ++ value).toList
      = '-' :: '-' :: (p.name.toList ++ '=' :: value.toList) := by
    simp [Parameter.option, String.toList_append]
  have hname : ∀ c ∈ p.name.toList, decide (c ≠ '=') = true := fun c hc =>
    decide_eq_true fun heq => p.equals_notMem_name (heq ▸ hc)
  rw [ofString_of_dashes hchars (by simp), List.takeWhile_append_of_pos hname,
    List.takeWhile_cons_of_neg (by simp), List.dropWhile_append_of_pos hname,
    List.dropWhile_cons_of_neg (by simp), List.append_nil]
  simp

theorem eq_of_ofString_divider {a : String} (h : ofString a = .divider) : a = "--" := by
  rw [ofString] at h
  split at h
  case h_1 heq => exact String.toList_inj.mp heq
  case h_2 => split at h <;> cases h
  case h_3 => cases h
  case h_4 => cases h

/-- An option is its dashes, its name, and its value behind an equals sign. -/
theorem eq_of_ofString_option {a name : String} {value : Option String}
    (h : ofString a = .option name value) : a = "--" ++ name ++ value.elim "" ("=" ++ ·) := by
  rw [ofString] at h
  split at h
  case h_2 cs _ heq =>
    have hcs : cs.takeWhile (· ≠ '=') ++ cs.dropWhile (· ≠ '=') = cs :=
      List.takeWhile_append_dropWhile
    rw [← String.toList_inj, heq]
    split at h
    case h_1 hnil =>
      cases h
      rw [hnil, List.append_nil] at hcs
      simpa using hcs.symm
    case h_2 c value hcons =>
      cases h
      -- the rest of the argument starts at an equals sign
      have hc : c = '=' := by
        have hhead := List.head?_dropWhile_not (fun c : Char => decide (c ≠ '=')) cs
        rw [hcons] at hhead
        simpa using hhead
      rw [hcons, hc] at hcs
      simpa using hcs.symm
  case h_1 | h_3 | h_4 => cases h

theorem ofString_eq_word_iff {a : String} : ofString a = .word ↔ IsWord a := by
  rw [ofString, IsWord, ← String.toList_inj]
  split
  case h_1 heq => simp [heq]
  case h_2 heq =>
    rw [heq]
    split <;> simp
  case h_3 heq => simp [heq]
  case h_4 hne =>
    refine iff_of_true rfl fun hhead => ?_
    cases hcs : a.toList with
    | nil => rw [hcs] at hhead; cases hhead
    | cons c cs =>
      rw [hcs] at hhead
      obtain rfl : c = '-' := Option.some.inj hhead
      cases cs with
      | nil => rfl
      | cons d ds => exact absurd hcs (hne d ds)

end Argument

/-! ### Command lines -/

/-- The arguments spell the parameters, with their values, one after the other. -/
inductive Spelled : List String → List Occurrence → Prop
  | nil : Spelled [] []
  | divider : Spelled ["--"] []
  | switch {p : Parameter} {as : List String} {os : List Occurrence} (hp : p.IsSwitch)
      (h : Spelled as os) : Spelled (p.option :: as) ((p, "true") :: os)
  | joined {p : Parameter} {value : String} {as : List String} {os : List Occurrence}
      (hp : p.takesValue) (h : Spelled as os) :
      Spelled ((p.option ++ "=" ++ value) :: as) ((p, value) :: os)
  | apart {p : Parameter} {value : String} {as : List String} {os : List Occurrence}
      (hp : p.takesValue) (hvalue : Argument.IsWord value) (h : Spelled as os) :
      Spelled (p.option :: value :: as) ((p, value) :: os)

/-- Gives parameters from left to right. -/
def Assignment.giveAll (given : Assignment) (os : List Occurrence) :
    Except UsageReply Assignment :=
  os.foldlM (fun given o => given.give o.1 (some o.2)) given

namespace ArgumentReading

variable {r r' : ArgumentReading} {a : String} {as : List String} {given : Assignment}

/-- What one argument does if it is read. -/
inductive Reads (r : ArgumentReading) : String → ArgumentReading → Prop
  | divider : Reads r "--" { r with divided := true }
  | switch {p : Parameter} {settled given : Assignment} (hp : p.IsSwitch)
      (hsettled : r.settled = .ok settled) (hgiven : settled.give p (some "true") = .ok given) :
      Reads r p.option { given }
  | joined {p : Parameter} {value : String} {settled given : Assignment} (hp : p.takesValue)
      (hsettled : r.settled = .ok settled) (hgiven : settled.give p (some value) = .ok given) :
      Reads r (p.option ++ "=" ++ value) { given }
  | name {p : Parameter} {settled : Assignment} (hp : p.takesValue)
      (hsettled : r.settled = .ok settled) :
      Reads r p.option { given := settled, waiting := some (p, none) }
  | word {p : Parameter} {value : String} (hvalue : Argument.IsWord value)
      (hwaiting : r.waiting = some (p, none)) :
      Reads r value { r with waiting := some (p, some value) }

/-- Of the parameters without a value only switches of an invocation are read. -/
theorem switch_eq_ok_iff (hr : r.divided = false) {p : Parameter} (hp : p.takesValue = false) :
    r.switch p = .ok r' ↔ p.IsSwitch ∧ ∃ settled, r.settled = .ok settled ∧
      ∃ given, settled.give p (some "true") = .ok given ∧ { given } = r' := by
  rw [switch, bind_eq_ok_iff]
  cases p with
  | includeCodeExamples | noCodeExamples | dryRun | json =>
    simp only [bind_eq_ok_iff, pure_eq_ok_iff, hr, Parameter.IsSwitch, true_and]
  | help | version => simp [throw_ne_ok, Parameter.IsSwitch]
  | projectId | backendUrl | path | config => cases hp

/-- No letter stands for a switch of an invocation. -/
theorem switch_of_letter {c : Char} {p : Parameter} (hp : Parameter.ofLetter? c = some p) :
    r.switch p ≠ .ok r' := by
  have hletter : p.letter? = some c := by simpa using List.find?_some hp
  intro h
  rw [switch] at h
  obtain ⟨_, -, h⟩ := bind_eq_ok_iff.mp h
  cases p with
  | help | version => exact throw_ne_ok h
  | _ => cases hletter

/-- Exactly these arguments are read. -/
theorem step_eq_ok_iff (hr : r.divided = false) : r.step a = .ok r' ↔ r.Reads a r' := by
  rw [step, if_neg (by rw [hr]; exact Bool.false_ne_true)]
  constructor
  · intro h
    split at h
    case h_1 ha =>
      obtain rfl := Argument.eq_of_ofString_divider ha
      obtain rfl := Except.ok.inj h
      exact .divider
    case h_2 name value ha =>
      have ha := Argument.eq_of_ofString_option ha
      rw [option] at h
      split at h
      case h_1 => cases h
      case h_2 p hp =>
        obtain rfl := Parameter.ofName?_eq_some_iff.mp hp
        split_ifs at h with hvalue
        · obtain ⟨settled, hsettled, h⟩ := bind_eq_ok_iff.mp h
          cases value with
          | none =>
            obtain rfl := pure_eq_ok_iff.mp h
            rw [Option.elim_none, String.append_empty] at ha
            obtain rfl : a = p.option := ha
            rw [hr]
            exact .name hvalue hsettled
          | some value =>
            obtain ⟨given, hgiven, h⟩ := bind_eq_ok_iff.mp h
            obtain rfl := pure_eq_ok_iff.mp h
            rw [Option.elim_some, ← String.append_assoc] at ha
            obtain rfl : a = p.option ++ "=" ++ value := ha
            rw [hr]
            exact .joined hvalue hsettled hgiven
        · cases value with
          | none =>
            rw [Option.elim_none, String.append_empty] at ha
            obtain rfl : a = p.option := ha
            obtain ⟨hp, settled, hsettled, given, hgiven, rfl⟩ :=
              (switch_eq_ok_iff hr (Bool.eq_false_iff.mpr hvalue)).mp h
            exact .switch hp hsettled hgiven
          | some value => cases h
    case h_3 =>
      split at h
      case h_1 hp => exact absurd h (switch_of_letter hp)
      case h_2 => cases h
    case h_4 ha =>
      split at h
      case h_1 hwaiting =>
        obtain rfl := Except.ok.inj h
        exact .word (Argument.ofString_eq_word_iff.mp ha) hwaiting
      case h_2 => cases h
  · intro h
    cases h with
    | divider => rfl
    | @switch p settled given hp hsettled hgiven =>
      rw [Argument.ofString_option]
      dsimp only
      rw [option, Parameter.ofName?_eq_some_iff.mpr rfl]
      dsimp only
      rw [if_neg (by rw [hp.takesValue]; exact Bool.false_ne_true)]
      exact (switch_eq_ok_iff hr hp.takesValue).mpr ⟨hp, settled, hsettled, given, hgiven, rfl⟩
    | joined hp hsettled hgiven =>
      rw [Argument.ofString_option_value]
      dsimp only
      rw [option, Parameter.ofName?_eq_some_iff.mpr rfl]
      dsimp only
      rw [if_pos hp, hsettled, hr]
      simp only [bind_eq_ok_iff, pure_eq_ok_iff]
      exact ⟨_, rfl, _, hgiven, rfl⟩
    | name hp hsettled =>
      rw [Argument.ofString_option]
      dsimp only
      rw [option, Parameter.ofName?_eq_some_iff.mpr rfl]
      dsimp only
      rw [if_pos hp, hsettled, hr]
      rfl
    | word hvalue hwaiting =>
      rw [Argument.ofString_eq_word_iff.mpr hvalue]
      dsimp only
      rw [hwaiting]

/-- Behind the divider nothing is read. -/
theorem foldlM_step_of_divided (hr : r.divided = true) :
    as.foldlM step r = .ok r' ↔ as = [] ∧ r = r' := by
  cases as with
  | nil => simp [pure_eq_ok_iff]
  | cons a as =>
    rw [List.foldlM_cons, step, if_pos hr]
    simp [bind_eq_ok_iff]

end ArgumentReading

theorem Spelled.nil_iff {os : List Occurrence} : Spelled [] os ↔ os = [] := by
  constructor
  · rintro ⟨⟩
    rfl
  · rintro rfl
    exact .nil

namespace Assignment

variable {given settled counting : Assignment}

theorem giveAll_cons {o : Occurrence} {os : List Occurrence} :
    given.giveAll (o :: os) = .ok counting ↔
      ∃ settled, given.give o.1 (some o.2) = .ok settled ∧ settled.giveAll os = .ok counting := by
  rw [giveAll, List.foldlM_cons, bind_eq_ok_iff]
  rfl

/-- Giving all that the arguments spell comes to this. -/
def Adds (given : Assignment) (as : List String) (counting : Assignment) : Prop :=
  ∃ os, Spelled as os ∧ given.giveAll os = .ok counting

theorem adds_nil : given.Adds [] counting ↔ given = counting := by
  simp [Adds, Spelled.nil_iff, giveAll, pure_eq_ok_iff]

/-- What reading the arguments comes to: the parameter in waiting is given, and then all that they
spell; or the first of them is the value that it waits for. -/
theorem settled_foldlM_step_iff {as : List String} {r : ArgumentReading} (hr : r.divided = false) :
    (as.foldlM ArgumentReading.step r >>= ArgumentReading.settled) = .ok counting ↔
      (∃ settled, r.settled = .ok settled ∧ settled.Adds as counting) ∨
      ∃ p value rest, r.waiting = some (p, none) ∧ as = value :: rest ∧ Argument.IsWord value ∧
        ∃ settled, r.given.give p (some value) = .ok settled ∧ settled.Adds rest counting := by
  induction as generalizing r with
  | nil =>
    rw [List.foldlM_nil, pure_bind]
    simp [adds_nil]
  | cons a as ih =>
    rw [List.foldlM_cons, bind_assoc, bind_eq_ok_iff]
    simp only [ArgumentReading.step_eq_ok_iff hr]
    constructor
    · rintro ⟨r', hread, hrest⟩
      cases hread with
      | divider =>
        obtain ⟨r', hdivided, hsettled⟩ := bind_eq_ok_iff.mp hrest
        obtain ⟨rfl, rfl⟩ := (ArgumentReading.foldlM_step_of_divided rfl).mp hdivided
        exact .inl ⟨counting, hsettled, [], .divider, rfl⟩
      | switch hp hsettled hgiven =>
        rw [ih rfl] at hrest
        obtain ⟨_, ⟨⟩, os, hos, hadds⟩ | ⟨_, _, _, ⟨⟩, -⟩ := hrest
        exact .inl ⟨_, hsettled, _, .switch hp hos, giveAll_cons.mpr ⟨_, hgiven, hadds⟩⟩
      | joined hp hsettled hgiven =>
        rw [ih rfl] at hrest
        obtain ⟨_, ⟨⟩, os, hos, hadds⟩ | ⟨_, _, _, ⟨⟩, -⟩ := hrest
        exact .inl ⟨_, hsettled, _, .joined hp hos, giveAll_cons.mpr ⟨_, hgiven, hadds⟩⟩
      | name hp hsettled =>
        rw [ih rfl] at hrest
        obtain ⟨_, ⟨⟩, -⟩ | ⟨_, value, rest, ⟨⟩, rfl, hvalue, given, hgiven, os, hos, hadds⟩ := hrest
        exact .inl ⟨_, hsettled, _, .apart hp hvalue hos, giveAll_cons.mpr ⟨_, hgiven, hadds⟩⟩
      | @word p _ hvalue hwaiting =>
        rw [@ih { r with waiting := some (p, some a) } hr] at hrest
        obtain ⟨settled, hsettled, hadds⟩ | ⟨_, _, _, ⟨⟩, -⟩ := hrest
        exact .inr ⟨_, a, as, hwaiting, rfl, hvalue, settled, hsettled, hadds⟩
    · rintro (⟨settled, hsettled, os, hos, hadds⟩ | ⟨p, value, rest, hwaiting, heq, hvalue, hadds⟩)
      · cases hos with
        | divider =>
          obtain rfl : settled = counting := pure_eq_ok_iff.mp hadds
          exact ⟨_, .divider, hsettled⟩
        | switch hp hos =>
          obtain ⟨given, hgiven, hadds⟩ := giveAll_cons.mp hadds
          exact ⟨_, .switch hp hsettled hgiven, (ih rfl).mpr (.inl ⟨given, rfl, _, hos, hadds⟩)⟩
        | joined hp hos =>
          obtain ⟨given, hgiven, hadds⟩ := giveAll_cons.mp hadds
          exact ⟨_, .joined hp hsettled hgiven, (ih rfl).mpr (.inl ⟨given, rfl, _, hos, hadds⟩)⟩
        | apart hp hvalue hos =>
          obtain ⟨given, hgiven, hadds⟩ := giveAll_cons.mp hadds
          exact ⟨_, .name hp hsettled,
            (ih rfl).mpr (.inr ⟨_, _, _, rfl, rfl, hvalue, given, hgiven, _, hos, hadds⟩)⟩
      · obtain ⟨rfl, rfl⟩ := List.cons.inj heq
        exact ⟨_, .word hvalue hwaiting,
          (@ih { r with waiting := some (p, some a) } hr).mpr (.inl hadds)⟩

/-- The parameters of a command line are all that its arguments spell, given from left to right. -/
theorem ofArguments_eq_ok_iff {as : List String} : ofArguments as = .ok counting ↔
    ∃ os, Spelled as os ∧ giveAll [] os = .ok counting := by
  show (as.foldlM ArgumentReading.step {} >>= ArgumentReading.settled) = .ok counting ↔ _
  rw [settled_foldlM_step_iff rfl]
  constructor
  · rintro (⟨_, ⟨⟩, hadds⟩ | ⟨_, _, _, ⟨⟩, -⟩)
    exact hadds
  · exact fun hadds => .inl ⟨[], rfl, hadds⟩

end Assignment

end KnowledgeImport
