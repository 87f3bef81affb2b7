import KnowledgeImport.Yaml.Document
import Mathlib.Data.List.Basic

/-!
# Trees of documents

What the parts of a document say once every alias is replaced by what it stands for
(`Document.Holds`, `Tree.SpelledBy`).  An alias comes behind its target, and what bears an anchor is
no alias itself; so no document begins with an alias, and no alias stands for another
(`Document.resolved_firstDocument`).
-/

namespace KnowledgeImport.Yaml

/-- What a document says. -/
inductive Tree where
  | scalar (tag : Option String) (style : ScalarStyle) (text : String)
  | sequence (elements : List Tree)
  | mapping (entries : List (Tree × Tree))

/-! ### Parts that hold a tree -/

namespace Document

mutual

/-- The parts begin with those of the tree, and end with these. -/
inductive Holds (d : Document) : Tree → List Part → List Part → Prop
  | scalar {tag : Option String} {style : ScalarStyle} {text : String} {rest : List Part} :
      Holds d (.scalar tag style text) (.scalar tag style text :: rest) rest
  | sequence {ts : List Tree} {parts rest : List Part} (h : HoldsElements d ts parts rest) :
      Holds d (.sequence ts) (.sequenceStart :: parts) rest
  | mapping {es : List (Tree × Tree)} {parts rest : List Part} (h : HoldsEntries d es parts rest) :
      Holds d (.mapping es) (.mappingStart :: parts) rest
  | reference {t : Tree} {target : Nat} {rest behind : List Part}
      (h : Holds d t (d.partsAt target) behind) : Holds d t (.alias target :: rest) rest

/-- The parts begin with those of the elements and the end of their sequence. -/
inductive HoldsElements (d : Document) : List Tree → List Part → List Part → Prop
  | nil {rest : List Part} : HoldsElements d [] (.sequenceEnd :: rest) rest
  | cons {t : Tree} {ts : List Tree} {parts middle rest : List Part} (h : Holds d t parts middle)
      (hts : HoldsElements d ts middle rest) : HoldsElements d (t :: ts) parts rest

/-- The parts begin with those of the entries and the end of their mapping. -/
inductive HoldsEntries (d : Document) : List (Tree × Tree) → List Part → List Part → Prop
  | nil {rest : List Part} : HoldsEntries d [] (.mappingEnd :: rest) rest
  | cons {key t : Tree} {es : List (Tree × Tree)} {parts behind middle rest : List Part}
      (hkey : Holds d key parts behind) (h : Holds d t behind middle)
      (hes : HoldsEntries d es middle rest) : HoldsEntries d ((key, t) :: es) parts rest

end

end Document

/-- The text is one document, well formed to its end, that says the tree. -/
def Tree.SpelledBy (t : Tree) (text : String) : Prop :=
  ∃ d, firstDocument text = (d, true) ∧ d.whole = true ∧ d.Holds t d.parts []

/-- The part with which a tree begins. -/
def Tree.head : Tree → Part
  | .scalar tag style text => .scalar tag style text
  | .sequence _ => .sequenceStart
  | .mapping _ => .mappingStart

/-- The part is an alias. -/
def Part.IsAlias : Part → Prop
  | .alias _ => True
  | _ => False

/-- No alias stands first or for another alias. -/
structure Document.Resolved (d : Document) : Prop where
  head : ∀ p ∈ d.parts.head?, ¬ p.IsAlias
  targets : ∀ n, ∀ p ∈ (d.partsAt n).head?, ¬ p.IsAlias

namespace Document

variable {d : Document} {t : Tree} {p : Part} {parts rest : List Part}

/-- A tree takes one part at least, and does not begin with an end. -/
theorem Holds.exists_cons (h : d.Holds t parts rest) :
    ∃ p ps, parts = p :: ps ∧ p ≠ .sequenceEnd ∧ p ≠ .mappingEnd := by
  cases h with
  | scalar | sequence | mapping | reference => exact ⟨_, _, rfl, by simp, by simp⟩

/-- What does not begin with an alias begins with the tree's own part. -/
theorem Holds.eq_head (h : d.Holds t (p :: parts) rest) (hp : ¬ p.IsAlias) : p = t.head := by
  cases h with
  | scalar | sequence | mapping => rfl
  | reference => exact absurd trivial hp

theorem Holds.rest_eq_of_scalar {tag : Option String} {style : ScalarStyle} {text : String}
    (h : d.Holds (.scalar tag style text) (p :: parts) rest) : parts = rest := by
  cases h with
  | scalar | reference => rfl

end Document

/-! ### Documents of a text -/

namespace DocumentReader

/-- What is true of a document on its way: anchors are in front of parts that are no aliases, and
before the first part there are none. -/
structure Sound (r : DocumentReader) : Prop where
  targets : ∀ t ∈ r.document.targets, ∃ p, r.document.parts[t.2]? = some p ∧ ¬ p.IsAlias
  anchors : r.document.parts = [] → r.anchors = []
  head : ∀ p ∈ r.document.parts.head?, ¬ p.IsAlias

variable {r : DocumentReader}

theorem sound_empty : Sound {} where
  targets := List.forall_mem_nil _
  anchors _ := rfl
  head := nofun

/-- One more part. It may be an alias if it bears no anchor and is not the first. -/
theorem Sound.push (h : r.Sound) {anchor : Option String} {part : Part}
    (hanchor : anchor ≠ none → ¬ part.IsAlias)
    (hfirst : r.document.parts = [] → ¬ part.IsAlias) : (r.push anchor part).Sound := by
  have hkept (t : Nat × Nat) (ht : t ∈ r.document.targets) :
      ∃ p, (r.document.parts ++ [part])[t.2]? = some p ∧ ¬ p.IsAlias := by
    obtain ⟨p, hp, halias⟩ := h.targets t ht
    obtain ⟨hlt, -⟩ := List.getElem?_eq_some_iff.mp hp
    exact ⟨p, (List.getElem?_append_left hlt).trans hp, halias⟩
  have hhead : ∀ p ∈ (r.document.parts ++ [part]).head?, ¬ p.IsAlias := by
    cases hparts : r.document.parts with
    | nil =>
      rintro _ ⟨⟩
      exact hfirst hparts
    | cons q qs =>
      rintro _ ⟨⟩
      exact h.head q (by rw [hparts]; rfl)
  have hnil : r.document.parts ++ [part] ≠ [] := by simp
  cases anchor with
  | none => exact ⟨hkept, fun heq => absurd heq hnil, hhead⟩
  | some name =>
    refine ⟨fun t ht => ?_, fun heq => absurd heq hnil, hhead⟩
    obtain ht | ht := List.mem_append.mp ht
    · exact hkept t ht
    · obtain rfl := List.mem_singleton.mp ht
      exact ⟨part, List.getElem?_concat_length, hanchor (by simp)⟩

/-- Reading events keeps it, whatever is found wrong in the end. -/
theorem Sound.read (h : r.Sound) (whole : Bool) (es : List Event) :
    ∃ r' : DocumentReader, r'.Sound ∧ (r.read whole es).1.parts = r'.document.parts ∧
      (r.read whole es).1.targets = r'.document.targets := by
  induction es generalizing r with
  | nil => exact ⟨r, h, rfl, rfl⟩
  | cons e es ih =>
    match e with
    | .documentStart => exact ih h
    | .documentEnd => exact ⟨r, h, rfl, rfl⟩
    | .alias name =>
      rw [DocumentReader.read]
      cases hfind : r.anchors.find? (·.1 = name) with
      | none => exact ⟨r, h, rfl, rfl⟩
      | some a =>
        refine ih (h.push (by simp) fun hnil => ?_)
        rw [h.anchors hnil] at hfind
        cases hfind
    | .scalar .. | .sequenceStart _ | .sequenceEnd | .mappingStart _ | .mappingEnd =>
      exact ih (h.push (fun _ => id) (fun _ => id))

end DocumentReader

theorem Document.resolved_of_parts {d : Document}
    (htargets : ∀ t ∈ d.targets, ∀ p ∈ d.parts[t.2]?, ¬ p.IsAlias)
    (hhead : ∀ p ∈ d.parts.head?, ¬ p.IsAlias) : d.Resolved where
  head := hhead
  targets := by
    intro n p hp
    rw [partsAt] at hp
    split at hp
    case h_1 t start hfind =>
      rw [List.findRev?_eq_find?_reverse] at hfind
      have hmem := List.mem_reverse.mp (List.mem_of_find?_eq_some hfind)
      rw [List.head?_drop] at hp
      exact htargets _ hmem p hp
    case h_2 => cases hp

/-- No document of a text begins with an alias, or has one that stands for another. -/
theorem Document.resolved_firstDocument {s : String} {d : Document} {alone : Bool}
    (h : firstDocument s = (d, alone)) : d.Resolved := by
  rw [firstDocument] at h
  generalize events s = read at h
  obtain ⟨es, whole⟩ := read
  obtain ⟨r, hr, hparts, htargets⟩ := DocumentReader.sound_empty.read whole es
  obtain ⟨rfl, -⟩ := Prod.mk.inj h
  split_ifs with hempty
  · -- there is no document, which is one part that is no alias
    have hnothing (p : Part) (hp : p ∈ [Part.nothing]) : ¬ p.IsAlias := by
      obtain rfl := List.mem_singleton.mp hp
      exact id
    exact Document.resolved_of_parts
      (fun t _ p hp => hnothing p (List.mem_of_getElem? hp))
      (fun p hp => hnothing p (List.mem_of_mem_head? hp))
  · refine Document.resolved_of_parts (fun t ht p hp => ?_) ?_
    · rw [htargets] at ht
      obtain ⟨q, hq, halias⟩ := hr.targets t ht
      rw [hparts, hq] at hp
      obtain rfl : q = p := Option.some.inj hp
      exact halias
    · rw [hparts]
      exact hr.head

end KnowledgeImport.Yaml
