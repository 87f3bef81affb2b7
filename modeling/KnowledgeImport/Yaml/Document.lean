import KnowledgeImport.Yaml.Event

/-!
# Documents

The first document of a text as a list of parts in which every alias names its target by a number.
A reader goes through the parts from first to last and may find what it does not want before it
comes to the place where the text is not well formed.
-/

namespace KnowledgeImport.Yaml

/-- A part of a document. -/
inductive Part where
  /-- There is no document. -/
  | nothing
  | alias (target : Nat)
  | scalar (tag : Option String) (style : ScalarStyle) (text : String)
  | sequenceStart
  | sequenceEnd
  | mappingStart
  | mappingEnd
  deriving DecidableEq, Repr

/-- A document. -/
structure Document where
  parts : List Part := []
  /-- Where the parts of a target start, by the number of the target; of several entries for one
  number the last one counts. -/
  targets : List (Nat × Nat) := []
  /-- The text is well formed to the end of the document, and all anchors are known. -/
  whole : Bool := true
  deriving DecidableEq, Repr

namespace Document

/-- The parts from the target of an alias on. -/
def partsAt (d : Document) (target : Nat) : List Part :=
  match d.targets.findRev? (·.1 = target) with
  | some (_, start) => d.parts.drop start
  | none => []

end Document

/-- A document on its way. -/
structure DocumentReader where
  document : Document := {}
  /-- The numbers of the anchors. -/
  anchors : List (String × Nat) := []

namespace DocumentReader

/-- One more part. An anchor in front of it is given the number of the anchors before it; an anchor
that is used again takes a new number and keeps its place in the count. -/
def push (r : DocumentReader) (anchor : Option String) (part : Part) : DocumentReader :=
  let d := r.document
  let parts := d.parts ++ [part]
  match anchor with
  | none => { r with document := { d with parts } }
  | some name =>
    let number := r.anchors.length
    { document := { d with parts, targets := d.targets ++ [(number, d.parts.length)] }
      anchors := r.anchors.filter (·.1 ≠ name) ++ [(name, number)] }

/-- Reads events up to the end of the document. -/
def read (r : DocumentReader) (whole : Bool) : List Event → Document × List Event
  | [] => ({ r.document with whole }, [])
  | .documentStart :: es => r.read whole es
  | .documentEnd :: es => (r.document, es)
  | .alias name :: es =>
    match r.anchors.find? (·.1 = name) with
    | some (_, number) => (r.push none (.alias number)).read whole es
    | none => ({ r.document with whole := false }, es)
  | .scalar p style text :: es => (r.push p.anchor (.scalar p.tag style text)).read whole es
  | .sequenceStart p :: es => (r.push p.anchor .sequenceStart).read whole es
  | .sequenceEnd :: es => (r.push none .sequenceEnd).read whole es
  | .mappingStart p :: es => (r.push p.anchor .mappingStart).read whole es
  | .mappingEnd :: es => (r.push none .mappingEnd).read whole es

end DocumentReader

/-- The first document of a text, and whether it is the only one in a text that is well formed to
its end. -/
def firstDocument (s : String) : Document × Bool :=
  let (es, whole) := events s
  let (d, rest) := DocumentReader.read {} whole es
  let d := if d.parts.isEmpty && d.whole then { d with parts := [.nothing] } else d
  (d, whole && rest.isEmpty)

end KnowledgeImport.Yaml
