import KnowledgeImport.Yaml.TokenStream

/-!
# Events of a YAML text

The structure of a text as a sequence of events: where documents, sequences and mappings start and
end, and which scalars and aliases stand in them. Events are read from the tokens by an automaton
with a stack; where the tokens fit no structure it stops, and the events so far remain.
-/

namespace KnowledgeImport.Yaml

open Text

/-- What is said in front of a node. -/
structure Properties where
  anchor : Option String := none
  tag : Option String := none
  deriving DecidableEq, Repr

/-- An event. -/
inductive Event where
  | documentStart
  | documentEnd
  | alias (name : String)
  | scalar (properties : Properties) (style : ScalarStyle) (text : String)
  | sequenceStart (properties : Properties)
  | sequenceEnd
  | mappingStart (properties : Properties)
  | mappingEnd
  deriving DecidableEq, Repr

namespace Event

/-- The scalar that stands where nothing is written. -/
def empty (p : Properties := {}) : Event :=
  .scalar p .plain ""

end Event

/-- What is expected at a place of the structure. -/
inductive Expected where
  | document (first : Bool)
  | documentContent
  | documentEnd
  /-- A node; in blocks, also one that starts a block collection. -/
  | node (block indentless : Bool)
  | blockEntry
  | indentlessEntry
  | blockKey
  | blockValue
  | flowEntry (first : Bool)
  /-- The key, the value and the end of a pair that is an entry of a flow sequence. -/
  | pairKey
  | pairValue
  | pairEnd
  | flowKey (first : Bool)
  | flowValue
  /-- The value of a key in a flow mapping without its mark. -/
  | flowNoValue
  deriving DecidableEq, Repr

/-- The automaton between two events. -/
structure EventReader where
  tokens : List Token
  /-- What is expected, the nearest first. -/
  stack : List Expected := [.document true]
  /-- The expansions of tag handles in this document. -/
  handles : List (String × String) := []

/-- Some events and the automaton after them; `none` if the tokens fit no structure. -/
abbrev Transition := Option (List Event × EventReader)

namespace EventReader

/-- The handles that every document has. -/
def commonHandles : List (String × String) :=
  [("!", "!"), ("!!", "tag:yaml.org,2002:")]

/-! ### Directives -/

/-- Reads the directives in front of a document. At most one may give the version, which has to be
1.1 or 1.2, and no handle may be declared twice. -/
def directives (version : Bool) (handles : List (String × String)) :
    List Token → Option (List (String × String) × List Token)
  | .version major minor :: ts =>
    if version || major ≠ 1 || (minor ≠ 1 && minor ≠ 2) then none
    else directives true handles ts
  | .tagHandle handle expansion :: ts =>
    let handle := String.ofList handle
    if handles.any (·.1 = handle) then none
    else directives version (handles ++ [(handle, String.ofList expansion)]) ts
  | ts => some (handles ++ commonHandles, ts)

/-! ### Nodes -/

/-- The tag that a handle and a suffix stand for. -/
def resolveTag? (handles : List (String × String)) (handle suffix : List Char) : Option String :=
  if handle.isEmpty then some (String.ofList suffix)
  else (handles.find? (·.1 = String.ofList handle)).map (·.2 ++ String.ofList suffix)

/-- Reads an anchor and a tag, in either order; each may be absent. -/
def properties (handles : List (String × String)) (ts : List Token) :
    Option (Properties × List Token) :=
  let tag (h s : List Char) := resolveTag? handles h s
  match ts with
  | .anchor a :: .tag h s :: ts => do
    return (⟨some (String.ofList a), some (← tag h s)⟩, ts)
  | .tag h s :: .anchor a :: ts => do
    return (⟨some (String.ofList a), some (← tag h s)⟩, ts)
  | .anchor a :: ts => some (⟨some (String.ofList a), none⟩, ts)
  | .tag h s :: ts => do return (⟨none, some (← tag h s)⟩, ts)
  | ts => some ({}, ts)

/-- Reads a node, or as much of it as comes before its first entry. `below` is what is expected
after it. -/
def node (r : EventReader) (block indentless : Bool) (below : List Expected) : Transition := do
  if let .alias name :: ts := r.tokens then
    return ([.alias (String.ofList name)], { r with tokens := ts, stack := below })
  let (p, ts) ← properties r.handles r.tokens
  let next (e : Event) (ts : List Token) (stack : List Expected) : Transition :=
    some ([e], { r with tokens := ts, stack })
  match ts with
  | [] => none
  | .scalar style text :: ts =>
    let p := if p.tag = some "!" then { p with tag := none } else p
    next (.scalar p style (String.ofList text)) ts below
  | .openSequence :: ts => next (.sequenceStart p) ts (.flowEntry true :: below)
  | .openMapping :: ts => next (.mappingStart p) ts (.flowKey true :: below)
  | t :: rest =>
    if indentless && t = .blockEntry then
      next (.sequenceStart p) ts (.indentlessEntry :: below)
    else if block && t = .blockSequence then
      next (.sequenceStart p) rest (.blockEntry :: below)
    else if block && t = .blockMapping then next (.mappingStart p) rest (.blockKey :: below)
    else if p.anchor.isSome || p.tag.isSome then next (.empty p) ts below
    else none

/-- The place of a node that is left out where one of `ends` follows. -/
def optionalNode (r : EventReader) (ends : List Token) (expected after : Expected)
    (below : List Expected) : Transition :=
  match r.tokens with
  | [] => none
  | t :: _ =>
    if ends.contains t then some ([.empty], { r with stack := after :: below })
    else some ([], { r with stack := expected :: after :: below })

/-! ### Steps -/

/-- The start of a document. The first one needs no mark of its own. -/
def document (r : EventReader) (first : Bool) : Transition :=
  let ts := if first then r.tokens else r.tokens.dropWhile (· = .documentEnd)
  match ts with
  | [] => none
  | .streamEnd :: ts => some ([], { r with tokens := ts, stack := [] })
  | ts => do
    let (handles, rest) ← directives false [] ts
    if rest.length < ts.length || rest.head? = some .documentStart || !first then
      match rest with
      | .documentStart :: rest =>
        return ([.documentStart], { tokens := rest, handles, stack := [.documentContent] })
      | _ => none
    else
      return ([.documentStart],
        { tokens := rest, handles, stack := [.node true false, .documentEnd] })

/-- One step, by what is expected nearest and the next token. -/
def step (r : EventReader) : Transition :=
  match r.stack with
  | [] => none
  | expected :: below =>
    match expected, r.tokens with
    | .document first, _ => r.document first
    | .node block indentless, _ => r.node block indentless below
    | _, [] => none
    | .documentContent, t :: _ =>
      match t with
      | .version .. | .tagHandle .. | .documentStart | .documentEnd | .streamEnd =>
        some ([.empty], { r with stack := [.documentEnd] })
      | _ => some ([], { r with stack := [.node true false, .documentEnd] })
    | .documentEnd, t :: ts =>
      some ([.documentEnd],
        { r with tokens := if t = .documentEnd then ts else t :: ts, stack := [.document false] })
    | .blockEntry, t :: ts =>
      match t with
      | .blockEntry =>
        { r with tokens := ts }.optionalNode [.blockEntry, .blockEnd] (.node true false)
          .blockEntry below
      | .blockEnd => some ([.sequenceEnd], { r with tokens := ts, stack := below })
      | _ => none
    | .indentlessEntry, t :: ts =>
      match t with
      | .blockEntry =>
        { r with tokens := ts }.optionalNode [.blockEntry, .key, .value, .blockEnd]
          (.node true false) .indentlessEntry below
      | _ => some ([.sequenceEnd], { r with stack := below })
    | .blockKey, t :: ts =>
      match t with
      | .key =>
        { r with tokens := ts }.optionalNode [.key, .value, .blockEnd] (.node true true)
          .blockValue below
      | .blockEnd => some ([.mappingEnd], { r with tokens := ts, stack := below })
      | _ => none
    | .blockValue, t :: ts =>
      match t with
      | .value =>
        { r with tokens := ts }.optionalNode [.key, .value, .blockEnd] (.node true true)
          .blockKey below
      | _ => some ([.empty], { r with stack := .blockKey :: below })
    | .flowEntry first, t :: ts =>
      if t = .closeSequence then some ([.sequenceEnd], { r with tokens := ts, stack := below })
      else
        let entries := if first then some (t :: ts) else if t = .flowEntry then some ts else none
        match entries with
        | none | some [] => none
        | some (t :: ts) =>
          if t = .key then
            some ([.mappingStart {}],
              { r with tokens := ts, stack := .pairKey :: .flowEntry false :: below })
          else if t = .closeSequence then
            some ([.sequenceEnd], { r with tokens := ts, stack := below })
          else
            some ([],
              { r with tokens := t :: ts, stack := .node false false :: .flowEntry false :: below })
    | .pairKey, t :: ts =>
      match t with
      | .value | .flowEntry | .closeSequence =>
        some ([.empty], { r with tokens := ts, stack := .pairValue :: below })
      | _ => some ([], { r with stack := .node false false :: .pairValue :: below })
    | .pairValue, t :: ts =>
      match t with
      | .value =>
        { r with tokens := ts }.optionalNode [.flowEntry, .closeSequence] (.node false false)
          .pairEnd below
      | _ => some ([.empty], { r with stack := .pairEnd :: below })
    | .pairEnd, _ => some ([.mappingEnd], { r with stack := below })
    | .flowKey first, t :: ts =>
      if t = .closeMapping then some ([.mappingEnd], { r with tokens := ts, stack := below })
      else
        let entries := if first then some (t :: ts) else if t = .flowEntry then some ts else none
        match entries with
        | none | some [] => none
        | some (t :: ts) =>
          if t = .key then
            { r with tokens := ts }.optionalNode [.value, .flowEntry, .closeMapping]
              (.node false false) .flowValue below
          else if t = .closeMapping then
            some ([.mappingEnd], { r with tokens := ts, stack := below })
          else
            some ([],
              { r with tokens := t :: ts, stack := .node false false :: .flowNoValue :: below })
    | .flowValue, t :: ts =>
      match t with
      | .value =>
        { r with tokens := ts }.optionalNode [.flowEntry, .closeMapping] (.node false false)
          (.flowKey false) below
      | _ => some ([.empty], { r with stack := .flowKey false :: below })
    | .flowNoValue, _ => some ([.empty], { r with stack := .flowKey false :: below })

/-- All events, and whether they are those of a whole text. -/
def events : Nat → EventReader → List Event × Bool
  | 0, _ => ([], false)
  | steps + 1, r =>
    if r.stack.isEmpty then ([], true)
    else match r.step with
      | none => ([], false)
      | some (es, r) =>
        let (rest, whole) := events steps r
        (es ++ rest, whole)

/-- Between two tokens the automaton makes at most this many steps. -/
def stepsPerToken : Nat := 8

end EventReader

/-- The events of a text as far as it is well formed, and whether it is so as a whole. -/
def events (s : String) : List Event × Bool :=
  let ts := tokens s
  EventReader.events (EventReader.stepsPerToken * (ts.length + 2)) { tokens := ts }

end KnowledgeImport.Yaml
