import KnowledgeImport.Json.Token

/-!
# Drafts

The tree of a JSON text as far as it can be read. A text with a fault has a draft too: the fault
stands in it where a reader from left to right comes upon it, so that a reader who looks for
something else may find it first.
-/

namespace KnowledgeImport.Json

/-- A tree that may break off. -/
inductive Draft where
  | null
  | bool (b : Bool)
  | numeral (n : Numeral)
  | text (s : Spelling)
  /-- The elements, and the fault that stands in place of a comma or of the closing bracket. -/
  | array (elements : List Draft) (ending : Option Fault)
  /-- The members, and the fault that stands in place of a comma or of the closing bracket. -/
  | object (members : List (Draft × Draft)) (ending : Option Fault)
  /-- A text without an end, by the strict and by the loose reading. -/
  | openText (strict loose : Fault)
  | broken (f : Fault)
  deriving Repr

/-- An array or object that is still open, with what was read of it, the last part first. -/
inductive Frame where
  | array (elements : List Draft)
  | object (members : List (Draft × Draft))
  /-- An object in which the value of a key is due. -/
  | member (members : List (Draft × Draft)) (key : Draft)
  deriving Repr

namespace Frame

/-- The frame with a value put into it. -/
def put (d : Draft) : Frame → Frame
  | .array elements => .array (d :: elements)
  | .object members => .object ((d, .broken .malformed) :: members)
  | .member members key => .object ((key, d) :: members)

/-- The tree of a frame that ends. -/
def close (ending : Option Fault) : Frame → Draft
  | .array elements => .array elements.reverse ending
  | .object members => .object members.reverse ending
  | .member members key =>
    .object ((key, .broken (ending.getD .malformed)) :: members).reverse none

/-- The tree of all open frames, the innermost first, when reading breaks off at `d`. -/
def collapse (d : Draft) : List Frame → Draft
  | [] => d
  | f :: rest => collapse ((f.put d).close none) rest

/-- The tree of all open frames when a fault stands in place of a comma or a bracket. -/
def collapseAt (fault : Fault) : List Frame → Draft
  | [] => .broken fault
  | f :: rest => collapse (f.close (some fault)) rest

end Frame

namespace Draft

/-- What may come next. -/
inductive Due where
  /-- A value, or the end of an array that has just been opened. -/
  | value (first : Bool)
  /-- A key, or the end of an object that has just been opened. -/
  | key (first : Bool)
  | colon
  /-- A comma, or the end of the innermost frame. -/
  | separator
  deriving DecidableEq, Repr

/-- The draft of a token that is a value by itself. -/
def leaf? : Token → Option Draft
  | .null => some .null
  | .bool b => some (.bool b)
  | .numeral n => some (.numeral n)
  | .text s => some (.text s)
  | _ => none

/-- The draft of a token at which reading breaks off. -/
def stop : Token → Draft
  | .openText strict loose => .openText strict loose
  | .broken f => .broken f
  | _ => .broken .malformed

/-- The draft of a token that stands for a key; what opens a frame is no key, but its kind is
kept. -/
def key (token : Token) : Draft :=
  match token with
  | .openArray => .array [] none
  | .openObject => .object [] none
  | _ => (leaf? token).getD (stop token)

/-- Where reading goes after a token. -/
inductive Progress where
  | goOn (frames : List Frame) (due : Due)
  | finished (d : Draft)
  deriving Repr

/-- Goes on after a value that is complete. -/
def filled (frames : List Frame) (d : Draft) : Progress :=
  match frames with
  | [] => .finished d
  | f :: rest => .goOn (f.put d :: rest) .separator

/-- One token. The frames are those that are open, the innermost first. -/
def step (frames : List Frame) (due : Due) (token : Token) : Progress :=
  match due with
  | .value first =>
    match token, frames with
    | .openArray, _ => .goOn (.array [] :: frames) (.value true)
    | .openObject, _ => .goOn (.object [] :: frames) (.key true)
    | .closeArray, .array elements :: rest =>
      if first then filled rest (.array elements.reverse none)
      else .finished (Frame.collapse (.broken .malformed) frames)
    | _, _ =>
      match leaf? token with
      | some d => filled frames d
      | none => .finished (Frame.collapse (stop token) frames)
  | .key first =>
    match token, frames with
    | .closeObject, .object members :: rest =>
      if first then filled rest (.object members.reverse none)
      else .finished (Frame.collapse (.broken .malformed) frames)
    | .text s, .object members :: rest => .goOn (.member members (.text s) :: rest) .colon
    | _, _ => .finished (Frame.collapse (key token) frames)
  | .colon =>
    match token with
    | .colon => .goOn frames (.value false)
    | _ => .finished (Frame.collapse (.broken .malformed) frames)
  | .separator =>
    match token, frames with
    | .comma, .array _ :: _ => .goOn frames (.value false)
    | .comma, .object _ :: _ => .goOn frames (.key false)
    | .closeArray, .array elements :: rest => filled rest (.array elements.reverse none)
    | .closeObject, .object members :: rest => filled rest (.object members.reverse none)
    | _, _ => .finished (Frame.collapseAt .malformed frames)

/-- The tree when the tokens end. -/
def atEnd (frames : List Frame) (due : Due) : Draft :=
  match due with
  | .separator => Frame.collapseAt .endsEarly frames
  | _ => Frame.collapse (.broken .endsEarly) frames

/-- The tree of a value, and the tokens after it. -/
def build (frames : List Frame) (due : Due) : List Token → Draft × List Token
  | [] => (atEnd frames due, [])
  | token :: tokens =>
    match step frames due token with
    | .goOn frames due => build frames due tokens
    | .finished d => (d, tokens)

/-! ### Reading loosely -/

mutual

/-- The first fault that a reader meets who skips the value. Numbers may be too large and halves of
surrogate pairs may stand alone. -/
def looseFault? : Draft → Option Fault
  | .array elements ending => (looseFaults? elements).or ending
  | .object members ending => (looseMemberFaults? members).or ending
  | .openText _ loose => some loose
  | .broken f => some f
  | .null | .bool _ | .numeral _ | .text _ => none

/-- The first fault in a list of values. -/
def looseFaults? : List Draft → Option Fault
  | [] => none
  | d :: ds => (looseFault? d).or (looseFaults? ds)

/-- The first fault in a list of members; a key that is no text is one. -/
def looseMemberFaults? : List (Draft × Draft) → Option Fault
  | [] => none
  | m :: ms => (looseMemberFault? m).or (looseMemberFaults? ms)

/-- The first fault in a member. -/
def looseMemberFault? : Draft × Draft → Option Fault
  | (.text _, d) => looseFault? d
  | (.openText _ loose, _) => some loose
  | (.broken f, _) => some f
  | _ => some .malformed

end

end Draft

/-- The draft of a text, and the tokens after its value. -/
def draft (s : String) : Draft × List Token :=
  Draft.build [] (.value false) (tokens s)

end KnowledgeImport.Json
