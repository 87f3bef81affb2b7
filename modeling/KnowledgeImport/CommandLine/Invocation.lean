import KnowledgeImport.CommandLine.UsageReply

/-!
# Invocations

What a command line asks for, and how its arguments say so. Arguments are read one after the other.
A parameter counts as given only when the next one comes up or the arguments end; an argument that
is no parameter is reported before anything that is wrong with a parameter in waiting.
-/

namespace KnowledgeImport

/-- What a command line asks for. -/
structure Invocation where
  projectId : String
  backendUrl : String
  includeCodeExamples : Bool := false
  noCodeExamples : Bool := false
  dryRun : Bool := false
  path : Option String := none
  config : Option String := none
  json : Bool := false
  deriving DecidableEq, Repr

/-- Code examples are extracted unless that was switched off. -/
def Invocation.codeExamplesEnabled (i : Invocation) : Bool :=
  !i.noCodeExamples

/-! ### Parameters with their values -/

/-- The parameters that count, with their values, in the order in which they were given last. -/
abbrev Assignment := List (Parameter × String)

namespace Assignment

/-- The value of a parameter. -/
def value? (as : Assignment) (p : Parameter) : Option String :=
  (as.find? (·.1 = p)).map (·.2)

/-- The parameter counts. -/
def has (as : Assignment) (p : Parameter) : Bool :=
  as.any (·.1 = p)

/-- The parameters without their values. -/
def parameters (as : Assignment) : List Parameter :=
  as.map (·.1)

/-- The assignment without a parameter. -/
def without (as : Assignment) (p : Parameter) : Assignment :=
  as.filter (·.1 ≠ p)

/-- The assignment without what a parameter takes back. -/
def withoutOpposite (as : Assignment) (p : Parameter) : Assignment :=
  p.opposite?.elim as as.without

/-- What is wrong with giving a parameter now. -/
def fault? (as : Assignment) (p : Parameter) : Option String → Option UsageReply
  | none => some (.valueMissing p)
  | some value =>
    if as.has p then some (.repeated p)
    else if p.isPath && value.isEmpty then some (.valueMissing p)
    else none

/-- The assignment after a parameter was given, even if something is wrong with that: without a
value nothing changes, and a parameter given twice does not count. -/
def add (as : Assignment) (p : Parameter) : Option String → Assignment
  | none => as
  | some value => if as.has p then as.without p else as.withoutOpposite p ++ [(p, value)]

/-- Gives a parameter. -/
def give (as : Assignment) (p : Parameter) (value : Option String) :
    Except UsageReply Assignment :=
  match as.fault? p value with
  | some reply => .error reply
  | none => .ok (as.add p value)

end Assignment

/-! ### Arguments -/

/-- The shape of an argument. -/
inductive Argument where
  /-- `--`: no parameters follow. -/
  | divider
  /-- `--name` or `--name=value`. -/
  | option (name : String) (value : Option String)
  /-- `-l` and whatever follows the letter. -/
  | letters (first : Char)
  /-- Anything else. -/
  | word
  deriving DecidableEq, Repr

/-- The shape of an argument. -/
def Argument.ofString (a : String) : Argument :=
  match a.toList with
  | ['-', '-'] => .divider
  | '-' :: '-' :: cs =>
    let name := String.ofList (cs.takeWhile (· ≠ '='))
    match cs.dropWhile (· ≠ '=') with
    | [] => .option name none
    | _ :: value => .option name (some (String.ofList value))
  | '-' :: c :: _ => .letters c
  | _ => .word

/-! ### Arguments one after the other -/

/-- What is known after some arguments. -/
structure ArgumentReading where
  /-- The parameters that count. -/
  given : Assignment := []
  /-- The last parameter that takes a value, with its value if that was there. -/
  waiting : Option (Parameter × Option String) := none
  /-- The divider has come. -/
  divided : Bool := false
  deriving DecidableEq, Repr

namespace ArgumentReading

/-- What counts once the parameter in waiting is given. -/
def settled (r : ArgumentReading) : Except UsageReply Assignment :=
  match r.waiting with
  | some (p, value) => r.given.give p value
  | none => .ok r.given

/-- The parameters that count once the one in waiting is given, whatever is wrong with it. -/
def settledParameters (r : ArgumentReading) : List Parameter :=
  match r.waiting with
  | some (p, value) => (r.given.add p value).parameters
  | none => r.given.parameters

/-- A parameter that takes no value comes up. -/
def switch (r : ArgumentReading) (p : Parameter) : Except UsageReply ArgumentReading := do
  let given ← r.settled
  match p with
  | .help => throw .help
  | .version => throw .version
  | p => return { r with given := ← given.give p (some "true"), waiting := none }

/-- A name that no parameter has comes up. -/
def unknownName (r : ArgumentReading) (name : String) : UsageReply :=
  let given := r.settledParameters
  match Parameter.nearest? name with
  | some p => .unknown ("--" ++ name) (some p) (p.addTo (given.filter (some · ≠ p.opposite?)))
  | none => .unknown ("--" ++ name) none given

/-- An option comes up. -/
def option (r : ArgumentReading) (name : String) (value : Option String) :
    Except UsageReply ArgumentReading :=
  match Parameter.ofName? name with
  | none => .error (r.unknownName name)
  | some p =>
    if p.takesValue then do
      let given ← r.settled
      match value with
      | some v => return { r with given := ← given.give p (some v), waiting := none }
      | none => return { r with given, waiting := some (p, none) }
    else
      match value with
      | some v => .error (.valueUnexpected v p (p.addTo r.given.parameters))
      | none => r.switch p

/-- The next argument. -/
def step (r : ArgumentReading) (a : String) : Except UsageReply ArgumentReading :=
  if r.divided then .error (.unknown a none [])
  else
    match Argument.ofString a with
    | .divider => .ok { r with divided := true }
    | .option name value => r.option name value
    | .letters c =>
      match Parameter.ofLetter? c with
      | some p => r.switch p
      | none => .error (.unknown ("-" ++ c.toString) none [])
    | .word =>
      match r.waiting with
      | some (p, none) => .ok { r with waiting := some (p, some a) }
      | _ => .error (.unknown a none [])

end ArgumentReading

/-! ### The invocation of a command line -/

/-- The parameters of a command line. -/
def Assignment.ofArguments (arguments : List String) : Except UsageReply Assignment := do
  (← arguments.foldlM ArgumentReading.step {}).settled

namespace Invocation

/-- The invocation that an assignment stands for. The environment's URL counts if there is no other,
and the default if there is none at all. -/
def ofAssignment (environmentUrl : Option String) (as : Assignment) :
    Except UsageReply Invocation :=
  let url := (as.value? .backendUrl).or environmentUrl
  match as.value? .projectId with
  | some projectId => .ok
    { projectId
      backendUrl := url.getD defaultBackendUrl
      includeCodeExamples := as.has .includeCodeExamples
      noCodeExamples := as.has .noCodeExamples
      dryRun := as.has .dryRun
      path := as.value? .path
      config := as.value? .config
      json := as.has .json }
  | none =>
    let fromEnvironment := if as.has .backendUrl then [] else environmentUrl.toList
    .error (.projectMissing (as.parameters ++ fromEnvironment.map fun _ => .backendUrl))

/-- The invocation that a command line stands for. -/
def ofArguments (environmentUrl : Option String) (arguments : List String) :
    Except UsageReply Invocation := do
  ofAssignment environmentUrl (← Assignment.ofArguments arguments)

end Invocation

end KnowledgeImport
