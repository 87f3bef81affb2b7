import Std.Async.DNS
import Std.Async.TCP
import KnowledgeImport.Backend.Replay
import KnowledgeImport.Backend.Wire
import KnowledgeImport.CommandLine.Session

/-!
# The program on a machine

Brings the files that an import needs into a file system, gets the replies of the backend one by
one, and prints what the import prints.
-/

namespace KnowledgeImport

open Std.Async Std.Net

/-! ### Files -/

/-- What stands at an entry of a directory and below it, files by their size alone. -/
partial def survey (e : IO.FS.DirEntry) : IO (Option Node) := do
  try
    let data ← e.path.symlinkMetadata
    match data.type with
    | .dir =>
      let children ← e.path.readDir
      let entries ← children.filterMapM fun child => do
        return (← survey child).map fun node => (Text.encode child.fileName, node)
      return some (.directory (entries.foldl (fun f (n, node) => f.put n fun _ => node) .nil))
    | .file => return some (.file (.zeros data.byteSize.toNat))
    | .symlink => return some (.link (Path.ofString (← IO.FS.realPath e.path).toString))
    | .other => return none
  catch _ => return none

/-- Adds what stands at a path. A path through links becomes a link to the real one. -/
def bring (fs : FileSystem) (path : Path) : IO FileSystem := do
  let path := fs.cwd.join path
  let real := (← IO.FS.realPath path.display).toString
  match ← survey ⟨"/", real⟩ with
  | none => return fs
  | some node =>
    let target := Path.ofString real
    let fs := fs.put target node
    match fs.canonical path with
    | .ok _ => return fs
    | .error _ => return fs.put path (.link target)

/-- Adds the content of a file. -/
def bringContent (fs : FileSystem) (path : Path) : IO FileSystem := do
  let path := fs.cwd.join path
  try
    let content ← IO.FS.readBinFile path.display
    return fs.put path (.file (.octets content.toList))
  catch _ => return fs

/-- The files that an invocation sends if the backend takes them. -/
def filesToSend (i : Invocation) (fs : FileSystem) : List Path :=
  match i.setUp fs with
  | .error _ => []
  | .ok setup =>
    match setup.rules.scan fs setup.config.root with
    | .error _ => []
    | .ok scan => scan.documentationFiles ++ scan.codeFiles

/-- All files that a command line has to do with. -/
def gatherFiles (environment : Environment) (arguments : List String) : IO FileSystem := do
  let cwd := (← IO.FS.realPath (← IO.currentDir)).toString
  let mut fs : FileSystem := { root := .directory .nil, cwd := Path.ofString cwd }
  let asked := Invocation.ofArguments none arguments
  if let .ok i := asked then
    fs ← bring fs (Path.ofString (i.path.getD "."))
  fs := fs.put (Path.ofString (cwd ++ "/")) (.directory .nil)
  for directory in Environment.searchedDirectories fs do
    fs ← bringContent fs (Path.ofNames (directory ++ [Environment.fileName]))
  if let .ok i := asked then
    if let some config := i.config then
      fs ← bring fs (Path.ofString config)
      fs ← bringContent fs (Path.ofString config)
  let url := (environment.withFile fs).value? UsageReply.urlVariable
  if let .ok i := Invocation.ofArguments url arguments then
    for path in filesToSend i fs do
      fs ← bringContent fs path
  return fs

/-! ### The backend -/

/-- Connects to the first address that accepts, if one does. -/
def connect? (addresses : List IPAddr) (port : UInt16) : IO (Option TCP.Socket.Client) := do
  for address in addresses do
    try
      let socket ← TCP.Socket.Client.mk
      (socket.connect (match address with
        | .v4 a => .v4 ⟨a, port⟩
        | .v6 a => .v6 ⟨a, port⟩)).block
      return some socket
    catch _ => pure ()
  return none

/-- All octets that come until the other side closes the connection. -/
partial def receiveAll (socket : TCP.Socket.Client) (sofar : ByteArray) : IO ByteArray := do
  match ← (socket.recv? 65536).block with
  | some bs => if bs.isEmpty then return sofar else receiveAll socket (sofar ++ bs)
  | none => return sofar

/-- Makes one exchange. Only plain connections can be made. -/
def exchange (r : Request) : IO Reply := do
  let host := match r.url.host? with
    | some (.ipv6 groups) => Url.ipv6Text groups
    | some h => h.text
    | none => []
  let port := ((r.url.authority.bind (·.port)).or (Url.defaultPort? r.url.scheme)).getD 80
  if r.url.scheme ≠ "http".toList then return .refused
  let addresses ←
    try (DNS.getAddrInfo (String.ofList host) (toString port)).block
    catch _ => pure #[]
  match ← connect? addresses.toList port.toUInt16 with
  | none => return .refused
  | some socket =>
    try
      (socket.send ⟨r.octets.toArray⟩).block
      let answer ← receiveAll socket .empty
      return ((Response.ofOctets? answer.toList).map .response).getD .dropped
    catch _ => return .dropped

/-- Runs the program, with one more known reply each time, until no request is left. -/
partial def converse (fs : FileSystem) (environment : Environment) (arguments : List String)
    (known : List Reply) : IO (Termination (List Reply)) := do
  let t := runProgram fs replay known environment arguments
  match t.link.nextRequest? known.length with
  | some request => converse fs environment arguments (known ++ [← exchange request])
  | none => return t

end KnowledgeImport

open KnowledgeImport in
/-- The program. -/
def main (arguments : List String) : IO UInt32 := do
  let url ← IO.getEnv UsageReply.urlVariable
  let environment : Environment := ⟨url.toList.map fun u => (UsageReply.urlVariable, u)⟩
  let fs ← gatherFiles environment arguments
  let t ← converse fs environment arguments []
  IO.print t.console.output
  IO.eprint t.console.error
  return t.exitCode.toUInt32
