import KnowledgeImport.FileTree.Path

/-!
# File trees

A tree of files, directories and symbolic links. The entries of a directory are kept in increasing
order of their names, compared octet by octet; `Forest.put` keeps them so.
-/

namespace KnowledgeImport

open Text

/-- What a file holds: octets as given, or a number of zero octets that are never written down. -/
inductive Content where
  | octets (bs : List Octet)
  | zeros (size : Nat)
  deriving DecidableEq, Repr

namespace Content

/-- The size in octets. -/
def size : Content → Nat
  | .octets bs => bs.length
  | .zeros n => n

/-- All octets in order. -/
def toOctets : Content → List Octet
  | .octets bs => bs
  | .zeros n => List.replicate n 0

end Content

mutual

/-- What stands under a name. -/
inductive Node where
  | file (content : Content)
  | link (target : Path)
  | directory (entries : Forest)

/-- The entries of a directory. -/
inductive Forest where
  | nil
  | cons (name : Name) (node : Node) (rest : Forest)

end

instance : Inhabited Node := ⟨.directory .nil⟩

namespace Node

/-- The node is a directory. -/
def isDirectory : Node → Bool
  | .directory _ => true
  | _ => false

/-- The entries of a directory; other nodes have none. -/
def entries : Node → Forest
  | .directory f => f
  | _ => .nil

end Node

namespace Forest

/-- The entries as a list. -/
def toList : Forest → List (Name × Node)
  | .nil => []
  | .cons n node rest => (n, node) :: rest.toList

/-- The entry of a name. -/
def find? (name : Name) : Forest → Option Node
  | .nil => none
  | .cons n node rest => if n = name then some node else rest.find? name

/-- Changes the entry of a name, or adds one at its place in the order. -/
def put (name : Name) (change : Option Node → Node) : Forest → Forest
  | .nil => .cons name (change none) .nil
  | .cons n node rest =>
    if name = n then .cons n (change (some node)) rest
    else if name < n then .cons name (change none) (.cons n node rest)
    else .cons n node (rest.put name change)

/-- Puts a node at the end of a path of names, with directories on the way as needed. A directory
that is put where one stands leaves it as it is. -/
def insert : List Name → Node → Forest → Forest
  | [], _, f => f
  | [name], node, f =>
    f.put name fun
      | some (.directory g) => if node.isDirectory then .directory g else node
      | _ => node
  | name :: names, node, f =>
    f.put name fun
      | some (.directory g) => .directory (insert names node g)
      | _ => .directory (insert names node .nil)

end Forest

end KnowledgeImport
