import IdMint.Coordination.Path
import IdMint.Coordination.Request
import Std.Data.ExtTreeMap

/-! # The coordinator

A coordination service held in memory: a tree of versioned nodes, kept as a map from paths in
ascending order, and one connection. Every call but `connect` fails while the connection is down.
Every write to a node adds one to its version, in 32 bits with wraparound. -/

namespace IdMint.Coordination

/-- A node of the tree. -/
structure Node where
  /-- The bytes stored at the node. -/
  data : List UInt8
  /-- The number of writes since the node was created. -/
  version : Int32
  /-- How long the node lives. -/
  mode : NodeMode
  deriving DecidableEq, Inhabited

/-- The node that a missing ancestor becomes. -/
def Node.blank : Node := ⟨[], 0, .persistent⟩

/-- The stored nodes by their paths. The root is not stored. -/
abbrev NodeTree : Type := Std.ExtTreeMap String Node compare

namespace NodeTree

/-- Whether there is a node at a path: the root always is. -/
def hasNode (tree : NodeTree) (path : String) : Bool := path = "/" || tree.contains path

/-- The stored paths from the stem of a path on, as long as they begin with it. -/
def scan (tree : NodeTree) (path : String) : List String :=
  let stem := String.ofList (Path.childStem path.toList)
  (tree.keys.dropWhile (· < stem)).takeWhile (Path.isBelow path)

/-- The names of the nodes right below a path, in ascending order. -/
def childNames (tree : NodeTree) (path : String) : List String :=
  (tree.scan path).filterMap (Path.childName? path)

/-- The number of nodes right below a path, in 32 bits. -/
def childCount (tree : NodeTree) (path : String) : Int32 :=
  Int32.ofNat (tree.childNames path).length

/-- The stat of a stored node. -/
def stat? (tree : NodeTree) (path : String) : Option NodeStat :=
  tree[path]?.map fun node => ⟨node.version, tree.childCount path⟩

/-- Stores a blank node at every path of a list that has none. -/
def insertBlanks (tree : NodeTree) (paths : List String) : NodeTree :=
  paths.foldl (fun t path => t.insertIfNew path .blank) tree

/-- Stores a new node together with the ancestors that are missing. -/
def create (tree : NodeTree) (path : String) (data : List UInt8) (mode : NodeMode) : NodeTree :=
  (tree.insertBlanks (Path.ancestors path)).insert path ⟨data, 0, mode⟩

/-- Removes a node and everything below it. -/
def delete (tree : NodeTree) (path : String) : NodeTree :=
  (tree.erase path).filter fun other _ => !Path.isBelow path other

/-- Removes the nodes that end with the session. -/
def endSession (tree : NodeTree) : NodeTree := tree.filter fun _ node => node.mode = .persistent

end NodeTree

/-- The state of the service. -/
structure Coordinator where
  /-- The stored nodes. -/
  tree : NodeTree
  /-- Whether the connection is up. -/
  connected : Bool
  /-- The number of `connect` calls so far. -/
  connects : Nat
  /-- The number of `close` calls so far. -/
  closes : Nat

namespace Coordinator

/-- The service before its first call. -/
def fresh : Coordinator := ⟨∅, false, 0, 0⟩

instance : Inhabited Coordinator := ⟨fresh⟩

/-- Stores a persistent node without data at the given version, past the connection. -/
def seed (c : Coordinator) (path : String) (version : Int32) : Coordinator :=
  { c with tree := c.tree.insert path ⟨[], version, .persistent⟩ }

/-- Writes to a node: its new stat, and the tree with the new data and version. -/
def write (tree : NodeTree) (path : String) (data : List UInt8) (version : Int32) :
    Except Fault (NodeStat × NodeTree) :=
  match tree[path]? with
  | none => .error (.noNode path)
  | some node =>
    if version ≠ anyVersion ∧ version ≠ node.version then .error (.badVersion path)
    else
      let next := node.version + 1
      .ok (⟨next, tree.childCount path⟩, tree.insert path { node with data, version := next })

/-- Carries out a call: the answer and the state after it. -/
def perform (c : Coordinator) : Request β → Except Fault β × Coordinator
  | .connect _ _ => (.ok (), { c with connected := true, connects := c.connects + 1 })
  | .close =>
    (.ok (), { c with connected := false, closes := c.closes + 1, tree := c.tree.endSession })
  | .lookUp path => if c.connected then (.ok (c.tree.stat? path), c) else (.error .connectionLoss, c)
  | .create path data mode =>
    if !c.connected then (.error .connectionLoss, c)
    else if c.tree.hasNode path then (.error (.nodeExists path), c)
    else (.ok (), { c with tree := c.tree.create path data mode })
  | .setData path data version =>
    if !c.connected then (.error .connectionLoss, c)
    else match write c.tree path data version with
      | .error fault => (.error fault, c)
      | .ok (stat, tree) => (.ok stat, { c with tree })
  | .delete path =>
    if !c.connected then (.error .connectionLoss, c)
    else if c.tree.contains path then (.ok (), { c with tree := c.tree.delete path })
    else (.error (.noNode path), c)
  | .children path =>
    if !c.connected then (.error .connectionLoss, c)
    else if c.tree.hasNode path then (.ok (c.tree.childNames path), c)
    else (.error (.noNode path), c)

end Coordinator

end IdMint.Coordination
