import IdMint.Coordination.Coordinator

/-! # Versions of nodes

How the calls of an issuer of sequence numbers change the version of a node. Looking a node up and
creating one leave every version as it is, where a node that is absent counts as one of version zero;
a write adds one to the version of its node and tells the new version. -/

namespace IdMint.Coordination

namespace NodeTree

/-- The version of a node; zero where the node is absent. -/
def versionAt (tree : NodeTree) (path : String) : Int32 :=
  match tree[path]? with
  | some node => node.version
  | none => 0

theorem versionAt_of_not_mem {tree : NodeTree} {path : String} (h : path ∉ tree) :
    tree.versionAt path = 0 := by
  rw [versionAt, Std.ExtTreeMap.getElem?_eq_none h]

/-- The version at a path after a node was stored. -/
theorem versionAt_insert (tree : NodeTree) (path other : String) (node : Node) :
    versionAt (tree.insert path node) other
      = if path = other then node.version else tree.versionAt other := by
  rw [versionAt, Std.ExtTreeMap.getElem?_insert]
  by_cases hpath : path = other
  · rw [if_pos hpath, if_pos (Std.LawfulEqCmp.compare_eq_iff_eq.mpr hpath)]
  · rw [if_neg hpath, if_neg (fun heq => hpath (Std.LawfulEqCmp.compare_eq_iff_eq.mp heq))]
    rfl

/-- A blank node does not change a version. -/
theorem versionAt_insertIfNew_blank (tree : NodeTree) (path other : String) :
    versionAt (tree.insertIfNew path .blank) other = tree.versionAt other := by
  unfold versionAt
  rw [Std.ExtTreeMap.getElem?_insertIfNew]
  by_cases hnew : compare path other = .eq ∧ path ∉ tree
  · obtain ⟨heq, hmem⟩ := hnew
    obtain rfl : path = other := Std.LawfulEqCmp.compare_eq_iff_eq.mp heq
    rw [if_pos ⟨heq, hmem⟩, Std.ExtTreeMap.getElem?_eq_none hmem]
    rfl
  · rw [if_neg hnew]

/-- Blank nodes do not change a version. -/
theorem versionAt_insertBlanks (tree : NodeTree) (paths : List String) (other : String) :
    (tree.insertBlanks paths).versionAt other = tree.versionAt other := by
  unfold insertBlanks
  induction paths generalizing tree with
  | nil => rfl
  | cons path paths ih => rw [List.foldl_cons, ih, versionAt_insertIfNew_blank]

/-- Creating a node that is not there does not change a version. -/
theorem versionAt_create {tree : NodeTree} {path : String} (h : tree.hasNode path = false)
    (data : List UInt8) (mode : NodeMode) (other : String) :
    (tree.create path data mode).versionAt other = tree.versionAt other := by
  rw [create, versionAt_insert, versionAt_insertBlanks]
  by_cases hpath : path = other
  · -- the new node has the version that counts for one that is not there
    subst hpath
    have hmem : path ∉ tree := by
      intro hmem
      rw [hasNode, Std.ExtTreeMap.contains_iff_mem.mpr hmem, Bool.or_true] at h
      cases h
    rw [if_pos rfl, versionAt_of_not_mem hmem]
  · rw [if_neg hpath]

end NodeTree

/-- The node that a call writes to, and its new version, if the answer tells of a write. -/
def Request.written : Request β → Except ε β → Option (String × Int32)
  | .setData path _ _, .ok stat => some (path, stat.version)
  | _, _ => none

/-- The call is one of those that issuing sequence numbers makes, and writes to no other node than the
one at the path. -/
def Request.WritesOnly (path : String) : Request β → Prop
  | .lookUp _ | .create .. => True
  | .setData other _ _ => other = path
  | .connect .. | .close | .delete _ | .children _ => False

namespace Coordinator

/-- The version of a node; zero where the node is absent. -/
def versionAt (c : Coordinator) (path : String) : Int32 := c.tree.versionAt path

/-- What a call that issuing sequence numbers makes does to the versions of the nodes. -/
theorem versionAt_perform (c : Coordinator) {path : String} {request : Request β}
    (h : request.WritesOnly path) :
    (∀ other, (c.perform request).2.versionAt other = c.versionAt other)
        ∧ request.written (c.perform request).1 = none
      ∨ request.written (c.perform request).1 = some (path, c.versionAt path + 1)
        ∧ ∀ other, (c.perform request).2.versionAt other
          = if path = other then c.versionAt path + 1 else c.versionAt other := by
  cases request with
  | connect | close | delete | children => exact h.elim
  | lookUp other =>
    left
    rw [perform]
    by_cases hconnected : c.connected = true
    · rw [if_pos hconnected]
      exact ⟨fun _ => rfl, rfl⟩
    · rw [if_neg hconnected]
      exact ⟨fun _ => rfl, rfl⟩
  | create other data mode =>
    left
    rw [perform]
    by_cases hconnected : (!c.connected) = true
    · rw [if_pos hconnected]
      exact ⟨fun _ => rfl, rfl⟩
    rw [if_neg hconnected]
    by_cases hnode : c.tree.hasNode other = true
    · rw [if_pos hnode]
      exact ⟨fun _ => rfl, rfl⟩
    · rw [if_neg hnode]
      exact ⟨NodeTree.versionAt_create (Bool.eq_false_iff.mpr hnode) data mode, rfl⟩
  | setData other data version =>
    obtain rfl : other = path := h
    rw [perform]
    by_cases hconnected : (!c.connected) = true
    · rw [if_pos hconnected]
      exact .inl ⟨fun _ => rfl, rfl⟩
    rw [if_neg hconnected, write]
    cases hnode : c.tree[other]? with
    | none => exact .inl ⟨fun _ => rfl, rfl⟩
    | some node =>
      dsimp only
      by_cases hversion : version ≠ anyVersion ∧ version ≠ node.version
      · rw [if_pos hversion]
        exact .inl ⟨fun _ => rfl, rfl⟩
      · -- the only case in which the call writes
        have hold : c.versionAt other = node.version := by
          rw [versionAt, NodeTree.versionAt, hnode]
        rw [if_neg hversion, hold]
        exact .inr ⟨rfl, fun path => NodeTree.versionAt_insert _ _ _ _⟩

end Coordinator

end IdMint.Coordination
