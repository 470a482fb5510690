import IdMint.Coordination.Rehearsal

/-! # Which nodes are there

What the calls of a session do to the set of nodes that the service has: only deleting a node and
ending a session take nodes away. What an answer tells about the presence of a node holds of the
service, also where calls are disturbed, as long as no disturbance makes a node up. -/

namespace IdMint.Coordination

namespace NodeTree

theorem hasNode_iff {tree : NodeTree} {path : String} :
    tree.hasNode path = true ↔ path = "/" ∨ path ∈ tree := by
  simp [hasNode, Std.ExtTreeMap.contains_iff_mem]

/-- Storing a node takes none away. -/
theorem hasNode_insert {tree : NodeTree} {path : String} (h : tree.hasNode path = true)
    (other : String) (node : Node) : hasNode (tree.insert other node) path = true := by
  rw [hasNode_iff] at h ⊢
  exact h.imp_right fun hmem => Std.ExtTreeMap.mem_insert.mpr (.inr hmem)

theorem hasNode_insert_self (tree : NodeTree) (path : String) (node : Node) :
    hasNode (tree.insert path node) path = true :=
  hasNode_iff.mpr (.inr Std.ExtTreeMap.mem_insert_self)

/-- Storing blank nodes takes none away. -/
theorem hasNode_insertBlanks {tree : NodeTree} {path : String} (h : tree.hasNode path = true)
    (paths : List String) : (tree.insertBlanks paths).hasNode path = true := by
  unfold insertBlanks
  induction paths generalizing tree with
  | nil => exact h
  | cons other paths ih =>
    rw [List.foldl_cons]
    apply ih
    rw [hasNode_iff] at h ⊢
    exact h.imp_right fun hmem => Std.ExtTreeMap.mem_insertIfNew.mpr (.inr hmem)

/-- Creating a node takes none away. -/
theorem hasNode_create {tree : NodeTree} {path : String} (h : tree.hasNode path = true)
    (other : String) (data : List UInt8) (mode : NodeMode) :
    (tree.create other data mode).hasNode path = true :=
  hasNode_insert (hasNode_insertBlanks h _) _ _

end NodeTree

open NodeTree

/-- The answer to a call tells that there is a node at the path. -/
def Request.Tells (path : String) : Request β → Except Fault β → Prop
  | .lookUp other, .ok (some _) => other = path
  | .create other _ _, .ok () => other = path
  | .create other _ _, .error (.nodeExists _) => other = path
  | _, _ => False

/-- Only an answer that the node exists already is a failure that tells of a node. -/
theorem Request.not_tells_error {request : Request β} {fault : Fault}
    (h : ∀ other, fault ≠ .nodeExists other) (path : String) :
    ¬ request.Tells path (.error fault) := by
  cases request <;> cases fault <;> simp_all [Tells]

namespace Coordinator

/-- A write that takes effect takes no node away. -/
theorem hasNode_write {tree tree' : NodeTree} {path other : String} {data : List UInt8}
    {version : Int32} {stat : NodeStat} (h : tree.hasNode path = true)
    (hwrite : write tree other data version = .ok (stat, tree')) : tree'.hasNode path = true := by
  unfold write at hwrite
  split at hwrite
  · cases hwrite
  · split at hwrite
    · cases hwrite
    · cases hwrite
      exact hasNode_insert h _ _

/-- Calls other than deleting a node and ending the session take no node away. -/
theorem hasNode_perform {c : Coordinator} {path : String} (h : c.tree.hasNode path = true)
    {request : Request β} (hclose : request.kind ≠ .close) (hdelete : request.kind ≠ .delete) :
    (c.perform request).2.tree.hasNode path = true := by
  cases request with
  | close => exact absurd rfl hclose
  | delete => exact absurd rfl hdelete
  | connect => exact h
  | lookUp other =>
    rw [perform]
    split <;> exact h
  | children other =>
    rw [perform]
    split
    · exact h
    · split <;> exact h
  | create other data mode =>
    rw [perform]
    split
    · exact h
    · split
      · exact h
      · exact hasNode_create h other data mode
  | setData other data version =>
    rw [perform]
    split
    · exact h
    · split
      · exact h
      · rename_i hwrite
        exact hasNode_write h hwrite

/-- What an answer of the service tells about a node is so. -/
theorem hasNode_of_tells {c : Coordinator} {path : String} {request : Request β}
    (h : request.Tells path (c.perform request).1) :
    (c.perform request).2.tree.hasNode path = true := by
  cases request with
  | connect | close | setData | delete | children => exact absurd h (by simp [Request.Tells])
  | lookUp other =>
    rw [perform] at h ⊢
    by_cases hconnected : c.connected = true
    · rw [if_pos hconnected] at h ⊢
      dsimp only at h ⊢
      unfold stat? at h
      cases hnode : c.tree[other]? with
      | none => simp [Request.Tells, hnode] at h
      | some node =>
        simp only [Request.Tells, hnode, Option.map_some] at h
        subst h
        exact hasNode_iff.mpr (.inr (Std.ExtTreeMap.mem_iff_isSome_getElem?.mpr (by simp [hnode])))
    · rw [if_neg hconnected] at h
      exact absurd h (by simp [Request.Tells])
  | create other data mode =>
    rw [perform] at h ⊢
    by_cases hconnected : (!c.connected) = true
    · rw [if_pos hconnected] at h
      exact absurd h (by simp [Request.Tells])
    rw [if_neg hconnected] at h ⊢
    by_cases hnode : c.tree.hasNode other = true
    · rw [if_pos hnode] at h ⊢
      obtain rfl : other = path := h
      exact hnode
    · rw [if_neg hnode] at h ⊢
      obtain rfl : other = path := h
      exact hasNode_insert_self _ _ _

/-- A disturbed call is carried out and answered as if undisturbed, or is reported as failed: without
having taken effect, or after it. -/
theorem performDisturbed_cases (c : Coordinator) (d : Disturbance) (request : Request β) :
    c.performDisturbed d request = c.perform request
      ∨ (∃ fault, d.fault = some fault ∧ c.performDisturbed d request = (.error fault, c))
      ∨ ∃ fault value, d.fault = some fault ∧ d.applies = true
        ∧ c.perform request = (.ok value, (c.perform request).2)
        ∧ c.performDisturbed d request = (.error fault, (c.perform request).2) := by
  unfold performDisturbed
  cases d.fault with
  | none => exact .inl rfl
  | some fault =>
    by_cases happlies : d.applies = true
    · simp only [happlies, if_true]
      rcases c.perform request with ⟨own | value, after⟩
      · exact .inl rfl
      · exact .inr (.inr ⟨fault, value, rfl, trivial, rfl, rfl⟩)
    · simp only [happlies]
      exact .inr (.inl ⟨fault, rfl, rfl⟩)

/-- Disturbed calls other than deleting a node and ending the session take no node away. -/
theorem hasNode_performDisturbed {c : Coordinator} {path : String} (h : c.tree.hasNode path = true)
    (d : Disturbance) {request : Request β} (hclose : request.kind ≠ .close)
    (hdelete : request.kind ≠ .delete) :
    (c.performDisturbed d request).2.tree.hasNode path = true := by
  obtain heq | ⟨fault, -, heq⟩ | ⟨fault, value, -, -, -, heq⟩ := c.performDisturbed_cases d request
  · rw [heq]
    exact hasNode_perform h hclose hdelete
  · rw [heq]
    exact h
  · rw [heq]
    exact hasNode_perform h hclose hdelete

/-- What the answer to a disturbed call tells about a node is so, if the disturbance does not make it
up. -/
theorem hasNode_of_tells_disturbed {c : Coordinator} {d : Disturbance} {path : String}
    {request : Request β} (hhonest : ∀ other, d.fault ≠ some (.nodeExists other))
    (h : request.Tells path (c.performDisturbed d request).1) :
    (c.performDisturbed d request).2.tree.hasNode path = true := by
  have hsilent (fault : Fault) (hfault : d.fault = some fault) :
      ¬ request.Tells path (.error fault) := by
    apply Request.not_tells_error
    rintro other rfl
    exact hhonest other hfault
  obtain heq | ⟨fault, hfault, heq⟩ | ⟨fault, value, hfault, -, -, heq⟩ :=
    c.performDisturbed_cases d request
  · rw [heq] at h ⊢
    exact hasNode_of_tells h
  · rw [heq] at h
    exact absurd h (hsilent fault hfault)
  · rw [heq] at h
    exact absurd h (hsilent fault hfault)

end Coordinator

end IdMint.Coordination
