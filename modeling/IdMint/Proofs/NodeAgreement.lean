import IdMint.Proofs.NodeBranches
import IdMint.Proofs.TreeClosure

/-! # Calls that tell of a node

Four calls tell in four ways whether there is a node at a path: a stat, a list of children, the refusal to
create it again, and a write that finds it. Two of them go by what is stored, and two count the root in
as well, which no call stores. So they agree at every path but the root's: `Coordinator.agrees_below`. -/

namespace IdMint.Coordination

namespace Coordinator

/-- The four calls tell the same of a path. -/
structure TellsAlike (c : Coordinator) (path : String) : Prop where
  children : (∃ stat, (c.perform (.lookUp path)).1 = .ok (some stat))
    ↔ ∃ names, (c.perform (.children path)).1 = .ok names
  create : ∀ data mode, (∃ stat, (c.perform (.lookUp path)).1 = .ok (some stat))
    ↔ ∃ other, (c.perform (.create path data mode)).1 = .error (.nodeExists other)
  setData : ∀ data, (∃ stat, (c.perform (.lookUp path)).1 = .ok (some stat))
    ↔ ∀ other, (c.perform (.setData path data anyVersion)).1 ≠ .error (.noNode other)

/-! ## What the calls go by -/

section

variable {c : Coordinator} {path : String}

/-- A stat is what a stored node has. -/
theorem exists_stat_iff (hup : c.connected = true) :
    (∃ stat, (c.perform (.lookUp path)).1 = .ok (some stat)) ↔ path ∈ c.tree := by
  rw [perform, if_pos hup, NodeTree.mem_iff_exists, NodeTree.stat?]
  cases c.tree[path]? <;> simp

/-- A write that depends on no version finds what is stored. -/
theorem finds_iff (hup : c.connected = true) (data : List UInt8) :
    (∀ other, (c.perform (.setData path data anyVersion)).1 ≠ .error (.noNode other))
      ↔ path ∈ c.tree := by
  rw [NodeTree.mem_iff_exists, perform, if_neg (by simp [hup])]
  cases hnode : c.tree[path]? with
  | none =>
    have hmissing : write c.tree path data anyVersion = .error (.noNode path) := by simp [write, hnode]
    rw [hmissing]
    refine ⟨fun h => absurd rfl (h path), ?_⟩
    rintro ⟨node, hnode⟩
    cases hnode
  | some node =>
    rw [write_of_version hnode (.inl rfl)]
    refine ⟨fun _ => ⟨node, rfl⟩, fun _ other hfault => ?_⟩
    cases hfault

/-- Children are listed of what is stored, and of the root. -/
theorem exists_children_iff (hup : c.connected = true) :
    (∃ names, (c.perform (.children path)).1 = .ok names) ↔ path = "/" ∨ path ∈ c.tree := by
  rw [← NodeTree.hasNode_iff, perform, if_neg (by simp [hup])]
  by_cases hnode : c.tree.hasNode path = true
  · rw [if_pos hnode]
    exact ⟨fun _ => hnode, fun _ => ⟨_, rfl⟩⟩
  · rw [if_neg hnode]
    refine ⟨?_, fun h => absurd h hnode⟩
    rintro ⟨_, ⟨⟩⟩

/-- What is stored is not created again, and neither is the root. -/
theorem refuses_iff (hup : c.connected = true) (data : List UInt8) (mode : NodeMode) :
    (∃ other, (c.perform (.create path data mode)).1 = .error (.nodeExists other))
      ↔ path = "/" ∨ path ∈ c.tree := by
  rw [← NodeTree.hasNode_iff, perform, if_neg (by simp [hup])]
  by_cases hnode : c.tree.hasNode path = true
  · rw [if_pos hnode]
    exact ⟨fun _ => hnode, fun _ => ⟨path, rfl⟩⟩
  · rw [if_neg hnode]
    refine ⟨?_, fun h => absurd h hnode⟩
    rintro ⟨_, ⟨⟩⟩

/-- The calls tell the same of every path but the root's; of that one, if something is stored there. -/
theorem tellsAlike_iff (hup : c.connected = true) :
    c.TellsAlike path ↔ path ≠ "/" ∨ path ∈ c.tree := by
  have hsame : (path ≠ "/" ∨ path ∈ c.tree) ↔ (path ∈ c.tree ↔ path = "/" ∨ path ∈ c.tree) := by
    by_cases hroot : path = "/" <;> simp [hroot]
  rw [hsame]
  constructor
  · intro h
    rw [← exists_children_iff hup, ← exists_stat_iff hup]
    exact h.children
  · intro h
    refine ⟨?_, fun data mode => ?_, fun data => ?_⟩
    · rw [exists_stat_iff hup, exists_children_iff hup]
      exact h
    · rw [exists_stat_iff hup, refuses_iff hup]
      exact h
    · rw [exists_stat_iff hup, finds_iff hup]

end

/-! ## What is stored at the root -/

/-- No call stores a node at the root. -/
theorem root_not_mem_after {c : Coordinator} (h : "/" ∉ c.tree) {event : ServiceEvent}
    (hseed : ∀ version, event ≠ .seed "/" version) : "/" ∉ (c.after event).tree := by
  cases event with
  | seed path version =>
    have hpath : path ≠ "/" := by
      rintro rfl
      exact hseed version rfl
    rw [after, seed, Std.ExtTreeMap.mem_insert, Std.LawfulEqCmp.compare_eq_iff_eq]
    exact not_or.mpr ⟨hpath, h⟩
  | call request =>
    refine tree_perform (P := fun tree => "/" ∉ tree) c request fun _ tree halters => ?_
    cases halters with
    | same => exact h
    | ended =>
      intro hmem
      obtain ⟨node, hnode, -⟩ := NodeTree.mem_endSession.mp hmem
      exact h (NodeTree.mem_iff_exists.mpr ⟨node, hnode⟩)
    | created data mode habsent =>
      rw [NodeTree.mem_create, List.mem_cons]
      rintro ((hroot | hancestor) | hmem)
      · exact NodeTree.ne_root_of_hasNode habsent hroot.symm
      · exact (Path.mem_ancestors_iff.mp hancestor).2 rfl
      · exact h hmem
    | wrote data hnode hversion =>
      rw [NodeTree.mem_insert_of_mem (NodeTree.mem_iff_exists.mpr ⟨_, hnode⟩)]
      exact h
    | deleted hmem => exact fun hleft => h (NodeTree.mem_delete.mp hleft).2.2

/-- A history that seeds no node at the root leaves none there. -/
theorem root_not_mem_run {c : Coordinator} (h : "/" ∉ c.tree) {events : List ServiceEvent}
    (hseed : ∀ version, .seed "/" version ∉ events) : "/" ∉ (c.run events).tree := by
  refine run_induction (P := fun c => "/" ∉ c.tree) h fun c event hevent hroot => ?_
  apply root_not_mem_after hroot
  rintro version rfl
  exact hseed version hevent

/-! ## Where the calls agree -/

/-- What the calls tell of the paths after a history. -/
structure AgreesBelow (events : List ServiceEvent) : Prop where
  /-- Below the root they agree. -/
  below : ∀ path, path ≠ "/" → (fresh.run events).TellsAlike path
  /-- At the root they agree exactly if a node is stored there. -/
  root : (fresh.run events).TellsAlike "/" ↔ "/" ∈ (fresh.run events).tree
  /-- Only by seeding it comes to be stored there. -/
  unseeded : (∀ version, .seed "/" version ∉ events) → "/" ∉ (fresh.run events).tree

/-- **The calls agree on which nodes there are, except for the root.** -/
theorem agrees_below {events : List ServiceEvent} (hup : (fresh.run events).connected = true) :
    AgreesBelow events where
  below _ hpath := (tellsAlike_iff hup).mpr (.inl hpath)
  root := (tellsAlike_iff hup).trans ⟨fun h => h.resolve_left fun hne => hne rfl, .inr⟩
  unseeded := root_not_mem_run Std.ExtTreeMap.not_mem_empty

/-- A node is created with its ancestors. -/
def branchCalls : List ServiceEvent := [.call (.connect 1000 1000), .call (.create "/a/b" [] .persistent)]

/-- The calls agree on the nodes created and disagree on the root. -/
theorem agrees_below_branch :
    (fresh.run branchCalls).connected = true ∧ AgreesBelow branchCalls
      ∧ (fresh.run branchCalls).TellsAlike "/a" ∧ ¬ (fresh.run branchCalls).TellsAlike "/" := by
  have h : AgreesBelow branchCalls := agrees_below rfl
  refine ⟨rfl, h, h.below "/a" (by decide), ?_⟩
  rw [h.root]
  exact h.unseeded (by simp [branchCalls])

/-- Of the root a service that has just been connected to tells that it has children and is there
already, but has no stat and cannot be written to. -/
theorem not_tellsAlike_connected :
    (fresh.run [.call (.connect 1000 1000)]).connected = true ∧ Path.check "/" = .ok ()
      ∧ ((fresh.run [.call (.connect 1000 1000)]).perform (.lookUp "/")).1 = .ok none
      ∧ ((fresh.run [.call (.connect 1000 1000)]).perform (.children "/")).1 = .ok []
      ∧ ((fresh.run [.call (.connect 1000 1000)]).perform (.create "/" [] .persistent)).1
        = .error (.nodeExists "/")
      ∧ ((fresh.run [.call (.connect 1000 1000)]).perform (.setData "/" [] anyVersion)).1
        = .error (.noNode "/") := by
  exact ⟨rfl, rfl, rfl, rfl, rfl, rfl⟩

end Coordinator

end IdMint.Coordination
