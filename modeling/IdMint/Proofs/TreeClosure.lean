import IdMint.Proofs.NodeBranches

/-! # Nodes without a parent

Creating a node creates its ancestors, and deleting one deletes what is below it, so the calls keep the
parents of the nodes. The end of a session does not: it takes the ephemeral nodes and leaves what is
below them. Nothing else breaks the tree. -/

namespace IdMint.Coordination

namespace NodeTree

/-- Every stored path is valid and not the root's. -/
def Proper (tree : NodeTree) : Prop := ∀ path ∈ tree, Path.check path = .ok () ∧ path ≠ "/"

/-- The parent of every stored path is the root or stored as well. -/
def Closed (tree : NodeTree) : Prop :=
  ∀ path ∈ tree, ∃ up, Path.parent? path = some up ∧ tree.hasNode up = true

/-- A persistent node lies right below an ephemeral one. -/
def Strands (tree : NodeTree) : Prop :=
  ∃ path node up parent, tree[path]? = some node ∧ node.mode = .persistent
    ∧ Path.parent? path = some up ∧ tree[up]? = some parent ∧ parent.mode = .ephemeral

variable {tree : NodeTree} {path : String}

/-- The root is always there. -/
theorem ne_root_of_hasNode (h : tree.hasNode path = false) : path ≠ "/" := by
  rintro rfl
  cases h

/-! ## Creating and deleting -/

theorem Proper.create (h : tree.Proper) (hpath : Path.check path = .ok ()) (hroot : path ≠ "/")
    (data : List UInt8) (mode : NodeMode) : (tree.create path data mode).Proper := by
  intro other hother
  rw [mem_create, List.mem_cons, or_assoc] at hother
  obtain rfl | hancestor | hmem := hother
  · exact ⟨hpath, hroot⟩
  · exact Path.check_of_mem_ancestors hpath hancestor
  · exact h other hmem

/-- Creating a node creates its ancestors. -/
theorem Closed.create (h : tree.Closed) (hpath : Path.check path = .ok ()) (hroot : path ≠ "/")
    (data : List UInt8) (mode : NodeMode) : (tree.create path data mode).Closed := by
  intro other hother
  rcases mem_create.mp hother with hnew | hmem
  · have hvalid : Path.check other = .ok () ∧ other ≠ "/" := by
      rcases List.mem_cons.mp hnew with rfl | hancestor
      · exact ⟨hpath, hroot⟩
      · exact Path.check_of_mem_ancestors hpath hancestor
    obtain ⟨up, hup, -⟩ := Path.exists_parent? hvalid.1 hvalid.2
    refine ⟨up, hup, hasNode_iff.mpr ?_⟩
    apply (Path.mem_ancestors_of_parent? hnew hup).imp_right
    intro hancestor
    exact mem_create.mpr (.inl (List.mem_cons_of_mem path hancestor))
  · obtain ⟨up, hup, hthere⟩ := h other hmem
    exact ⟨up, hup, hasNode_create hthere path data mode⟩

theorem Proper.delete (h : tree.Proper) (path : String) : (tree.delete path).Proper :=
  fun other hother => h other (mem_delete.mp hother).2.2

/-- Deleting a node deletes what is below it. -/
theorem Closed.delete (h : tree.Closed) (path : String) : (tree.delete path).Closed := by
  intro other hother
  obtain ⟨hne, habove, hmem⟩ := mem_delete.mp hother
  obtain ⟨up, hup, hthere⟩ := h other hmem
  refine ⟨up, hup, ?_⟩
  rw [hasNode_iff] at hthere ⊢
  rcases hthere with hroot | hstored
  · exact .inl hroot
  by_cases hroot : up = "/"
  · exact .inl hroot
  -- were the parent gone, its child would be gone as well
  refine .inr (mem_delete.mpr ⟨?_, ?_, hstored⟩)
  · rintro rfl
    rw [Path.isBelow_parent? hup] at habove
    cases habove
  · rw [Bool.eq_false_iff]
    intro hbelow
    rw [Path.isBelow_of_isBelow_parent? hup hbelow] at habove
    cases habove

/-! ## Writing -/

/-- A write adds no path. -/
theorem mem_insert_of_mem (hmem : path ∈ tree) (node : Node) {other : String} :
    other ∈ tree.insert path node ↔ other ∈ tree := by
  rw [mem_iff_exists, mem_iff_exists, getElem?_insert]
  by_cases hpath : path = other
  · subst hpath
    rw [if_pos rfl]
    exact ⟨fun _ => mem_iff_exists.mp hmem, fun _ => ⟨node, rfl⟩⟩
  · rw [if_neg hpath]

theorem Proper.insert (h : tree.Proper) (hmem : path ∈ tree) (node : Node) :
    Proper (tree.insert path node) :=
  fun other hother => h other ((mem_insert_of_mem hmem node).mp hother)

theorem Closed.insert (h : tree.Closed) (hmem : path ∈ tree) (node : Node) :
    Closed (tree.insert path node) := by
  intro other hother
  obtain ⟨up, hup, hthere⟩ := h other ((mem_insert_of_mem hmem node).mp hother)
  exact ⟨up, hup, hasNode_insert hthere path node⟩

/-! ## The end of a session -/

theorem Proper.endSession (h : tree.Proper) : tree.endSession.Proper := by
  intro path hpath
  obtain ⟨node, hnode, -⟩ := mem_endSession.mp hpath
  exact h path (mem_iff_exists.mpr ⟨node, hnode⟩)

/-- The end of a session takes the parent of a node that stays exactly if it strands a node. -/
theorem Closed.endSession_iff (h : tree.Closed) (hproper : tree.Proper) :
    tree.endSession.Closed ↔ ¬ tree.Strands := by
  constructor
  · rintro hclosed ⟨path, node, up, parent, hnode, hmode, hup, hparent, hgone⟩
    obtain ⟨up', hup', hthere⟩ := hclosed path (mem_endSession.mpr ⟨node, hnode, hmode⟩)
    obtain rfl : up' = up := Option.some.inj (hup'.symm.trans hup)
    -- a parent that stays is not the ephemeral one
    rcases hasNode_iff.mp hthere with rfl | hstays
    · exact (hproper "/" (mem_iff_exists.mpr ⟨parent, hparent⟩)).2 rfl
    · obtain ⟨parent', hparent', hstays⟩ := mem_endSession.mp hstays
      rw [hparent] at hparent'
      cases hparent'
      rw [hgone] at hstays
      cases hstays
  · intro hnot path hpath
    obtain ⟨node, hnode, hmode⟩ := mem_endSession.mp hpath
    obtain ⟨up, hup, hthere⟩ := h path (mem_iff_exists.mpr ⟨node, hnode⟩)
    refine ⟨up, hup, hasNode_iff.mpr ((hasNode_iff.mp hthere).imp_right ?_)⟩
    intro hstored
    obtain ⟨parent, hparent⟩ := mem_iff_exists.mp hstored
    refine mem_endSession.mpr ⟨parent, hparent, ?_⟩
    cases hgone : parent.mode with
    | persistent => rfl
    | ephemeral =>
      -- the parent would go, and the node is stranded
      exact absurd ⟨path, node, up, parent, hnode, hmode, hup, hparent, hgone⟩ hnot

/-! ## One path and what is above it -/

/-- A node at the path comes with one at the other path, which is above it. -/
def Attached (tree : NodeTree) (path up : String) : Prop := path ∈ tree → up ∈ tree

variable {up : String}

theorem Attached.create {created : String} (h : tree.Attached path up)
    (hup : up ∈ Path.ancestors path) (data : List UInt8) (mode : NodeMode) :
    (tree.create created data mode).Attached path up := by
  intro hmem
  rw [mem_create] at hmem ⊢
  obtain hnew | hmem := hmem
  · exact .inl (List.mem_cons_of_mem created (Path.mem_ancestors_of_mem hup hnew))
  · exact .inr (h hmem)

/-- With an ancestor its descendants are deleted. -/
theorem Attached.delete (h : tree.Attached path up) (hup : up ∈ Path.ancestors path)
    (deleted : String) : (tree.delete deleted).Attached path up := by
  intro hmem
  obtain ⟨-, hbelow, hmem⟩ := mem_delete.mp hmem
  have habove := (Path.mem_ancestors_iff.mp hup).1
  refine mem_delete.mpr ⟨?_, ?_, h hmem⟩
  · rintro rfl
    rw [habove.isBelow] at hbelow
    cases hbelow
  · rw [Bool.eq_false_iff]
    intro hunder
    rw [habove.isBelow_trans hunder] at hbelow
    cases hbelow

theorem Attached.insert {written : String} (h : tree.Attached path up) (hmem : written ∈ tree)
    (node : Node) : Attached (tree.insert written node) path up := fun hpath =>
  (mem_insert_of_mem hmem node).mpr (h ((mem_insert_of_mem hmem node).mp hpath))

/-- Creating a node never stores the root, which is there anyway. -/
theorem root_mem_create {created : String} (habsent : tree.hasNode created = false)
    (data : List UInt8) (mode : NodeMode) : "/" ∈ tree.create created data mode ↔ "/" ∈ tree := by
  rw [mem_create, List.mem_cons, or_assoc, or_iff_right (ne_root_of_hasNode habsent).symm]
  exact or_iff_right fun hancestor => (Path.mem_ancestors_iff.mp hancestor).2 rfl

end NodeTree

/-! ## Histories of calls -/

/-- The path in a call. -/
def Request.path? : Request β → Option String
  | .connect .. | .close => none
  | .lookUp path | .create path _ _ | .setData path _ _ | .delete path | .children path => some path

namespace ServiceEvent

/-- The event is a call, and a path in it is valid. -/
def ValidCall : ServiceEvent → Prop
  | .seed _ _ => False
  | .call request => ∀ path, request.path? = some path → Path.check path = .ok ()

/-- The event is the call that ends the session. -/
def EndsSession : ServiceEvent → Prop
  | .seed _ _ => False
  | .call request => request.kind = .close

end ServiceEvent

namespace Coordinator

/-- A valid call leaves valid paths only. -/
theorem proper_after {c : Coordinator} (h : c.tree.Proper) {event : ServiceEvent}
    (hvalid : event.ValidCall) : (c.after event).tree.Proper := by
  cases event with
  | seed path version => exact hvalid.elim
  | call request =>
    refine tree_perform (P := NodeTree.Proper) c request fun _ tree halters => ?_
    cases halters with
    | same => exact h
    | ended => exact h.endSession
    | created data mode habsent =>
      exact h.create (hvalid _ rfl) (NodeTree.ne_root_of_hasNode habsent) data mode
    | wrote data hnode hversion => exact h.insert (NodeTree.mem_iff_exists.mpr ⟨_, hnode⟩) _
    | deleted hmem => exact h.delete _

/-- A valid call breaks a tree exactly if it ends the session and strands a node. -/
theorem closed_after_iff {c : Coordinator} (hproper : c.tree.Proper) (h : c.tree.Closed)
    {event : ServiceEvent} (hvalid : event.ValidCall) :
    (c.after event).tree.Closed ↔ (event.EndsSession → ¬ c.tree.Strands) := by
  cases event with
  | seed path version => exact hvalid.elim
  | call request =>
    refine tree_perform (P := fun tree => tree.Closed ↔ (request.kind = .close → ¬ c.tree.Strands))
      c request fun _ tree halters => ?_
    have hlives (hclose : request.kind ≠ .close) (hclosed : tree.Closed) :
        tree.Closed ↔ (request.kind = .close → ¬ c.tree.Strands) :=
      ⟨fun _ hends => absurd hends hclose, fun _ => hclosed⟩
    cases halters with
    | same hclose hwritten => exact hlives hclose h
    | ended => exact (h.endSession_iff hproper).trans ⟨fun hnot _ => hnot, fun hnot => hnot rfl⟩
    | created data mode habsent =>
      have hroot := NodeTree.ne_root_of_hasNode habsent
      exact hlives (by rintro ⟨⟩) (h.create (hvalid _ rfl) hroot data mode)
    | wrote data hnode hversion =>
      exact hlives (by rintro ⟨⟩) (h.insert (NodeTree.mem_iff_exists.mpr ⟨_, hnode⟩) _)
    | deleted hmem => exact hlives (by rintro ⟨⟩) (h.delete _)

/-- Calls other than the one that ends the session leave a path attached to what is above it. -/
theorem attached_perform {c : Coordinator} {path up : String} (h : c.tree.Attached path up)
    (hup : up ∈ Path.ancestors path) {request : Request β} (hclose : request.kind ≠ .close) :
    (c.perform request).2.tree.Attached path up := by
  refine tree_perform (P := fun tree => tree.Attached path up) c request fun _ tree halters => ?_
  cases halters with
  | same => exact h
  | ended => exact absurd rfl hclose
  | created data mode habsent => exact h.create hup data mode
  | wrote data hnode hversion => exact h.insert (NodeTree.mem_iff_exists.mpr ⟨_, hnode⟩) _
  | deleted => exact h.delete hup _

/-- A history of valid calls leaves valid paths only. -/
theorem proper_run {c : Coordinator} (h : c.tree.Proper) {events : List ServiceEvent}
    (hvalid : ∀ event ∈ events, event.ValidCall) : (c.run events).tree.Proper := by
  exact run_induction (P := fun c => c.tree.Proper) h fun c event hevent hproper =>
    proper_after hproper (hvalid event hevent)

/-- A history of valid calls keeps the parents of the nodes all along exactly if it never ends the
session while a persistent node lies right below an ephemeral one. -/
theorem closed_all_along_iff {c : Coordinator} (hproper : c.tree.Proper) (h : c.tree.Closed)
    {events : List ServiceEvent} (hvalid : ∀ event ∈ events, event.ValidCall) :
    (∀ past since, events = past ++ since → (c.run past).tree.Closed)
      ↔ ∀ step ∈ c.steps events, step.event.EndsSession → ¬ step.before.tree.Strands := by
  induction events generalizing c with
  | nil => simp [h]
  | cons event events ih =>
    obtain ⟨hfirst, hrest⟩ := List.forall_mem_cons.mp hvalid
    rw [steps_cons, List.forall_mem_cons, ← closed_after_iff hproper h hfirst]
    constructor
    · intro hall
      have hafter : (c.after event).tree.Closed := hall [event] events rfl
      refine ⟨hafter, (ih (proper_after hproper hfirst) hafter hrest).mp ?_⟩
      rintro past since rfl
      exact hall (event :: past) since rfl
    · rintro ⟨hafter, hsteps⟩ past since hevents
      cases past with
      | nil => exact h
      | cons first past =>
        obtain ⟨rfl, rfl⟩ := List.cons.inj hevents
        exact (ih (proper_after hproper hfirst) hafter hrest).mpr hsteps past since rfl

/-- **Only the end of a session leaves nodes without a parent.** Valid calls to a fresh service leave
valid paths below the root; and the parent of every stored path is stored all along, or is the root,
exactly if the session is never ended while a persistent node lies right below an ephemeral one. -/
theorem closed_run_iff {events : List ServiceEvent} (hvalid : ∀ event ∈ events, event.ValidCall) :
    (fresh.run events).tree.Proper
      ∧ ((∀ past since, events = past ++ since → (fresh.run past).tree.Closed)
        ↔ ∀ step ∈ fresh.steps events, step.event.EndsSession → ¬ step.before.tree.Strands) := by
  have hnone (path : String) : path ∉ fresh.tree := Std.ExtTreeMap.not_mem_empty
  have hproper : fresh.tree.Proper := fun path hpath => absurd hpath (hnone path)
  have hclosed : fresh.tree.Closed := fun path hpath => absurd hpath (hnone path)
  exact ⟨proper_run hproper hvalid, closed_all_along_iff hproper hclosed hvalid⟩

/-- A persistent node is created below an ephemeral one, and the session is ended. -/
def strandingCalls : List ServiceEvent :=
  [.call (.connect 1000 1000), .call (.create "/a" [] .ephemeral),
    .call (.create "/a/b" [] .persistent), .call .close]

theorem validCall_of_mem_strandingCalls : ∀ event ∈ strandingCalls, event.ValidCall := by
  simp only [strandingCalls, List.forall_mem_cons, List.not_mem_nil]
  refine ⟨nofun, ?_, ?_, nofun, nofun⟩
  · rintro _ ⟨⟩
    rfl
  · rintro _ ⟨⟩
    rfl

/-- The calls that end a session over a stranded node. -/
theorem closed_run_iff_stranding :
    (∀ event ∈ strandingCalls, event.ValidCall)
      ∧ (fresh.run strandingCalls).tree.Proper
      ∧ ((∀ past since, strandingCalls = past ++ since → (fresh.run past).tree.Closed)
        ↔ ∀ step ∈ fresh.steps strandingCalls,
          step.event.EndsSession → ¬ step.before.tree.Strands) :=
  ⟨validCall_of_mem_strandingCalls, closed_run_iff validCall_of_mem_strandingCalls⟩

/-- After these calls a node is stored whose parent is neither the root nor stored. -/
theorem not_closed_run_stranding :
    (∀ event ∈ strandingCalls, event.ValidCall)
      ∧ "/a/b" ∈ (fresh.run strandingCalls).tree
      ∧ Path.parent? "/a/b" = some "/a" ∧ "/a" ≠ "/"
      ∧ "/a" ∉ (fresh.run strandingCalls).tree := by
  refine ⟨validCall_of_mem_strandingCalls, ?_, rfl, by decide, ?_⟩
  · decide +kernel
  · decide +kernel

end Coordinator

end IdMint.Coordination
