import IdMint.Proofs.FreshSequences
import IdMint.Proofs.RetryTransparency
import IdMint.Proofs.TreeClosure

/-! # Keys that do not meet

The numbers of a key depend on nothing of the service but on the version of the key's node, and calls
for other keys leave that version alone, where a node that is absent counts as one of version zero: a
call may create the node of another key, as an ancestor of its own, and who only asks for numbers cannot
tell. So two runs that differ by calls for one key issue the same numbers for every other one, unless
someone tells an absent node from a new one: by a direct write that goes by no version or by version zero,
or by a deletion above a node that stands without the node to be deleted. -/

namespace IdMint.Coordination

open Batch

/-! ## Programs that leave a version alone -/

/-- The call is none that changes the version at the path: it does not end the session, deletes nothing,
and does not write to the node. -/
def Request.KeepsVersion (path : String) : Request β → Prop
  | .connect .. | .lookUp _ | .create .. | .children _ => True
  | .close | .delete _ => False
  | .setData other _ _ => other ≠ path

/-- A call that writes to another node is none that changes the version. -/
theorem Request.WritesOnly.keepsVersion {node path : String} {request : Request β}
    (h : request.WritesOnly node) (hne : node ≠ path) : request.KeepsVersion path := by
  cases request with
  | connect | close | delete | children => exact h.elim
  | lookUp | create => trivial
  | setData other data version =>
    obtain rfl : other = node := h
    exact hne

/-- Where a call does not change the version at a path, it stays. A node that a call creates counts as
it did while it was absent. -/
theorem Request.KeepsVersion.versionAt_perform {path : String} {request : Request β}
    (h : request.KeepsVersion path) (c : Coordinator) :
    (c.perform request).2.versionAt path = c.versionAt path := by
  refine Coordinator.tree_perform (P := fun tree => tree.versionAt path = c.tree.versionAt path) c request
    fun _ tree halters => ?_
  cases halters with
  | same => rfl
  | ended | deleted => exact h.elim
  | created data mode habsent => exact NodeTree.versionAt_create habsent data mode path
  | wrote => rw [NodeTree.versionAt_insert, if_neg h]

theorem Request.KeepsVersion.kind_ne {path : String} {request : Request β}
    (h : request.KeepsVersion path) : request.kind ≠ .close ∧ request.kind ≠ .delete := by
  cases request with
  | close | delete => exact h.elim
  | connect | lookUp | create | setData | children => exact ⟨nofun, nofun⟩

namespace Coordinator

/-- A node is stored at the root. -/
def storesRoot (c : Coordinator) : Bool := c.tree.contains "/"

theorem storesRoot_eq_of_iff {c c' : Coordinator} (h : "/" ∈ c'.tree ↔ "/" ∈ c.tree) :
    c'.storesRoot = c.storesRoot := by
  rw [Bool.eq_iff_iff]
  exact Std.ExtTreeMap.contains_iff_mem.trans (h.trans Std.ExtTreeMap.contains_iff_mem.symm)

/-- Without a deletion the root is stored as before. -/
theorem storesRoot_perform {request : Request β} (hclose : request.kind ≠ .close)
    (hdelete : request.kind ≠ .delete) (c : Coordinator) :
    (c.perform request).2.storesRoot = c.storesRoot := by
  refine storesRoot_eq_of_iff (tree_perform (P := fun tree => "/" ∈ tree ↔ "/" ∈ c.tree) c request
    fun _ tree halters => ?_)
  cases halters with
  | same => exact Iff.rfl
  | ended => exact absurd rfl hclose
  | created data mode habsent => exact NodeTree.root_mem_create habsent data mode
  | wrote data hnode => exact NodeTree.mem_insert_of_mem (NodeTree.mem_iff_exists.mpr ⟨_, hnode⟩) _
  | deleted => exact absurd rfl hdelete

end Coordinator

namespace Program

/-- The program works on nodes only, and none of its calls changes the version at the path. -/
def KeepsVersion (path : String) : Program α → Prop
  | finish _ => True
  | observe next => ∀ phase, (next phase).KeepsVersion path
  | persist _ request next =>
    request.KeepsVersion path ∧ ∀ outcome, Plain outcome → (next outcome).KeepsVersion path
  | exchange .. | assign .. | call .. | pause .. | arm .. | disarm _ => False

variable {path : String}

theorem KeepsVersion.bind {p : Program α} {f : α → Program β} (h : p.KeepsVersion path)
    (hf : ∀ result, (f result).KeepsVersion path) : (p.bind f).KeepsVersion path := by
  induction p with
  | finish result => exact hf result
  | observe next ih => exact fun phase => ih phase (h phase)
  | persist gate request next ih => exact ⟨h.1, fun outcome hplain => ih outcome (h.2 outcome hplain)⟩
  | exchange | assign | call | pause | arm | disarm => exact h.elim

/-- A program that writes to another node leaves the version alone. -/
theorem Draws.keepsVersion {node : String} {post : List String → α → Prop} {p : Program α}
    {issued : List String} (h : p.Draws node post issued) (hne : node ≠ path) :
    p.KeepsVersion path := by
  induction p generalizing issued with
  | finish result => trivial
  | observe next ih => exact fun phase => ih phase (h phase)
  | persist gate request next ih =>
    exact ⟨h.1.keepsVersion hne, fun outcome hplain => ih outcome (h.2 outcome hplain)⟩
  | exchange | assign | call | pause | arm | disarm => exact h.elim

/-- A call that is settled hands out nothing where it failed. -/
theorem plain_of_settled? {reply : Except Fault β} {outcome : Outcome β}
    (h : Fault.settled? reply = some outcome) : Plain outcome := by
  cases reply with
  | ok value =>
    cases h
    exact plain_ok value
  | error fault =>
    rw [Fault.settled?] at h
    split at h <;> cases h
    exact plain_error rfl

/-- What every call of a program keeps that is none to change the version, the program keeps. -/
theorem Comes.induction_on_calls {P : Coordinator → Prop}
    (hkeeps : ∀ {β : Type} (request : Request β) (c : Coordinator), request.KeepsVersion path → P c →
      P (c.perform request).2)
    {p : Program α} {phase phase' : Phase} {c c' : Coordinator} {calls : Nat} {result : α}
    (h : p.Comes phase c calls result phase' c') (hp : p.KeepsVersion path) (hc : P c) : P c' := by
  induction h with
  | finish => exact hc
  | observe _ ih => exact ih (hp _) hc
  | persist hsettled _ ih => exact ih (hp.2 _ (plain_of_settled? hsettled)) (hkeeps _ _ hp.1 hc)
  | won | lost | assign | call | arm | disarm => exact hp.elim

section Comes

variable {p : Program α} {phase phase' : Phase} {c c' : Coordinator} {calls : Nat} {result : α}

theorem Comes.versionAt_eq (h : p.Comes phase c calls result phase' c') (hp : p.KeepsVersion path) :
    c'.versionAt path = c.versionAt path :=
  h.induction_on_calls (P := fun c' => c'.versionAt path = c.versionAt path)
    (fun _ c' hrequest hc => (hrequest.versionAt_perform c').trans hc) hp rfl

theorem Comes.storesRoot_eq (h : p.Comes phase c calls result phase' c') (hp : p.KeepsVersion path) :
    c'.storesRoot = c.storesRoot :=
  h.induction_on_calls (P := fun c' => c'.storesRoot = c.storesRoot)
    (fun _ c' hrequest hc =>
      (Coordinator.storesRoot_perform hrequest.kind_ne.1 hrequest.kind_ne.2 c').trans hc) hp rfl

theorem Comes.attached {other up : String} (h : p.Comes phase c calls result phase' c')
    (hp : p.KeepsVersion path) (hup : up ∈ Path.ancestors other) (hc : c.tree.Attached other up) :
    c'.tree.Attached other up :=
  h.induction_on_calls (P := fun c => c.tree.Attached other up)
    (fun _ _ hrequest hc => Coordinator.attached_perform hc hup hrequest.kind_ne.1) hp hc

end Comes

/-- What a program comes to at one go it comes to call by call. -/
theorem exists_comes_of_direct? {p : Program α} {phase phase' : Phase} {c c' : Coordinator} {result : α}
    (h : p.direct? phase c = some (result, phase', c')) :
    ∃ calls, p.Comes phase c calls result phase' c' := by
  induction p generalizing phase c with
  | finish own =>
    cases h
    exact ⟨0, .finish _ _ _⟩
  | observe next ih =>
    obtain ⟨calls, hrest⟩ := ih phase h
    exact ⟨calls, .observe hrest⟩
  | exchange expected new next ih =>
    rw [direct?] at h
    by_cases hphase : phase = expected
    · rw [if_pos hphase] at h
      obtain ⟨calls, hrest⟩ := ih true h
      subst hphase
      exact ⟨calls, .won hrest⟩
    · rw [if_neg hphase] at h
      obtain ⟨calls, hrest⟩ := ih false h
      exact ⟨calls, .lost hphase hrest⟩
  | assign new next ih =>
    obtain ⟨calls, hrest⟩ := ih h
    exact ⟨calls, .assign hrest⟩
  | persist gate request next ih =>
    obtain ⟨-, outcome, hsettled, hnext⟩ := direct?_persist_eq_some_iff.mp h
    obtain ⟨calls, hrest⟩ := ih outcome hnext
    exact ⟨calls + 1, .persist hsettled hrest⟩
  | call | pause | arm => cases h
  | disarm next ih =>
    obtain ⟨calls, hrest⟩ := ih h
    exact ⟨calls, .disarm hrest⟩

/-- Work on nodes in a started session comes to a result, and leaves the session as it is. -/
theorem WorksInOrder.exists_comes {p : Program α} (h : p.WorksInOrder) {c : Coordinator}
    (hconnected : c.connected = true) :
    ∃ calls result c', p.Comes .started c calls result .started c' ∧ c'.connected = true := by
  obtain ⟨result, c', hdirect, hstays⟩ :=
    (h ⟨.started, false, false, true⟩ rfl).exists_direct? rfl fun _ => hconnected
  obtain ⟨calls, hcomes⟩ := exists_comes_of_direct? hdirect
  exact ⟨calls, result, c', hcomes, hstays hconnected⟩

end Program

/-! ## Node operations -/

namespace Session

theorem keepsVersion_onNode {path : String} {request : Request β} (h : request.KeepsVersion path)
    (operation : Operation) (node : String) :
    (onNode operation node request).run.KeepsVersion path := by
  rw [run_onNode]
  intro phase
  dsimp only
  by_cases hphase : phase = .started
  · rw [if_pos hphase]
    cases Path.check node with
    | error fault => trivial
    | ok => exact ⟨h, fun _ _ => trivial⟩
  · rw [if_neg hphase]
    trivial

theorem keepsVersion_pathExists (path node : String) : (pathExists node).run.KeepsVersion path := by
  have hlookUp : (Request.lookUp node).KeepsVersion path := trivial
  rw [run_pathExists]
  exact (keepsVersion_onNode hlookUp .readNode node).bind fun _ => trivial

theorem keepsVersion_ensurePath (path node : String) : (ensurePath node).run.KeepsVersion path := by
  have hcreate : (Request.create node [] .persistent).KeepsVersion path := trivial
  rw [run_ensurePath]
  refine (keepsVersion_pathExists path node).bind ?_
  rintro (cause | found)
  · trivial
  · cases found with
    | true => trivial
    | false => exact (keepsVersion_onNode hcreate .createNode node).bind fun _ => trivial

theorem keepsVersion_childPaths (path node : String) : (childPaths node).run.KeepsVersion path := by
  have hchildren : (Request.children node).KeepsVersion path := trivial
  rw [run_childPaths]
  exact (keepsVersion_onNode hchildren .listChildren node).bind fun _ => trivial

end Session

namespace Coordinator

/-- Nothing is deleted where there is no node. -/
theorem perform_delete_of_not_mem {c : Coordinator} {path : String} (h : path ∉ c.tree) :
    (c.perform (.delete path)).2 = c := by
  have hgap : ¬ c.tree.contains path = true := mt Std.ExtTreeMap.contains_iff_mem.mp h
  rw [perform]
  split <;> rfl

theorem tree_perform_delete {c : Coordinator} (hconnected : c.connected = true) {path : String}
    (h : path ∈ c.tree) : (c.perform (.delete path)).2.tree = c.tree.delete path := by
  rw [perform, if_neg (by simp [hconnected]), if_pos (Std.ExtTreeMap.contains_iff_mem.mpr h)]

/-- A deletion leaves no node at a path that it covers, even if it fails because there is nothing to
delete; only one of the root has to find it stored. -/
theorem versionAt_delete {c : Coordinator} (hconnected : c.connected = true) {other path : String}
    (hsome : other ≠ "") (hattached : other ∈ Path.ancestors path → c.tree.Attached path other) :
    (c.perform (.delete other)).2.versionAt path
      = if (other = path ∨ Path.isBelow other path = true) ∧ (other = "/" → c.storesRoot = true) then 0
        else c.versionAt path := by
  by_cases hmem : other ∈ c.tree
  · have hroot : other = "/" → c.storesRoot = true := by
      rintro rfl
      exact Std.ExtTreeMap.contains_iff_mem.mpr hmem
    simp only [versionAt, tree_perform_delete hconnected hmem, NodeTree.versionAt,
      NodeTree.getElem?_delete, and_iff_left hroot]
    by_cases hcovers : other = path ∨ Path.isBelow other path = true
    · rw [if_pos hcovers, if_pos hcovers]
    · rw [if_neg hcovers, if_neg hcovers]
  · rw [perform_delete_of_not_mem hmem]
    split
    · rename_i hcovered
      obtain ⟨hcovers, hroot⟩ := hcovered
      refine NodeTree.versionAt_of_not_mem fun hpath => hmem ?_
      by_cases hsame : other = path
      · exact hsame ▸ hpath
      by_cases hancestor : other ∈ Path.ancestors path
      · exact hattached hancestor hpath
      -- it is the root that the path lies below
      obtain rfl : other = "/" :=
        Path.eq_root_of_isBelow hsome (hcovers.resolve_left hsame) hsame hancestor
      exact Std.ExtTreeMap.contains_iff_mem.mp (hroot rfl)
    · rfl

/-- Nothing is above the root, so only its own deletion deletes it. -/
theorem storesRoot_delete {c : Coordinator} (hconnected : c.connected = true) {other : String}
    (hsome : other ≠ "") :
    (c.perform (.delete other)).2.storesRoot = (c.storesRoot && decide (other ≠ "/")) := by
  by_cases hmem : other ∈ c.tree
  · have hbelow : other ≠ "/" → Path.isBelow other "/" = false := fun hne =>
      Bool.eq_false_iff.mpr fun hbelow => Path.not_above_of_parent? rfl
        (Path.above_of_isBelow hsome hbelow hne.symm)
    rw [storesRoot, tree_perform_delete hconnected hmem, Bool.eq_iff_iff, Bool.and_eq_true,
      decide_eq_true_eq, storesRoot, Std.ExtTreeMap.contains_iff_mem, Std.ExtTreeMap.contains_iff_mem,
      NodeTree.mem_delete]
    exact ⟨fun h => ⟨h.2.2, h.1⟩, fun h => ⟨h.2, hbelow h.2, h.1⟩⟩
  · rw [perform_delete_of_not_mem hmem]
    by_cases hroot : other = "/"
    · have hnone : c.storesRoot = false :=
        Bool.eq_false_iff.mpr fun h => hmem (hroot ▸ Std.ExtTreeMap.contains_iff_mem.mp h)
      rw [hnone, Bool.false_and]
    · rw [decide_eq_true hroot, Bool.and_true]

/-- A write that goes by a version other than zero goes by the version at the path, where a node that is
absent has version zero. -/
theorem versionAt_setData_named {c : Coordinator} (hconnected : c.connected = true)
    {version : Int32} (hnamed : version ≠ anyVersion ∧ version ≠ 0) (path : String)
    (data : List UInt8) :
    (c.perform (.setData path data version)).2.versionAt path
      = if c.versionAt path = version then version + 1 else c.versionAt path := by
  have hup : ¬ (!c.connected) = true := by simp [hconnected]
  cases hnode : c.tree[path]? with
  | none =>
    have hversion : c.versionAt path = 0 := by
      rw [versionAt, NodeTree.versionAt, hnode]
    have hwrite : write c.tree path data version = .error (.noNode path) := by simp [write, hnode]
    rw [perform, if_neg hup, hwrite, if_neg (hversion ▸ hnamed.2.symm)]
  | some node =>
    have hversion : c.versionAt path = node.version := by
      rw [versionAt, NodeTree.versionAt, hnode]
    by_cases hsame : version = node.version
    · rw [perform_setData_of_version hconnected hnode (.inr hsame), versionAt,
        NodeTree.versionAt_insert, if_pos rfl, if_pos (hversion.trans hsame.symm), hsame]
    · have hwrite : write c.tree path data version = .error (.badVersion path) := by
        simp [write, hnode, hnamed.1, hsame]
      rw [perform, if_neg hup, hwrite, if_neg (hversion ▸ Ne.symm hsame)]

end Coordinator

namespace SessionCall

open Session

/-- The call does not tell whether a call for a longer key has made the node at the path or one above it.
So it does not write to the node, except by a version that a new node does not have; and it deletes no
node above it that was missing in the tree to begin with, while the node was there. -/
def Spares (path : String) (tree : NodeTree) : SessionCall β → Prop
  | setData other _ version => other = path → version ≠ anyVersion ∧ version ≠ 0
  | deletePath other => other ∈ Path.ancestors path → tree.Attached path other
  | _ => True

/-- The version at the path after the call in a started session, if it was `version` before and the root
was stored or not: a deletion that covers the path leaves version zero, and a write that goes by the
version adds one. -/
def versionAfter (path : String) (root : Bool) (version : Int32) : SessionCall β → Int32
  | setData other _ named =>
    if other = path ∧ version = named then
      match Path.check other with
      | .ok () => named + 1
      | .error _ => version
    else version
  | deletePath other =>
    if (other = path ∨ Path.isBelow other path = true) ∧ (other = "/" → root = true) then
      match Path.check other with
      | .ok () => 0
      | .error _ => version
    else version
  | _ => version

/-- Whether the root is stored after the call. -/
def rootAfter (root : Bool) : SessionCall β → Bool
  | deletePath other => root && decide (other ≠ "/")
  | _ => root

/-- What is left of a service after the call, as far as numbers for a node at the path may go by it. -/
structure Leaves (path : String) (call : SessionCall β) (c c' : Coordinator) : Prop where
  connected : c'.connected = true
  versionAt_eq : c'.versionAt path = call.versionAfter path c.storesRoot (c.versionAt path)
  storesRoot_eq : c'.storesRoot = call.rootAfter c.storesRoot
  attached : ∀ up ∈ Path.ancestors path, c.tree.Attached path up → c'.tree.Attached path up

variable {path : String} {c : Coordinator}

/-- The call works on nodes, and none of its requests changes the version at the path. -/
def KeepsVersion (path : String) : SessionCall β → Prop
  | start _ | close | deletePath _ => False
  | setData other _ _ => other ≠ path
  | _ => True

theorem KeepsVersion.program {call : SessionCall β} (h : call.KeepsVersion path) (s : Session) :
    (call.program s).KeepsVersion path := by
  cases call with
  | start | close | deletePath => exact h.elim
  | nodeStat node =>
    have hlookUp : (Request.lookUp node).KeepsVersion path := trivial
    exact keepsVersion_onNode hlookUp .readNode node
  | pathExists node => exact keepsVersion_pathExists path node
  | createPath node data mode =>
    have hcreate : (Request.create node data mode).KeepsVersion path := trivial
    exact keepsVersion_onNode hcreate .createNode node
  | ensurePath node => exact keepsVersion_ensurePath path node
  | setData node data version =>
    have hset : (Request.setData node data version).KeepsVersion path := h
    exact keepsVersion_onNode hset .writeNode node
  | childNames node =>
    have hchildren : (Request.children node).KeepsVersion path := trivial
    exact keepsVersion_onNode hchildren .listChildren node
  | childPaths node => exact keepsVersion_childPaths path node

theorem KeepsVersion.after_eq {call : SessionCall β} (h : call.KeepsVersion path) (root : Bool)
    (version : Int32) :
    call.versionAfter path root version = version ∧ call.rootAfter root = root := by
  cases call with
  | start | close | deletePath => exact h.elim
  | setData other data named => exact ⟨if_neg fun heq => h heq.1, rfl⟩
  | nodeStat | pathExists | createPath | ensurePath | childNames | childPaths => exact ⟨rfl, rfl⟩

/-- Such a call leaves in a started session what numbers go by. -/
theorem KeepsVersion.exists_comes {call : SessionCall β} (h : call.KeepsVersion path)
    (hrole : call.role = .node) (s : Session) (hconnected : c.connected = true) :
    ∃ calls result c', (call.program s).Comes .started c calls result .started c'
      ∧ call.Leaves path c c' := by
  have hworks : (call.program s).WorksInOrder := (call.worksOnNodes_program hrole s).orderly .node
  obtain ⟨calls, result, c', hcomes, hconnected'⟩ := hworks.exists_comes hconnected
  obtain ⟨hversion, hroot⟩ := h.after_eq c.storesRoot (c.versionAt path)
  exact ⟨calls, result, c', hcomes, hconnected', (hcomes.versionAt_eq (h.program s)).trans hversion.symm,
    (hcomes.storesRoot_eq (h.program s)).trans hroot.symm,
    fun up hup hattached => hcomes.attached (h.program s) hup hattached⟩

/-- So does a write to the node that goes by a version other than zero. -/
theorem exists_comes_setData {version : Int32} (hnamed : version ≠ anyVersion ∧ version ≠ 0)
    (data : List UInt8) (s : Session) (hconnected : c.connected = true) :
    ∃ calls result c', ((setData path data version).program s).Comes .started c calls result .started c'
      ∧ (setData path data version).Leaves path c c' := by
  cases hpath : Path.check path with
  | error fault =>
    refine ⟨_, _, _, comes_onNode_invalid hpath .writeNode _, hconnected, ?_, rfl, fun _ _ => id⟩
    simp [versionAfter, hpath]
  | ok =>
    obtain ⟨outcome, hsettled⟩ := Coordinator.exists_settled? hconnected (.setData path data version)
    have hclose : (Request.setData path data version).kind ≠ .close := nofun
    have hdelete : (Request.setData path data version).kind ≠ .delete := nofun
    refine ⟨_, _, _, comes_onNode hpath .writeNode hsettled,
      Coordinator.connected_perform hconnected hclose, ?_,
      Coordinator.storesRoot_perform hclose hdelete c,
      fun up hup hattached => Coordinator.attached_perform hattached hup hclose⟩
    simpa [versionAfter, hpath] using Coordinator.versionAt_setData_named hconnected hnamed path data

/-- So does a deletion. -/
theorem exists_comes_deletePath {other : String}
    (hattached : other ∈ Path.ancestors path → c.tree.Attached path other) (s : Session)
    (hconnected : c.connected = true) :
    ∃ calls result c', ((deletePath other).program s).Comes .started c calls result .started c'
      ∧ (deletePath other).Leaves path c c' := by
  cases hcheck : Path.check other with
  | error fault =>
    have hroot : other ≠ "/" := by
      rintro rfl
      cases hcheck
    refine ⟨_, _, _, comes_onNode_invalid hcheck .deleteNode _, hconnected, ?_, ?_, fun _ _ => id⟩
    · simp [versionAfter, hcheck]
    · simp [rootAfter, hroot]
  | ok =>
    have hsome : other ≠ "" := by
      rintro rfl
      cases hcheck
    obtain ⟨outcome, hsettled⟩ := Coordinator.exists_settled? hconnected (.delete other)
    refine ⟨_, _, _, comes_onNode hcheck .deleteNode hsettled,
      Coordinator.connected_perform hconnected nofun, ?_, Coordinator.storesRoot_delete hconnected hsome,
      fun up hup hattached => Coordinator.attached_perform hattached hup nofun⟩
    rw [Coordinator.versionAt_delete hconnected hsome hattached, versionAfter, hcheck]

/-- A node operation of a started session that spares the node leaves what it should. -/
theorem Spares.exists_comes {tree : NodeTree} {call : SessionCall β} (h : call.Spares path tree)
    (hrole : call.role = .node) (s : Session)
    (hattached : ∀ up ∈ Path.ancestors path, tree.Attached path up → c.tree.Attached path up)
    (hconnected : c.connected = true) :
    ∃ calls result c', (call.program s).Comes .started c calls result .started c'
      ∧ call.Leaves path c c' := by
  cases call with
  | start | close => cases hrole
  | setData other data version =>
    by_cases hpath : other = path
    · subst hpath
      exact exists_comes_setData (h rfl) data s hconnected
    · have hkeeps : (setData other data version).KeepsVersion path := hpath
      exact hkeeps.exists_comes hrole s hconnected
  | deletePath other =>
    exact exists_comes_deletePath (fun hup => hattached other hup (h hup)) s hconnected
  | nodeStat | pathExists | createPath | ensurePath | childNames | childPaths =>
    refine KeepsVersion.exists_comes ?_ hrole s hconnected
    trivial

end SessionCall

/-! ## Sequence numbers -/

/-- What the program comes to in a started session, and the version at the path after it, follow from
the version before. -/
def Program.FollowsVersion (path : String) (p : Program α) : Prop :=
  ∀ version, ∃ result version', ∀ c : Coordinator, c.connected = true → c.versionAt path = version →
    ∃ calls c', p.Comes .started c calls result .started c' ∧ c'.connected = true
      ∧ c'.versionAt path = version'

namespace Program.FollowsVersion

variable {path : String}

theorem finish (result : α) : (Program.finish result).FollowsVersion path := by
  intro version
  exact ⟨result, version, fun c hconnected hversion => ⟨0, c, .finish _ _ _, hconnected, hversion⟩⟩

theorem map {p : Program α} (h : p.FollowsVersion path) (f : α → β) :
    (p.bind fun result => .finish (f result)).FollowsVersion path := by
  intro version
  obtain ⟨result, version', hcomes⟩ := h version
  refine ⟨f result, version', fun c hconnected hversion => ?_⟩
  obtain ⟨calls, c', hcome, hafter⟩ := hcomes c hconnected hversion
  exact ⟨calls, c', hcome.map f, hafter⟩

/-- An action that goes on after a check. -/
theorem afterCheck (check : Outcome α) {f : α → Action β}
    (hf : ∀ a, check = .ok a → (f a).run.FollowsVersion path) :
    ((check : Action α) >>= f : Action β).run.FollowsVersion path := by
  rw [run_lift_bind]
  cases check with
  | error cause => exact finish _
  | ok a => exact hf a rfl

end Program.FollowsVersion

namespace Sequence

open Session Program.FollowsVersion

end Sequence

/-! ## Calls of two runs -/

/-- Nobody who issues numbers at the path can tell the two services apart, and deletions that the tree to
begin with provides for reach the path on both or on neither. -/
structure Coordinator.Alike (path : String) (tree : NodeTree) (c c₂ : Coordinator) : Prop where
  connected : c.connected = true
  connected' : c₂.connected = true
  versionAt_eq : c.versionAt path = c₂.versionAt path
  storesRoot_eq : c.storesRoot = c₂.storesRoot
  attached : ∀ up ∈ Path.ancestors path, tree.Attached path up → c.tree.Attached path up
  attached' : ∀ up ∈ Path.ancestors path, tree.Attached path up → c₂.tree.Attached path up

/-- Numbers for any key leave what a deletion goes by. -/
theorem Sequence.Call.storesRoot_eq {s : Session} {call : Call} {c c' : Coordinator} {phase' : Phase}
    {calls : Nat} {result : Outcome (List String)}
    (hcomes : (call.program s).Comes .started c calls result phase' c') : c'.storesRoot = c.storesRoot :=
  hcomes.storesRoot_eq ((call.draws_program s).keepsVersion (s.nodePath_ne_root _))

theorem Sequence.Call.attached {s : Session} {call : Call} {c c' : Coordinator} {phase' : Phase}
    {calls : Nat} {result : Outcome (List String)} {path up : String}
    (hcomes : (call.program s).Comes .started c calls result phase' c')
    (hup : up ∈ Path.ancestors path) (h : c.tree.Attached path up) : c'.tree.Attached path up :=
  hcomes.attached ((call.draws_program s).keepsVersion (s.nodePath_ne_root _)) hup h

/-- Numbers for any key leave services alike that agree on the version afterwards. -/
theorem Coordinator.Alike.issue {path : String} {tree : NodeTree} {c c' c₂ c₂' : Coordinator}
    (h : Alike path tree c c₂) {s : Session} {call : Sequence.Call} {phase phase₂ : Phase} {n n₂ : Nat}
    {result result₂ : Outcome (List String)}
    (hcomes : (call.program s).Comes .started c n result phase c')
    (hcomes₂ : (call.program s).Comes .started c₂ n₂ result₂ phase₂ c₂')
    (hconnected : c'.connected = true) (hconnected₂ : c₂'.connected = true)
    (hversion : c'.versionAt path = c₂'.versionAt path) : Alike path tree c' c₂' where
  connected := hconnected
  connected' := hconnected₂
  versionAt_eq := hversion
  storesRoot_eq := by
    rw [Sequence.Call.storesRoot_eq hcomes, Sequence.Call.storesRoot_eq hcomes₂, h.storesRoot_eq]
  attached up hup htree := Sequence.Call.attached hcomes hup (h.attached up hup htree)
  attached' up hup htree := Sequence.Call.attached hcomes₂ hup (h.attached' up hup htree)

namespace ScriptCall

/-- The call spares the node at the path, or writes to it only to issue numbers. -/
def Spares (path : String) (tree : NodeTree) : ScriptCall β → Prop
  | start | sequence _ => True
  | node call _ => call.Spares path tree

end ScriptCall

/-! ## Two runs -/

/-- A started session over a service that is up, with nothing to disturb its calls. -/
structure Stage.Undisturbed (stage : Stage) : Prop where
  phase : stage.phase = .started
  connected : stage.coordinator.connected = true
  plan : stage.plan = .calm

/-- On an undisturbed stage a program is rehearsed as it comes out. -/
theorem Stage.Undisturbed.exists_rehearse {stage : Stage} (h : stage.Undisturbed) (policy : RetryPolicy)
    {p : Program α} {calls : Nat} {result : α} {c' : Coordinator}
    (hcomes : p.Comes .started stage.coordinator calls result .started c')
    (hconnected : c'.connected = true) :
    ∃ report last, (∀ steps, calls < steps → rehearse policy steps p none stage = some (report, last))
      ∧ report.result = result ∧ last.coordinator = c' ∧ last.Undisturbed := by
  rw [← h.phase] at hcomes
  obtain ⟨report, last, hrehearse, hresult, hphase, rfl, hplan⟩ := rehearse_of_comes policy h.plan hcomes
  exact ⟨report, last, hrehearse, hresult, rfl, hphase.trans h.phase, hconnected, hplan⟩

namespace Script

/-- The script that makes the calls of a list, whatever they come to. -/
def ofList : List ((β : Type) × ScriptCall β) → Script
  | [] => done
  | ⟨_, call⟩ :: calls => go call fun _ => ofList calls

/-- A list of calls is played call by call. -/
theorem play_ofList_cons {s : Session} {steps : Nat} {call : (β : Type) × ScriptCall β}
    {calls : List ((β : Type) × ScriptCall β)} {stage stage' last : Stage} {report : Report (Outcome call.1)}
    {results : List ((β : Type) × Outcome β)}
    (hrehearse : rehearse s.policy steps (call.2.program s) none stage = some (report, stage'))
    (h : (ofList calls).play s steps stage' = some (results, last)) :
    (ofList (call :: calls)).play s steps stage = some (⟨call.1, report.result⟩ :: results, last) := by
  rw [ofList, play, hrehearse, Option.bind_some]
  dsimp only
  rw [h]
  rfl

/-- What the calls of a list come to one after the other in a started session that keeps its connection. -/
inductive ComeTo (s : Session) : Coordinator → List ((β : Type) × ScriptCall β) →
    List ((β : Type) × Outcome β) → Prop
  | nil (c : Coordinator) : ComeTo s c [] []
  | cons {c c' : Coordinator} {n : Nat} {call : (β : Type) × ScriptCall β} {result : Outcome call.1}
    {calls : List ((β : Type) × ScriptCall β)} {results : List ((β : Type) × Outcome β)}
    (first : (call.2.program s).Comes .started c n result .started c') (hconnected : c'.connected = true)
    (rest : ComeTo s c' calls results) : ComeTo s c (call :: calls) (⟨call.1, result⟩ :: results)

/-- On an undisturbed stage a list of calls is played as the calls come out, in enough steps for each. -/
theorem ComeTo.exists_play {s : Session} {c : Coordinator} {calls : List ((β : Type) × ScriptCall β)}
    {results : List ((β : Type) × Outcome β)} (h : ComeTo s c calls results) {stage : Stage}
    (hopen : stage.Undisturbed) (hservice : stage.coordinator = c) :
    ∃ enough last, ∀ steps, enough ≤ steps →
      (ofList calls).play s steps stage = some (results, last) := by
  induction h generalizing stage with
  | nil => exact ⟨0, stage, fun _ _ => rfl⟩
  | @cons _ _ n _ _ _ _ first hconnected _ ih =>
    subst hservice
    obtain ⟨report, after, hrehearse, rfl, hservice, hopen'⟩ :=
      hopen.exists_rehearse s.policy first hconnected
    obtain ⟨enough, last, hplay⟩ := ih hopen' hservice
    refine ⟨max enough (n + 1), last, fun steps hle => ?_⟩
    exact play_ofList_cons (hrehearse steps (by omega)) (hplay steps (by omega))

variable {s : Session} {key key' : String} {calls more : List ((β : Type) × ScriptCall β)}
  {stage : Stage}

end Script

end IdMint.Coordination
