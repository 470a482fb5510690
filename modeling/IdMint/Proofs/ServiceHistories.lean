import IdMint.Proofs.LostAnswers

/-! # Histories of the service

What each call makes of the node tree, seen through the nodes at the paths: `Coordinator.Alters` lists
it once for all calls. A history is a sequence of calls and seedings; `Coordinator.steps` takes it apart
into its steps, each with the service as it was before. -/

namespace IdMint.Coordination

/-! ## The nodes of a tree after a change -/

namespace NodeTree

theorem getElem?_insert (tree : NodeTree) (path other : String) (node : Node) :
    (tree.insert path node)[other]? = if path = other then some node else tree[other]? := by
  rw [Std.ExtTreeMap.getElem?_insert]
  simp only [Std.LawfulEqCmp.compare_eq_iff_eq]

/-- Blank nodes fill the gaps. -/
theorem getElem?_insertBlanks (tree : NodeTree) (paths : List String) (other : String) :
    (tree.insertBlanks paths)[other]?
      = tree[other]?.or (if other ∈ paths then some .blank else none) := by
  unfold insertBlanks
  induction paths generalizing tree with
  | nil => simp
  | cons path paths ih =>
    rw [List.foldl_cons, ih, Std.ExtTreeMap.getElem?_insertIfNew]
    cases hnode : tree[other]? with
    | some node =>
      -- a node that is there is no gap, at this path or at a later one
      have hmem : other ∈ tree := Std.ExtTreeMap.mem_iff_isSome_getElem?.mpr (by rw [hnode]; rfl)
      have hnot : ¬ (compare path other = .eq ∧ path ∉ tree) := by
        rintro ⟨heq, hgap⟩
        obtain rfl := Std.LawfulEqCmp.compare_eq_iff_eq.mp heq
        exact hgap hmem
      rw [if_neg hnot]
      rfl
    | none =>
      have hgap : other ∉ tree := by simp [Std.ExtTreeMap.mem_iff_isSome_getElem?, hnode]
      by_cases hpath : path = other
      · subst hpath
        rw [if_pos ⟨Std.LawfulEqCmp.compare_eq_iff_eq.mpr rfl, hgap⟩]
        simp
      · rw [if_neg fun h => hpath (Std.LawfulEqCmp.compare_eq_iff_eq.mp h.1)]
        simp [Ne.symm hpath]

/-- A new node is there, and so are its ancestors. -/
theorem getElem?_create (tree : NodeTree) (path : String) (data : List UInt8) (mode : NodeMode)
    (other : String) :
    (tree.create path data mode)[other]?
      = if path = other then some ⟨data, 0, mode⟩
        else tree[other]?.or (if other ∈ Path.ancestors path then some .blank else none) := by
  rw [create, getElem?_insert, getElem?_insertBlanks]

/-- A deleted node is gone, and so is everything below it. -/
theorem getElem?_delete (tree : NodeTree) (path other : String) :
    (tree.delete path)[other]?
      = if path = other ∨ Path.isBelow path other = true then none else tree[other]? := by
  rw [delete, Std.ExtTreeMap.getElem?_filter', Std.ExtTreeMap.getElem?_erase]
  simp only [Std.LawfulEqCmp.compare_eq_iff_eq]
  by_cases hpath : path = other
  · simp [hpath]
  by_cases hbelow : Path.isBelow path other = true
  · simp [hbelow]
  · have hall : (tree[other]?.filter fun _ => true) = tree[other]? := by cases tree[other]? <;> rfl
    simp [hpath, hbelow, hall]

/-- The end of a session leaves the persistent nodes. -/
theorem getElem?_endSession (tree : NodeTree) (other : String) :
    tree.endSession[other]? = tree[other]?.filter (·.mode = .persistent) := by
  rw [endSession, Std.ExtTreeMap.getElem?_filter']

theorem mem_iff_exists {tree : NodeTree} {path : String} :
    path ∈ tree ↔ ∃ node, tree[path]? = some node := by
  rw [Std.ExtTreeMap.mem_iff_isSome_getElem?, Option.isSome_iff_exists]

theorem mem_create {tree : NodeTree} {path other : String} {data : List UInt8} {mode : NodeMode} :
    other ∈ tree.create path data mode ↔ other ∈ path :: Path.ancestors path ∨ other ∈ tree := by
  rw [mem_iff_exists, mem_iff_exists, getElem?_create, List.mem_cons]
  by_cases hpath : path = other
  · simp [hpath]
  rw [if_neg hpath]
  cases tree[other]? <;> simp [Ne.symm hpath]

theorem mem_delete {tree : NodeTree} {path other : String} :
    other ∈ tree.delete path ↔ path ≠ other ∧ Path.isBelow path other = false ∧ other ∈ tree := by
  rw [mem_iff_exists, mem_iff_exists, getElem?_delete]
  by_cases hgone : path = other ∨ Path.isBelow path other = true
  · rw [if_pos hgone]
    rcases hgone with hpath | hbelow
    · simp [hpath]
    · simp [hbelow]
  · rw [if_neg hgone]
    rw [not_or, Bool.not_eq_true] at hgone
    simp [hgone.1, hgone.2]

theorem mem_endSession {tree : NodeTree} {path : String} :
    path ∈ tree.endSession ↔ ∃ node, tree[path]? = some node ∧ node.mode = .persistent := by
  simp [mem_iff_exists, getElem?_endSession]

end NodeTree

/-! ## What a call makes of the tree -/

namespace Coordinator

/-- What a call that is answered so makes of the tree. -/
inductive Alters (c : Coordinator) : {β : Type} → Request β → Except Fault β → NodeTree → Prop
  /-- The call leaves the tree, and is no write that succeeds. -/
  | same {β : Type} {request : Request β} {answer : Except Fault β} (hclose : request.kind ≠ .close)
    (hwritten : request.written answer = none) : Alters c request answer c.tree
  /-- The session ends. -/
  | ended : Alters c .close (.ok ()) c.tree.endSession
  /-- A node is created that was not there. -/
  | created {path : String} (data : List UInt8) (mode : NodeMode)
    (habsent : c.tree.hasNode path = false) :
    Alters c (.create path data mode) (.ok ()) (c.tree.create path data mode)
  /-- A node is written to that has the version asked for. -/
  | wrote {path : String} {node : Node} (data : List UInt8) {version : Int32}
    (hnode : c.tree[path]? = some node) (hversion : version = anyVersion ∨ version = node.version) :
    Alters c (.setData path data version) (.ok ⟨node.version + 1, c.tree.childCount path⟩)
      (c.tree.insert path { node with data, version := node.version + 1 })
  /-- A node is deleted. -/
  | deleted {path : String} (hmem : path ∈ c.tree) :
    Alters c (.delete path) (.ok ()) (c.tree.delete path)

/-- A write that depends on no version, or on the right one, takes effect. -/
theorem write_of_version {tree : NodeTree} {path : String} {node : Node} {version : Int32}
    (hnode : tree[path]? = some node) (hversion : version = anyVersion ∨ version = node.version)
    (data : List UInt8) :
    write tree path data version
      = .ok (⟨node.version + 1, tree.childCount path⟩,
        tree.insert path { node with data, version := node.version + 1 }) := by
  have hpasses : ¬ (version ≠ anyVersion ∧ version ≠ node.version) := fun h => hversion.elim h.1 h.2
  simp only [write, hnode, if_neg hpasses]

/-- On a connection such a write returns the next version. -/
theorem perform_setData_of_version {c : Coordinator} {path : String} {node : Node} {version : Int32}
    (hconnected : c.connected = true) (hnode : c.tree[path]? = some node)
    (hversion : version = anyVersion ∨ version = node.version) (data : List UInt8) :
    c.perform (.setData path data version)
      = (.ok ⟨node.version + 1, c.tree.childCount path⟩,
        { c with tree := c.tree.insert path { node with data, version := node.version + 1 } }) := by
  simp [perform, hconnected, write_of_version hnode hversion data]

/-- A call alters the tree as listed. -/
theorem alters_perform (c : Coordinator) (request : Request β) :
    c.Alters request (c.perform request).1 (c.perform request).2.tree := by
  -- every refusal leaves the service as it is
  have hsame (hclose : request.kind ≠ .close) {fault : Fault}
      (hreply : c.perform request = (.error fault, c)) :
      c.Alters request (c.perform request).1 (c.perform request).2.tree := by
    rw [hreply]
    exact .same hclose (by cases request <;> rfl)
  cases request with
  | connect sessionLimit connectionLimit => exact .same (by rintro ⟨⟩) rfl
  | close => exact .ended
  | lookUp path =>
    by_cases hup : c.connected = true
    · rw [perform, if_pos hup]
      exact .same (by rintro ⟨⟩) rfl
    · exact hsame (by rintro ⟨⟩) (if_neg hup)
  | children path =>
    by_cases hdown : (!c.connected) = true
    · exact hsame (by rintro ⟨⟩) (if_pos hdown)
    by_cases hthere : c.tree.hasNode path = true
    · rw [perform, if_neg hdown, if_pos hthere]
      exact .same (by rintro ⟨⟩) rfl
    · exact hsame (by rintro ⟨⟩) (by rw [perform, if_neg hdown, if_neg hthere])
  | create path data mode =>
    by_cases hdown : (!c.connected) = true
    · exact hsame (by rintro ⟨⟩) (if_pos hdown)
    by_cases hthere : c.tree.hasNode path = true
    · exact hsame (by rintro ⟨⟩) (by rw [perform, if_neg hdown, if_pos hthere])
    · rw [perform, if_neg hdown, if_neg hthere]
      exact .created data mode (Bool.eq_false_iff.mpr hthere)
  | delete path =>
    by_cases hdown : (!c.connected) = true
    · exact hsame (by rintro ⟨⟩) (if_pos hdown)
    by_cases hthere : c.tree.contains path = true
    · rw [perform, if_neg hdown, if_pos hthere]
      exact .deleted (Std.ExtTreeMap.contains_iff_mem.mp hthere)
    · exact hsame (by rintro ⟨⟩) (by rw [perform, if_neg hdown, if_neg hthere])
  | setData path data version =>
    by_cases hdown : (!c.connected) = true
    · exact hsame (by rintro ⟨⟩) (if_pos hdown)
    cases hwrite : write c.tree path data version with
    | error fault => exact hsame (by rintro ⟨⟩) (by rw [perform, if_neg hdown, hwrite])
    | ok written =>
      obtain ⟨stat, tree⟩ := written
      obtain ⟨node, hnode, hversion, -⟩ := getElem?_write hwrite
      rw [perform, if_neg hdown, write_of_version hnode hversion]
      exact .wrote data hnode hversion

/-- What holds of every tree that a call may leave holds of the tree that it leaves. -/
theorem tree_perform {P : NodeTree → Prop} (c : Coordinator) (request : Request β)
    (h : ∀ answer tree, c.Alters request answer tree → P tree) : P (c.perform request).2.tree :=
  h _ _ (c.alters_perform request)

end Coordinator

/-! ## Histories -/

/-- What happens to a service. -/
inductive ServiceEvent : Type 1
  /-- A persistent node is seeded at a version. -/
  | seed (path : String) (version : Int32)
  /-- A call is carried out. -/
  | call {β : Type} (request : Request β)

namespace Coordinator

/-- The service after an event. -/
def after (c : Coordinator) : ServiceEvent → Coordinator
  | .seed path version => c.seed path version
  | .call request => (c.perform request).2

/-- The service after a history. -/
def run (c : Coordinator) (events : List ServiceEvent) : Coordinator := events.foldl after c

@[simp] theorem run_nil (c : Coordinator) : c.run [] = c := rfl

@[simp] theorem run_cons (c : Coordinator) (event : ServiceEvent) (events : List ServiceEvent) :
    c.run (event :: events) = (c.after event).run events := rfl

theorem run_append (c : Coordinator) (past since : List ServiceEvent) :
    c.run (past ++ since) = (c.run past).run since := List.foldl_append

/-- What every event of a history keeps, the history keeps. -/
theorem run_induction {P : Coordinator → Prop} {c : Coordinator} {events : List ServiceEvent} (h : P c)
    (hkeeps : ∀ c, ∀ event ∈ events, P c → P (c.after event)) : P (c.run events) := by
  induction events generalizing c with
  | nil => exact h
  | cons event events ih =>
    exact ih (hkeeps c event List.mem_cons_self h) fun c later hlater =>
      hkeeps c later (List.mem_cons_of_mem event hlater)

end Coordinator

/-- A step of a history. -/
structure ServiceStep : Type 1 where
  /-- The service before the step. -/
  before : Coordinator
  /-- What happens. -/
  event : ServiceEvent

namespace ServiceStep

/-- The service after the step. -/
def after (step : ServiceStep) : Coordinator := step.before.after step.event

/-- The step is a write to the node at a path that succeeds. -/
def writesTo (path : String) (step : ServiceStep) : Bool :=
  match step.event with
  | .seed _ _ => false
  | .call request =>
    (request.written (step.before.perform request).1).any fun written => written.1 = path

end ServiceStep

/-- The steps of a history. -/
def Coordinator.steps (c : Coordinator) : List ServiceEvent → List ServiceStep
  | [] => []
  | event :: events => ⟨c, event⟩ :: (c.after event).steps events

namespace Coordinator

@[simp] theorem steps_nil (c : Coordinator) : c.steps [] = [] := rfl

@[simp] theorem steps_cons (c : Coordinator) (event : ServiceEvent) (events : List ServiceEvent) :
    c.steps (event :: events) = ⟨c, event⟩ :: (c.after event).steps events := rfl

theorem steps_append (c : Coordinator) (past since : List ServiceEvent) :
    c.steps (past ++ since) = c.steps past ++ (c.run past).steps since := by
  induction past generalizing c with
  | nil => rfl
  | cons event past ih => rw [List.cons_append, steps_cons, steps_cons, ih]; rfl

/-- The steps of a history are its events, each at what the events before have made of the service. -/
theorem mem_steps_iff {c : Coordinator} {events : List ServiceEvent} {step : ServiceStep} :
    step ∈ c.steps events
      ↔ ∃ past since, events = past ++ step.event :: since ∧ step.before = c.run past := by
  induction events generalizing c with
  | nil => simp
  | cons event events ih =>
    rw [steps_cons, List.mem_cons, ih]
    constructor
    · rintro (rfl | ⟨past, since, rfl, hbefore⟩)
      · exact ⟨[], events, rfl, rfl⟩
      · exact ⟨event :: past, since, rfl, hbefore⟩
    · rintro ⟨past, since, hevents, hbefore⟩
      cases past with
      | nil =>
        obtain ⟨rfl, rfl⟩ := List.cons.inj hevents
        obtain ⟨before, own⟩ := step
        obtain rfl : before = c := hbefore
        exact .inl rfl
      | cons first past =>
        obtain ⟨rfl, rfl⟩ := List.cons.inj hevents
        exact .inr ⟨past, since, rfl, hbefore⟩

end Coordinator

end IdMint.Coordination
