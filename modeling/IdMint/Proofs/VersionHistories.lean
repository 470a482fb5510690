import IdMint.Proofs.ServiceHistories

/-! # Versions count writes

Through any history the version of a node is the one it started with, moved on by the writes since: a
seeded node starts with the given version and a created one with zero. A write that names a version
therefore finds it again only after a full turn of the 32 bits, so of two writers that go by the same
version only one succeeds. -/

namespace IdMint.Coordination

/-! ## Counting in 32 bits -/

/-- A version after a number of writes, in 32 bits with wraparound. -/
def versionAfter (start : Int32) (writes : Nat) : Int32 := Int32.ofInt (start.toInt + writes)

@[simp] theorem versionAfter_zero (start : Int32) : versionAfter start 0 = start := by
  rw [versionAfter, Int.natCast_zero, Int.add_zero, Int32.ofInt_toInt]

@[simp] theorem versionAfter_one (start : Int32) : versionAfter start 1 = start + 1 := by
  rw [versionAfter, Int32.ofInt_add, Int32.ofInt_toInt]
  rfl

/-- Counting can go on from a version on the way. -/
theorem versionAfter_add (start : Int32) (first rest : Nat) :
    versionAfter start (first + rest) = versionAfter (versionAfter start first) rest := by
  simp only [versionAfter, Int32.ofInt_add, Int32.ofInt_toInt, Int.natCast_add, Int32.add_assoc]

/-- A version comes back after each full turn. -/
theorem versionAfter_eq_self_iff {start : Int32} {writes : Nat} :
    versionAfter start writes = start ↔ 2 ^ 32 ∣ writes := by
  have hturn : start + Int32.ofInt writes = start ↔ Int32.ofInt writes = 0 := by simp
  rw [versionAfter, Int32.ofInt_add, Int32.ofInt_toInt, hturn, Int32.ofInt_eq_iff_bmod_eq_toInt,
    Int32.toInt_zero, ← Int.dvd_iff_bmod_eq_zero]
  exact Int.natCast_dvd_natCast

/-! ## One step -/

/-- A node that is there after a call was created by it where there was none, or was there before and
has counted the call if it is a write that succeeds. -/
theorem Coordinator.Alters.version {c : Coordinator} {request : Request β} {answer : Except Fault β}
    {tree : NodeTree} (h : c.Alters request answer tree) {path : String} {node : Node}
    (hnode : tree[path]? = some node) :
    request.kind = .create ∧ path ∉ c.tree ∧ node.version = 0
      ∨ ∃ old, c.tree[path]? = some old ∧ node.version
        = versionAfter old.version ((request.written answer).any (·.1 = path)).toNat := by
  cases h with
  | same hclose hwritten => exact .inr ⟨node, hnode, by simp [hwritten]⟩
  | ended =>
    rw [NodeTree.getElem?_endSession, Option.filter_eq_some_iff] at hnode
    exact .inr ⟨node, hnode.1, by simp [Request.written]⟩
  | deleted hmem =>
    rw [NodeTree.getElem?_delete] at hnode
    split at hnode
    · cases hnode
    · exact .inr ⟨node, hnode, by simp [Request.written]⟩
  | @created own data mode habsent =>
    rw [NodeTree.getElem?_create] at hnode
    by_cases hown : own = path
    · subst hown
      rw [if_pos rfl] at hnode
      cases hnode
      left
      refine ⟨rfl, fun hmem => ?_, rfl⟩
      rw [NodeTree.hasNode_iff.mpr (.inr hmem)] at habsent
      cases habsent
    rw [if_neg hown] at hnode
    cases hold : c.tree[path]? with
    | some old =>
      rw [hold] at hnode
      cases hnode
      exact .inr ⟨node, rfl, by simp [Request.written]⟩
    | none =>
      rw [hold, Option.none_or] at hnode
      left
      refine ⟨rfl, by simp [Std.ExtTreeMap.mem_iff_isSome_getElem?, hold], ?_⟩
      split at hnode
      · cases hnode
        rfl
      · cases hnode
  | @wrote own old data version hold hversion =>
    rw [NodeTree.getElem?_insert] at hnode
    by_cases hown : own = path
    · subst hown
      rw [if_pos rfl] at hnode
      cases hnode
      refine .inr ⟨old, hold, ?_⟩
      simp [Request.written]
    · rw [if_neg hown] at hnode
      exact .inr ⟨node, hnode, by simp [Request.written, hown]⟩

namespace ServiceStep

/-- The step begins the account of the node at a path: it seeds the node, or creates it where there was
none. -/
def Starts (path : String) (start : Int32) (step : ServiceStep) : Prop :=
  match step.event with
  | .seed other version => other = path ∧ version = start
  | .call request =>
    request.kind = .create ∧ path ∉ step.before.tree ∧ path ∈ step.after.tree ∧ start = 0

/-- The step neither removes nor seeds the node at a path. -/
def Keeps (path : String) (step : ServiceStep) : Prop :=
  path ∈ step.after.tree ∧ ∀ version, step.event ≠ .seed path version

/-- The step is a write that goes by the given version of the node at a path, and succeeds. -/
def Wins (path : String) (version : Int32) (step : ServiceStep) : Prop :=
  ∃ data stat, step.event = .call (.setData path data version)
    ∧ (step.before.perform (.setData path data version)).1 = .ok stat

/-- A node that is there after a step has just started, or was there before and has counted the step if
it is a write. -/
theorem version_after (step : ServiceStep) {path : String} {node : Node}
    (h : step.after.tree[path]? = some node) :
    step.Starts path node.version
      ∨ ∃ old, step.before.tree[path]? = some old ∧ step.Keeps path
        ∧ node.version = versionAfter old.version (step.writesTo path).toNat := by
  have hmem : path ∈ step.after.tree := NodeTree.mem_iff_exists.mpr ⟨node, h⟩
  obtain ⟨c, event⟩ := step
  cases event with
  | seed other version =>
    rw [after, Coordinator.after, Coordinator.seed, NodeTree.getElem?_insert] at h
    by_cases hpath : other = path
    · rw [if_pos hpath] at h
      cases h
      exact .inl ⟨hpath, rfl⟩
    · rw [if_neg hpath] at h
      have hkeeps : Keeps path ⟨c, .seed other version⟩ := by
        refine ⟨hmem, ?_⟩
        rintro _ ⟨⟩
        exact hpath rfl
      exact .inr ⟨node, h, hkeeps, (versionAfter_zero _).symm⟩
  | call request =>
    obtain ⟨hkind, hnone, hversion⟩ | ⟨old, hold, hversion⟩ := (c.alters_perform request).version h
    · exact .inl ⟨hkind, hnone, hmem, hversion⟩
    · exact .inr ⟨old, hold, ⟨hmem, nofun⟩, hversion⟩

/-- What is kept is not started anew. -/
theorem Keeps.not_starts {step : ServiceStep} {path : String} (h : step.Keeps path)
    (hmem : path ∈ step.before.tree) (start : Int32) : ¬ step.Starts path start := by
  obtain ⟨c, event⟩ := step
  cases event with
  | seed other version =>
    rintro ⟨rfl, -⟩
    exact h.2 version rfl
  | call request => exact fun hstarts => hstarts.2.1 hmem

end ServiceStep

/-! ## A whole history -/

/-- The number of writes to a node that succeed in the course of a history. -/
def Coordinator.writeCount (c : Coordinator) (path : String) (events : List ServiceEvent) : Nat :=
  (c.steps events).countP (·.writesTo path)

/-- A history neither removes nor seeds the node at a path. -/
def Coordinator.Keeps (c : Coordinator) (path : String) (events : List ServiceEvent) : Prop :=
  ∀ step ∈ c.steps events, step.Keeps path

namespace Coordinator

theorem writeCount_cons (c : Coordinator) (path : String) (event : ServiceEvent)
    (events : List ServiceEvent) :
    c.writeCount path (event :: events)
      = (ServiceStep.writesTo path ⟨c, event⟩).toNat + (c.after event).writeCount path events := by
  rw [writeCount, steps_cons, List.countP_cons, writeCount, Nat.add_comm]
  cases ServiceStep.writesTo path ⟨c, event⟩ <;> rfl

theorem writeCount_append (c : Coordinator) (path : String) (past since : List ServiceEvent) :
    c.writeCount path (past ++ since)
      = c.writeCount path past + (c.run past).writeCount path since := by
  rw [writeCount, steps_append, List.countP_append]
  rfl

theorem keeps_cons {c : Coordinator} {path : String} {event : ServiceEvent}
    {events : List ServiceEvent} :
    c.Keeps path (event :: events)
      ↔ ServiceStep.Keeps path ⟨c, event⟩ ∧ (c.after event).Keeps path events := by
  rw [Keeps, steps_cons, List.forall_mem_cons]
  rfl

theorem Keeps.of_append {c : Coordinator} {path : String} {past since : List ServiceEvent}
    (h : c.Keeps path (past ++ since)) : c.Keeps path past := by
  intro step hstep
  apply h
  rw [steps_append]
  exact List.mem_append_left _ hstep

/-- A version is accounted for by a history: some event of it starts the node, and what comes after it
keeps the node and moves the version on by its writes. -/
def Accounts (c : Coordinator) (path : String) (version : Int32) (events : List ServiceEvent) : Prop :=
  ∃ past origin since start, events = past ++ origin :: since
    ∧ ServiceStep.Starts path start ⟨c.run past, origin⟩
    ∧ (c.run (past ++ [origin])).Keeps path since
    ∧ version = versionAfter start ((c.run (past ++ [origin])).writeCount path since)

/-- A node that is there after a history was kept by all of it, or was started by it. -/
theorem version_run {c : Coordinator} {path : String} {events : List ServiceEvent} {node : Node}
    (h : (c.run events).tree[path]? = some node) :
    (∃ old, c.tree[path]? = some old ∧ c.Keeps path events
        ∧ node.version = versionAfter old.version (c.writeCount path events))
      ∨ c.Accounts path node.version events := by
  induction events generalizing c with
  | nil => exact .inl ⟨node, h, nofun, (versionAfter_zero _).symm⟩
  | cons event events ih =>
    -- what the later events keep is kept by this one as well, or started by it
    obtain ⟨mid, hmid, hkeeps, hversion⟩ | ⟨past, origin, since, start, rfl, haccount⟩ := ih h
    · obtain hstarts | ⟨old, hold, hkeep, hmoved⟩ := ServiceStep.version_after ⟨c, event⟩ hmid
      · exact .inr ⟨[], event, events, mid.version, rfl, hstarts, hkeeps, hversion⟩
      · refine .inl ⟨old, hold, keeps_cons.mpr ⟨hkeep, hkeeps⟩, ?_⟩
        rw [hversion, hmoved, writeCount_cons, versionAfter_add]
    · exact .inr ⟨event :: past, origin, since, start, rfl, haccount⟩

/-- While a node is kept its version counts the writes. -/
theorem exists_version_of_keeps {c : Coordinator} {path : String} {old : Node}
    (hold : c.tree[path]? = some old) {events : List ServiceEvent} (hkeeps : c.Keeps path events) :
    ∃ node, (c.run events).tree[path]? = some node
      ∧ node.version = versionAfter old.version (c.writeCount path events) := by
  induction events generalizing c old with
  | nil => exact ⟨old, hold, (versionAfter_zero _).symm⟩
  | cons event events ih =>
    obtain ⟨hkeep, hrest⟩ := keeps_cons.mp hkeeps
    obtain ⟨mid, hmid⟩ := NodeTree.mem_iff_exists.mp hkeep.1
    obtain ⟨node, hnode, hversion⟩ := ih hmid hrest
    refine ⟨node, hnode, ?_⟩
    obtain hstarts | ⟨old', hold', -, hmoved⟩ := ServiceStep.version_after ⟨c, event⟩ hmid
    · exact absurd hstarts (hkeep.not_starts (NodeTree.mem_iff_exists.mpr ⟨old, hold⟩) _)
    · obtain rfl : old' = old := Option.some.inj (hold'.symm.trans hold)
      rw [hversion, hmoved, writeCount_cons, versionAfter_add]
      rfl

/-! ## Writes that name a version -/

/-- What a write that succeeds has found and does. -/
theorem of_setData_ok {c : Coordinator} {path : String} {data : List UInt8} {version : Int32}
    {stat : NodeStat} (h : (c.perform (.setData path data version)).1 = .ok stat) :
    c.connected = true ∧ ∃ node, c.tree[path]? = some node
      ∧ (version = anyVersion ∨ version = node.version) ∧ stat.version = node.version + 1
      ∧ (c.perform (.setData path data version)).2.tree[path]?
        = some { node with data, version := node.version + 1 } := by
  rw [perform] at h ⊢
  by_cases hdown : (!c.connected) = true
  · rw [if_pos hdown] at h
    cases h
  rw [if_neg hdown] at h ⊢
  cases hwrite : write c.tree path data version with
  | error fault =>
    rw [hwrite] at h
    cases h
  | ok written =>
    obtain ⟨own, tree⟩ := written
    obtain ⟨node, hnode, hversion, hafter⟩ := getElem?_write hwrite
    have hwritten := write_of_version hnode hversion data
    rw [hwrite] at hwritten
    rw [hwrite] at h
    cases hwritten
    cases h
    exact ⟨by simpa using hdown, node, hnode, hversion, rfl, hafter⟩

/-- On a connection a write that names a version succeeds exactly if the node has the version. -/
theorem exists_setData_ok_iff {c : Coordinator} (hconnected : c.connected = true) (path : String)
    (data : List UInt8) {version : Int32} (hversion : version ≠ anyVersion) :
    (∃ stat, (c.perform (.setData path data version)).1 = .ok stat)
      ↔ ∃ node, c.tree[path]? = some node ∧ node.version = version := by
  constructor
  · rintro ⟨stat, hok⟩
    obtain ⟨-, node, hnode, hnamed, -⟩ := of_setData_ok hok
    exact ⟨node, hnode, (hnamed.resolve_left hversion).symm⟩
  · rintro ⟨node, hnode, rfl⟩
    rw [perform_setData_of_version hconnected hnode (.inr rfl) data]
    exact ⟨_, rfl⟩

/-- After a write that has succeeded by a version, the next one that goes by the same version succeeds
only when the writes since have turned the version round. -/
theorem exists_setData_again_iff {c : Coordinator} {path : String} {data : List UInt8}
    {version : Int32} {stat : NodeStat} (hversion : version ≠ anyVersion)
    (hok : (c.perform (.setData path data version)).1 = .ok stat) {since : List ServiceEvent}
    (hkeeps : (c.perform (.setData path data version)).2.Keeps path since)
    (hconnected : ((c.perform (.setData path data version)).2.run since).connected = true)
    (data' : List UInt8) :
    (∃ stat', (((c.perform (.setData path data version)).2.run since).perform
        (.setData path data' version)).1 = .ok stat')
      ↔ 2 ^ 32 ∣ 1 + (c.perform (.setData path data version)).2.writeCount path since := by
  obtain ⟨-, old, -, hnamed, -, hafter⟩ := of_setData_ok hok
  obtain rfl : version = old.version := hnamed.resolve_left hversion
  obtain ⟨node, hnode, hcounted⟩ := exists_version_of_keeps hafter hkeeps
  -- the first write counts as well, so the version has moved on by one more than the writes since
  rw [← versionAfter_one, ← versionAfter_add] at hcounted
  rw [exists_setData_ok_iff hconnected path data' hversion, ← versionAfter_eq_self_iff, ← hcounted]
  constructor
  · rintro ⟨own, hown, hsame⟩
    obtain rfl : own = node := Option.some.inj (hown.symm.trans hnode)
    exact hsame
  · intro hsame
    exact ⟨node, hnode, hsame⟩

/-- A write that wins is counted. -/
theorem writesTo_of_wins {step : ServiceStep} {path : String} {version : Int32}
    (h : step.Wins path version) : step.writesTo path = true := by
  obtain ⟨c, event⟩ := step
  obtain ⟨data, stat, rfl, hok⟩ := h
  simp only [ServiceStep.writesTo, hok, Request.written]
  simp

/-- Where a node is kept and written to for less than a full turn, no two writes win by the same
version. -/
theorem pairwise_not_wins {c : Coordinator} {path : String} {version : Int32}
    (hversion : version ≠ anyVersion) {events : List ServiceEvent} (hkeeps : c.Keeps path events)
    (hless : c.writeCount path events ≤ 2 ^ 32) :
    (c.steps events).Pairwise fun first second =>
      ¬ (first.Wins path version ∧ second.Wins path version) := by
  induction events generalizing c with
  | nil => exact .nil
  | cons event events ih =>
    rw [writeCount_cons] at hless
    have hrest := (keeps_cons.mp hkeeps).2
    rw [steps_cons, List.pairwise_cons]
    refine ⟨?_, ih hrest (by omega)⟩
    rintro second hsecond ⟨hfirst, hwins⟩
    rw [writesTo_of_wins hfirst] at hless
    obtain ⟨past, since, rfl, hbefore⟩ := mem_steps_iff.mp hsecond
    have hcounted := writesTo_of_wins hwins
    obtain ⟨before, own⟩ := second
    obtain rfl : before = _ := hbefore
    rw [writeCount_append, writeCount_cons, hcounted] at hless
    obtain ⟨data, stat, rfl, hok⟩ := hfirst
    obtain ⟨data', stat', -, hagain⟩ := hwins
    -- the two winners and the writes between them are too few for a turn
    have hturn : 2 ^ 32 ∣ 1 + (c.after (.call (.setData path data version))).writeCount path past :=
      (exists_setData_again_iff hversion hok hrest.of_append (of_setData_ok hagain).1 data').mp
        ⟨stat', hagain⟩
    have hlong := Nat.le_of_dvd (by omega) hturn
    simp only [Bool.toNat_true] at hless
    omega

/-- Writes to a node one after the other that go by no version. -/
def overwrites (path : String) (count : Nat) : List ServiceEvent :=
  List.replicate count (.call (.setData path [] anyVersion))

/-- On a connection such writes keep a node that is there, and all of them count. -/
theorem run_overwrites {c : Coordinator} {path : String} (hconnected : c.connected = true)
    (hmem : path ∈ c.tree) (count : Nat) :
    c.Keeps path (overwrites path count) ∧ c.writeCount path (overwrites path count) = count
      ∧ (c.run (overwrites path count)).connected = true := by
  induction count generalizing c with
  | zero => exact ⟨nofun, rfl, hconnected⟩
  | succ count ih =>
    obtain ⟨node, hnode⟩ := NodeTree.mem_iff_exists.mp hmem
    have hperform := perform_setData_of_version hconnected hnode (.inl rfl) []
    have hafter : c.after (.call (.setData path [] anyVersion))
        = { c with tree := c.tree.insert path { node with data := [], version := node.version + 1 } } :=
      congrArg Prod.snd hperform
    have hstays : path ∈ (c.after (.call (.setData path [] anyVersion))).tree := by
      rw [hafter]
      exact Std.ExtTreeMap.mem_insert_self
    have hcounts : ServiceStep.writesTo path ⟨c, .call (.setData path [] anyVersion)⟩ = true := by
      simp only [ServiceStep.writesTo, hperform, Request.written]
      simp
    obtain ⟨hkeeps, hcount, hlast⟩ := ih (by rw [hafter]; exact hconnected) hstays
    refine ⟨keeps_cons.mpr ⟨⟨hstays, nofun⟩, hkeeps⟩, ?_, hlast⟩
    rw [overwrites, List.replicate_succ, writeCount_cons, hcounts, ← overwrites, hcount, Nat.add_comm]
    rfl

/-! ## All histories -/

/-- What the versions of the node at a path tell in the course of every history that begins with the
given events. -/
structure CountsWrites (path : String) (events : List ServiceEvent) : Prop where
  /-- The version is the one that the node started with, moved on by the writes since. -/
  accounted : ∀ node, (fresh.run events).tree[path]? = some node →
    fresh.Accounts path node.version events
  /-- A write that succeeds adds one to the version, and tells the new version. -/
  told : ∀ data version stat,
    ((fresh.run events).perform (.setData path data version)).1 = .ok stat →
    ∃ old node, (fresh.run events).tree[path]? = some old
      ∧ ((fresh.run events).perform (.setData path data version)).2.tree[path]? = some node
      ∧ node.version = old.version + 1 ∧ stat.version = node.version
  /-- On a connection, a write that names a version succeeds exactly if the node has it. -/
  compared : ∀ data version, (fresh.run events).connected = true → version ≠ anyVersion →
    ((∃ stat, ((fresh.run events).perform (.setData path data version)).1 = .ok stat)
      ↔ ∃ node, (fresh.run events).tree[path]? = some node ∧ node.version = version)
  /-- A write that fails changes nothing. -/
  unchanged : ∀ data version fault,
    ((fresh.run events).perform (.setData path data version)).1 = .error fault →
    ((fresh.run events).perform (.setData path data version)).2 = fresh.run events
  /-- After a write that has succeeded by a version, while the node is neither removed nor seeded, another
  one that goes by the same version succeeds exactly if the first one and the writes since are a number
  of full turns. -/
  turned : ∀ data version stat since data', version ≠ anyVersion →
    ((fresh.run events).perform (.setData path data version)).1 = .ok stat →
    ((fresh.run events).perform (.setData path data version)).2.Keeps path since →
    (((fresh.run events).perform (.setData path data version)).2.run since).connected = true →
    ((∃ stat', ((((fresh.run events).perform (.setData path data version)).2.run since).perform
        (.setData path data' version)).1 = .ok stat')
      ↔ 2 ^ 32 ∣ 1
        + ((fresh.run events).perform (.setData path data version)).2.writeCount path since)
  /-- While the node is neither removed nor seeded, and not written to more often than versions go round,
  no two writes that go by the same version succeed. -/
  won : ∀ version since, version ≠ anyVersion → (fresh.run events).Keeps path since →
    (fresh.run events).writeCount path since ≤ 2 ^ 32 →
    ((fresh.run events).steps since).Pairwise fun first second =>
      ¬ (first.Wins path version ∧ second.Wins path version)

/-- **Versions count writes.** Through every history of calls and seedings the version of a node is what
it started with plus the writes since, in 32 bits; so no write is lost that goes by a version. -/
theorem countsWrites (path : String) (events : List ServiceEvent) : CountsWrites path events where
  accounted node hnode := by
    obtain ⟨old, hold, -⟩ | haccount := version_run hnode
    · simp [fresh] at hold
    · exact haccount
  told data version stat hok := by
    obtain ⟨-, old, hold, -, hstat, hafter⟩ := of_setData_ok hok
    exact ⟨old, _, hold, hafter, rfl, hstat⟩
  compared data version hconnected hversion := exists_setData_ok_iff hconnected path data hversion
  unchanged data version fault hfails := perform_of_error hfails
  turned data version stat since data' hversion hok hkeeps hconnected :=
    exists_setData_again_iff hversion hok hkeeps hconnected data'
  won version since hversion hkeeps hless := pairwise_not_wins hversion hkeeps hless

/-- A node is seeded at the greatest version and written to by it, then by the version that follows. -/
def turningEvents : List ServiceEvent :=
  [.seed "/k" 2147483647, .call (.connect 1000 1000), .call (.setData "/k" [1] 2147483647),
    .call (.setData "/k" [2] (-2147483648))]

/-- The versions go round from the greatest to the least, and a write that goes by the greatest one is
too late then. -/
theorem countsWrites_turning :
    (∃ node, (fresh.run turningEvents).tree["/k"]? = some node ∧ node.version = -2147483647
        ∧ fresh.Accounts "/k" node.version turningEvents)
      ∧ ¬ ∃ stat, ((fresh.run turningEvents).perform (.setData "/k" [3] 2147483647)).1 = .ok stat := by
  have hnode : (fresh.run turningEvents).tree["/k"]? = some ⟨[2], -2147483647, .persistent⟩ := by
    decide +kernel
  refine ⟨⟨_, hnode, rfl, (countsWrites "/k" turningEvents).accounted _ hnode⟩, ?_⟩
  rw [(countsWrites "/k" turningEvents).compared [3] 2147483647 (by decide +kernel) (by decide), hnode]
  rintro ⟨node, hsame, hversion⟩
  cases hsame
  cases hversion

/-- A service with a node of version 4, and a write that goes by this version. -/
def seededFour : Coordinator := fresh.run [.seed "/k" 4, .call (.connect 1000 1000)]

def writeByFour : ServiceEvent := .call (.setData "/k" [] 4)

/-- One write less than versions go round leaves room for two winners: with the first of them it makes up
the full turn. -/
theorem wins_again_after_turn :
    (ServiceStep.mk seededFour writeByFour).Wins "/k" 4
      ∧ (seededFour.after writeByFour).Keeps "/k" (overwrites "/k" (2 ^ 32 - 1))
      ∧ (seededFour.after writeByFour).writeCount "/k" (overwrites "/k" (2 ^ 32 - 1)) < 2 ^ 32
      ∧ (ServiceStep.mk ((seededFour.after writeByFour).run (overwrites "/k" (2 ^ 32 - 1)))
          writeByFour).Wins "/k" 4 := by
  have hnode : seededFour.tree["/k"]? = some ⟨[], 4, .persistent⟩ := by decide +kernel
  have hwins : (seededFour.perform (.setData "/k" [] 4)).1 = .ok ⟨5, seededFour.tree.childCount "/k"⟩ :=
    congrArg Prod.fst (perform_setData_of_version (by decide +kernel) hnode (.inr rfl) [])
  have hup : (seededFour.after writeByFour).connected = true := by decide +kernel
  have hmem : "/k" ∈ (seededFour.after writeByFour).tree := by decide +kernel
  obtain ⟨hkeeps, hcount, hconnected⟩ := run_overwrites hup hmem (2 ^ 32 - 1)
  -- from here on only the number of the writes in between matters
  generalize overwrites "/k" (2 ^ 32 - 1) = since at hkeeps hcount hconnected ⊢
  have hturn : 2 ^ 32 ∣ 1 + (seededFour.after writeByFour).writeCount "/k" since := by omega
  obtain ⟨stat, hagain⟩ :=
    (exists_setData_again_iff (by decide) hwins hkeeps hconnected []).mpr hturn
  exact ⟨⟨[], _, rfl, hwins⟩, hkeeps, by omega, [], stat, rfl, hagain⟩

end Coordinator

end IdMint.Coordination
