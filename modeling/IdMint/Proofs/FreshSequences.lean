import IdMint.Proofs.CalmRuns
import IdMint.Proofs.NodePaths
import IdMint.Proofs.ServiceHistories

/-! # Sequence numbers of a service that nobody disturbs

A session is started, makes sure of its nodes, writes, and is closed. Over a new service the numbers
for a key whose node has a valid path count from one; a key whose node has none is refused without a
call. -/

namespace IdMint.Coordination

/-- Numbers that fit 32 bits with a sign look the same as versions. -/
theorem toString_ofNat {n : Nat} (h : n < 2 ^ 31) : toString (Int32.ofNat n) = toString n := by
  show toString (Int32.ofNat n).toInt = toString n
  rw [Int32.toInt_ofNat_of_lt h]
  rfl

namespace Session

/-! ## Paths -/

/-- The node of a key lies below the root node. -/
theorem toList_nodePath (s : Session) (key : String) :
    (s.nodePath key).toList = s.rootPath.toList ++ '/' :: key.toList := by
  simp [nodePath, rootPath]

theorem nodePath_ne_root (s : Session) (key : String) : s.nodePath key ≠ "/" := by
  intro hpath
  have hlength := congrArg (fun path : String => path.toList.length) hpath
  simp [toList_nodePath, rootPath] at hlength

theorem rootPath_ne_root {s : Session} (h : s.settings.rootName ≠ "") : s.rootPath ≠ "/" := by
  intro hpath
  apply h
  rw [← String.toList_inj, rootPath, String.toList_append] at hpath
  rw [← String.toList_inj]
  exact List.append_cancel_left (hpath.trans (List.append_nil "/".toList).symm)

/-- The root node has a valid path where the node of a key has one. -/
theorem check_rootPath_of_nodePath {s : Session} {key : String}
    (h : Path.check (s.nodePath key) = .ok ()) : Path.check s.rootPath = .ok () := by
  rw [Path.check_eq_ok_iff, toList_nodePath] at h
  rw [Path.check_eq_ok_iff]
  exact Path.fault?_front h (by simp [rootPath])

variable {c : Coordinator} {path : String}

/-! ## Node operations -/

/-- A node operation of a started session makes one call. -/
theorem comes_onNode (hpath : Path.check path = .ok ()) (operation : Operation) {request : Request β}
    {outcome : Outcome β} (hsettled : Fault.settled? (c.perform request).1 = some outcome) :
    (onNode operation path request).run.Comes .started c 1 outcome .started (c.perform request).2 := by
  rw [run_onNode]
  apply Program.Comes.observe
  rw [if_pos rfl, hpath]
  exact .persist hsettled (.finish _ _ _)

/-- A path that is not valid is refused without a call. -/
theorem comes_onNode_invalid {fault : Fault} (hpath : Path.check path = .error fault)
    (operation : Operation) (request : Request β) :
    (onNode operation path request).run.Comes .started c 0 (.error (.coordination fault)) .started c := by
  rw [run_onNode]
  apply Program.Comes.observe
  rw [if_pos rfl, hpath]
  exact .finish _ _ _

/-- A session that is not started refuses every path without a call. -/
theorem comes_onNode_refused {phase : Phase} (hphase : phase ≠ .started) (operation : Operation)
    (request : Request β) :
    (onNode operation path request).run.Comes phase c 0 (.error (operation.refused phase)) phase c := by
  rw [run_onNode]
  apply Program.Comes.observe
  rw [if_neg hphase]
  exact .finish _ _ _

theorem comes_pathExists (hconnected : c.connected = true) (hpath : Path.check path = .ok ()) :
    (pathExists path).run.Comes .started c 1 (.ok (c.tree.stat? path).isSome) .started c := by
  have hlookUp : c.perform (.lookUp path) = (.ok (c.tree.stat? path), c) := if_pos hconnected
  have hsettled : Fault.settled? (c.perform (.lookUp path)).1 = some (.ok (c.tree.stat? path)) := by
    rw [hlookUp]
    rfl
  have hcomes := (comes_onNode hpath .readNode hsettled).map (·.map Option.isSome)
  rw [hlookUp] at hcomes
  rw [run_pathExists]
  exact hcomes

/-- A node that is there is found by one call, and nothing else is asked for. -/
theorem comes_ensurePath_of_mem (hconnected : c.connected = true) (hpath : Path.check path = .ok ())
    (hmem : path ∈ c.tree) : (ensurePath path).run.Comes .started c 1 (.ok ()) .started c := by
  obtain ⟨node, hnode⟩ := NodeTree.mem_iff_exists.mp hmem
  have hstat : (c.tree.stat? path).isSome = true := by simp [NodeTree.stat?, hnode]
  have hfound := comes_pathExists hconnected hpath
  rw [hstat] at hfound
  rw [run_ensurePath]
  exact hfound.bind (.finish _ _ _) rfl

/-- A started session makes sure of a node by two calls at most. Versions stay as they are. -/
theorem comes_ensurePath (hconnected : c.connected = true) (hpath : Path.check path = .ok ())
    (hroot : path ≠ "/") :
    ∃ calls c', calls ≤ 2 ∧ (ensurePath path).run.Comes .started c calls (.ok ()) .started c'
      ∧ c'.connected = true ∧ path ∈ c'.tree ∧ ∀ other, c'.versionAt other = c.versionAt other := by
  by_cases hmem : path ∈ c.tree
  · exact ⟨1, c, by omega, comes_ensurePath_of_mem hconnected hpath hmem, hconnected, hmem,
      fun _ => rfl⟩
  · -- the node is created
    have hstat : (c.tree.stat? path).isSome = false := by
      simp [NodeTree.stat?, Std.ExtTreeMap.getElem?_eq_none hmem]
    have habsent : c.tree.hasNode path = false := by
      rw [Bool.eq_false_iff, ne_eq, NodeTree.hasNode_iff, not_or]
      exact ⟨hroot, hmem⟩
    have hcreate : c.perform (.create path [] .persistent)
        = (.ok (), { c with tree := c.tree.create path [] .persistent }) := by
      simp [Coordinator.perform, hconnected, habsent]
    have hsettled : Fault.settled? (c.perform (.create path [] .persistent)).1 = some (.ok ()) := by
      rw [hcreate]
      rfl
    have hmissed := comes_pathExists hconnected hpath
    rw [hstat] at hmissed
    have hcreated := (comes_onNode hpath .createNode hsettled).map forgiven
    rw [hcreate] at hcreated
    rw [run_ensurePath]
    exact ⟨2, _, Nat.le_refl 2, hmissed.bind hcreated rfl, hconnected,
      NodeTree.mem_create.mpr (.inl List.mem_cons_self),
      NodeTree.versionAt_create habsent [] .persistent⟩

/-- A session that may not look for a node does not make sure of it either. -/
theorem comes_ensurePath_of_refused {phase : Phase} {cause : Error}
    (h : (onNode .readNode path (.lookUp path)).run.Comes phase c 0 (.error cause) phase c) :
    (ensurePath path).run.Comes phase c 0 (.error cause) phase c := by
  rw [run_ensurePath, run_pathExists]
  exact (h.map _).bind (.finish _ _ _) rfl

/-- A path that is not valid is refused without a call. -/
theorem comes_ensurePath_invalid {fault : Fault} (hpath : Path.check path = .error fault) :
    (ensurePath path).run.Comes .started c 0 (.error (.coordination fault)) .started c :=
  comes_ensurePath_of_refused (comes_onNode_invalid hpath .readNode _)

/-! ## Starting and closing -/

/-- An uninitialized session is started by three calls at most, with or without a time limit. -/
theorem comes_start {s : Session} (hpath : Path.check s.rootPath = .ok ()) (hroot : s.rootPath ≠ "/")
    (limit : Option Duration) (c : Coordinator) :
    ∃ calls c', calls ≤ 3 ∧ (start s limit).run.Comes .uninitialized c calls (.ok ()) .started c'
      ∧ c'.connected = true ∧ ∀ other, c'.versionAt other = c.versionAt other := by
  obtain ⟨calls, c', hcalls, hensure, hconnected, -, hversions⟩ := comes_ensurePath
    (c := { c with connected := true, connects := c.connects + 1 }) rfl hpath hroot
  have hestablish : (establish s).run.Comes .starting c (calls + 1) (.ok ()) .started c' := by
    rw [run_establish]
    exact .persist rfl (.assign hensure)
  have hconclude : (conclude (.ok ())).Comes .started c' 0 (.ok ()) .started c' := by
    rw [conclude_ok]
    exact .observe (.finish _ _ _)
  refine ⟨calls + 1, c', by omega, ?_, hconnected, hversions⟩
  rw [run_start]
  apply Program.Comes.won
  cases limit with
  | none => exact hestablish.bind hconclude rfl
  | some limit => exact .arm (hestablish.bind (.disarm hconclude) rfl)

/-- A started session is closed by one call. -/
theorem comes_close (c : Coordinator) :
    ∃ c', Session.close.run.Comes .started c 1 (.ok ()) .closed c' := by
  rw [run_close]
  exact ⟨_, .won (.call (.finish _ _ _))⟩

end Session

/-! ## Sequence numbers -/

namespace Sequence

open Session

variable {c : Coordinator} {path : String}

/-- A write to a node that is there returns the node's next version. -/
theorem comes_draw (hconnected : c.connected = true) (hpath : Path.check path = .ok ())
    (hmem : path ∈ c.tree) :
    ∃ c', (draw path).run.Comes .started c 1 (.ok (toString (c.versionAt path + 1))) .started c'
      ∧ c'.connected = true ∧ path ∈ c'.tree ∧ c'.versionAt path = c.versionAt path + 1 := by
  obtain ⟨node, hnode⟩ := NodeTree.mem_iff_exists.mp hmem
  have hversion : c.versionAt path = node.version := by
    rw [Coordinator.versionAt, NodeTree.versionAt, hnode]
  have hperform := Coordinator.perform_setData_of_version hconnected hnode (.inl rfl) []
  have hsettled : Fault.settled? (c.perform (.setData path [] anyVersion)).1
      = some (.ok ⟨node.version + 1, c.tree.childCount path⟩) := by
    rw [hperform]
    rfl
  have hcomes := (comes_onNode hpath .writeNode hsettled).map
    (·.map fun stat => toString stat.version)
  rw [hperform] at hcomes
  rw [run_draw, hversion]
  refine ⟨_, hcomes, hconnected, ?_, ?_⟩
  · exact Std.ExtTreeMap.mem_insert_self
  · rw [Coordinator.versionAt, NodeTree.versionAt_insert, if_pos rfl]

/-- The numbers that writes to a node issue from its version on. -/
def numbersAfter (version : Int32) (count : Nat) : List String :=
  (List.range count).map fun i => toString (version + Int32.ofNat (i + 1))

/-- The first number is the next version, and the others follow on it. -/
theorem numbersAfter_succ (version : Int32) (count : Nat) :
    numbersAfter version (count + 1) = toString (version + 1) :: numbersAfter (version + 1) count := by
  have hnext (i : Nat) : version + Int32.ofNat (i + 1 + 1) = version + 1 + Int32.ofNat (i + 1) := by
    rw [Int32.ofNat_add (i + 1) 1, Int32.add_comm (Int32.ofNat (i + 1)), ← Int32.add_assoc]
    rfl
  simp only [numbersAfter, List.range_succ_eq_map, List.map_cons, List.map_map, Function.comp_def,
    Nat.succ_eq_add_one, hnext]
  rfl

/-- As long as versions fit 32 bits with a sign, the numbers of a new node count from one. -/
theorem numbersAfter_zero {count : Nat} (hfits : count + 1 < 2 ^ 31) :
    numbersAfter 0 count = (List.range' 1 count).map toString := by
  rw [numbersAfter, List.range'_eq_map_range, List.map_map]
  refine List.map_congr_left fun i hi => ?_
  have hlt : i < count := List.mem_range.mp hi
  rw [Int32.zero_add, toString_ofNat (by omega), Function.comp_apply, Nat.add_comm]

/-- Writes to a node one after the other return the numbers that follow on its version. -/
theorem comes_collectAfter (hconnected : c.connected = true) (hpath : Path.check path = .ok ())
    (hmem : path ∈ c.tree) (issued : List String) (count : Nat) :
    ∃ c', (Batch.collectAfter (draw path).run issued count).Comes .started c count
        (.ok (issued ++ numbersAfter (c.versionAt path) count)) .started c'
      ∧ c'.connected = true ∧ c'.versionAt path = c.versionAt path + Int32.ofNat count := by
  induction count generalizing c issued with
  | zero =>
    rw [numbersAfter, List.range_zero, List.map_nil, List.append_nil]
    exact ⟨c, .finish _ _ _, hconnected, (Int32.add_zero _).symm⟩
  | succ count ih =>
    obtain ⟨c₁, hdraw, hconnected₁, hmem₁, hversion₁⟩ := comes_draw hconnected hpath hmem
    obtain ⟨c', hrest, hconnected', hversion'⟩ :=
      ih hconnected₁ hmem₁ (issued ++ [toString (c.versionAt path + 1)])
    rw [hversion₁] at hrest hversion'
    refine ⟨c', ?_, hconnected', ?_⟩
    · rw [numbersAfter_succ, List.append_cons]
      exact hdraw.bind hrest (Nat.add_comm count 1)
    · rw [hversion', Nat.add_comm count 1, Int32.ofNat_add, ← Int32.add_assoc]
      rfl

/-- A number is issued by a write to the node of its key, once the session has made sure of it. -/
theorem comes_next_of_ensured (s : Session) {key : String} (hkey : CompositeKey.check key = .ok ())
    {mid phase phase' : Phase} {between c' : Coordinator} {first calls : Nat} {outcome : Outcome String}
    (hensure : (ensurePath (s.nodePath key)).run.Comes phase c first (.ok ()) mid between)
    (hdraw : (draw (s.nodePath key)).run.Comes mid between calls outcome phase' c') :
    (next s key).run.Comes phase c (first + calls) outcome phase' c' := by
  rw [next, run_lift_bind, hkey]
  dsimp only
  rw [run_bind]
  exact hensure.bind hdraw rfl

/-- Numbers are issued by writes to the node of their key, once the session has made sure of it. -/
theorem comes_nextMany_of_ensured (s : Session) {key : String} {count : UInt64}
    (hcount : Batch.checkCount count = .ok ()) (hkey : CompositeKey.check key = .ok ())
    {mid phase phase' : Phase} {between c' : Coordinator} {first calls : Nat}
    {outcome : Outcome (List String)}
    (hensure : (ensurePath (s.nodePath key)).run.Comes phase c first (.ok ()) mid between)
    (hcollect : (Batch.collectAfter (draw (s.nodePath key)).run [] count.toNat).Comes mid between calls
      outcome phase' c') :
    (nextMany s key count).run.Comes phase c (first + calls) outcome phase' c' := by
  rw [nextMany, run_lift_bind, Batch.accept_of_ok hcount]
  dsimp only
  rw [run_lift_bind, hkey]
  dsimp only
  rw [run_bind]
  exact hensure.bind hcollect rfl

/-- A session that may not make sure of the node of a key issues no number for it. -/
theorem comes_next_of_refused (s : Session) {key : String} (hkey : CompositeKey.check key = .ok ())
    {phase : Phase} {cause : Error}
    (h : (ensurePath (s.nodePath key)).run.Comes phase c 0 (.error cause) phase c) :
    (next s key).run.Comes phase c 0 (.error cause) phase c := by
  rw [next, run_lift_bind, hkey]
  dsimp only
  rw [run_bind]
  exact h.bind (.finish _ _ _) rfl

/-- Where the node of a key has no valid path a started session refuses the key without a call. -/
theorem comes_next_invalid (s : Session) {key : String} (hkey : CompositeKey.check key = .ok ())
    {fault : Fault} (hpath : Path.check (s.nodePath key) = .error fault) :
    (next s key).run.Comes .started c 0 (.error (.coordination fault)) .started c :=
  comes_next_of_refused s hkey (comes_ensurePath_invalid hpath)

/-- A started session issues the numbers of a key that follow on the version of its node, if the node
has a valid path. -/
theorem comes_nextMany_after (s : Session) {key : String} {count : UInt64}
    (hcount : Batch.checkCount count = .ok ()) (hkey : CompositeKey.check key = .ok ())
    (hpath : Path.check (s.nodePath key) = .ok ()) (hconnected : c.connected = true) :
    ∃ calls c', calls ≤ count.toNat + 2
      ∧ (nextMany s key count).run.Comes .started c calls
        (.ok (numbersAfter (c.versionAt (s.nodePath key)) count.toNat)) .started c'
      ∧ c'.connected = true
      ∧ c'.versionAt (s.nodePath key) = c.versionAt (s.nodePath key) + Int32.ofNat count.toNat := by
  obtain ⟨first, c₁, hfirst, hensure, hconnected₁, hmem, hversions⟩ :=
    comes_ensurePath hconnected hpath (s.nodePath_ne_root key)
  obtain ⟨c', hcollect, hconnected', hversion'⟩ :=
    comes_collectAfter hconnected₁ hpath hmem [] count.toNat
  rw [hversions] at hcollect hversion'
  exact ⟨first + count.toNat, c', by omega, comes_nextMany_of_ensured s hcount hkey hensure hcollect,
    hconnected', hversion'⟩

/-- A started session issues the numbers of a key from one on, if the node of the key has a valid path
and counts as new. -/
theorem comes_nextMany (s : Session) {key : String} {count : UInt64}
    (hcount : Batch.checkCount count = .ok ()) (hkey : CompositeKey.check key = .ok ())
    (hpath : Path.check (s.nodePath key) = .ok ()) (hconnected : c.connected = true)
    (hnew : c.versionAt (s.nodePath key) = 0) (hfits : count.toNat + 1 < 2 ^ 31) :
    ∃ calls c', calls ≤ count.toNat + 2 ∧ (nextMany s key count).run.Comes .started c calls
      (.ok ((List.range' 1 count.toNat).map toString)) .started c' := by
  obtain ⟨calls, c', hcalls, hcomes, -, -⟩ := comes_nextMany_after s hcount hkey hpath hconnected
  rw [hnew, numbersAfter_zero hfits] at hcomes
  exact ⟨calls, c', hcalls, hcomes⟩

/-- A session that may not make sure of the node of a key issues no numbers for it. -/
theorem comes_nextMany_of_refused (s : Session) {key : String} {count : UInt64}
    (hcount : Batch.checkCount count = .ok ()) (hkey : CompositeKey.check key = .ok ())
    {phase : Phase} {cause : Error}
    (h : (ensurePath (s.nodePath key)).run.Comes phase c 0 (.error cause) phase c) :
    (nextMany s key count).run.Comes phase c 0 (.error cause) phase c := by
  rw [nextMany, run_lift_bind, Batch.accept_of_ok hcount]
  dsimp only
  rw [run_lift_bind, hkey]
  dsimp only
  rw [run_bind]
  exact h.bind (.finish _ _ _) rfl

/-- Where the node of a key has no valid path a started session refuses the batch without a call. -/
theorem comes_nextMany_invalid (s : Session) {key : String} {count : UInt64}
    (hcount : Batch.checkCount count = .ok ()) (hkey : CompositeKey.check key = .ok ())
    {fault : Fault} (hpath : Path.check (s.nodePath key) = .error fault) :
    (nextMany s key count).run.Comes .started c 0 (.error (.coordination fault)) .started c :=
  comes_nextMany_of_refused s hcount hkey (comes_ensurePath_invalid hpath)

end Sequence

end IdMint.Coordination
