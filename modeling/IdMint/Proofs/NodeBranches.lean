import IdMint.Proofs.NodePaths
import IdMint.Proofs.ServiceHistories

/-! # Branches of the tree

A path is above another one if it is reached from it by going to parents. The calls know of this what
they see in the characters: creating a node climbs from slash to slash until it is at the root or at the
end of the text, and deleting one takes what begins with its path and a slash. That is what is above the
one and below the other: `Coordinator.creates_branch` and `Coordinator.deletes_branch`. -/

namespace IdMint.Coordination

namespace Path

/-- A path is a proper ancestor of another one. -/
inductive Above (top : String) : String → Prop
  /-- A parent is above its child. -/
  | parent {path : String} (h : parent? path = some top) : Above top path
  /-- What is above the parent is above the child. -/
  | climb {path up : String} (hup : parent? path = some up) (habove : Above top up) : Above top path

variable {top path other up : String}

/-! ## Parents and stems -/

theorem length_lt_of_parent? (h : parent? path = some up) :
    up.toList.length < path.toList.length := by
  obtain ⟨chars, hchars, rfl⟩ := Option.map_eq_some_iff.mp h
  rw [String.toList_ofList]
  exact length_lt_of_parentChars? hchars

/-- A path has as its parent the one in whose stem it has no further slash behind. -/
theorem parent?_of_stem {rest : List Char} (htop : top ≠ "") (hne : path ≠ top)
    (hpath : path.toList = childStem top.toList ++ rest) (hrest : '/' ∉ rest) :
    parent? path = some top := by
  rw [parent?, hpath]
  by_cases hroot : top = "/"
  · subst hroot
    have hsome : rest ≠ [] := by
      rintro rfl
      exact hne (String.toList_inj.mp hpath)
    change (parentChars? ([] ++ '/' :: rest)).map String.ofList = _
    rw [parentChars?_append hrest, if_pos rfl, if_neg hsome]
    rfl
  · have hfront : top.toList ≠ [] := fun h => htop (String.toList_inj.mp h)
    rw [childStem_of_ne_root hroot, List.append_assoc, List.singleton_append,
      parentChars?_append hrest, if_neg hfront]
    simp

/-! ## Above and below -/

/-- A path above another one is the shorter one. -/
theorem Above.length_lt (h : Above top path) : top.toList.length < path.toList.length := by
  induction h with
  | parent h => exact length_lt_of_parent? h
  | climb hup _ ih => exact Nat.lt_trans ih (length_lt_of_parent? hup)

/-- What is above a path has it below. -/
theorem Above.isBelow (h : Above top path) : isBelow top path = true := by
  induction h with
  | parent h => exact isBelow_parent? h
  | climb hup _ ih => exact isBelow_of_isBelow_parent? hup ih

/-- What lies below something lies below everything above that. -/
theorem Above.isBelow_trans (h : Above up path) (hbelow : Path.isBelow top up = true) :
    Path.isBelow top path = true := by
  induction h with
  | parent h => exact isBelow_of_isBelow_parent? h hbelow
  | climb hup _ ih => exact isBelow_of_isBelow_parent? hup ih

theorem Above.trans (h : Above top up) (h' : Above up path) : Above top path := by
  induction h' with
  | parent h' => exact .climb h' h
  | climb hup _ ih => exact .climb hup ih

/-- A path with the stem of another one in front is reached from below: cut off at its last slash it
still has the stem in front, until nothing is left behind the stem. -/
theorem above_of_isBelow (htop : top ≠ "") (hbelow : Path.isBelow top path = true)
    (hne : path ≠ top) : Above top path := by
  induction path using parent_induction with
  | step path ih =>
    obtain ⟨rest, hpath⟩ := isBelow_iff.mp hbelow
    by_cases hslash : '/' ∈ rest
    · -- the last slash of the path is behind the stem, so the parent has the stem in front as well
      obtain ⟨front, name, rfl, hname⟩ := exists_last_slash hslash
      have hfront : childStem top.toList ++ front ≠ [] :=
        List.append_ne_nil_of_left_ne_nil (childStem_ne_nil _) _
      have hup : parent? path = some (String.ofList (childStem top.toList ++ front)) := by
        rw [parent?, hpath, ← List.append_assoc, parentChars?_append hname, if_neg hfront]
        rfl
      -- a path with two slashes in front is a child of the root already
      by_cases hreached : String.ofList (childStem top.toList ++ front) = top
      · rw [hreached] at hup
        exact .parent hup
      · refine .climb hup (ih _ hup ?_ hreached)
        exact isBelow_iff.mpr ⟨front, String.toList_ofList⟩
    · exact .parent (parent?_of_stem htop hne hpath hslash)

/-- The paths above another one are those that it lies below. -/
theorem above_iff (htop : top ≠ "") :
    Above top path ↔ Path.isBelow top path = true ∧ path ≠ top := by
  constructor
  · intro h
    refine ⟨h.isBelow, ?_⟩
    rintro rfl
    exact absurd h.length_lt (Nat.lt_irrefl _)
  · rintro ⟨hbelow, hne⟩
    exact above_of_isBelow htop hbelow hne

/-- Nothing is above a path that has no parent. -/
theorem not_above_of_parent? (h : parent? path = none) : ¬ Above top path := by
  rintro (hup | ⟨hup, -⟩) <;> simp [h] at hup

/-- Of two paths with one parent none is above the other. -/
theorem not_above_of_parent?_eq (h : parent? other = parent? path) : ¬ Above path other := by
  intro habove
  -- the path above would be the parent or above the parent, so not longer than it
  have hnear : ∃ up, parent? other = some up ∧ path.toList.length ≤ up.toList.length := by
    cases habove with
    | parent hup => exact ⟨path, hup, Nat.le_refl _⟩
    | climb hup habove => exact ⟨_, hup, Nat.le_of_lt habove.length_lt⟩
  obtain ⟨up, hup, hlength⟩ := hnear
  exact absurd (length_lt_of_parent? (h.symm.trans hup)) (Nat.not_lt.mpr hlength)

/-! ## The ancestors that are stored -/

/-- The listed ancestors are those below the root. -/
theorem mem_ancestors_iff : other ∈ ancestors path ↔ Above other path ∧ other ≠ "/" := by
  induction path using parent_induction with
  | step path ih =>
    rw [ancestors_eq]
    cases hup : parent? path with
    | none => simp [not_above_of_parent? hup]
    | some up =>
      have hsplit : Above other path ↔ other = up ∨ Above other up := by
        constructor
        · rintro (hown | ⟨hown, habove⟩)
          · exact .inl (Option.some.inj (hown.symm.trans hup))
          · obtain rfl := Option.some.inj (hown.symm.trans hup)
            exact .inr habove
        · rintro (rfl | habove)
          · exact .parent hup
          · exact .climb hup habove
      by_cases hroot : up = "/"
      · -- above the root there is nothing
        subst hroot
        have hnone : ¬ Above other "/" := not_above_of_parent? rfl
        simp [hsplit, hnone]
      · simp only [if_neg hroot, List.mem_cons, ih up hup, hsplit, or_and_right]
        refine or_congr_left ⟨?_, And.left⟩
        rintro rfl
        exact ⟨rfl, hroot⟩

/-- A path lies below the root, and otherwise only below its ancestors. -/
theorem eq_root_of_isBelow (htop : top ≠ "") (hbelow : Path.isBelow top path = true) (hne : top ≠ path)
    (hnot : top ∉ ancestors path) : top = "/" := by
  rw [mem_ancestors_iff, not_and] at hnot
  exact Decidable.not_not.mp (hnot (above_of_isBelow htop hbelow hne.symm))

/-- The ancestors of an ancestor are ancestors as well. -/
theorem mem_ancestors_of_mem (h : top ∈ ancestors up) (hup : up ∈ path :: ancestors path) :
    top ∈ ancestors path := by
  rcases List.mem_cons.mp hup with rfl | hup
  · exact h
  · obtain ⟨habove, hroot⟩ := mem_ancestors_iff.mp h
    exact mem_ancestors_iff.mpr ⟨habove.trans (mem_ancestors_iff.mp hup).1, hroot⟩

/-- There are not more of them than the path has characters. -/
theorem length_ancestors_le (path : String) : (ancestors path).length ≤ path.toList.length := by
  induction path using parent_induction with
  | step path ih =>
    rw [ancestors_eq]
    cases hup : parent? path with
    | none => exact Nat.zero_le _
    | some up =>
      have hlength := length_lt_of_parent? hup
      have hup := ih up hup
      dsimp only
      split
      · exact Nat.zero_le _
      · rw [List.length_cons]
        omega

end Path

/-! ## The climb -/

/-- How far the climb to the root is that fills the gaps above a new node. -/
structure Climb where
  /-- The path whose turn it is. -/
  next : Option String
  /-- The nodes stored so far. -/
  tree : NodeTree

namespace Climb

/-- One round: the path gets a blank node if it has none, and it is its parent's turn. At the root, or
where there is no path left, the climb is over. -/
def round? (climb : Climb) : Option Climb :=
  match climb.next with
  | none => none
  | some path =>
    if path = "/" then none else some ⟨Path.parent? path, climb.tree.insertIfNew path .blank⟩

/-- What so many rounds make of it, if it is not over before. -/
def rounds? : Nat → Climb → Option Climb
  | 0, climb => some climb
  | rounds + 1, climb => climb.round?.bind (rounds? rounds)

/-- Nothing of the climb is left. -/
def Over (climb : Climb) : Prop := climb.round? = none

/-- From every text the climb passes each ancestor once and is over then. -/
theorem ends (tree : NodeTree) (path : String) :
    ∃ last, rounds? (Path.ancestors path).length ⟨Path.parent? path, tree⟩ = some last ∧ last.Over
      ∧ last.tree = tree.insertBlanks (Path.ancestors path) := by
  induction path using Path.parent_induction generalizing tree with
  | step path ih =>
    rw [Path.ancestors_eq]
    cases hup : Path.parent? path with
    | none => exact ⟨⟨none, tree⟩, rfl, rfl, rfl⟩
    | some up =>
      dsimp only
      by_cases hroot : up = "/"
      · rw [if_pos hroot]
        exact ⟨⟨some up, tree⟩, rfl, if_pos hroot, rfl⟩
      · -- one round fills the gap at the parent and leaves the climb from there
        rw [if_neg hroot]
        obtain ⟨last, hlast, hover, htree⟩ := ih up hup (tree.insertIfNew up .blank)
        refine ⟨last, ?_, hover, htree⟩
        have hround : round? ⟨some up, tree⟩
            = some ⟨Path.parent? up, tree.insertIfNew up .blank⟩ := if_neg hroot
        rw [List.length_cons, rounds?, hround]
        exact hlast

end Climb

/-! ## Creating a node -/

namespace NodeTree

/-- What a node created at a path makes of a tree without one. -/
structure Gains (before after : NodeTree) (path : String) (data : List UInt8) (mode : NodeMode) :
    Prop where
  /-- The path and what is above it, up to the root, are stored besides the paths stored before. -/
  paths : ∀ other,
    other ∈ after ↔ other ∈ before ∨ other = path ∨ (Path.Above other path ∧ other ≠ "/")
  /-- The new node is the one asked for, unwritten. -/
  own : after[path]? = some ⟨data, 0, mode⟩
  /-- An ancestor that was missing is persistent, empty and unwritten. -/
  filled : ∀ other : String, Path.Above other path → other ≠ "/" → other ∉ before →
    after[other]? = some ⟨[], 0, .persistent⟩
  /-- Every node stored before is as it was. -/
  kept : ∀ (other : String) (node : Node), before[other]? = some node → after[other]? = some node

theorem gains_create {tree : NodeTree} {path : String} (hgap : path ∉ tree) (data : List UInt8)
    (mode : NodeMode) : tree.Gains (tree.create path data mode) path data mode where
  paths other := by
    rw [mem_create, List.mem_cons, Path.mem_ancestors_iff, or_comm]
  own := by rw [getElem?_create, if_pos rfl]
  filled other habove hroot hmissing := by
    have hne : path ≠ other := by
      rintro rfl
      exact absurd habove.length_lt (Nat.lt_irrefl _)
    rw [getElem?_create, if_neg hne, Std.ExtTreeMap.getElem?_eq_none hmissing,
      if_pos (Path.mem_ancestors_iff.mpr ⟨habove, hroot⟩)]
    rfl
  kept other node hnode := by
    have hne : path ≠ other := by
      rintro rfl
      exact hgap (mem_iff_exists.mpr ⟨node, hnode⟩)
    rw [getElem?_create, if_neg hne, hnode]
    rfl

end NodeTree

namespace Coordinator

/-- A node is created at a path together with the branch that it hangs on, or not at all. -/
structure CreatesBranch (c : Coordinator) (path : String) (data : List UInt8) (mode : NodeMode) :
    Prop where
  /-- Where no node is, over a connection that is up, the node comes to be. -/
  created : c.connected = true → path ∉ c.tree → path ≠ "/" →
    ∃ tree, c.perform (.create path data mode) = (.ok (), { c with tree })
      ∧ c.tree.Gains tree path data mode
  /-- While the connection is down nothing changes. -/
  lost : c.connected = false → c.perform (.create path data mode) = (.error .connectionLoss, c)
  /-- Where a node is nothing changes; the root always is. -/
  taken : c.connected = true → path ∈ c.tree ∨ path = "/" →
    c.perform (.create path data mode) = (.error (.nodeExists path), c)
  /-- The climb that fills the gaps is over after no more rounds than the path has characters, and the
  new node is stored in the tree that it leaves. -/
  climbs : ∃ rounds ≤ path.toList.length, ∃ last,
    Climb.rounds? rounds ⟨Path.parent? path, c.tree⟩ = some last ∧ last.Over
      ∧ c.tree.create path data mode = last.tree.insert path ⟨data, 0, mode⟩

/-- **Creating a node stores it and its missing ancestors, changes nothing else, and comes to an end for
every path.** -/
theorem creates_branch (c : Coordinator) (path : String) (data : List UInt8) (mode : NodeMode) :
    c.CreatesBranch path data mode where
  created hup hgap hroot := by
    have hfree : c.tree.hasNode path ≠ true := by simp [NodeTree.hasNode_iff, hgap, hroot]
    refine ⟨c.tree.create path data mode, ?_, NodeTree.gains_create hgap data mode⟩
    rw [perform, if_neg (by simp [hup]), if_neg hfree]
  lost hdown := by rw [perform, if_pos (by simp [hdown])]
  taken hup hthere := by
    rw [perform, if_neg (by simp [hup]), if_pos (NodeTree.hasNode_iff.mpr hthere.symm)]
  climbs := by
    obtain ⟨last, hlast, hover, htree⟩ := Climb.ends c.tree path
    refine ⟨_, Path.length_ancestors_le path, last, hlast, hover, ?_⟩
    rw [NodeTree.create, htree]

end Coordinator

/-! ## Deleting a node -/

namespace NodeTree

/-- What a node deleted at a path leaves of a tree. -/
structure Loses (before after : NodeTree) (path : String) : Prop where
  /-- The path is gone, and so is every path that it is above. -/
  gone : ∀ other, other = path ∨ Path.Above path other → other ∉ after
  /-- All others keep their nodes. -/
  kept : ∀ other : String, other ≠ path → ¬ Path.Above path other → after[other]? = before[other]?
  /-- So do the other children of the parent, also where their names begin with the deleted one. -/
  siblings : ∀ other : String, other ≠ path → Path.parent? other = Path.parent? path →
    after[other]? = before[other]?

theorem loses_delete {path : String} (hpath : path ≠ "") (tree : NodeTree) :
    tree.Loses (tree.delete path) path := by
  have hkept (other : String) (hne : other ≠ path) (habove : ¬ Path.Above path other) :
      (tree.delete path)[other]? = tree[other]? := by
    -- where the characters begin with the path and a slash, the path is above
    have hbeside : ¬ (path = other ∨ Path.isBelow path other = true) := by
      rintro (rfl | hbelow)
      · exact hne rfl
      · exact habove ((Path.above_iff hpath).mpr ⟨hbelow, hne⟩)
    rw [getElem?_delete, if_neg hbeside]
  refine ⟨?_, hkept, fun other hne h => hkept other hne (Path.not_above_of_parent?_eq h)⟩
  intro other hother hmem
  obtain ⟨hne, hbelow, -⟩ := mem_delete.mp hmem
  rcases hother with rfl | habove
  · exact hne rfl
  · simp [habove.isBelow] at hbelow

end NodeTree

namespace Coordinator

/-- A node is deleted at a path together with the branch below it, or not at all. -/
structure DeletesBranch (c : Coordinator) (path : String) : Prop where
  /-- A stored node goes with everything it is above, and nothing else. -/
  deleted : path ∈ c.tree →
    ∃ tree, c.perform (.delete path) = (.ok (), { c with tree }) ∧ c.tree.Loses tree path
  /-- Where nothing is stored nothing changes. -/
  missing : path ∉ c.tree → c.perform (.delete path) = (.error (.noNode path), c)

/-- **Deleting a node removes it and what it is an ancestor of, and keeps everything else as it is.** -/
theorem deletes_branch {c : Coordinator} {path : String} (hup : c.connected = true)
    (hpath : Path.check path = .ok ()) : c.DeletesBranch path where
  deleted hmem := by
    have hsome : path ≠ "" := by
      rintro rfl
      cases hpath
    refine ⟨c.tree.delete path, ?_, NodeTree.loses_delete hsome c.tree⟩
    rw [perform, if_neg (by simp [hup]), if_pos (Std.ExtTreeMap.contains_iff_mem.mpr hmem)]
  missing hgap := by
    rw [perform, if_neg (by simp [hup]), if_neg (mt Std.ExtTreeMap.contains_iff_mem.mp hgap)]

/-- A service with a branch and a node beside it whose name begins as the branch's. -/
def branched : Coordinator :=
  (((fresh.perform (.connect default default)).2.seed "/a" 3).seed "/a/x/y" 1).seed "/ab" 7

/-- The branch goes, and the node beside it stays. -/
theorem deletes_branch_branched :
    branched.connected = true ∧ Path.check "/a" = .ok () ∧ branched.DeletesBranch "/a"
      ∧ "/a" ∈ branched.tree ∧ branched.tree["/a/x/y"]? = some ⟨[], 1, .persistent⟩
      ∧ branched.tree["/ab"]? = some ⟨[], 7, .persistent⟩
      ∧ Path.Above "/a" "/a/x/y" ∧ Path.parent? "/ab" = Path.parent? "/a" := by
  refine ⟨rfl, rfl, deletes_branch rfl rfl, ?_, ?_, ?_, ?_, rfl⟩
  · decide +kernel
  · decide +kernel
  · decide +kernel
  · exact .climb rfl (.parent rfl)

end Coordinator

end IdMint.Coordination
