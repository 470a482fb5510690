import IdMint.Proofs.FreshSequences
import IdMint.Proofs.NodeBranches
import IdMint.Proofs.TextBytes
import IdMint.Proofs.TreeClosure
import Mathlib.Data.List.Sort
import Mathlib.Data.List.TakeWhile

/-! # Children of nodes

The service finds the children of a node in one scan over the paths in their order: it begins at the
stem of the node's path, stops at the first path without it, and leaves out what has a slash further
behind. Paths with a stem in front stand together in the order, so nothing is behind the stop that the
scan should find: `NodeTree.scan_eq`. What it finds are the stored paths that have the node as their
parent: `Coordinator.lists_children`. -/

namespace IdMint.Coordination

/-! ## Ordered lists -/

/-- Where what passes stands in front of what does not, taking as long as it passes is taking all of it. -/
theorem takeWhile_eq_filter {α : Type} {p : α → Bool} {list : List α}
    (h : list.Pairwise fun a b => p b = true → p a = true) : list.takeWhile p = list.filter p := by
  induction h with
  | nil => rfl
  | @cons a rest hfirst _ ih =>
    by_cases ha : p a = true
    · rw [List.takeWhile_cons_of_pos ha, List.filter_cons_of_pos ha, ih]
    · -- behind one that does not pass there is none that does
      have hnone : rest.filter p = [] :=
        List.filter_eq_nil_iff.mpr fun b hb hpass => ha (hfirst b hb hpass)
      rw [List.takeWhile_cons_of_neg ha, List.filter_cons_of_neg ha, hnone]

/-- What is left when the texts before a stem are dropped is not before the stem. -/
theorem not_lt_of_mem_dropWhile {keys : List String} (h : keys.Pairwise (· < ·)) {stem key : String}
    (hmem : key ∈ keys.dropWhile (· < stem)) : ¬ key < stem := by
  induction h with
  | nil => cases hmem
  | @cons first rest hfirst _ ih =>
    by_cases hbefore : first < stem
    · rw [List.dropWhile_cons_of_pos (by simpa using hbefore)] at hmem
      exact ih hmem
    · rw [List.dropWhile_cons_of_neg (by simpa using hbefore), List.mem_cons] at hmem
      obtain rfl | hmem := hmem
      · exact hbefore
      · -- a later one is greater than the first that is left
        intro hlt
        exact hbefore (String.lt_trans (hfirst key hmem) hlt)

/-- What stands between a stem and something that begins with it begins with it as well. -/
theorem exists_append_of_between {stem rest chars : List Char} (hlow : ¬ chars < stem)
    (hhigh : chars < stem ++ rest) : ∃ more, chars = stem ++ more := by
  induction stem generalizing chars with
  | nil => exact ⟨chars, rfl⟩
  | cons c stem ih =>
    cases chars with
    | nil => exact absurd (List.nil_lt_cons c stem) hlow
    | cons d chars =>
      rw [List.cons_lt_cons_iff, not_or] at hlow
      rw [List.cons_append, List.cons_lt_cons_iff] at hhigh
      obtain ⟨rfl, hrest⟩ := hhigh.resolve_left hlow.1
      obtain ⟨more, rfl⟩ := ih (fun hlt => hlow.2 ⟨rfl, hlt⟩) hrest
      exact ⟨more, rfl⟩

/-! ## Names -/

namespace Path

/-- The last name in a path. -/
def lastName (path : String) : String :=
  String.ofList ((split path.toList).getLast (split_ne_nil _))

variable {path child : String}

/-- A stem ends in a slash. -/
theorem exists_childStem_eq_concat (path : List Char) : ∃ front, childStem path = front ++ ['/'] := by
  rw [childStem]
  split
  · exact ⟨[], rfl⟩
  · exact ⟨path, rfl⟩

/-- The name behind a stem is the last one. -/
theorem lastName_of_stem {name : List Char} (hchild : child.toList = childStem path.toList ++ name)
    (hname : '/' ∉ name) : lastName child = String.ofList name := by
  obtain ⟨front, hfront⟩ := exists_childStem_eq_concat path.toList
  have hsplit : split child.toList = split front ++ [name] := by
    rw [hchild, hfront, List.append_assoc, List.singleton_append, split_append,
      split_of_not_mem hname]
  simp only [lastName, hsplit, List.getLast_append_of_ne_nil _ (List.cons_ne_nil _ _),
    List.getLast_singleton]

/-- A valid path is the stem of its parent and its last name. -/
theorem exists_name_of_parent? (hvalid : check child = .ok ()) (h : parent? child = some path) :
    ∃ name, '/' ∉ name ∧ child.toList = childStem path.toList ++ name := by
  obtain ⟨front, name, hchild, hname⟩ := exists_last_slash (slash_mem_of_check hvalid)
  refine ⟨name, hname, ?_⟩
  rw [parent?, hchild, parentChars?_append hname] at h
  by_cases hfront : front = []
  · subst hfront
    by_cases hnone : name = []
    · simp [hnone] at h
    · rw [if_pos rfl, if_neg hnone] at h
      cases h
      exact hchild
  · rw [if_neg hfront] at h
    cases h
    -- two slashes in a row would enclose an empty name
    have hsingle : front ≠ ['/'] := by
      rintro rfl
      rw [check_eq_ok_iff, hchild, List.singleton_append, fault?_eq_none_iff (List.cons_ne_nil _ _),
        split_slash] at hvalid
      cases hvalid.2.2 [] List.mem_cons_self
    rw [hchild, String.toList_ofList, childStem, if_neg hsingle, List.append_assoc,
      List.singleton_append]

/-- A valid path below the root has a name right below another path exactly if that is its parent. -/
theorem childName?_eq (hpath : check path = .ok ()) (hvalid : check child = .ok ())
    (hroot : child ≠ "/") :
    childName? path child = if parent? child = some path then some (lastName child) else none := by
  have hsome : path ≠ "" := by
    rintro rfl
    cases hpath
  by_cases hup : parent? child = some path
  · obtain ⟨name, hname, hchild⟩ := exists_name_of_parent? hvalid hup
    rw [if_pos hup, lastName_of_stem hchild hname]
    simp only [childName?, behind?_eq_some_iff.mpr hchild, if_neg hname]
  rw [if_neg hup, childName?]
  cases hbehind : behind? (childStem path.toList) child.toList with
  | none => rfl
  | some rest =>
    have hchild := behind?_eq_some_iff.mp hbehind
    by_cases hslash : '/' ∈ rest
    · exact if_pos hslash
    · -- without a slash it is a child, or the root itself
      refine absurd (parent?_of_stem hsome ?_ hchild hslash) hup
      rintro rfl
      have hlength := congrArg List.length hchild
      rw [childStem_of_ne_root hroot, List.length_append, List.length_append,
        List.length_singleton] at hlength
      omega

/-- A valid path below the root does not end in a slash. -/
theorem getLast?_ne_slash (h : check path = .ok ()) (hroot : path ≠ "/") :
    path.toList.getLast? ≠ some '/' := by
  intro hlast
  obtain ⟨front, hfront⟩ := List.getLast?_eq_some_iff.mp hlast
  rw [check_eq_ok_iff, hfront] at h
  cases front with
  | nil => exact hroot (String.toList_inj.mp hfront)
  | cons c names =>
    by_cases hc : c = '/'
    · subst hc
      rw [List.cons_append, fault?_eq_none_iff (by simp)] at h
      exact h.1 (by simp)
    · simp [fault?, hc] at h

/-- What stands between the stem of a path and something below the path is below it as well. -/
theorem isBelow_of_between {other : String}
    (hlow : ¬ other < String.ofList (childStem path.toList)) (hhigh : other < child)
    (h : isBelow path child = true) : isBelow path other = true := by
  obtain ⟨rest, hrest⟩ := isBelow_iff.mp h
  rw [isBelow_iff]
  rw [String.lt_iff, String.toList_ofList] at hlow
  rw [String.lt_iff, hrest] at hhigh
  exact exists_append_of_between hlow hhigh

end Path

/-! ## The scan -/

namespace NodeTree

variable {tree : NodeTree} {path : String}

theorem pairwise_keys (tree : NodeTree) : tree.keys.Pairwise (· < ·) := by
  refine Std.ExtTreeMap.ordered_keys.imp ?_
  intro a b h
  exact compareOfLessAndEq_eq_lt.mp h

/-- What stands before the stem does not begin with it. -/
theorem not_isBelow_of_lt {other : String} (h : other < String.ofList (Path.childStem path.toList)) :
    ¬ Path.isBelow path other = true := by
  intro hbelow
  obtain ⟨rest, hrest⟩ := Path.isBelow_iff.mp hbelow
  rw [String.lt_iff, String.toList_ofList, hrest] at h
  exact List.not_lt.mpr List.le_append_left h

/-- The scan misses nothing that lies below the path. -/
theorem scan_eq (tree : NodeTree) (path : String) :
    tree.scan path = tree.keys.filter (Path.isBelow path) := by
  rw [scan]
  generalize hstem : String.ofList (Path.childStem path.toList) = stem
  have hdropped : (tree.keys.takeWhile (· < stem)).filter (Path.isBelow path) = [] := by
    rw [List.filter_eq_nil_iff]
    intro key hkey
    subst hstem
    have hbefore := List.mem_takeWhile_imp hkey
    exact not_isBelow_of_lt (of_decide_eq_true hbefore)
  -- from the stem on, whatever stands in front of a path with the stem has it as well
  have htogether : (tree.keys.dropWhile (· < stem)).Pairwise fun a b =>
      Path.isBelow path b = true → Path.isBelow path a = true := by
    refine (tree.pairwise_keys.sublist (List.dropWhile_sublist _)).imp_of_mem ?_
    intro a b ha _ hlt
    subst hstem
    exact Path.isBelow_of_between (not_lt_of_mem_dropWhile tree.pairwise_keys ha) hlt
  calc (tree.keys.dropWhile (· < stem)).takeWhile (Path.isBelow path)
      = (tree.keys.dropWhile (· < stem)).filter (Path.isBelow path) := takeWhile_eq_filter htogether
    _ = (tree.keys.takeWhile (· < stem) ++ tree.keys.dropWhile (· < stem)).filter
        (Path.isBelow path) := by rw [List.filter_append, hdropped, List.nil_append]
    _ = tree.keys.filter (Path.isBelow path) := by rw [List.takeWhile_append_dropWhile]

/-! ## The children -/

/-- The stored paths that have a path as their parent, in ascending order. -/
def childPaths (tree : NodeTree) (path : String) : List String :=
  tree.keys.filter fun child => Path.parent? child = some path

theorem mem_childPaths {child : String} :
    child ∈ tree.childPaths path ↔ child ∈ tree ∧ Path.parent? child = some path := by
  rw [childPaths, List.mem_filter, Std.ExtTreeMap.mem_keys, decide_eq_true_iff]

theorem pairwise_childPaths (tree : NodeTree) (path : String) :
    (tree.childPaths path).Pairwise (· < ·) := tree.pairwise_keys.filter _

/-- Trees that store the same paths have the same children. -/
theorem childPaths_congr {tree' : NodeTree} (h : ∀ other, other ∈ tree ↔ other ∈ tree')
    (path : String) : tree.childPaths path = tree'.childPaths path := by
  refine (tree.pairwise_childPaths path).eq_of_mem_iff (tree'.pairwise_childPaths path) ?_
  intro child
  rw [mem_childPaths, mem_childPaths, h]

/-- The names that the scan finds are the last names of the children. -/
theorem childNames_eq (hproper : tree.Proper) (hpath : Path.check path = .ok ()) :
    tree.childNames path = (tree.childPaths path).map Path.lastName := by
  rw [childNames, scan_eq, childPaths, ← List.filterMap_eq_map, List.filterMap_filter,
    List.filterMap_filter]
  apply List.filterMap_congr
  intro child hchild
  obtain ⟨hvalid, hroot⟩ := hproper child (Std.ExtTreeMap.mem_keys.mp hchild)
  rw [Path.childName?_eq hpath hvalid hroot]
  by_cases hup : Path.parent? child = some path
  · simp [hup, Path.isBelow_parent? hup]
  · simp [hup]

theorem length_childNames (hproper : tree.Proper) (hpath : Path.check path = .ok ()) :
    (tree.childNames path).length = (tree.childPaths path).length := by
  rw [childNames_eq hproper hpath, List.length_map]

/-- Below the bound of 32 bits the count of a stat is the number of children. -/
theorem toInt_childCount (hproper : tree.Proper) (hpath : Path.check path = .ok ())
    (hfew : (tree.childPaths path).length < 2 ^ 31) :
    (tree.childCount path).toInt = (tree.childPaths path).length := by
  rw [childCount, length_childNames hproper hpath, Int32.toInt_ofNat_of_lt hfew]

end NodeTree

/-! ## The answers -/

namespace Session

/-- A valid path without slashes at its end, and a slash, are its stem. -/
theorem withoutEndSlashes_append {path : String} (h : Path.check path = .ok ()) :
    (withoutEndSlashes path ++ "/").toList = Path.childStem path.toList := by
  by_cases hroot : path = "/"
  · subst hroot
    rfl
  have hsome : path.toList ≠ [] := List.ne_nil_of_mem (Path.slash_mem_of_check h)
  obtain ⟨front, last, hpath⟩ := (List.eq_nil_or_concat path.toList).resolve_left hsome
  rw [List.concat_eq_append] at hpath
  have hlast : last ≠ '/' := by
    rintro rfl
    exact Path.getLast?_ne_slash h hroot (by simp [hpath])
  rw [Path.childStem_of_ne_root hroot, withoutEndSlashes, String.toList_append, String.toList_ofList, hpath,
    List.reverse_append, List.reverse_singleton, List.singleton_append,
    List.dropWhile_cons_of_neg (by simpa using hlast)]
  simp

/-- A child's path is what its session puts together from the parent's and the child's last name. -/
theorem path_of_child {path child : String} (hpath : Path.check path = .ok ())
    (hvalid : Path.check child = .ok ()) (h : Path.parent? child = some path) :
    withoutEndSlashes path ++ "/" ++ Path.lastName child = child := by
  obtain ⟨name, hname, hchild⟩ := Path.exists_name_of_parent? hvalid h
  rw [← String.toList_inj, String.toList_append, withoutEndSlashes_append hpath, hchild,
    Path.lastName_of_stem hchild hname, String.toList_ofList]

variable {c : Coordinator} {path : String} {names : List String}

/-- A started session passes the names on that the service lists. -/
theorem comes_childNames (hpath : Path.check path = .ok ())
    (hnames : c.perform (.children path) = (.ok names, c)) :
    (childNames path).run.Comes .started c 1 (.ok names) .started c := by
  have hsettled : Fault.settled? (c.perform (.children path)).1 = some (.ok names) := by
    rw [hnames]
    rfl
  have hcomes := comes_onNode hpath .listChildren hsettled
  rw [hnames] at hcomes
  exact hcomes

/-- It puts the paths together from them. -/
theorem comes_childPaths (hproper : c.tree.Proper) (hpath : Path.check path = .ok ())
    (hnames : c.perform (.children path) = (.ok names, c))
    (hlisted : names = (c.tree.childPaths path).map Path.lastName) :
    (childPaths path).run.Comes .started c 1 (.ok (c.tree.childPaths path)) .started c := by
  have hpaths : (names.map fun name => withoutEndSlashes path ++ "/" ++ name)
      = c.tree.childPaths path := by
    rw [hlisted, List.map_map]
    refine (List.map_congr_left ?_).trans (List.map_id _)
    intro child hchild
    obtain ⟨hmem, hup⟩ := NodeTree.mem_childPaths.mp hchild
    exact path_of_child hpath (hproper child hmem).1 hup
  have hcomes := (comes_childNames hpath hnames).map
    (·.map fun names => names.map fun name => withoutEndSlashes path ++ "/" ++ name)
  rw [run_childPaths]
  rw [Except.map, hpaths] at hcomes
  exact hcomes

end Session

namespace Coordinator

variable {c : Coordinator} {path : String} {names : List String}

/-- A service that lists names lists those that the scan finds, and stays as it is. -/
theorem perform_children (h : (c.perform (.children path)).1 = .ok names) :
    names = c.tree.childNames path ∧ c.perform (.children path) = (.ok names, c) := by
  by_cases hdown : (!c.connected) = true
  · simp [perform, hdown] at h
  by_cases hthere : c.tree.hasNode path = true
  · have hreply : c.perform (.children path) = (.ok (c.tree.childNames path), c) := by
      rw [perform, if_neg hdown, if_pos hthere]
    rw [hreply] at h
    cases h
    exact ⟨rfl, hreply⟩
  · simp [perform, hdown, hthere] at h

/-- Children in the order of their paths are in the order of the bytes. -/
theorem ascending_childPaths (c : Coordinator) (path : String) :
    ((c.tree.childPaths path).map Text.bytes).Pairwise (· < ·) :=
  List.pairwise_map.mpr ((c.tree.pairwise_childPaths path).imp Text.bytes_lt_iff.mpr)

/-- A stat that is looked up has the count of the scan. -/
theorem childCount_of_lookUp {stat : NodeStat}
    (h : (c.perform (.lookUp path)).1 = .ok (some stat)) :
    stat.children = c.tree.childCount path := by
  by_cases hup : c.connected = true
  · rw [perform, if_pos hup] at h
    obtain ⟨node, -, hstat⟩ := Option.map_eq_some_iff.mp (Except.ok.inj h)
    rw [← hstat]
  · rw [perform, if_neg hup] at h
    cases h

/-- A write adds no path and takes none away, and its stat has the count of the scan. -/
theorem childCount_of_setData {data : List UInt8} {version : Int32} {stat : NodeStat}
    (h : (c.perform (.setData path data version)).1 = .ok stat) :
    (∀ other, other ∈ (c.perform (.setData path data version)).2.tree ↔ other ∈ c.tree)
      ∧ stat.children = c.tree.childCount path := by
  by_cases hdown : (!c.connected) = true
  · simp [perform, hdown] at h
  cases hwrite : write c.tree path data version with
  | error fault => simp [perform, hdown, hwrite] at h
  | ok written =>
    obtain ⟨own, tree⟩ := written
    obtain ⟨node, hnode, hversion, -⟩ := getElem?_write hwrite
    have hreply : c.perform (.setData path data version) = (.ok own, { c with tree }) := by
      rw [perform, if_neg hdown, hwrite]
    rw [hreply] at h ⊢
    rw [write_of_version hnode hversion] at hwrite
    cases hwrite
    cases h
    have hmem := NodeTree.mem_iff_exists.mpr ⟨node, hnode⟩
    exact ⟨fun other => NodeTree.mem_insert_of_mem hmem _, rfl⟩

/-- What a service tells of the children of a path. -/
structure ListsChildren (c : Coordinator) (path : String) (names : List String) : Prop where
  /-- The children are the stored paths that have the path as their parent. -/
  members : ∀ child,
    child ∈ c.tree.childPaths path ↔ child ∈ c.tree ∧ Path.parent? child = some path
  /-- They stand in the order of their bytes, one before the other, so that none stands there twice. -/
  ascending : ((c.tree.childPaths path).map Text.bytes).Pairwise (· < ·)
  /-- The names are their last names. -/
  named : names = (c.tree.childPaths path).map Path.lastName
  /-- A started session lists their paths and their names, with one call. -/
  listed : ∀ (policy : RetryPolicy) (stage : Stage), stage.coordinator = c → stage.phase = .started →
    stage.plan = .calm → ∀ steps, 1 < steps →
      (∃ report last,
        rehearse policy steps (Session.childPaths path).run none stage = some (report, last)
          ∧ report.result = .ok (c.tree.childPaths path) ∧ last.coordinator = c)
      ∧ ∃ report last,
        rehearse policy steps (Session.childNames path).run none stage = some (report, last)
          ∧ report.result = .ok names ∧ last.coordinator = c
  /-- A stat that is looked up counts them. -/
  lookedUp : ∀ stat, (c.perform (.lookUp path)).1 = .ok (some stat) →
    (c.tree.childPaths path).length < 2 ^ 31 →
      stat.children.toInt = (c.tree.childPaths path).length
  /-- The stat of a write counts them, and the write leaves them as they are. -/
  written : ∀ data version stat, (c.perform (.setData path data version)).1 = .ok stat →
    (c.perform (.setData path data version)).2.tree.childPaths path = c.tree.childPaths path
      ∧ ((c.tree.childPaths path).length < 2 ^ 31 →
        stat.children.toInt = (c.tree.childPaths path).length)

/-- **The children of a node are the stored paths that have it as their parent**, also where nodes
between are missing. -/
theorem lists_children (hproper : c.tree.Proper) (hpath : Path.check path = .ok ())
    (hnames : (c.perform (.children path)).1 = .ok names) : c.ListsChildren path names := by
  obtain ⟨hscan, hreply⟩ := perform_children hnames
  have hlisted : names = (c.tree.childPaths path).map Path.lastName :=
    hscan.trans (NodeTree.childNames_eq hproper hpath)
  refine ⟨fun child => NodeTree.mem_childPaths, c.ascending_childPaths path, hlisted, ?_, ?_, ?_⟩
  · rintro policy stage rfl hphase hplan steps hsteps
    have hpaths := Session.comes_childPaths hproper hpath hreply hlisted
    have hnames := Session.comes_childNames hpath hreply
    rw [← hphase] at hpaths hnames
    obtain ⟨report, last, hrehearse, hresult, -, hservice, -⟩ :=
      rehearse_of_comes policy hplan hpaths
    obtain ⟨report', last', hrehearse', hresult', -, hservice', -⟩ :=
      rehearse_of_comes policy hplan hnames
    exact ⟨⟨report, last, hrehearse steps hsteps, hresult, hservice⟩,
      ⟨report', last', hrehearse' steps hsteps, hresult', hservice'⟩⟩
  · intro stat hstat hfew
    rw [childCount_of_lookUp hstat]
    exact NodeTree.toInt_childCount hproper hpath hfew
  · intro data version stat hstat
    obtain ⟨hsame, hcount⟩ := childCount_of_setData hstat
    refine ⟨NodeTree.childPaths_congr hsame path, fun hfew => ?_⟩
    rw [hcount]
    exact NodeTree.toInt_childCount hproper hpath hfew

/-- A service whose paths are stored in an order in which the children of one node have others between
them: nodes further below, one of them without its parent, and one that stands beside the node. -/
def interleaved : Coordinator :=
  ["/a", "/a!", "/a/b", "/a/b!", "/a/b/c", "/a/x/y", "/a/z", "/ab"].foldl
    (fun c path => c.seed path 0) (fresh.perform (.connect default default)).2

theorem proper_interleaved : interleaved.tree.Proper := by
  have hall : interleaved.tree.keys.all fun path => Path.fault? path.toList = none ∧ path ≠ "/" := by
    decide +kernel
  intro path hpath
  have hvalid := List.all_eq_true.mp hall path (Std.ExtTreeMap.mem_keys.mpr hpath)
  rw [decide_eq_true_iff] at hvalid
  exact ⟨Path.check_eq_ok_iff.mpr hvalid.1, hvalid.2⟩

/-- The children are found between the others. -/
theorem lists_children_interleaved :
    interleaved.tree.Proper ∧ Path.check "/a" = .ok ()
      ∧ (interleaved.perform (.children "/a")).1 = .ok ["b", "b!", "z"]
      ∧ interleaved.ListsChildren "/a" ["b", "b!", "z"]
      ∧ interleaved.tree.childPaths "/a" = ["/a/b", "/a/b!", "/a/z"] := by
  have hnames : (interleaved.perform (.children "/a")).1 = .ok ["b", "b!", "z"] := by
    decide +kernel
  refine ⟨proper_interleaved, rfl, hnames, lists_children proper_interleaved rfl hnames, ?_⟩
  decide +kernel

end Coordinator

end IdMint.Coordination
