import IdMint.Coordination.Path

/-! # Parents of node paths

A path that is cut off in front of a slash stays valid, so a valid path other than the root's has a
valid parent, and so have its ancestors. What lies below the parent of a path, or is the parent, has
the path below it. -/

namespace IdMint.Coordination.Path

/-! ## The last slash -/

/-- A text with a slash in it has a last one. -/
theorem exists_last_slash {path : List Char} (h : '/' ∈ path) :
    ∃ front name, path = front ++ '/' :: name ∧ '/' ∉ name := by
  induction path with
  | nil => cases h
  | cons c cs ih =>
    by_cases hcs : '/' ∈ cs
    · obtain ⟨front, name, rfl, hname⟩ := ih hcs
      exact ⟨c :: front, name, rfl, hname⟩
    · obtain rfl : '/' = c := (List.mem_cons.mp h).resolve_right hcs
      exact ⟨[], cs, rfl, hcs⟩

/-- Backwards a text without a slash has none either. -/
theorem forall_mem_reverse_ne {name : List Char} (h : '/' ∉ name) :
    ∀ c ∈ name.reverse, decide (c ≠ '/') = true := by
  intro c hc
  rw [decide_eq_true_iff]
  rintro rfl
  exact h (List.mem_reverse.mp hc)

/-- The parent of a path is what stands in front of its last slash; where nothing does, the root. -/
theorem parentChars?_append {front name : List Char} (h : '/' ∉ name) :
    parentChars? (front ++ '/' :: name)
      = if front = [] then (if name = [] then none else some ['/']) else some front := by
  have hdrop : (front ++ '/' :: name).reverse.dropWhile (· ≠ '/') = '/' :: front.reverse := by
    rw [List.reverse_append, List.reverse_cons, List.append_assoc, List.dropWhile_append_of_pos]
    · simp
    · exact forall_mem_reverse_ne h
  rw [parentChars?, hdrop]
  by_cases hfront : front = []
  · subst hfront
    simp
  · simp [hfront]

/-- A path without a slash has no parent. -/
theorem parentChars?_of_not_mem {path : List Char} (h : '/' ∉ path) : parentChars? path = none := by
  have hdrop : (path.reverse ++ []).dropWhile (· ≠ '/') = [] := by
    rw [List.dropWhile_append_of_pos]
    · rfl
    · exact forall_mem_reverse_ne h
  rw [List.append_nil] at hdrop
  rw [parentChars?, hdrop]

/-- The stem of a parent stands in front of its child's name. -/
theorem eq_append_of_parentChars? {path up : List Char} (h : parentChars? path = some up) :
    ∃ name, path = childStem up ++ name := by
  by_cases hslash : '/' ∈ path
  · obtain ⟨front, name, rfl, hname⟩ := exists_last_slash hslash
    rw [parentChars?_append hname] at h
    by_cases hfront : front = []
    · rw [if_pos hfront] at h
      split at h
      · cases h
      · cases h
        exact ⟨name, by rw [hfront]; rfl⟩
    · rw [if_neg hfront] at h
      cases h
      by_cases hroot : up = ['/']
      · exact ⟨'/' :: name, by rw [hroot]; rfl⟩
      · exact ⟨name, by rw [childStem, if_neg hroot, List.append_assoc, List.singleton_append]⟩
  · rw [parentChars?_of_not_mem hslash] at h
    cases h

/-! ## Valid paths -/

/-- What has no slash in it is not split. -/
theorem split_of_not_mem {name : List Char} (h : '/' ∉ name) : split name = [name] := by
  induction name with
  | nil => rfl
  | cons c cs ih =>
    rw [List.mem_cons, not_or] at h
    rw [split, if_neg (Ne.symm h.1), ih h.2]

/-- A slash separates the names in front of it from those behind it. -/
theorem split_append (front rest : List Char) :
    split (front ++ '/' :: rest) = split front ++ split rest := by
  induction front with
  | nil => rfl
  | cons c cs ih =>
    rw [List.cons_append, split, split, ih]
    by_cases hc : c = '/'
    · rw [if_pos hc, if_pos hc]
      rfl
    · obtain ⟨name, names, hnames⟩ := List.exists_cons_of_ne_nil (split_ne_nil cs)
      rw [if_neg hc, if_neg hc, hnames]
      rfl

/-- A path below the root is valid exactly if it does not end in a slash, is free of null characters,
and has valid names only. -/
theorem fault?_eq_none_iff {names : List Char} (h : names ≠ []) :
    fault? ('/' :: names) = none ↔ names.getLast? ≠ some '/' ∧ '\x00' ∉ names
      ∧ ∀ name ∈ split names, nameFault? name = none := by
  rw [fault?, if_neg h]
  by_cases hlast : names.getLast? = some '/'
  · simp [hlast]
  by_cases hnull : '\x00' ∈ names
  · simp [hlast, hnull]
  · simp [hlast, hnull, List.findSome?_eq_none_iff]

/-- What stands in front of a slash of a valid path is valid. -/
theorem fault?_front {front rest : List Char} (h : fault? (front ++ '/' :: rest) = none)
    (hfront : front ≠ []) : fault? front = none := by
  obtain ⟨c, names, rfl⟩ := List.exists_cons_of_ne_nil hfront
  by_cases hc : c = '/'
  · subst hc
    by_cases hnames : names = []
    · subst hnames
      rfl
    · rw [List.cons_append, fault?_eq_none_iff (by simp), split_append] at h
      obtain ⟨-, hnull, hvalid⟩ := h
      refine (fault?_eq_none_iff hnames).mpr ⟨?_, fun hmem => hnull (by simp [hmem]), ?_⟩
      · -- with a slash at its end the front would have an empty name in it
        intro hlast
        obtain ⟨init, rfl⟩ := List.getLast?_eq_some_iff.mp hlast
        have hempty := hvalid [] (by simp [split_append])
        cases hempty
      · intro name hname
        exact hvalid name (List.mem_append_left _ hname)
  · simp [fault?, hc] at h

theorem check_eq_ok_iff {path : String} : check path = .ok () ↔ fault? path.toList = none := by
  rw [check]
  cases fault? path.toList with
  | none => simp
  | some reason => simp

/-- A valid path begins with a slash. -/
theorem slash_mem_of_check {path : String} (h : check path = .ok ()) : '/' ∈ path.toList := by
  rw [check_eq_ok_iff, fault?.eq_def] at h
  split at h
  · rename_i hpath
    rw [hpath]
    exact List.mem_cons_self
  · cases h

/-- A valid path other than the root's has a parent, and the parent has a valid path. -/
theorem exists_parent? {path : String} (h : check path = .ok ()) (hroot : path ≠ "/") :
    ∃ up, parent? path = some up ∧ check up = .ok () := by
  obtain ⟨front, name, hpath, hname⟩ := exists_last_slash (slash_mem_of_check h)
  rw [check_eq_ok_iff, hpath] at h
  rw [parent?, hpath, parentChars?_append hname]
  by_cases hfront : front = []
  · subst hfront
    have hname' : name ≠ [] := by
      rintro rfl
      exact hroot (String.toList_inj.mp hpath)
    rw [if_pos rfl, if_neg hname']
    exact ⟨_, rfl, rfl⟩
  · rw [if_neg hfront]
    refine ⟨_, rfl, ?_⟩
    rw [check_eq_ok_iff, String.toList_ofList]
    exact fault?_front h hfront

/-- The parent of a valid path is valid. -/
theorem check_parent? {path up : String} (h : check path = .ok ()) (hup : parent? path = some up) :
    check up = .ok () := by
  by_cases hroot : path = "/"
  · subst hroot
    cases hup
  · obtain ⟨own, hown, hvalid⟩ := exists_parent? h hroot
    obtain rfl : own = up := Option.some.inj (hown.symm.trans hup)
    exact hvalid

/-! ## Paths below a path -/

theorem childStem_ne_nil (path : List Char) : childStem path ≠ [] := by
  rw [childStem]
  split <;> simp

/-- The stem of a path other than the root is the path and a slash. -/
theorem childStem_of_ne_root {path : String} (h : path ≠ "/") :
    childStem path.toList = path.toList ++ ['/'] :=
  if_neg fun hroot => h (String.toList_inj.mp hroot)

/-- The stem begins with the path itself. -/
theorem exists_childStem_eq (path : List Char) : ∃ more, childStem path = path ++ more := by
  rw [childStem]
  split
  · exact ⟨[], by simp [*]⟩
  · exact ⟨['/'], rfl⟩

/-- What lies below a path begins with its stem. -/
theorem isBelow_iff {path other : String} :
    isBelow path other = true ↔ ∃ rest, other.toList = childStem path.toList ++ rest := by
  rw [isBelow, Option.isSome_iff_exists]
  simp only [behind?_eq_some_iff]

/-- A parent has its child below it. -/
theorem isBelow_parent? {path up : String} (h : parent? path = some up) : isBelow up path = true := by
  obtain ⟨chars, hchars, rfl⟩ := Option.map_eq_some_iff.mp h
  rw [isBelow_iff, String.toList_ofList]
  exact eq_append_of_parentChars? hchars

/-- What has the parent of a path below it has the path itself below it. -/
theorem isBelow_of_isBelow_parent? {top path up : String} (h : parent? path = some up)
    (hbelow : isBelow top up = true) : isBelow top path = true := by
  obtain ⟨rest, hrest⟩ := isBelow_iff.mp hbelow
  obtain ⟨name, hname⟩ := isBelow_iff.mp (isBelow_parent? h)
  obtain ⟨more, hmore⟩ := exists_childStem_eq up.toList
  rw [isBelow_iff, hname, hmore, hrest]
  exact ⟨rest ++ more ++ name, by simp only [List.append_assoc]⟩

/-! ## Ancestors -/

/-- A path below the root has its parent as an ancestor, and the ancestors of its parent. -/
theorem ancestors_eq (path : String) :
    ancestors path = match parent? path with
      | none => []
      | some up => if up = "/" then [] else up :: ancestors up := by
  rw [ancestors, ancestorChars, parent?]
  cases parentChars? path.toList with
  | none => rfl
  | some up =>
    have hroot : String.ofList up = "/" ↔ up = ['/'] := by
      rw [← String.toList_inj, String.toList_ofList]
      rfl
    simp only [Option.map_some, hroot]
    by_cases hup : up = ['/']
    · rw [if_pos hup, if_pos hup]
      rfl
    · rw [if_neg hup, if_neg hup, List.map_cons, ancestors, String.toList_ofList]

/-- What is so of a path as soon as it is so of its parent is so of every path. -/
theorem parent_induction {motive : String → Prop}
    (step : ∀ path, (∀ up, parent? path = some up → motive up) → motive path) (path : String) :
    motive path := by
  induction hlength : path.toList.length using Nat.strongRecOn generalizing path with
  | ind length ih =>
    apply step
    intro up hup
    obtain ⟨chars, hchars, rfl⟩ := Option.map_eq_some_iff.mp hup
    refine ih _ ?_ _ rfl
    rw [← hlength, String.toList_ofList]
    exact length_lt_of_parentChars? hchars

/-- The ancestors of a valid path are valid paths below the root. -/
theorem check_of_mem_ancestors {path other : String} (h : check path = .ok ())
    (hmem : other ∈ ancestors path) : check other = .ok () ∧ other ≠ "/" := by
  induction path using parent_induction with
  | step path ih =>
    rw [ancestors_eq] at hmem
    cases hup : parent? path with
    | none => simp [hup] at hmem
    | some up =>
      simp only [hup] at hmem
      by_cases hroot : up = "/"
      · simp [hroot] at hmem
      · rw [if_neg hroot, List.mem_cons] at hmem
        obtain rfl | hmem := hmem
        · exact ⟨check_parent? h hup, hroot⟩
        · exact ih up hup (check_parent? h hup) hmem

/-- The parent of a path, or of an ancestor of it, is the root or an ancestor of the path. -/
theorem mem_ancestors_of_parent? {path other up : String} (hmem : other ∈ path :: ancestors path)
    (h : parent? other = some up) : up = "/" ∨ up ∈ ancestors path := by
  induction path using parent_induction with
  | step path ih =>
    by_cases hroot : up = "/"
    · exact .inl hroot
    right
    rw [ancestors_eq]
    rcases List.mem_cons.mp hmem with rfl | hmem
    · simp [h, hroot]
    · -- an ancestor of the path is the parent of the path or an ancestor of the parent
      rw [ancestors_eq] at hmem
      cases hown : parent? path with
      | none => simp [hown] at hmem
      | some own =>
        simp only [hown] at hmem ⊢
        by_cases hown' : own = "/"
        · simp [hown'] at hmem
        · rw [if_neg hown'] at hmem ⊢
          exact List.mem_cons_of_mem _ ((ih own hown hmem).resolve_left hroot)

end IdMint.Coordination.Path
