import IdMint.Proofs.FreshSequences
import IdMint.Proofs.StartResults

/-! # The grammar of node paths

A valid path is the root's, or it is written as names with a slash in front of each. `Path.check` reads
the characters and never sees the names; that it accepts what the grammar generates and nothing else is
`Path.check_iff`. Where a valid path and a slash stand in front of a text, the whole is valid exactly if
the slash and the text are: this decides over the keys of a session. -/

namespace IdMint.Coordination

namespace Path

/-! ## Names -/

/-- A text that names a node: it is not empty, is no way to say where one is or came from, and is free
of slashes and null characters. -/
structure IsName (name : String) : Prop where
  nonempty : name ≠ ""
  notHere : name ≠ "."
  notUp : name ≠ ".."
  noSlash : '/' ∉ name.toList
  noNull : '\x00' ∉ name.toList

/-- The path of the node to which names lead from the root. -/
def ofNames (names : List String) : String := String.join (names.map ("/" ++ ·))

theorem toList_ofNames (names : List String) :
    (ofNames names).toList = names.flatMap fun name => '/' :: name.toList := by
  rw [ofNames, String.toList_join, List.flatMap_map]
  congr 1
  funext name
  simp

/-- A part of a path is found fit exactly if it is neither empty nor a relative path. -/
theorem nameFault?_eq_none_iff {name : String} :
    nameFault? name.toList = none ↔ name ≠ "" ∧ name ≠ "." ∧ name ≠ ".." := by
  have hempty : name.toList = "".toList ↔ name = "" := String.toList_inj
  have hhere : name.toList = ".".toList ↔ name = "." := String.toList_inj
  have hup : name.toList = "..".toList ↔ name = ".." := String.toList_inj
  rw [Ne, Ne, Ne, ← hempty, ← hhere, ← hup, nameFault?]
  change ite (name.toList = "".toList) _ _ = none ↔ _
  by_cases hname : name.toList = "".toList
  · simp [hname]
  rw [if_neg hname]
  change ite (name.toList = ".".toList ∨ name.toList = "..".toList) _ _ = none ↔ _
  by_cases hrelative : name.toList = ".".toList ∨ name.toList = "..".toList
  · rw [if_pos hrelative]
    exact ⟨nofun, fun h => absurd hrelative (not_or.mpr h.2)⟩
  · rw [if_neg hrelative]
    exact ⟨fun _ => ⟨hname, not_or.mp hrelative⟩, fun _ => rfl⟩

/-! ## Names between slashes -/

/-- The parts between the slashes are free of slashes, and have no characters but those of the text. -/
theorem of_mem_split {part chars : List Char} (h : part ∈ split chars) :
    '/' ∉ part ∧ ∀ c ∈ part, c ∈ chars := by
  induction chars generalizing part with
  | nil =>
    obtain rfl := List.mem_singleton.mp h
    exact ⟨List.not_mem_nil, nofun⟩
  | cons c cs ih =>
    have hlonger {part : List Char} (hpart : part ∈ split cs) :
        '/' ∉ part ∧ ∀ c' ∈ part, c' ∈ c :: cs :=
      ⟨(ih hpart).1, fun c' hc' => List.mem_cons_of_mem c ((ih hpart).2 c' hc')⟩
    by_cases hc : c = '/'
    · rw [hc, split_slash, List.mem_cons] at h
      rcases h with rfl | h
      · exact ⟨List.not_mem_nil, nofun⟩
      · exact hlonger h
    · -- the character goes in front of the first part
      obtain ⟨name, names, hnames⟩ := List.exists_cons_of_ne_nil (split_ne_nil cs)
      rw [split, if_neg hc, hnames, List.mem_cons] at h
      rcases h with rfl | h
      · have hname := hlonger (hnames ▸ List.mem_cons_self : name ∈ split cs)
        refine ⟨?_, List.forall_mem_cons.mpr ⟨List.mem_cons_self, hname.2⟩⟩
        rw [List.mem_cons, not_or]
        exact ⟨Ne.symm hc, hname.1⟩
      · exact hlonger (hnames ▸ List.mem_cons_of_mem name h)

/-- Parts with a slash in front of each are a slash and the parts joined by slashes. -/
theorem flatMap_slash {parts : List (List Char)} (h : parts ≠ []) :
    (parts.flatMap fun part => '/' :: part) = '/' :: join parts := by
  induction parts with
  | nil => exact absurd rfl h
  | cons part parts ih =>
    cases parts with
    | nil => simp [join]
    | cons next parts =>
      rw [List.flatMap_cons, ih (List.cons_ne_nil _ _), List.cons_append]
      rfl

/-- Names with a slash in front of each are read back. -/
theorem split_flatMap_slash {first : List Char} {names : List (List Char)} (hfirst : '/' ∉ first)
    (hnames : ∀ name ∈ names, '/' ∉ name) :
    split (first ++ names.flatMap fun name => '/' :: name) = first :: names := by
  induction names generalizing first with
  | nil => rw [List.flatMap_nil, List.append_nil, split_of_not_mem hfirst]
  | cons name names ih =>
    obtain ⟨hname, hrest⟩ := List.forall_mem_cons.mp hnames
    rw [List.flatMap_cons, List.cons_append, split_append, split_of_not_mem hfirst, ih hname hrest,
      List.singleton_append]

/-! ## The grammar -/

/-- A valid path below the root is the path of names. -/
theorem exists_names {path : String} (h : check path = .ok ()) (hroot : path ≠ "/") :
    ∃ names, names ≠ [] ∧ (∀ name ∈ names, IsName name) ∧ path = ofNames names := by
  rw [check_eq_ok_iff, fault?.eq_def] at h
  split at h
  · rename_i chars hpath
    have hchars : chars ≠ [] := by
      rintro rfl
      exact hroot (String.toList_inj.mp hpath)
    have hvalid : fault? ('/' :: chars) = none := h
    obtain ⟨-, hnull, hfit⟩ := (fault?_eq_none_iff hchars).mp hvalid
    refine ⟨(split chars).map String.ofList, by simp [split_ne_nil], ?_, ?_⟩
    · intro name hname
      obtain ⟨part, hpart, rfl⟩ := List.mem_map.mp hname
      obtain ⟨hslash, hsub⟩ := of_mem_split hpart
      have hfit := hfit part hpart
      rw [← String.toList_ofList (l := part)] at hfit hslash
      obtain ⟨hempty, hhere, hup⟩ := nameFault?_eq_none_iff.mp hfit
      refine ⟨hempty, hhere, hup, hslash, ?_⟩
      rw [String.toList_ofList]
      exact fun hmem => hnull (hsub _ hmem)
    · rw [← String.toList_inj, toList_ofNames, hpath, List.flatMap_map]
      simp only [String.toList_ofList]
      rw [flatMap_slash (split_ne_nil chars), join_split]
  · cases h

/-- The path of names is valid. -/
theorem check_ofNames {names : List String} (hsome : names ≠ [])
    (hnames : ∀ name ∈ names, IsName name) : check (ofNames names) = .ok () := by
  obtain ⟨first, names, rfl⟩ := List.exists_cons_of_ne_nil hsome
  obtain ⟨hfirst, hrest⟩ := List.forall_mem_cons.mp hnames
  have hparts : ∀ part ∈ names.map String.toList, '/' ∉ part := by
    intro part hpart
    obtain ⟨name, hname, rfl⟩ := List.mem_map.mp hpart
    exact (hrest name hname).noSlash
  have hsplit := split_flatMap_slash hfirst.noSlash hparts
  rw [← List.map_cons, List.flatMap_map] at hsplit
  have hchars : first.toList ++ (names.flatMap fun name => '/' :: name.toList) ≠ [] :=
    List.append_ne_nil_of_left_ne_nil (fun h => hfirst.nonempty (String.toList_inj.mp h)) _
  rw [check_eq_ok_iff, toList_ofNames, List.flatMap_cons, List.cons_append,
    fault?_eq_none_iff hchars, hsplit]
  have hfit : ∀ part ∈ (first :: names).map String.toList, nameFault? part = none := by
    intro part hpart
    obtain ⟨name, hname, rfl⟩ := List.mem_map.mp hpart
    have hname := hnames name hname
    exact nameFault?_eq_none_iff.mpr ⟨hname.nonempty, hname.notHere, hname.notUp⟩
  refine ⟨?_, ?_, hfit⟩
  · -- behind a slash at the end the last part would be empty
    intro hlast
    obtain ⟨front, hfront⟩ := List.getLast?_eq_some_iff.mp hlast
    rw [hfront, split_append] at hsplit
    have hempty : [] ∈ (first :: names).map String.toList := by
      rw [← hsplit]
      exact List.mem_append_right _ (List.mem_singleton.mpr rfl)
    cases hfit [] hempty
  · rw [List.mem_append, List.mem_flatMap]
    rintro (hnull | ⟨name, hname, hnull⟩)
    · exact hfirst.noNull hnull
    · refine (hrest name hname).noNull ((List.mem_cons.mp hnull).resolve_left ?_)
      decide

/-- The check accepts the root's path and the paths of names, and nothing else. -/
theorem check_iff {path : String} :
    check path = .ok ()
      ↔ path = "/" ∨ ∃ names, names ≠ [] ∧ (∀ name ∈ names, IsName name) ∧ path = ofNames names := by
  constructor
  · intro h
    by_cases hroot : path = "/"
    · exact .inl hroot
    · exact .inr (exists_names h hroot)
  · rintro (rfl | ⟨names, hsome, hnames, rfl⟩)
    · rfl
    · exact check_ofNames hsome hnames

/-! ## The seam -/

/-- Behind a valid path below the root, a slash and a text are as valid as they are on their own; but
nothing may not stand behind a slash. -/
theorem fault?_append_iff {front rest : List Char} (hfront : fault? front = none)
    (hroot : front ≠ ['/']) :
    fault? (front ++ '/' :: rest) = none ↔ rest ≠ [] ∧ fault? ('/' :: rest) = none := by
  rw [fault?.eq_def] at hfront
  split at hfront
  · rename_i names
    have hnames : names ≠ [] := by
      rintro rfl
      exact hroot rfl
    obtain ⟨-, hnull, hfit⟩ := (fault?_eq_none_iff hnames).mp hfront
    rw [List.cons_append, fault?_eq_none_iff (by simp), split_append, List.forall_mem_append]
    by_cases hrest : rest = []
    · simp [hrest]
    · have hlast : (names ++ '/' :: rest).getLast? = rest.getLast? := by
        obtain ⟨init, c, rfl⟩ := List.eq_nil_or_concat rest |>.resolve_left hrest
        rw [List.concat_eq_append, ← List.cons_append, ← List.append_assoc, List.getLast?_concat,
          List.getLast?_concat]
      rw [fault?_eq_none_iff hrest, hlast, List.mem_append, List.mem_cons]
      constructor
      · rintro ⟨hend, hfree, -, hparts⟩
        exact ⟨hrest, hend, fun hmem => hfree (.inr (.inr hmem)), hparts⟩
      · rintro ⟨-, hend, hfree, hparts⟩
        refine ⟨hend, ?_, hfit, hparts⟩
        rintro (hmem | hmem | hmem)
        · exact hnull hmem
        · exact absurd hmem (by decide)
        · exact hfree hmem
  · cases hfront

end Path

namespace Session

/-- The path of the node for a key is valid exactly if the key is not empty and makes a valid path. -/
theorem check_nodePath_iff {s : Session} (hroot : Path.check s.rootPath = .ok ())
    (hname : s.settings.rootName ≠ "") {key : String} :
    Path.check (s.nodePath key) = .ok () ↔ key ≠ "" ∧ Path.check ("/" ++ key) = .ok () := by
  have hkey : ("/" ++ key).toList = '/' :: key.toList := by simp
  have hslash : s.rootPath.toList ≠ ['/'] := fun h => rootPath_ne_root hname (String.toList_inj.mp h)
  have hempty : key.toList = "".toList ↔ key = "" := String.toList_inj
  rw [Path.check_eq_ok_iff, Path.check_eq_ok_iff, toList_nodePath, hkey,
    Path.fault?_append_iff (Path.check_eq_ok_iff.mp hroot) hslash, Ne, Ne, ← hempty]
  rfl

/-! ## Starts -/

/-- The waiting points that a task which starts a session may come to, from whatever phase, over a
service whose failures are among those told. -/
inductive StartComesTo (s : Session) (limit : Option Duration) (told : Fault → Prop) :
    Task (Outcome Unit) → Prop
  | begin (now : Nat) (phase : Phase) :
    StartComesTo s limit told ((start s limit).run.advance now phase none).2
  | go {task : Task (Outcome Unit)} {step : Phase × Task (Outcome Unit)}
    (h : StartComesTo s limit told task) (hgoes : task.Goes s.policy told step) :
    StartComesTo s limit told step.2

theorem StartComesTo.yields {s : Session} {limit : Option Duration} {told : Fault → Prop}
    {task : Task (Outcome Unit)} (h : s.StartComesTo limit told task)
    (hroot : Path.check s.rootPath = .ok ()) : task.Yields told (EndsStart told limit) := by
  induction h with
  | begin now phase =>
    have hroot (fault : Fault) (h : Path.check s.rootPath = .error fault) : told fault :=
      nomatch hroot.symm.trans h
    exact (yields_start hroot limit).advance now phase nofun
  | go _ hgoes ih => exact ih.goes hgoes

/-- A start that ends with a failure of the service does so with one that was reported. -/
theorem EndsStart.told {told : Fault → Prop} {limit : Option Duration} {fault : Fault}
    (h : EndsStart told limit (.error (.coordination fault))) : told fault := by
  rcases h with h | ⟨span, -, hspan⟩
  · cases h with
    | failed h => exact h
  · cases hspan

/-- What is said of the paths of a session. -/
structure KeepsToGrammar (s : Session) : Prop where
  root : Path.check s.rootPath = .ok ()
  /-- However a start goes, a path that it calls invalid was called so in an answer. -/
  start : ∀ limit told task, s.StartComesTo limit told task → ∀ path reason,
    task.result? = some (.error (.coordination (.invalidPath path reason))) →
      told (.invalidPath path reason)
  /-- The node for a key has a valid path exactly if there is something in the key and the key would
  name a node below the root. -/
  key : ∀ key, Path.check (s.nodePath key) = .ok () ↔ key ≠ "" ∧ Path.check ("/" ++ key) = .ok ()

theorem keepsToGrammar_of_settings {settings : CoordinationSettings} {s : Session}
    (h : ofSettings settings = .ok s) : s.KeepsToGrammar := by
  obtain ⟨hname, hroot⟩ := passes_ofSettings h
  refine ⟨hroot, ?_, fun key => check_nodePath_iff hroot hname⟩
  intro limit told task hcomes path reason hresult
  exact ((hcomes.yields hroot).of_result? hresult).told

end Session

/-- The service in memory calls no path invalid. -/
theorem Coordinator.perform_ne_invalidPath (c : Coordinator) (request : Request β)
    (path reason : String) : (c.perform request).1 ≠ .error (.invalidPath path reason) := by
  cases request with
  | connect | close => exact nofun
  | lookUp | create | delete | children =>
    rw [perform]
    grind
  | setData =>
    rw [perform, write]
    grind

/-! ## What is valid -/

namespace Path

/-- What is said of valid paths. -/
structure GrammarRules : Prop where
  /-- The check accepts the root's path and the paths of names, and nothing else. -/
  accepts : ∀ path, check path = .ok ()
    ↔ path = "/" ∨ ∃ names, names ≠ [] ∧ (∀ name ∈ names, IsName name) ∧ path = ofNames names
  sessions : ∀ settings s, Session.ofSettings settings = .ok s → s.KeepsToGrammar
  /-- So a start over the service in memory never calls a path invalid. -/
  service : ∀ (c : Coordinator) {β : Type} (request : Request β) (path reason : String),
    (c.perform request).1 ≠ .error (.invalidPath path reason)
  parents : ∀ path, check path = .ok () → path ≠ "/" →
    ∃ up, parent? path = some up ∧ check up = .ok ()

/-- **Valid paths are the root's and those of names.** The paths that sessions and the service make of
valid ones are valid as well, and a key makes a valid path exactly if it does so on its own. -/
theorem grammar_rules : GrammarRules where
  accepts _ := check_iff
  sessions _ _ := Session.keepsToGrammar_of_settings
  service c _ request := c.perform_ne_invalidPath request
  parents _ := exists_parent?

/-- A session whose root node lies two names below the root of the tree. -/
def nestedSettings : CoordinationSettings :=
  { CoordinationSettings.standard with connectString := "localhost:2181", rootName := "a/b" }

/-- A key with a slash in it names a node, and one with a slash at its end names none. -/
theorem grammar_rules_nested :
    ∃ s, Session.ofSettings nestedSettings = .ok s ∧ s.KeepsToGrammar
      ∧ check (s.nodePath "x/y") = .ok () ∧ check (s.nodePath "x/") ≠ .ok ()
      ∧ parent? (s.nodePath "x/y") = some "/a/b/x" := by
  refine ⟨_, rfl, grammar_rules.sessions nestedSettings _ rfl, rfl, ?_, rfl⟩
  intro hvalid
  cases (((grammar_rules.sessions nestedSettings _ rfl).key "x/").mp hvalid).2

end Path

end IdMint.Coordination
