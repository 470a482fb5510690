import IdMint.Proofs.Polls
import Mathlib.Data.List.Dedup
import Mathlib.Data.List.Perm.Lattice

/-! # Generators that callers share

A call for a generator looks its location up and, where it finds none, inserts one unless there is one by
then. Between the two steps other calls may take theirs, and the generators may be polled. Whatever the
order, the locations that are kept are in the order of their first insertion and never move, so callers
who name one location share one generator and all others have another one. -/

namespace IdMint

/-- The numbers that make up a location. -/
def Location.numbers (l : Location) : UInt64 × UInt64 := (l.datacenter, l.machine)

/-- A location is known by its numbers. -/
theorem Location.numbers_injective : Function.Injective Location.numbers := fun _ _ h =>
  ext_numbers (congrArg Prod.fst h) (congrArg Prod.snd h)

namespace Registry

/-! ## The locations of a registry -/

/-- The locations that have a generator, in the order of its creation. -/
def locations (r : Registry) : List Location := r.entries.map (·.1)

theorem length_locations (r : Registry) : r.locations.length = r.size := List.length_map _

/-- A location that is found stands where it was found. -/
theorem getElem?_locations_of_lookUp {r : Registry} {l : Location} {number : Nat}
    (h : r.lookUp l = some number) : r.locations[number]? = some l := by
  obtain ⟨g, hg⟩ := exists_of_lookUp h
  rw [locations, List.getElem?_map, hg]
  rfl

/-- A location that is not found has no generator. -/
theorem notMem_locations_of_lookUp {r : Registry} {l : Location} (h : r.lookUp l = none) :
    l ∉ r.locations := by
  intro hmem
  obtain ⟨entry, hentry, rfl⟩ := List.mem_map.mp hmem
  exact absurd (List.findIdx?_eq_none_iff.mp h entry hentry) (by simp)

/-- Where no location has two generators, each is found where it stands. -/
theorem lookUp_of_getElem?_locations {r : Registry} (hnodup : r.locations.Nodup) {l : Location}
    {number : Nat} (h : r.locations[number]? = some l) : r.lookUp l = some number := by
  cases hr : r.lookUp l with
  | none => exact absurd (List.mem_of_getElem? h) (notMem_locations_of_lookUp hr)
  | some found =>
    have hlt : found < r.locations.length :=
      (List.getElem?_eq_some_iff.mp (getElem?_locations_of_lookUp hr)).1
    have hsame := (getElem?_locations_of_lookUp hr).trans h.symm
    rw [(List.getElem?_inj hlt hnodup).mp hsame]

/-- Replacing a generator moves no location. -/
@[simp] theorem locations_put (r : Registry) (number : Nat) (g : Generator) :
    (r.put number g).locations = r.locations := by
  refine List.ext_getElem? fun i => ?_
  rw [locations, locations, put, List.getElem?_map, List.getElem?_map, List.getElem?_modify]
  cases r.entries[i]? with
  | none => rfl
  | some entry => split <;> rfl

/-- An insertion appends the location, unless it is there. -/
theorem locations_insertIfAbsent (r : Registry) (l : Location) :
    (r.insertIfAbsent l).2.locations = if l ∈ r.locations then r.locations else r.locations ++ [l] := by
  cases h : r.lookUp l with
  | some number =>
    have hmem : l ∈ r.locations := List.mem_of_getElem? (getElem?_locations_of_lookUp h)
    rw [insertIfAbsent, h, if_pos hmem]
  | none =>
    rw [insertIfAbsent, h, if_neg (notMem_locations_of_lookUp h)]
    exact List.map_append

/-- An insertion moves no location. -/
theorem prefix_insertIfAbsent (r : Registry) (l : Location) :
    r.locations <+: (r.insertIfAbsent l).2.locations := by
  rw [locations_insertIfAbsent]
  split
  · exact List.prefix_rfl
  · exact List.prefix_append _ _

/-- After an insertion the location stands under the number that it gives. -/
theorem getElem?_locations_insertIfAbsent (r : Registry) (l : Location) :
    (r.insertIfAbsent l).2.locations[(r.insertIfAbsent l).1]? = some l :=
  getElem?_locations_of_lookUp (lookUp_insertIfAbsent_self r l)

/-- What stands under a number stays there while more is added at the end. -/
theorem getElem?_grown {kept kept' : List Location} (hgrown : kept <+: kept') {number : Nat}
    {l : Location} (h : kept[number]? = some l) : kept'[number]? = some l := by
  obtain ⟨added, rfl⟩ := hgrown
  have hlt : number < kept.length := (List.getElem?_eq_some_iff.mp h).1
  exact (List.getElem?_append_left hlt).trans h

/-- Every generator that is kept goes on from an identifier of its own location. -/
def Placed (r : Registry) : Prop :=
  ∀ entry ∈ r.entries, entry.2.last.TopBitClear ∧ entry.2.last.datacenter = entry.1.datacenter
    ∧ entry.2.last.machine = entry.1.machine

/-- An insertion leaves every generator with an identifier of its own location. -/
theorem Placed.insertIfAbsent {r : Registry} (h : r.Placed) (l : Location) :
    (r.insertIfAbsent l).2.Placed := by
  unfold Registry.insertIfAbsent
  split
  · exact h
  · intro entry hentry
    rcases List.mem_append.mp hentry with hold | hnew
    · exact h entry hold
    · obtain rfl := List.mem_singleton.mp hnew
      exact Generators.placed_fresh l

/-- The generator of a number is kept under the location of the number. -/
theorem exists_entry_of_generator? {r : Registry} {number : Nat} {g : Generator}
    (h : r.generator? number = some g) : ∃ l, r.entries[number]? = some (l, g) := by
  obtain ⟨⟨l, _⟩, hentry, rfl⟩ := Option.map_eq_some_iff.mp h
  exact ⟨l, hentry⟩

/-- A poll of a generator that is kept leaves every generator with an identifier of its own location. -/
theorem Placed.put {r : Registry} (h : r.Placed) {number : Nat} {g g' : Generator} {now : UInt64}
    {result : Outcome Poll} (hg : r.generator? number = some g) (hpoll : g.poll now = (result, g')) :
    (r.put number g').Placed := by
  obtain ⟨l, hl⟩ := exists_entry_of_generator? hg
  intro entry hentry
  obtain ⟨i, hi⟩ := List.mem_iff_getElem?.mp hentry
  rw [Registry.put, List.getElem?_modify] at hi
  by_cases hsame : number = i
  · -- the generator that was polled
    subst hsame
    simp only [hl, if_true, Option.map_eq_map, Option.map_some, Option.some.injEq] at hi
    subst hi
    obtain ⟨hclear, hd, hm⟩ := h _ (List.mem_of_getElem? hl)
    obtain ⟨-, hnext⟩ | ⟨rfl, -⟩ := Generator.poll_cases hclear hpoll
    · exact ⟨hnext.topBitClear, hnext.datacenter_eq.trans hd, hnext.machine_eq.trans hm⟩
    · exact ⟨hclear, hd, hm⟩
  · simp only [hsame, if_false, Option.map_eq_map, Option.map_id_fun', id] at hi
    exact h entry (List.mem_of_getElem? hi)

/-- What a poll of a generator that is kept issues shows its location. -/
theorem Placed.fields_of_poll {r : Registry} (h : r.Placed) {number : Nat} {g g' : Generator}
    {now : UInt64} {id : PackedId} (hg : r.generator? number = some g)
    (hpoll : g.poll now = (.ok (.ready id), g')) :
    ∃ l, r.locations[number]? = some l ∧ id.datacenter = l.datacenter ∧ id.machine = l.machine := by
  obtain ⟨l, hl⟩ := exists_entry_of_generator? hg
  obtain ⟨hclear, hd, hm⟩ := h _ (List.mem_of_getElem? hl)
  refine ⟨l, by rw [locations, List.getElem?_map, hl]; rfl, ?_⟩
  obtain ⟨hready, hnext⟩ | ⟨-, hidle⟩ := Generator.poll_cases hclear hpoll
  · cases hready
    exact ⟨hnext.datacenter_eq.trans hd, hnext.machine_eq.trans hm⟩
  · simp at hidle

/-! ## Overlapping calls -/

/-- How far a call for a generator has come. -/
inductive Progress
  /-- The call has begun. -/
  | asked
  /-- The lookup has found no generator of the location. -/
  | missed (l : Location)
  /-- The call has ended with the generator of a number. -/
  | got (number : Nat)
  /-- The call has ended without a generator. -/
  | refused (cause : Error)

/-- A call for the generator of two numbers. -/
structure Call where
  datacenter : UInt64
  machine : UInt64
  progress : Progress

namespace Call

/-- The location that a call asks for. -/
def location (call : Call) : Outcome Location := Location.ofNumbers call.datacenter call.machine

/-- A call after its lookup. -/
def lookedUp (r : Registry) (call : Call) : Call :=
  { call with
    progress :=
      match call.location with
      | .error cause => .refused cause
      | .ok l =>
        match r.lookUp l with
        | some number => .got number
        | none => .missed l }

/-- What a call has met so far is true of the locations that are kept. -/
def Sound (kept : List Location) (call : Call) : Prop :=
  match call.progress with
  | .asked => True
  | .missed l => call.location = .ok l
  | .got number => ∃ l, call.location = .ok l ∧ kept[number]? = some l
  | .refused cause => call.location = .error cause

/-- A call that is sound stays so while locations are added behind those that are kept. -/
theorem Sound.mono {call : Call} {kept kept' : List Location} (h : call.Sound kept)
    (hgrown : kept <+: kept') : call.Sound kept' := by
  obtain ⟨datacenter, machine, progress⟩ := call
  cases progress with
  | got number =>
    obtain ⟨l, hl, hnumber⟩ := h
    exact ⟨l, hl, getElem?_grown hgrown hnumber⟩
  | asked | missed | refused => exact h

/-- A call for numbers out of range is refused at its lookup. -/
theorem Sound.of_error {call : Call} {kept : List Location} (h : call.Sound kept) {cause : Error}
    (herror : call.location = .error cause) :
    call.progress = .asked ∨ call.progress = .refused cause := by
  rw [Sound, herror] at h
  cases hprogress : call.progress with
  | asked => exact .inl rfl
  | missed | got => simp [hprogress] at h
  | refused cause' =>
    rw [hprogress] at h
    cases h
    exact .inr rfl

/-- A call for numbers within their ranges is not refused. -/
theorem Sound.ne_refused {call : Call} {kept : List Location} (h : call.Sound kept) {l : Location}
    (hl : call.location = .ok l) (cause : Error) : call.progress ≠ .refused cause := by
  intro hrefused
  rw [Sound, hrefused, hl] at h
  cases h

/-- A lookup tells the truth. -/
theorem sound_lookedUp (r : Registry) (call : Call) : (call.lookedUp r).Sound r.locations := by
  cases hl : call.location with
  | error cause =>
    simp only [Sound, lookedUp, hl]
    exact hl
  | ok l =>
    cases hr : r.lookUp l with
    | none =>
      simp only [Sound, lookedUp, hl, hr]
      exact hl
    | some number =>
      simp only [Sound, lookedUp, hl, hr]
      exact ⟨l, hl, getElem?_locations_of_lookUp hr⟩

end Call

/-- A registry, and the calls on it. -/
structure Shared where
  registry : Registry
  calls : List Call

/-- What happens to a registry that is shared. -/
inductive Act
  /-- A call begins. -/
  | arrival (datacenter machine : UInt64)
  /-- A call looks its location up. -/
  | lookUp (datacenter machine : UInt64)
  /-- A call whose lookup found nothing inserts a generator unless there is one by now. -/
  | insertion (datacenter machine : UInt64)
  /-- The generator of a number is polled. -/
  | poll (number : Nat) (result : Outcome Poll)

namespace Act

/-- The numbers of the call that acts, if a call does. -/
def numbers? : Act → Option (UInt64 × UInt64)
  | arrival datacenter machine | lookUp datacenter machine | insertion datacenter machine =>
    some (datacenter, machine)
  | poll _ _ => none

/-- The numbers of the call that takes its insertion step, if one does. -/
def inserted? : Act → Option (UInt64 × UInt64)
  | insertion datacenter machine => some (datacenter, machine)
  | _ => none

end Act

/-- One step of a call, or a poll of a generator. Each looks at the registry once. -/
inductive Step : Shared → Act → Shared → Prop
  | arrival {r : Registry} {calls : List Call} (datacenter machine : UInt64) :
      Step ⟨r, calls⟩ (.arrival datacenter machine) ⟨r, calls ++ [⟨datacenter, machine, .asked⟩]⟩
  | lookUp {r : Registry} {calls : List Call} {datacenter machine : UInt64} (caller : Nat)
      (hcaller : calls[caller]? = some ⟨datacenter, machine, .asked⟩) :
      Step ⟨r, calls⟩ (.lookUp datacenter machine)
        ⟨r, calls.set caller (Call.lookedUp r ⟨datacenter, machine, .asked⟩)⟩
  | insertion {r : Registry} {calls : List Call} {datacenter machine : UInt64} {l : Location}
      (caller : Nat) (hcaller : calls[caller]? = some ⟨datacenter, machine, .missed l⟩) :
      Step ⟨r, calls⟩ (.insertion datacenter machine)
        ⟨(r.insertIfAbsent l).2,
          calls.set caller ⟨datacenter, machine, .got (r.insertIfAbsent l).1⟩⟩
  | poll {r : Registry} {calls : List Call} {number : Nat} {g g' : Generator} {now : UInt64}
      {result : Outcome Poll} (hg : r.generator? number = some g)
      (hpoll : g.poll now = (result, g')) :
      Step ⟨r, calls⟩ (.poll number result) ⟨r.put number g', calls⟩

/-- What has happened, and the registry before and after. -/
structure Entry where
  act : Act
  before : Registry
  after : Registry

/-- Steps of calls and polls follow each other in any order. -/
inductive Run (c : Shared) : List Entry → Shared → Prop
  | nil : Run c [] c
  | snoc {log : List Entry} {c' c'' : Shared} {act : Act} (run : Run c log c')
      (step : Step c' act c'') : Run c (log ++ [⟨act, c'.registry, c''.registry⟩]) c''

/-- The locations that are kept only grow, at their end. -/
theorem Step.prefix_locations {c c' : Shared} {act : Act} (h : Step c act c') :
    c.registry.locations <+: c'.registry.locations := by
  cases h with
  | arrival | lookUp => exact List.prefix_rfl
  | insertion => exact prefix_insertIfAbsent _ _
  | poll => exact locations_put .. ▸ List.prefix_rfl

/-! ## What a step preserves -/

namespace Step

variable {c c' : Shared} {act : Act}

/-- No location gets a second generator. -/
theorem nodup_locations (h : Step c act c') (hc : c.registry.locations.Nodup) :
    c'.registry.locations.Nodup := by
  cases h with
  | arrival | lookUp => exact hc
  | @insertion r _ _ _ l =>
    rw [locations_insertIfAbsent]
    split
    · exact hc
    · rename_i habsent
      exact List.nodup_append.mpr ⟨hc, List.nodup_singleton l, by
        rintro k hk _ hl rfl
        exact habsent (List.mem_singleton.mp hl ▸ hk)⟩
  | @poll r _ number _ g' =>
    show (r.put number g').locations.Nodup
    rw [locations_put]
    exact hc

/-- Every generator goes on from an identifier of its own location. -/
theorem placed (h : Step c act c') (hc : c.registry.Placed) : c'.registry.Placed := by
  cases h with
  | arrival | lookUp => exact hc
  | insertion => exact hc.insertIfAbsent _
  | poll hg hpoll => exact hc.put hg hpoll

/-- What the calls have met so far stays true. -/
theorem sound (h : Step c act c') (hc : ∀ call ∈ c.calls, call.Sound c.registry.locations) :
    ∀ call ∈ c'.calls, call.Sound c'.registry.locations := by
  intro call hcall
  have hold (hmem : call ∈ c.calls) : call.Sound c'.registry.locations :=
    (hc call hmem).mono h.prefix_locations
  cases h with
  | arrival =>
    rcases List.mem_append.mp hcall with hmem | hnew
    · exact hold hmem
    · obtain rfl := List.mem_singleton.mp hnew
      trivial
  | lookUp =>
    rcases List.mem_or_eq_of_mem_set hcall with hmem | rfl
    · exact hold hmem
    · exact Call.sound_lookedUp _ _
  | @insertion r _ _ _ l _ hcaller =>
    rcases List.mem_or_eq_of_mem_set hcall with hmem | rfl
    · exact hold hmem
    · exact ⟨l, hc _ (List.mem_of_getElem? hcaller), getElem?_locations_insertIfAbsent r l⟩
  | poll => exact hold hcall

/-- A location is kept as soon as a call for it has taken its insertion step. -/
theorem mem_numbers_iff (h : Step c act c')
    (hc : ∀ call ∈ c.calls, call.Sound c.registry.locations) (numbers : UInt64 × UInt64) :
    numbers ∈ c'.registry.locations.map Location.numbers ↔
      numbers ∈ c.registry.locations.map Location.numbers ∨ act.inserted? = some numbers := by
  cases h with
  | arrival | lookUp => simp [Act.inserted?]
  | poll => simp [Act.inserted?]
  | @insertion r _ datacenter machine l _ hcaller =>
    have hl : l.numbers = (datacenter, machine) :=
      have hlocation := Location.ofNumbers_eq_ok_iff.mp (hc _ (List.mem_of_getElem? hcaller))
      Prod.ext hlocation.1 hlocation.2
    rw [locations_insertIfAbsent, Act.inserted?, ← hl, Option.some.injEq]
    split
    · -- another call has inserted the location in the meantime
      rename_i hmem
      refine ⟨.inl, ?_⟩
      rintro (hkept | rfl)
      · exact hkept
      · exact List.mem_map_of_mem hmem
    · rw [List.map_append, List.mem_append, List.map_singleton, List.mem_singleton, eq_comm (a := numbers)]

/-- What a poll issues shows the location of the generator. -/
theorem fields_of_poll {number : Nat} {id : PackedId}
    (h : Step c (.poll number (.ok (.ready id))) c') (hc : c.registry.Placed) :
    ∃ l, c.registry.locations[number]? = some l ∧ id.datacenter = l.datacenter
      ∧ id.machine = l.machine := by
  cases h with
  | poll hg hpoll => exact hc.fields_of_poll hg hpoll

/-- A step of a call for numbers that make up no location leaves the registry as it is. -/
theorem registry_eq_of_error (h : Step c act c')
    (hc : ∀ call ∈ c.calls, call.Sound c.registry.locations) {datacenter machine : UInt64}
    {cause : Error} (hact : act.numbers? = some (datacenter, machine))
    (herror : Location.ofNumbers datacenter machine = .error cause) : c'.registry = c.registry := by
  cases h with
  | arrival | lookUp | poll => first | rfl | cases hact
  | insertion _ hcaller =>
    cases hact
    have hlocation : Location.ofNumbers datacenter machine = .ok _ :=
      hc _ (List.mem_of_getElem? hcaller)
    rw [herror] at hlocation
    cases hlocation

end Step

/-! ## What a run preserves -/

/-- The numbers of the calls that have taken their insertion step, in the order of these steps. -/
def insertedIn (log : List Entry) : List (UInt64 × UInt64) := log.filterMap (·.act.inserted?)

/-- What is true of a registry, its calls and the log of what happened since it was empty. -/
structure Consistent (log : List Entry) (c : Shared) : Prop where
  nodup : c.registry.locations.Nodup
  placed : c.registry.Placed
  sound : ∀ call ∈ c.calls, call.Sound c.registry.locations
  mem_numbers_iff : ∀ numbers,
    numbers ∈ c.registry.locations.map Location.numbers ↔ numbers ∈ insertedIn log
  polled : ∀ e ∈ log, ∀ number id, e.act = .poll number (.ok (.ready id)) →
    ∃ l, c.registry.locations[number]? = some l ∧ id.datacenter = l.datacenter
      ∧ id.machine = l.machine
  harmless : ∀ e ∈ log, ∀ datacenter machine cause,
    e.act.numbers? = some (datacenter, machine) →
      Location.ofNumbers datacenter machine = .error cause → e.after = e.before

/-- A registry that is empty and has no calls is consistent. -/
theorem consistent_empty : Consistent [] ⟨.empty, []⟩ :=
  ⟨.nil, nofun, nofun, fun _ => Iff.rfl, nofun, nofun⟩

/-- One step leaves the registry and its calls consistent. -/
theorem Consistent.step {log : List Entry} {c c' : Shared} {act : Act} (h : Consistent log c)
    (hstep : Step c act c') : Consistent (log ++ [⟨act, c.registry, c'.registry⟩]) c' where
  nodup := hstep.nodup_locations h.nodup
  placed := hstep.placed h.placed
  sound := hstep.sound h.sound
  mem_numbers_iff numbers := by
    rw [hstep.mem_numbers_iff h.sound, h.mem_numbers_iff]
    simp only [insertedIn, List.filterMap_append, List.mem_append, List.mem_filterMap,
      List.mem_singleton, exists_eq_left]
  polled e he number id hact := by
    -- the location was kept before the step already
    have hshown : ∃ l, c.registry.locations[number]? = some l ∧ id.datacenter = l.datacenter
        ∧ id.machine = l.machine := by
      rcases List.mem_append.mp he with hold | hnew
      · exact h.polled e hold number id hact
      · obtain rfl := List.mem_singleton.mp hnew
        obtain rfl : act = _ := hact
        exact hstep.fields_of_poll h.placed
    obtain ⟨l, hl, hfields⟩ := hshown
    exact ⟨l, getElem?_grown hstep.prefix_locations hl, hfields⟩
  harmless e he datacenter machine cause hact herror := by
    rcases List.mem_append.mp he with hold | hnew
    · exact h.harmless e hold datacenter machine cause hact herror
    · obtain rfl := List.mem_singleton.mp hnew
      exact hstep.registry_eq_of_error h.sound hact herror

/-- A run from an empty registry leads to a consistent one. -/
theorem Run.consistent {log : List Entry} {c : Shared} (h : Run ⟨.empty, []⟩ log c) :
    Consistent log c := by
  induction h with
  | nil => exact consistent_empty
  | snoc _ step ih => exact ih.step step

/-- A call that has ended with a generator asks for the location under which it is kept. -/
theorem Consistent.lookUp_of_got {log : List Entry} {c : Shared} (h : Consistent log c) {call : Call}
    (hcall : call ∈ c.calls) {number : Nat} (hgot : call.progress = .got number) :
    ∃ l, call.location = .ok l ∧ c.registry.lookUp l = some number := by
  have hsound := h.sound call hcall
  rw [Call.Sound, hgot] at hsound
  obtain ⟨l, hl, hnumber⟩ := hsound
  exact ⟨l, hl, lookUp_of_getElem?_locations h.nodup hnumber⟩

/-- Calls that got a generator got the same one exactly if they asked for the same numbers. -/
theorem Consistent.eq_iff_of_got {log : List Entry} {c : Shared} (h : Consistent log c) {a b : Call}
    (ha : a ∈ c.calls) (hb : b ∈ c.calls) {m n : Nat} (hm : a.progress = .got m)
    (hn : b.progress = .got n) : m = n ↔ a.datacenter = b.datacenter ∧ a.machine = b.machine := by
  obtain ⟨l, hl, hlookUp⟩ := h.lookUp_of_got ha hm
  obtain ⟨k, hk, hlookUp'⟩ := h.lookUp_of_got hb hn
  constructor
  · -- one location is kept under one number
    rintro rfl
    have hsame := (getElem?_locations_of_lookUp hlookUp).symm.trans
      (getElem?_locations_of_lookUp hlookUp')
    cases hsame
    obtain ⟨hd, hm⟩ := Location.ofNumbers_eq_ok_iff.mp hl
    obtain ⟨hd', hm'⟩ := Location.ofNumbers_eq_ok_iff.mp hk
    exact ⟨hd.symm.trans hd', hm.symm.trans hm'⟩
  · rintro ⟨hd, hm⟩
    rw [Call.location, hd, hm, ← Call.location, hk] at hl
    cases hl
    exact Option.some.inj (hlookUp.symm.trans hlookUp')

/-- There are as many generators as there are distinct locations that were inserted. -/
theorem Consistent.size_eq {log : List Entry} {c : Shared} (h : Consistent log c) :
    c.registry.size = (insertedIn log).dedup.length := by
  -- neither list has a repetition, and both have the same members
  have hperm : (c.registry.locations.map Location.numbers).Perm (insertedIn log).dedup := by
    refine (List.perm_ext_iff_of_nodup (h.nodup.map Location.numbers_injective)
      (List.nodup_dedup _)).mpr fun numbers => ?_
    rw [h.mem_numbers_iff, List.mem_dedup]
  rw [← hperm.length_eq, List.length_map, length_locations]

/-! ## Calls that are undisturbed -/

/-- A call whose steps nothing comes between is the getting of a generator. -/
theorem exists_run_of_getGenerator (r : Registry) (datacenter machine : UInt64) :
    ∃ log, Run ⟨r, []⟩ log (match r.getGenerator datacenter machine with
      | .error cause => ⟨r, [⟨datacenter, machine, .refused cause⟩]⟩
      | .ok (number, r') => ⟨r', [⟨datacenter, machine, .got number⟩]⟩) := by
  have hlooked : Run ⟨r, []⟩ _ ⟨r, [Call.lookedUp r ⟨datacenter, machine, .asked⟩]⟩ :=
    (Run.nil.snoc (.arrival datacenter machine)).snoc (.lookUp 0 rfl)
  cases hl : Location.ofNumbers datacenter machine with
  | error cause =>
    simp only [getGenerator, hl]
    simp only [Call.lookedUp, Call.location, hl] at hlooked
    exact ⟨_, hlooked⟩
  | ok l =>
    cases hr : r.lookUp l with
    | some number =>
      simp only [getGenerator, hl, hr]
      simp only [Call.lookedUp, Call.location, hl, hr] at hlooked
      exact ⟨_, hlooked⟩
    | none =>
      simp only [getGenerator, hl, hr]
      simp only [Call.lookedUp, Call.location, hl, hr] at hlooked
      exact ⟨_, hlooked.snoc (.insertion 0 rfl)⟩

/-! ## One generator for each location -/

/-- What is said of the calls on one registry that was empty before, after what `log` tells. -/
structure OneForEach (log : List Entry) (c : Shared) : Prop where
  /-- Calls that got a generator got the same one exactly if they asked for the same numbers. -/
  same_iff : ∀ a ∈ c.calls, ∀ b ∈ c.calls, ∀ m n, a.progress = .got m → b.progress = .got n →
    (m = n ↔ a.datacenter = b.datacenter ∧ a.machine = b.machine)
  /-- The generator that a call got is kept under the location that it asked for. -/
  kept : ∀ call ∈ c.calls, ∀ number, call.progress = .got number →
    ∃ l, call.location = .ok l ∧ c.registry.lookUp l = some number
  /-- What a generator issues shows the location under which it is kept. -/
  issues : ∀ e ∈ log, ∀ number id, e.act = .poll number (.ok (.ready id)) →
    ∃ l, c.registry.lookUp l = some number ∧ id.datacenter = l.datacenter ∧ id.machine = l.machine
  /-- There are as many generators as distinct numbers whose insertion step was taken. -/
  size : c.registry.size = (insertedIn log).dedup.length
  /-- Insertion steps are taken for numbers within their ranges only. -/
  inserted : ∀ numbers ∈ insertedIn log, ∃ l, Location.ofNumbers numbers.1 numbers.2 = .ok l
  /-- A call is refused only for the reason that its numbers are out of range, and then gets no
  generator. -/
  refused : ∀ call ∈ c.calls, ∀ cause, call.location = .error cause →
    call.progress = .asked ∨ call.progress = .refused cause
  /-- A call for numbers within their ranges is not refused. -/
  granted : ∀ call ∈ c.calls, ∀ l, call.location = .ok l → ∀ cause, call.progress ≠ .refused cause
  /-- No step of a call whose numbers are out of range changes the registry. -/
  harmless : ∀ e ∈ log, ∀ datacenter machine cause,
    e.act.numbers? = some (datacenter, machine) →
      Location.ofNumbers datacenter machine = .error cause → e.after = e.before

/-- **One generator for each location.** However lookups, insertions and polls of any number of calls
interleave, calls for one location share a generator and no others do. -/
theorem Run.one_for_each {log : List Entry} {c : Shared} (h : Run ⟨.empty, []⟩ log c) :
    OneForEach log c := by
  have hc := h.consistent
  exact {
    same_iff := fun a ha b hb m n hm hn => hc.eq_iff_of_got ha hb hm hn
    kept := fun call hcall number hgot => hc.lookUp_of_got hcall hgot
    issues := fun e he number id hact => by
      obtain ⟨l, hl, hfields⟩ := hc.polled e he number id hact
      exact ⟨l, lookUp_of_getElem?_locations hc.nodup hl, hfields⟩
    size := hc.size_eq
    inserted := fun numbers hnumbers => by
      obtain ⟨l, -, rfl⟩ := List.mem_map.mp ((hc.mem_numbers_iff numbers).mpr hnumbers)
      exact ⟨l, Location.ofNumbers_self l⟩
    refused := fun call hcall cause herror => (hc.sound call hcall).of_error herror
    granted := fun call hcall l hl cause => (hc.sound call hcall).ne_refused hl cause
    harmless := hc.harmless }

/-! ### Calls that race -/

/-- The locations that racing calls ask for. -/
def racedLocations : List Location := [⟨5, 6, by decide, by decide⟩, ⟨9, 10, by decide, by decide⟩]

/-- What two calls for the location 5/6, one for 9/10 and one for a machine out of range come to. -/
def racedCalls : List Call :=
  [⟨5, 6, .got 0⟩, ⟨5, 6, .got 0⟩, ⟨9, 10, .got 1⟩,
    ⟨5, 32, .refused (.invalidArgument (.fieldTooLarge .machine 32 31))⟩]

/-- The registry after these calls and a poll of the first generator. -/
def racedRegistry : Registry := ⟨racedLocations.zip [⟨⟨21651456⟩⟩, ⟨.pack 0 9 10 0⟩]⟩

/-- Two calls for one location miss it both before either inserts, and a poll comes between. -/
theorem Run.one_for_each_racing :
    ∃ log, Run ⟨.empty, []⟩ log ⟨racedRegistry, racedCalls⟩
      ∧ insertedIn log = [(5, 6), (5, 6), (9, 10)] ∧ OneForEach log ⟨racedRegistry, racedCalls⟩ := by
  have arrived : Run ⟨.empty, []⟩ _ ⟨.empty, _⟩ :=
    (((Run.nil.snoc (.arrival 5 6)).snoc (.arrival 5 6)).snoc (.arrival 9 10)).snoc (.arrival 5 32)
  have missed := (((arrived.snoc (.lookUp 0 rfl)).snoc (.lookUp 1 rfl)).snoc (.lookUp 2 rfl)).snoc
    (.lookUp 3 rfl)
  have polled := (missed.snoc (.insertion 1 rfl)).snoc (@Step.poll _ _ 0 _ _ 5 _ rfl rfl)
  have inserted := (polled.snoc (.insertion 0 rfl)).snoc (.insertion 2 rfl)
  have raced : Run _ _ ⟨racedRegistry, racedCalls⟩ := inserted
  exact ⟨_, raced, rfl, raced.one_for_each⟩

end Registry

end IdMint
