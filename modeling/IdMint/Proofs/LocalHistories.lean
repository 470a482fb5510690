import IdMint.LocalIds
import IdMint.Proofs.Polls
import Mathlib.Data.List.Forall2

/-! # Histories of local identifiers

A history is a list of completed calls to facades on one registry. Every call is made of polls of the
generator of the location that it asks for, and hands out what these polls issue, whether it succeeds
or fails part of the way. So what a history hands out is issued once, ascending at every location,
and shows the location and the moment at which it was issued. -/

namespace IdMint

open Batch

variable {σ : Type} [TimeSource σ]

/-! ## Drawings as polls -/

namespace Generator

/-- A poll is refused where the reading of the clock does not fit, or lies before the last one. -/
theorem eq_of_poll_error {g g' : Generator} {now : UInt64} {cause : Error}
    (h : g.poll now = (.error cause, g')) :
    cause = .invalidArgument (.timestampOutOfRange now)
      ∨ cause = .clockMovedBackwards g.last.timestamp now := by
  unfold poll at h
  split at h
  · split at h <;> cases h
  · split at h
    · split at h
      · cases h
        exact .inl rfl
      · cases h
    · cases h
      exact .inr rfl

/-- A refused poll hands out nothing. -/
theorem issued_of_poll {g g' : Generator} {now : UInt64} {cause : Error}
    (h : g.poll now = (.error cause, g')) : cause.issued = [] := by
  obtain rfl | rfl := eq_of_poll_error h <;> rfl

/-- The attempts that a drawing makes: it ends with the first one that is not pending. -/
theorem next_succ (patience : Nat) (g : Generator) (clock : σ) :
    next (patience + 1) (g, clock) =
      match g.poll (TimeSource.read clock).1 with
      | (.ok (.ready id), g') => some (.ok id, g', (TimeSource.read clock).2)
      | (.ok (.pending _), g') => next patience (g', (TimeSource.read clock).2)
      | (.error cause, g') => some (.error cause, g', (TimeSource.read clock).2) := by
  rcases h : g.poll (TimeSource.read clock).1 with ⟨cause | (id | wait), g'⟩ <;>
    simp only [next, attempt, h, StateT.bind, bind] <;> rfl

theorem nextText_apply (patience : Nat) (g : Generator) (clock : σ) :
    nextText patience (g, clock)
      = (next patience (g, clock)).map fun (result, s) => (result.map PackedId.text, s) := by
  simp only [nextText, bind, StateT.bind]
  cases next patience (g, clock) <;> rfl

theorem collectAfter_nextText_succ (patience : Nat) (issued : List String) (count : Nat)
    (g : Generator) (clock : σ) :
    collectAfter (nextText patience) issued (count + 1) (g, clock) =
      (nextText patience (g, clock)).bind fun (result, s) =>
        match result with
        | .ok id => collectAfter (nextText patience) (issued ++ [id]) count s
        | .error cause => some (.error (interrupted issued cause), s) := by
  rw [collectAfter]
  show (nextText patience (g, clock)).bind _ = _
  congr 1
  funext drawn
  rcases drawn with ⟨_ | _, _⟩ <;> rfl

/-- The run of polls `ps` at the location `l` takes the generators from `gens` to those where `l` has
`g`, and issues the identifiers `texts`. -/
structure PolledAt (l : Location) (gens : Generators) (clock : σ) (g : Generator) (clock' : σ)
    (texts : List String) (ps : List Polled) : Prop where
  polls : Polls gens clock ps (Function.update gens l g) clock'
  location_eq : ∀ p ∈ ps, p.location = l
  texts_eq : texts = (ps.filterMap Polled.issued?).map PackedId.text

/-- Two runs at a location, one after the other. -/
theorem PolledAt.append {l : Location} {gens : Generators} {clock clock₁ clock' : σ}
    {g g' : Generator} {texts texts' : List String} {ps qs : List Polled}
    (h : PolledAt l gens clock g clock₁ texts ps)
    (h' : PolledAt l (Function.update gens l g) clock₁ g' clock' texts' qs) :
    PolledAt l gens clock g' clock' (texts ++ texts') (ps ++ qs) where
  polls := by
    have hrun := h.polls.append h'.polls
    rwa [Function.update_idem] at hrun
  location_eq p hp := (List.mem_append.mp hp).elim (h.location_eq p) (h'.location_eq p)
  texts_eq := by rw [h.texts_eq, h'.texts_eq, List.filterMap_append, List.map_append]

/-- A single poll at a location is a run. -/
theorem PolledAt.of_poll {l : Location} {gens : Generators} {clock clock' : σ} {now : UInt64}
    {result : Outcome Poll} {g : Generator} {texts : List String}
    (hread : TimeSource.read clock = (now, clock')) (hpoll : (gens l).poll now = (result, g))
    (htexts : texts = ([⟨l, now, result⟩].filterMap Polled.issued?).map PackedId.text) :
    PolledAt l gens clock g clock' texts [⟨l, now, result⟩] where
  polls := .cons hread hpoll (.nil _ _)
  location_eq _ hp := congrArg Polled.location (List.mem_singleton.mp hp)
  texts_eq := htexts

/-- A drawing of one identifier is made of polls, of which only the last one may issue it. -/
theorem polledAt_nextText {l : Location} {gens : Generators} {patience : Nat} {clock clock' : σ}
    {result : Outcome String} {g : Generator}
    (h : nextText patience (gens l, clock) = some (result, g, clock')) :
    (∃ ps, PolledAt l gens clock g clock' (handedOut (single result)) ps)
      ∧ Plain result := by
  rw [nextText_apply, Option.map_eq_some_iff] at h
  obtain ⟨⟨drawn, s⟩, h, heq⟩ := h
  obtain ⟨rfl, rfl⟩ := Prod.mk.inj heq
  clear heq
  induction patience generalizing gens clock with
  | zero => cases h
  | succ patience ih =>
    rw [next_succ] at h
    rcases hread : TimeSource.read clock with ⟨now, clock₁⟩
    rw [hread] at h
    rcases hpoll : (gens l).poll now with ⟨cause | (id | wait), g₁⟩
    · -- refused: the drawing fails, and hands out nothing
      simp only [hpoll, Option.some.injEq, Prod.mk.injEq] at h
      obtain ⟨rfl, rfl, rfl⟩ := h
      have hissued := issued_of_poll hpoll
      exact ⟨⟨_, .of_poll hread hpoll hissued⟩, plain_error hissued⟩
    · -- ready: the drawing ends with the identifier
      simp only [hpoll, Option.some.injEq, Prod.mk.injEq] at h
      obtain ⟨rfl, rfl, rfl⟩ := h
      exact ⟨⟨_, .of_poll hread hpoll rfl⟩, plain_ok _⟩
    · -- pending: the drawing goes on from the generator that the poll left
      simp only [hpoll] at h
      rw [← Function.update_self l g₁ gens] at h
      obtain ⟨⟨ps, hps⟩, hcause⟩ := ih h
      have hfirst : PolledAt l gens clock g₁ clock₁ [] [⟨l, now, .ok (.pending wait)⟩] :=
        .of_poll hread hpoll rfl
      exact ⟨⟨_, hfirst.append hps⟩, hcause⟩

/-- A drawing of several identifiers is made of polls, which issue what it hands out beyond what was
issued before. -/
theorem polledAt_collectAfter {l : Location} {gens : Generators} {patience count : Nat}
    {issued : List String} {clock clock' : σ} {result : Outcome (List String)} {g : Generator}
    (h : collectAfter (nextText patience) issued count (gens l, clock) = some (result, g, clock')) :
    ∃ texts ps, PolledAt l gens clock g clock' texts ps ∧ handedOut result = issued ++ texts := by
  induction count generalizing gens clock issued with
  | zero =>
    cases h
    refine ⟨[], [], ⟨?_, fun p hp => absurd hp List.not_mem_nil, rfl⟩, (List.append_nil _).symm⟩
    rw [Function.update_eq_self]
    exact .nil _ _
  | succ count ih =>
    rw [collectAfter_nextText_succ] at h
    obtain ⟨⟨drawn, g₁, clock₁⟩, hdraw, h⟩ := Option.bind_eq_some_iff.mp h
    obtain ⟨⟨ps, hps⟩, hcause⟩ := polledAt_nextText hdraw
    cases drawn with
    | error cause =>
      -- the batch ends with what it has issued, as the drawing that fails issues nothing
      cases h
      have hissued := hcause cause rfl
      refine ⟨[], ps, ?_, (handedOut_interrupted hissued issued).trans (List.append_nil _).symm⟩
      rwa [single_error, handedOut_error, hissued] at hps
    | ok id =>
      -- the rest of the batch goes on from the generator that this drawing has left
      rw [← Function.update_self l g₁ gens] at h
      obtain ⟨texts, qs, hqs, hrest⟩ := ih h
      exact ⟨id :: texts, ps ++ qs, hps.append hqs, by rw [hrest, List.append_assoc]; rfl⟩

end Generator

/-! ## Calls -/

namespace LocalIds

/-- A call to a facade. -/
inductive Call
  /-- One identifier for the facade's own location. -/
  | next
  /-- One identifier for a location. -/
  | nextFor (datacenter machine : UInt64)
  /-- Several identifiers for the facade's own location. -/
  | nextMany (count : UInt64)
  /-- Several identifiers for a location. -/
  | nextManyFor (datacenter machine count : UInt64)

/-- The datacenter and the machine that a call to a facade asks for. -/
def Call.asked (ids : LocalIds) : Call → UInt64 × UInt64
  | next | nextMany _ => (ids.home.datacenter, ids.home.machine)
  | nextFor datacenter machine | nextManyFor datacenter machine _ => (datacenter, machine)

/-- What a call to a facade does, as a drawing of several identifiers. -/
def Call.draw (ids : LocalIds) (patience : Nat) :
    Call → Registry.Drawing σ (Outcome (List String))
  | next => single <$> ids.next patience
  | nextFor datacenter machine => single <$> LocalIds.nextFor patience datacenter machine
  | nextMany count => ids.nextMany patience count
  | nextManyFor datacenter machine count =>
    LocalIds.nextManyFor patience datacenter machine count

/-- The run of polls `ps` at the location of two numbers issues the identifiers `texts` and leads from
one registry to another. -/
structure PolledFor (asked : UInt64 × UInt64) (r : Registry) (clock : σ) (r' : Registry)
    (clock' : σ) (texts : List String) (ps : List Polled) : Prop where
  polls : Polls r.generatorOf clock ps r'.generatorOf clock'
  location_eq : ∀ p ∈ ps, (p.location.datacenter, p.location.machine) = asked
  texts_eq : texts = (ps.filterMap Polled.issued?).map PackedId.text

/-- Nothing is issued without polls. -/
theorem PolledFor.none (asked : UInt64 × UInt64) (r : Registry) (clock : σ) :
    PolledFor asked r clock r clock [] [] :=
  ⟨.nil _ _, fun _ hp => absurd hp List.not_mem_nil, rfl⟩

/-- Numbers that are refused hand out nothing. -/
theorem issued_of_ofNumbers {datacenter machine : UInt64} {cause : Error}
    (h : Location.ofNumbers datacenter machine = .error cause) : cause.issued = [] := by
  unfold Location.ofNumbers at h
  split at h
  · split at h <;> cases h
    rfl
  · cases h
    rfl

/-- A drawing from the generator of two numbers is made of polls for them, if any drawing from the
generator itself is made of polls. -/
theorem polledFor_drawFrom {α : Type} {shown : Outcome α → List String}
    (herror : ∀ cause, shown (.error cause) = cause.issued)
    {draw : Generator.Drawing σ (Outcome α)}
    (hdraw : ∀ {l : Location} {gens : Generators} {clock clock' : σ} {result : Outcome α}
      {g : Generator}, draw (gens l, clock) = some (result, g, clock') →
        ∃ ps, Generator.PolledAt l gens clock g clock' (shown result) ps)
    {datacenter machine : UInt64} {r r' : Registry} {clock clock' : σ} {result : Outcome α}
    (h : Registry.drawFrom datacenter machine draw (r, clock) = some (result, r', clock')) :
    ∃ ps, PolledFor (datacenter, machine) r clock r' clock' (shown result) ps := by
  obtain ⟨cause, hl, rfl, rfl, rfl⟩ | ⟨l, g, hl, hg, hr⟩ := Registry.drawFrom_eq_some h
  · rw [herror, issued_of_ofNumbers hl]
    exact ⟨[], .none _ _ _⟩
  · obtain ⟨rfl, rfl⟩ := Location.ofNumbers_eq_ok_iff.mp hl
    obtain ⟨ps, hps⟩ := hdraw hg
    exact ⟨ps, hr ▸ hps.polls, fun p hp => by rw [hps.location_eq p hp], hps.texts_eq⟩

/-- A call for one identifier of a location is made of polls for it. -/
theorem polledFor_nextFor {patience : Nat} {datacenter machine : UInt64} {r r' : Registry}
    {clock clock' : σ} {result : Outcome (List String)}
    (h : (single <$> nextFor patience datacenter machine : Registry.Drawing σ _) (r, clock)
      = some (result, r', clock')) :
    ∃ ps, PolledFor (datacenter, machine) r clock r' clock' (handedOut result) ps := by
  obtain ⟨⟨drawn, s⟩, hdraw, heq⟩ := Option.bind_eq_some_iff.mp h
  cases heq
  exact polledFor_drawFrom (fun _ => rfl) (fun h => (Generator.polledAt_nextText h).1) hdraw

/-- A call for several identifiers of a location is made of polls for it. -/
theorem polledFor_nextManyFor {patience : Nat} {datacenter machine count : UInt64}
    {r r' : Registry} {clock clock' : σ} {result : Outcome (List String)}
    (h : nextManyFor patience datacenter machine count (r, clock) = some (result, r', clock')) :
    ∃ ps, PolledFor (datacenter, machine) r clock r' clock' (handedOut result) ps := by
  cases hcount : checkCount count with
  | error cause =>
    simp only [nextManyFor, hcount] at h
    cases h
    rw [handedOut_error, issued_of_checkCount hcount]
    exact ⟨[], .none _ _ _⟩
  | ok =>
    simp only [nextManyFor, hcount, Generator.nextTexts_of_le (fits_of_checkCount hcount)] at h
    refine polledFor_drawFrom (fun _ => rfl) (fun h => ?_) h
    obtain ⟨texts, ps, hps, htexts⟩ := Generator.polledAt_collectAfter h
    rw [htexts]
    exact ⟨ps, hps⟩

/-- Every call is made of polls for what it asks for, and hands out what they issue. -/
theorem Call.polledFor_draw {ids : LocalIds} {patience : Nat} {call : Call} {r r' : Registry}
    {clock clock' : σ} {result : Outcome (List String)}
    (h : call.draw ids patience (r, clock) = some (result, r', clock')) :
    ∃ ps, PolledFor (call.asked ids) r clock r' clock' (handedOut result) ps := by
  cases call with
  | next => exact polledFor_nextFor h
  | nextFor datacenter machine => exact polledFor_nextFor h
  | nextMany count => exact polledFor_nextManyFor h
  | nextManyFor datacenter machine count => exact polledFor_nextManyFor h

/-! ## Histories -/

/-- A call to a facade with what came of it. -/
structure Completed where
  ids : LocalIds
  call : Call
  result : Outcome (List String)

namespace Completed

/-- The datacenter and the machine that the call asked for. -/
def asked (c : Completed) : UInt64 × UInt64 := c.call.asked c.ids

/-- The identifiers that the call handed out, each with what was asked for. -/
def handedOut (c : Completed) : List ((UInt64 × UInt64) × String) :=
  (Batch.handedOut c.result).map (c.asked, ·)

end Completed

/-- Calls one after the other, each with as much patience as it needed. -/
inductive History : Registry → σ → List Completed → Registry → σ → Prop
  | nil (r : Registry) (clock : σ) : History r clock [] r clock
  | cons {r r₁ r' : Registry} {clock clock₁ clock' : σ} {c : Completed} {cs : List Completed}
      (patience : Nat) (hcall : c.call.draw c.ids patience (r, clock) = some (c.result, r₁, clock₁))
      (rest : History r₁ clock₁ cs r' clock') : History r clock (c :: cs) r' clock'

/-- The poll `p` for the location `asked` issued the identifier of which `text` is the decimal text,
and every facade whose epoch leaves room for the timestamps reads from it what was asked for and the
moment that the poll read. -/
def Shows (asked : UInt64 × UInt64) (text : String) (p : Polled) : Prop :=
  ∃ raw, Decimal.uint64? text = some raw ∧ p.result = .ok (.ready ⟨raw⟩)
    ∧ ∀ ids : LocalIds, ids.epoch.toNat + 2 ^ 41 ≤ 2 ^ 64 →
      (ids.decode raw).datacenter = asked.1 ∧ (ids.decode raw).machine = asked.2
        ∧ (ids.decode raw).timestampMs.toNat = ids.epoch.toNat + p.reading.toNat

/-- The numbers of two identifiers in decimal are ascending. -/
def Ascending (text text' : String) : Prop :=
  ∃ raw raw', Decimal.uint64? text = some raw ∧ Decimal.uint64? text' = some raw' ∧ raw < raw'

/-- The polls `ps` are for what the call `c` asks for, and issue what it hands out. -/
def PolledCall (c : Completed) (ps : List Polled) : Prop :=
  (∀ p ∈ ps, (p.location.datacenter, p.location.machine) = c.asked)
    ∧ Batch.handedOut c.result = (ps.filterMap Polled.issued?).map PackedId.text

/-- A history is made of polls, call by call. -/
theorem History.exists_polls {r r' : Registry} {clock clock' : σ} {cs : List Completed}
    (h : History r clock cs r' clock') :
    ∃ pss : List (List Polled), Polls r.generatorOf clock pss.flatten r'.generatorOf clock'
      ∧ List.Forall₂ PolledCall cs pss := by
  induction h with
  | nil r clock => exact ⟨[], .nil _ _, .nil⟩
  | cons patience hcall _ ih =>
    obtain ⟨ps, hps⟩ := Call.polledFor_draw hcall
    obtain ⟨pss, hpolls, hforall⟩ := ih
    exact ⟨ps :: pss, hps.polls.append hpolls, .cons ⟨hps.location_eq, hps.texts_eq⟩ hforall⟩

/-- What a poll hands out, with the numbers of its location. -/
def handedOutBy (p : Polled) : Option ((UInt64 × UInt64) × String) :=
  p.issued?.map fun id => ((p.location.datacenter, p.location.machine), id.text)

/-- The polls of a call hand out what the call hands out. -/
theorem handedOut_eq_filterMap {c : Completed} {ps : List Polled}
    (hloc : ∀ p ∈ ps, (p.location.datacenter, p.location.machine) = c.asked)
    (htexts : Batch.handedOut c.result = (ps.filterMap Polled.issued?).map PackedId.text) :
    c.handedOut = ps.filterMap handedOutBy := by
  rw [Completed.handedOut, htexts, List.map_map, List.map_filterMap]
  refine List.filterMap_congr fun p hp => ?_
  rw [handedOutBy, hloc p hp]
  rfl

/-- An identifier that a run of polls issues shows the poll that issued it. -/
theorem shows_of_issuedAfter {gens : Generators} {p : Polled} {id : PackedId}
    (h : Polls.IssuedAfter gens p id) (hid : p.issued? = some id) {asked : UInt64 × UInt64}
    (hasked : (p.location.datacenter, p.location.machine) = asked) : Shows asked id.text p := by
  subst hasked
  refine ⟨id.raw, id.uint64?_text, Polled.issued?_eq_some_iff.mp hid, ?_⟩
  intro ids hroom
  refine ⟨h.datacenter_eq, h.machine_eq, ?_⟩
  have hlt := PackedId.toNat_timestamp_lt id
  show (ids.epoch + id.timestamp).toNat = _
  rw [UInt64.toNat_add, ← h.timestamp_eq]
  exact Nat.mod_eq_of_lt (by omega)

/-- The identifiers of a call show the polls that issued them, one by one. -/
theorem forall₂_shows {gens : Generators} {asked : UInt64 × UInt64} {ps : List Polled}
    (hloc : ∀ p ∈ ps, (p.location.datacenter, p.location.machine) = asked)
    (hissued : ∀ p ∈ ps, ∀ id, p.issued? = some id → Polls.IssuedAfter gens p id) :
    List.Forall₂ (Shows asked) ((ps.filterMap Polled.issued?).map PackedId.text)
      (ps.filter (·.issued?.isSome)) := by
  induction ps with
  | nil => exact .nil
  | cons p ps ih =>
    have hrest := ih (fun q hq => hloc q (List.mem_cons_of_mem p hq))
      (fun q hq => hissued q (List.mem_cons_of_mem p hq))
    cases hid : p.issued? with
    | none => simpa [hid] using hrest
    | some id =>
      have hshows := shows_of_issuedAfter (hissued p List.mem_cons_self id hid) hid
        (hloc p List.mem_cons_self)
      simpa [hid] using And.intro hshows hrest

/-- What a history hands out is what its polls issue, in order. -/
theorem flatMap_handedOut_eq {cs : List Completed} {pss : List (List Polled)}
    (h : List.Forall₂ PolledCall cs pss) :
    cs.flatMap Completed.handedOut = pss.flatten.filterMap handedOutBy := by
  induction h with
  | nil => rfl
  | cons hcall _ ih =>
    rw [List.flatMap_cons, List.flatten_cons, List.filterMap_append, ih,
      handedOut_eq_filterMap hcall.1 hcall.2]

/-- The identifiers of all calls show the polls that issued them, call by call. -/
theorem forall₂_shows_calls {gens : Generators} {cs : List Completed} {pss : List (List Polled)}
    (h : List.Forall₂ PolledCall cs pss)
    (hissued : ∀ p ∈ pss.flatten, ∀ id, p.issued? = some id → Polls.IssuedAfter gens p id) :
    List.Forall₂ (fun c ps => List.Forall₂ (Shows c.asked) (Batch.handedOut c.result)
      (ps.filter (·.issued?.isSome))) cs pss := by
  induction h with
  | nil => exact .nil
  | @cons c ps _ pss hcall _ ih =>
    rw [List.flatten_cons] at hissued
    refine .cons ?_ (ih fun p hp => hissued p (List.mem_append_right ps hp))
    rw [hcall.2]
    exact forall₂_shows hcall.1 fun p hp => hissued p (List.mem_append_left _ hp)

/-- What is said of the calls `cs` on one registry that was empty before and is `r'` after them, while
the clock went on from `clock` to `clock'`. -/
structure IssuedOnceInOrder (clock : σ) (cs : List Completed) (r' : Registry) (clock' : σ) :
    Prop where
  /-- No identifier is handed out twice. -/
  nodup : ((cs.flatMap Completed.handedOut).map (·.2)).Nodup
  /-- Those for one location are ascending in the order of their issue. -/
  ascending : (cs.flatMap Completed.handedOut).Pairwise fun a b => a.1 = b.1 → Ascending a.2 b.2
  /-- Each shows the location that was asked for and the reading of the poll that issued it. -/
  shown : ∃ pss : List (List Polled),
    Polls Location.freshGenerator clock pss.flatten r'.generatorOf clock'
      ∧ List.Forall₂ (fun c ps => List.Forall₂ (Shows c.asked) (Batch.handedOut c.result)
          (ps.filter (·.issued?.isSome))) cs pss

/-- **What a history hands out.** However the calls to facades on one registry follow each other and
whatever the clock reads, identifiers are issued once, in order, and show where and when. -/
theorem history_issues_once_in_order {r' : Registry} {clock clock' : σ} {cs : List Completed}
    (h : History .empty clock cs r' clock') : IssuedOnceInOrder clock cs r' clock' := by
  obtain ⟨pss, hpolls, hcalls⟩ := h.exists_polls
  rw [Registry.generatorOf_empty] at hpolls
  have hpairs := hpolls.pairwise Generators.placed_fresh
  have hafter (p : Polled) (hp : p ∈ pss.flatten) (id : PackedId) (hid : p.issued? = some id) :=
    hpolls.issuedAfter Generators.placed_fresh hp hid
  refine ⟨?_, ?_, pss, hpolls, forall₂_shows_calls hcalls hafter⟩
  · rw [flatMap_handedOut_eq hcalls, List.Nodup, List.pairwise_map, List.pairwise_filterMap]
    refine hpairs.imp fun hpq a ha b hb htext => ?_
    obtain ⟨id, hid, rfl⟩ := Option.map_eq_some_iff.mp ha
    obtain ⟨id', hid', rfl⟩ := Option.map_eq_some_iff.mp hb
    exact (hpq id id' hid hid').1 (PackedId.text_injective htext)
  · rw [flatMap_handedOut_eq hcalls, List.pairwise_filterMap]
    refine hpairs.imp fun hpq a ha b hb hasked => ?_
    obtain ⟨id, hid, rfl⟩ := Option.map_eq_some_iff.mp ha
    obtain ⟨id', hid', rfl⟩ := Option.map_eq_some_iff.mp hb
    obtain ⟨hd, hm⟩ := Prod.mk.inj hasked
    exact ⟨id.raw, id'.raw, id.uint64?_text, id'.uint64?_text,
      (hpq id id' hid hid').2 (Location.ext_numbers hd hm)⟩

/-! ### A history on an unsteady clock -/

/-- A facade of the location 1/2. -/
def unsteadyFacade : LocalIds := ⟨⟨1, 2, by decide, by decide⟩, standardEpoch⟩

/-- Readings that stand still, go back, and leave the range of timestamps. -/
def unsteadyReadings : Nat → UInt64 := fun n => [5, 5, 6, 4, 0x20000000000].getD n 0

/-- Calls on unsteady readings. The second one hands out what it issued before the clock went back. -/
def unsteadyCalls : List Completed :=
  [⟨unsteadyFacade, .next, .ok ["21110784"]⟩,
    ⟨unsteadyFacade, .nextMany 3,
      .error (.partialBatch ["21110785", "25305088"] (.clockMovedBackwards 6 4))⟩,
    ⟨unsteadyFacade, .nextFor 1 32, .error (.invalidArgument (.fieldTooLarge .machine 32 31))⟩,
    ⟨unsteadyFacade, .nextFor 3 4,
      .error (.invalidArgument (.timestampOutOfRange 0x20000000000))⟩]

/-- The registry after these calls. -/
def unsteadyRegistry : Registry :=
  ⟨[(unsteadyFacade.home, ⟨⟨25305088⟩⟩),
    (⟨3, 4, by decide, by decide⟩, Location.freshGenerator ⟨3, 4, by decide, by decide⟩)]⟩

/-- Calls that meet a stalled, a backward and an overflowing reading, and a location out of range. -/
theorem history_issues_once_in_order_unsteady :
    History .empty unsteadyReadings unsteadyCalls unsteadyRegistry (fun n => unsteadyReadings (n + 5))
      ∧ IssuedOnceInOrder unsteadyReadings unsteadyCalls unsteadyRegistry
          (fun n => unsteadyReadings (n + 5)) := by
  have h : History .empty unsteadyReadings unsteadyCalls unsteadyRegistry
      (fun n => unsteadyReadings (n + 5)) := by
    refine .cons 1 rfl ?_
    refine .cons 1 rfl ?_
    refine .cons 1 rfl ?_
    refine .cons 1 rfl ?_
    exact .nil _ _
  exact ⟨h, history_issues_once_in_order h⟩

end LocalIds

end IdMint
