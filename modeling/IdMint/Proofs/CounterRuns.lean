import IdMint.Proofs.CounterDraws
import Mathlib.Data.List.Nodup
import Mathlib.Data.List.Perm.Basic

/-! # Interleaved calls on one counter store

Callers share a store in memory. A call draws its identifiers one by one, and between two of its draws
other calls may draw. Whatever the order, the counters of a key only rise, and an identifier that is
handed out belongs to one draw; so identifiers of a key differ while their counters fit the widths. -/

namespace IdMint

open Batch

namespace Counter

/-! ## Calls -/

/-- A call to an issuer of counter identifiers. -/
inductive Request
  /-- One identifier for a composite key. -/
  | next (key : String) (step length : UInt64)
  /-- One identifier for a name and a key. -/
  | nextFor (issuer : Issuer) (name key : String) (step length : UInt64)
  /-- One identifier for a name and a key, with the issuer's step and width. -/
  | nextConfigured (issuer : Issuer) (name key : String)
  /-- Several identifiers for a composite key. -/
  | nextMany (key : String) (step length count : UInt64)
  /-- Several identifiers for a name and a key. -/
  | nextManyFor (issuer : Issuer) (name key : String) (step length count : UInt64)
  deriving DecidableEq

/-- How far a call has come. -/
inductive Progress
  /-- The identifiers `issued` are drawn; one more is to be drawn, and `left` after it. -/
  | underWay (issued : List String) (left : Nat)
  /-- The call has ended. -/
  | ended (result : Outcome (List String))

namespace Progress

/-- Where a call stands after a draw. -/
def after (issued : List String) : (left : Nat) → Outcome String → Progress
  | _, .error cause => ended (.error (interrupted issued cause))
  | 0, .ok id => ended (.ok (issued ++ [id]))
  | left + 1, .ok id => underWay (issued ++ [id]) left

/-- The identifiers that a call has handed out, or will hand out if it fails now. -/
def handedOut : Progress → List String
  | underWay issued _ => issued
  | ended result => Batch.handedOut result

/-- The identifier that an outcome holds, if any. -/
def issuedBy : Outcome String → Option String
  | .ok id => some id
  | .error _ => none

/-- A draw adds its identifier to those handed out. -/
theorem handedOut_after (issued : List String) (left : Nat) {outcome : Outcome String}
    (h : Plain outcome) :
    (after issued left outcome).handedOut = issued ++ (issuedBy outcome).toList := by
  cases outcome with
  | error cause =>
    show Batch.handedOut (.error (interrupted issued cause)) = _
    rw [handedOut_interrupted (h cause rfl)]
    exact (List.append_nil issued).symm
  | ok id => cases left <;> rfl

variable {σ : Type} [Store σ]

/-- The rest of a call, undisturbed by others. -/
def finish (draw : Draw) : Progress → StateM σ (Outcome (List String))
  | underWay issued left => collectAfter (next draw.key draw.step draw.length) issued (left + 1)
  | ended result => pure result

/-- The rest of a call that is under way begins with its next draw. -/
theorem finish_underWay (draw : Draw) (issued : List String) (left : Nat) (store : σ) :
    finish draw (underWay issued left) store =
      finish draw (after issued left (next draw.key draw.step draw.length store).1)
        (next draw.key draw.step draw.length store).2 := by
  show (collectAfter _ issued (left + 1) : StateM σ _) store = _
  rw [collectAfter]
  show (match (next draw.key draw.step draw.length store).1 with
    | .ok id => collectAfter _ (issued ++ [id]) left
    | .error cause => pure (.error (interrupted issued cause)) : StateM σ _)
      (next draw.key draw.step draw.length store).2 = _
  cases (next draw.key draw.step draw.length store).1 with
  | error cause => rfl
  | ok id => cases left <;> rfl

end Progress

namespace Request

/-- What a call draws, where its key is accepted. -/
def draw : Request → Outcome Draw
  | next key step length | nextMany key step length _ => .ok ⟨key, step, length⟩
  | nextFor issuer name key step length | nextManyFor issuer name key step length _ =>
    (CompositeKey.ofParts issuer.settings.scope name key).map fun composite =>
      ⟨composite.text, step, length⟩
  | nextConfigured issuer name key =>
    (CompositeKey.ofParts issuer.settings.scope name key).map fun composite =>
      ⟨composite.text, issuer.settings.step, issuer.settings.length⟩

/-- The number of identifiers that a call asks for. -/
def count : Request → UInt64
  | nextMany _ _ _ count | nextManyFor _ _ _ _ _ count => count
  | _ => 1

/-- A call before its first draw. -/
def begin (request : Request) : Progress :=
  match request.draw, checkCount request.count with
  | .error cause, _ => .ended (.error cause)
  | .ok _, .error cause => .ended (.error cause)
  | .ok _, .ok () => .underWay [] (request.count.toNat - 1)

variable {σ : Type} [Store σ]

/-- What a call does to a store that no other call uses meanwhile. -/
def perform : Request → StateM σ (Outcome (List String))
  | next key step length => single <$> Counter.next key step length
  | nextFor issuer name key step length => single <$> issuer.nextFor name key step length
  | nextConfigured issuer name key => single <$> issuer.nextConfigured name key
  | nextMany key step length count => Counter.nextMany key step length count
  | nextManyFor issuer name key step length count =>
    issuer.nextManyFor name key step length count

/-- A single draw is a batch of one. -/
theorem single_next (key : String) (step length : UInt64) :
    (single <$> Counter.next key step length : StateM σ _)
      = Progress.finish ⟨key, step, length⟩ (.underWay [] 0) := by
  funext store
  rw [Progress.finish_underWay]
  show (single (Counter.next key step length store).1, (Counter.next key step length store).2) = _
  cases (Counter.next key step length store).1 <;> rfl

/-- A batch whose count is accepted draws one identifier and then the rest. -/
theorem collect_next {count : UInt64} (h : checkCount count = .ok ()) (draw : Draw) :
    (collect (Counter.next draw.key draw.step draw.length) ⟨count.toNat, fits_of_checkCount h⟩
        : StateM σ _)
      = Progress.finish draw (.underWay [] (count.toNat - 1)) := by
  have hpos : 0 < count.toNat := by
    by_contra hzero
    have hcount : count = 0 := UInt64.toNat_inj.mp (by simpa using hzero)
    rw [hcount] at h
    cases h
  show collectAfter _ [] count.toNat = collectAfter _ [] (count.toNat - 1 + 1)
  rw [Nat.sub_add_cancel hpos]

/-- A call begins, and goes on draw by draw. -/
theorem perform_eq_finish (request : Request) :
    (request.perform : StateM σ _) =
      match request.draw with
      | .error cause => pure (.error cause)
      | .ok draw => request.begin.finish draw := by
  cases request with
  | next key step length => exact single_next key step length
  | nextFor issuer name key step length =>
    simp only [perform, draw, begin, Issuer.nextFor]
    cases CompositeKey.ofParts issuer.settings.scope name key with
    | error cause => rfl
    | ok composite => exact single_next composite.text step length
  | nextConfigured issuer name key =>
    simp only [perform, draw, begin, Issuer.nextConfigured, Issuer.nextFor]
    cases CompositeKey.ofParts issuer.settings.scope name key with
    | error cause => rfl
    | ok composite => exact single_next composite.text _ _
  | nextMany key step length number =>
    simp only [perform, draw, begin, Counter.nextMany, count]
    cases hcount : checkCount number with
    | error cause =>
      rw [accept_of_error hcount]
      rfl
    | ok =>
      rw [accept_of_ok hcount]
      exact collect_next hcount ⟨key, step, length⟩
  | nextManyFor issuer name key step length number =>
    simp only [perform, draw, begin, Issuer.nextManyFor, Counter.nextMany, count]
    cases CompositeKey.ofParts issuer.settings.scope name key with
    | error cause => rfl
    | ok composite =>
      cases hcount : checkCount number with
      | error cause =>
        rw [accept_of_error hcount]
        rfl
      | ok =>
        rw [accept_of_ok hcount]
        exact collect_next hcount ⟨composite.text, step, length⟩

end Request

/-! ## Runs -/

/-- A call that was made, and how far it has come. -/
structure Errand where
  request : Request
  progress : Progress

namespace Errand

/-- A call that is made. -/
def ofRequest (request : Request) : Errand := ⟨request, request.begin⟩

/-- The key of the counter that a call draws from, where it is accepted. -/
def key? (errand : Errand) : Option String :=
  match errand.request.draw with
  | .ok draw => some draw.key
  | .error _ => none

/-- The identifiers that a call has handed out, if it draws for the key. -/
def handedOutFor (key : String) (errand : Errand) : List String :=
  if errand.key? = some key then errand.progress.handedOut else []

/-- A call that was only made has handed out nothing. -/
theorem handedOutFor_ofRequest (key : String) (request : Request) :
    (ofRequest request).handedOutFor key = [] := by
  unfold handedOutFor
  by_cases hkey : (ofRequest request).key? = some key
  · rw [if_pos hkey]
    unfold ofRequest Request.begin
    cases hdraw : request.draw with
    | error cause => rw [key?, ofRequest, hdraw] at hkey; cases hkey
    | ok draw =>
      cases hcount : checkCount request.count with
      | error cause => exact issued_of_checkCount hcount
      | ok => rfl
  · rw [if_neg hkey]

end Errand

/-- A draw that was made. -/
structure Entry where
  /-- The call that drew, by its place among the calls. -/
  caller : Nat
  draw : Draw
  /-- What the server's clock read. -/
  time? : Option Duration
  /-- The counters before the draw. -/
  before : Counters
  /-- The counters after the draw. -/
  after : Counters
  outcome : Outcome String

namespace Entry

/-- The draw yielded an identifier. -/
def Succeeded (e : Entry) : Prop := ∃ id, e.outcome = .ok id

/-- The value from which the draw went on. -/
def base (e : Entry) : Int := (e.before.value e.draw.key).toInt

/-- The value to which the draw brought the counter. -/
def count (e : Entry) : Int := (e.after.value e.draw.key).toInt

/-- The counter has no more digits than there is room for. -/
def Fits (e : Entry) : Prop := (toString e.count.toNat).length ≤ e.draw.length.toNat

/-- The clock read a time in the years 0 to 9999. -/
def InFourDigitYear (e : Entry) : Prop :=
  ∀ time, e.time? = some time →
    0 ≤ (Calendar.momentOf time.millis).year ∧ (Calendar.momentOf time.millis).year ≤ 9999

/-- The identifier that the draw yielded, if it was for the key. -/
def handedOutFor (key : String) (e : Entry) : Option String :=
  if e.draw.key = key then Progress.issuedBy e.outcome else none

/-- What is handed out for a key was drawn for the key, and with success. -/
theorem handedOutFor_eq_some_iff {key id : String} {e : Entry} :
    e.handedOutFor key = some id ↔ e.draw.key = key ∧ e.outcome = .ok id := by
  unfold handedOutFor
  by_cases hkey : e.draw.key = key
  · rw [if_pos hkey]
    cases e.outcome <;> simp [Progress.issuedBy, hkey]
  · simp [hkey]

end Entry

variable {τ : Type} [ServerClock τ]

/-- A store in memory, and the calls on it. -/
structure Desk (τ : Type) where
  store : MemoryStore τ
  errands : List Errand

/-- The identifiers that the calls have handed out for a key. -/
def Desk.handedOutFor (desk : Desk τ) (key : String) : List String :=
  desk.errands.flatMap (·.handedOutFor key)

/-- Calls on a store go on draw by draw, in any order. -/
inductive Run : Desk τ → List Entry → Desk τ → Prop
  | nil (desk : Desk τ) : Run desk [] desk
  | cons {store store' : MemoryStore τ} {errands : List Errand} {request : Request}
      {issued : List String} {left : Nat} {draw : Draw} {outcome : Outcome String}
      {log : List Entry} {desk : Desk τ} (caller : Nat)
      (hcaller : errands[caller]? = some ⟨request, .underWay issued left⟩)
      (hdraw : request.draw = .ok draw)
      (hnext : next draw.key draw.step draw.length store = (outcome, store'))
      (rest : Run ⟨store', errands.set caller ⟨request, .after issued left outcome⟩⟩ log desk) :
      Run ⟨store, errands⟩
        (⟨caller, draw, (ServerClock.read store.clock).1, store.counters, store'.counters, outcome⟩
          :: log) desk

namespace Run

variable {desk desk' : Desk τ} {log : List Entry}

/-- The draws of a run are draws from the store at their time. -/
theorem exists_drawn (h : Run desk log desk') {e : Entry} (he : e ∈ log) :
    ∃ store store' : MemoryStore τ, Drawn e.draw store e.outcome store'
      ∧ e.time? = (ServerClock.read store.clock).1
      ∧ e.before = store.counters ∧ e.after = store'.counters := by
  induction h with
  | nil desk => cases he
  | @cons store store' _ _ _ _ _ _ _ _ caller hcaller hdraw hnext rest ih =>
    rcases List.mem_cons.mp he with rfl | he
    · exact ⟨store, store', drawn_next hnext, rfl, rfl, rfl⟩
    · exact ih he

/-- The counters at a draw of a run have not gone back since its beginning. -/
theorem value_le_before (h : Run desk log desk') (key : String) {e : Entry} (he : e ∈ log) :
    (desk.store.counters.value key).toInt ≤ (e.before.value key).toInt := by
  induction h with
  | nil desk => cases he
  | cons caller hcaller hdraw hnext rest ih =>
    rcases List.mem_cons.mp he with rfl | he
    · exact Int.le_refl _
    · exact Int.le_trans ((drawn_next hnext).value_le key) (ih he)

/-- The counters at a draw of a run have not gone back since any earlier draw. -/
theorem pairwise_after_le_before (h : Run desk log desk') :
    log.Pairwise fun e e' =>
      ∀ key, (e.after.value key).toInt ≤ (e'.before.value key).toInt := by
  induction h with
  | nil desk => exact .nil
  | cons caller hcaller hdraw hnext rest ih =>
    exact .cons (fun e he key => rest.value_le_before key he) ih

/-- What the calls have handed out for a key in the end is what they had handed out before and what
the draws of the run yielded. -/
theorem handedOut_perm (h : Run desk log desk') (key : String) :
    (desk'.handedOutFor key).Perm
      (desk.handedOutFor key ++ log.filterMap (·.handedOutFor key)) := by
  -- the share of the caller grows by what its draw yields, and all other shares stay
  induction h with
  | nil desk => simp
  | @cons store store' errands request issued left draw outcome log desk' caller hcaller hdraw
      hnext rest ih =>
    have hkey (progress : Progress) :
        (Errand.mk request progress).handedOutFor key
          = if draw.key = key then progress.handedOut else [] := by
      simp [Errand.handedOutFor, Errand.key?, hdraw]
    have hadded : (Errand.mk request (.after issued left outcome)).handedOutFor key
        = (Errand.mk request (.underWay issued left)).handedOutFor key
          ++ (if draw.key = key then Progress.issuedBy outcome else none).toList := by
      rw [hkey, hkey]
      by_cases hdrawn : draw.key = key
      · rw [if_pos hdrawn, if_pos hdrawn, if_pos hdrawn]
        exact Progress.handedOut_after issued left (drawn_next hnext).plain
      · rw [if_neg hdrawn, if_neg hdrawn, if_neg hdrawn]
        rfl
    have hcons (e : Entry) : (e :: log).filterMap (·.handedOutFor key)
        = (e.handedOutFor key).toList ++ log.filterMap (·.handedOutFor key) := by
      rw [List.filterMap_cons]
      cases e.handedOutFor key <;> rfl
    refine ih.trans (((flatMap_set_perm hadded hcaller).append_right _).trans ?_)
    rw [List.append_assoc, hcons]
    exact .refl _

/-- A call that is under way can be finished while the others wait. -/
theorem exists_of_finish {request : Request} {draw : Draw} (hdraw : request.draw = .ok draw)
    {caller left : Nat} {issued : List String} {store store' : MemoryStore τ}
    {errands : List Errand} {result : Outcome (List String)}
    (hcaller : errands[caller]? = some ⟨request, .underWay issued left⟩)
    (h : Progress.finish draw (.underWay issued left) store = (result, store')) :
    ∃ log, Run ⟨store, errands⟩ log ⟨store', errands.set caller ⟨request, .ended result⟩⟩ := by
  -- on the number of draws that are left, whatever the store and the issued identifiers are then
  induction left generalizing issued store errands with
  | zero =>
    rw [Progress.finish_underWay] at h
    rcases hnext : next draw.key draw.step draw.length store with ⟨cause | id, store₁⟩
    all_goals
      rw [hnext] at h
      cases h
      exact ⟨_, .cons caller hcaller hdraw hnext (.nil _)⟩
  | succ left ih =>
    rw [Progress.finish_underWay] at h
    rcases hnext : next draw.key draw.step draw.length store with ⟨cause | id, store₁⟩
    · rw [hnext] at h
      cases h
      exact ⟨_, .cons caller hcaller hdraw hnext (.nil _)⟩
    · rw [hnext] at h
      have hlt := (List.getElem?_eq_some_iff.mp hcaller).1
      obtain ⟨log, hrun⟩ := ih (List.getElem?_set_self hlt) h
      rw [List.set_set] at hrun
      exact ⟨_, .cons caller hcaller hdraw hnext hrun⟩

/-- A call that no other call disturbs is a run. -/
theorem exists_of_perform {request : Request} {store store' : MemoryStore τ}
    {result : Outcome (List String)} (h : request.perform store = (result, store')) :
    ∃ log, Run ⟨store, [.ofRequest request]⟩ log ⟨store', [⟨request, .ended result⟩]⟩ := by
  rw [Request.perform_eq_finish] at h
  unfold Errand.ofRequest Request.begin at *
  cases hdraw : request.draw with
  | error cause =>
    rw [hdraw] at h
    cases h
    exact ⟨[], .nil _⟩
  | ok draw =>
    cases hcount : checkCount request.count with
    | error cause =>
      simp only [hdraw, hcount] at h
      cases h
      exact ⟨[], .nil _⟩
    | ok =>
      simp only [hdraw, hcount] at h
      have hfirst (errand : Errand) : [errand][0]? = some errand := rfl
      exact exists_of_finish hdraw (hfirst _) h

/-! ## What a run hands out -/

/-- What is said of a run with the draws `log` that began with calls that had not drawn yet, and led to
`desk`. -/
structure CountedUp (log : List Entry) (desk : Desk τ) : Prop where
  /-- The counters that draws for one key yielded are ascending. -/
  rising : log.Pairwise fun e e' =>
    e.draw.key = e'.draw.key → e.Succeeded → e'.Succeeded → e.count < e'.count
  /-- A draw that succeeded added its step, without wrapping. -/
  added : ∀ e ∈ log, e.Succeeded → e.count = e.base + e.draw.step.toNat
  /-- A draw that would overflow its counter failed and changed no counter. -/
  refused : ∀ e ∈ log, 2 ^ 63 ≤ e.base + e.draw.step.toNat → ¬ e.Succeeded ∧ e.after = e.before
  /-- What the calls handed out for a key is what the draws for the key yielded. -/
  drawn : ∀ key, (desk.handedOutFor key).Perm (log.filterMap (·.handedOutFor key))
  /-- No identifier is handed out twice for a key whose counters fit their widths at dates of
  seventeen digits. -/
  nodup : ∀ key, (∀ e ∈ log, e.draw.key = key → e.Succeeded → e.Fits ∧ e.InFourDigitYear) →
    (desk.handedOutFor key).Nodup
  /-- A call that no other call disturbs is such a run, and comes to the same result and store. -/
  undisturbed : ∀ (request : Request) (store : MemoryStore τ), ∃ log' : List Entry,
    Run ⟨store, [.ofRequest request]⟩ log'
      ⟨(request.perform store).2, [⟨request, .ended (request.perform store).1⟩]⟩

/-- A draw of a run that yielded an identifier raised its counter, which the identifier shows. -/
theorem of_ok (h : Run desk log desk') {e : Entry} (he : e ∈ log) {id : String}
    (hok : e.outcome = .ok id) :
    e.base < e.count ∧ e.count = e.base + e.draw.step.toNat
      ∧ ∃ time, e.time? = some time ∧ 0 ≤ e.count
        ∧ id = (Calendar.momentOf time.millis).text
            ++ Decimal.fixed e.draw.length.toNat e.count.toNat := by
  obtain ⟨store, store', hdrawn, htime, hbefore, hafter⟩ := h.exists_drawn he
  rw [hok] at hdrawn
  obtain ⟨hstep, hvalue, time, hread, hid, hpos⟩ := hdrawn.of_ok
  rw [← hafter, ← hbefore] at hvalue
  rw [← hafter] at hid hpos
  have hbase : e.count = e.base + e.draw.step.toNat := hvalue
  exact ⟨by omega, hbase, time, htime.trans hread, hpos, hid⟩

/-- Identifiers from two draws for one key differ, where their counters fit at dates of seventeen
digits. -/
theorem ne_of_fits (h : Run desk log desk') {e e' : Entry} (he : e ∈ log) (he' : e' ∈ log)
    {id id' : String} (hok : e.outcome = .ok id) (hok' : e'.outcome = .ok id')
    (hfits : e.Fits ∧ e.InFourDigitYear) (hfits' : e'.Fits ∧ e'.InFourDigitYear)
    (hlt : e.count < e'.count) : id ≠ id' := by
  intro heq
  obtain ⟨-, -, time, htime, hpos, rfl⟩ := h.of_ok he hok
  obtain ⟨-, -, time', htime', hpos', rfl⟩ := h.of_ok he' hok'
  have hwidth {e : Entry} (hfits : e.Fits) : e.count.toNat < 10 ^ e.draw.length.toNat := by
    by_cases hzero : e.draw.length.toNat = 0
    · -- no counter fits a width of zero: even the least one has a digit
      rw [Entry.Fits, hzero] at hfits
      have hne : toString e.count.toNat ≠ "" := by
        intro hempty
        exact Nat.toDigits_ne_nil (Nat.toList_repr.symm.trans (congrArg String.toList hempty))
      exact absurd (String.length_eq_zero_iff.mp (Nat.le_zero.mp hfits)) hne
    · exact (Nat.length_repr_le_iff (Nat.pos_of_ne_zero hzero)).mp hfits
  obtain ⟨hlow, hhigh⟩ := hfits.2 time htime
  obtain ⟨hlow', hhigh'⟩ := hfits'.2 time' htime'
  have hcount := count_eq_of_text_eq (length_text hlow hhigh) (length_text hlow' hhigh')
    (hwidth hfits.1) (hwidth hfits'.1) heq
  omega

/-- **What interleaved calls hand out.** Whatever the counters, the clock and the order of the draws,
the counters of a key only rise, and identifiers of a key whose counters fit are issued once. -/
theorem counts_up {store : MemoryStore τ} {requests : List Request}
    (h : Run ⟨store, requests.map .ofRequest⟩ log desk') : CountedUp log desk' := by
  have hrising : log.Pairwise fun e e' =>
      e.draw.key = e'.draw.key → e.Succeeded → e'.Succeeded → e.count < e'.count := by
    refine h.pairwise_after_le_before.imp_of_mem ?_
    rintro e e' - he' hle hkey - ⟨id', hok'⟩
    have hbetween : e.count ≤ e'.base := by
      rw [Entry.base, ← hkey]
      exact hle e.draw.key
    exact Int.lt_of_le_of_lt hbetween (h.of_ok he' hok').1
  have hperm (key : String) : (desk'.handedOutFor key).Perm (log.filterMap (·.handedOutFor key)) := by
    have hnone : (requests.map Errand.ofRequest).flatMap (·.handedOutFor key) = [] := by
      rw [List.flatMap_eq_nil_iff]
      intro errand hmem
      obtain ⟨request, -, rfl⟩ := List.mem_map.mp hmem
      exact Errand.handedOutFor_ofRequest key request
    have hall := h.handedOut_perm key
    rwa [Desk.handedOutFor, Desk.handedOutFor, hnone] at hall
  refine ⟨hrising, ?_, ?_, hperm, ?_, fun request store => exists_of_perform rfl⟩
  · rintro e he ⟨id, hok⟩
    exact (h.of_ok he hok).2.1
  · intro e he hlimit
    obtain ⟨store, store', hdrawn, -, hbefore, hafter⟩ := h.exists_drawn he
    rw [Entry.base, hbefore] at hlimit
    obtain ⟨⟨cause, hfail⟩, rfl⟩ := hdrawn.of_overflow hlimit
    refine ⟨?_, hafter.trans hbefore.symm⟩
    rintro ⟨id, hok⟩
    rw [hok] at hfail
    cases hfail
  · intro key hfits
    -- equal identifiers would show equal counters, but those are ascending
    rw [(hperm key).nodup_iff, List.Nodup, List.pairwise_filterMap]
    refine hrising.imp_of_mem ?_
    intro e e' he he' hlt id hid id' hid'
    obtain ⟨rfl, hok⟩ := Entry.handedOutFor_eq_some_iff.mp hid
    obtain ⟨hkey, hok'⟩ := Entry.handedOutFor_eq_some_iff.mp hid'
    exact h.ne_of_fits he he' hok hok' (hfits e he rfl ⟨id, hok⟩) (hfits e' he' hkey ⟨id', hok'⟩)
      (hlt hkey.symm ⟨id, hok⟩ ⟨id', hok'⟩)

/-! ### Two calls of different widths -/

/-- A clock that goes back a second after its first reading, and then stands still. -/
def slippingClock : Nat → Option Duration :=
  fun n => some (.ofParts (if n = 0 then 1700000000 else 1699999999) 5000000)

/-- Two identifiers in steps of one, one in a step of three, and one in the greatest step. -/
def mixedRequests : List Request :=
  [.nextMany "a:b:c" 1 1 2, .next "a:b:c" 3 2, .next "a:b:c" greatestStep 20]

/-- The counters after a first, a second and a third draw. -/
def firstCounters : Counters := (∅ : Counters).insert "a:b:c" 1

@[inherit_doc firstCounters]
def secondCounters : Counters := firstCounters.insert "a:b:c" 4

@[inherit_doc firstCounters]
def thirdCounters : Counters := secondCounters.insert "a:b:c" 5

/-- The draws: the second call draws between the draws of the first one, and the third call fails. -/
def mixedLog : List Entry :=
  [⟨0, ⟨"a:b:c", 1, 1⟩, slippingClock 0, ∅, firstCounters, .ok "202311142213200051"⟩,
    ⟨1, ⟨"a:b:c", 3, 2⟩, slippingClock 1, firstCounters, secondCounters,
      .ok "2023111422131900504"⟩,
    ⟨0, ⟨"a:b:c", 1, 1⟩, slippingClock 2, secondCounters, thirdCounters, .ok "202311142213190055"⟩,
    ⟨2, ⟨"a:b:c", greatestStep, 20⟩, slippingClock 3, thirdCounters, thirdCounters,
      .error (.store (.script "increment or decrement would overflow"))⟩]

/-- The store and the calls after these draws. -/
def mixedDesk : Desk (Nat → Option Duration) :=
  ⟨⟨thirdCounters, fun n => slippingClock (n + 3)⟩,
    [⟨.nextMany "a:b:c" 1 1 2, .ended (.ok ["202311142213200051", "202311142213190055"])⟩,
      ⟨.next "a:b:c" 3 2, .ended (.ok ["2023111422131900504"])⟩,
      ⟨.next "a:b:c" greatestStep 20,
        .ended (.error (.store (.script "increment or decrement would overflow")))⟩]⟩

/-- Calls of different steps and widths that interleave while the clock goes back. -/
theorem counts_up_mixed :
    Run ⟨.empty slippingClock, mixedRequests.map .ofRequest⟩ mixedLog mixedDesk
      ∧ CountedUp mixedLog mixedDesk := by
  have hnone : (∅ : Counters).value "a:b:c" = 0 := by
    rw [Counters.value, Std.ExtHashMap.getElem?_empty]
    rfl
  have hfirst : firstCounters.value "a:b:c" = 1 := value_insert_self ∅ "a:b:c" 1
  have hsecond : secondCounters.value "a:b:c" = 4 := value_insert_self firstCounters "a:b:c" 4
  have hthird : thirdCounters.value "a:b:c" = 5 := value_insert_self secondCounters "a:b:c" 5
  have h : Run ⟨.empty slippingClock, mixedRequests.map .ofRequest⟩ mixedLog mixedDesk := by
    refine .cons 0 rfl rfl
      ((next_of_checkCall ⟨"a:b:c", 1, 1⟩ ⟨∅, slippingClock⟩ rfl hnone).trans rfl) ?_
    refine .cons 1 rfl rfl
      ((next_of_checkCall ⟨"a:b:c", 3, 2⟩ ⟨firstCounters, _⟩ rfl hfirst).trans rfl) ?_
    refine .cons 0 rfl rfl
      ((next_of_checkCall ⟨"a:b:c", 1, 1⟩ ⟨secondCounters, _⟩ rfl hsecond).trans rfl) ?_
    refine .cons 2 rfl rfl
      ((next_of_checkCall ⟨"a:b:c", greatestStep, 20⟩ ⟨thirdCounters, _⟩ rfl hthird).trans rfl) ?_
    exact .nil _
  exact ⟨h, h.counts_up⟩

end Run

end Counter

end IdMint
