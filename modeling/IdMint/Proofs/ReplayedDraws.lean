import IdMint.Proofs.BatchReports
import IdMint.Proofs.CounterDraws

/-! # Batches from prepared replies

Whatever a store answers, a batch of counter identifiers calls it with one and the same increment, as
often as identifiers are asked for or until an answer leads to none; and what it reports is told by
these answers. Where its arguments are refused, it does not call the store at all. The store that
answers prepared replies remembers its calls, so all this is said of what it is afterwards:
`nextMany_by_answers`. -/

namespace IdMint.Counter

open Batch

/-! ## Prepared replies -/

namespace ReplayedStore

variable {store : ReplayedStore} {call : Call}

/-- What the store will answer to its calls, counted from zero: it fails when no reply is left. -/
def answer (store : ReplayedStore) (i : Nat) : Except Fault (List ReplyValue) :=
  store.replies.getD i (.error (.connection "exhausted"))

/-- The store after so many calls, all of them the same. -/
def after (store : ReplayedStore) (call : Call) (calls : Nat) : ReplayedStore :=
  ⟨store.replies.drop calls, store.calls ++ List.replicate calls call⟩

theorem after_zero : store.after call 0 = store := by
  rw [after, List.drop_zero, List.replicate_zero, List.append_nil]

theorem after_after (i j : Nat) : (store.after call i).after call j = store.after call (i + j) := by
  rw [after, after, after, List.drop_drop, List.append_assoc, List.replicate_append_replicate]

theorem answer_after (i j : Nat) : (store.after call i).answer j = store.answer (i + j) := by
  rw [answer, answer, after, List.getD_eq_getElem?_getD, List.getD_eq_getElem?_getD,
    List.getElem?_drop]

/-- A call gets the next answer. -/
theorem run_eq (call : Call) (store : ReplayedStore) :
    Store.run call store = (store.answer 0, store.after call 1) := by
  rcases store with ⟨_ | ⟨reply, replies⟩, calls⟩ <;> rfl

end ReplayedStore

/-! ## What an answer leads to -/

/-- What a draw makes of the store's answer. -/
inductive LeadsTo (length : UInt64) : Except Fault (List ReplyValue) → Outcome String → Prop
  /-- The store fails. -/
  | refused (fault : Fault) : LeadsTo length (.error fault) (.error (.store fault))
  /-- The reply does not tell a time and a counter. -/
  | unread {reply : List ReplyValue} {fault : Fault} (hread : readReply reply = .error fault) :
    LeadsTo length (.ok reply) (.error (.store fault))
  /-- The time that the reply tells has no date. -/
  | undated {reply : List ReplyValue} {reading : Reading} {fault : Fault}
    (hread : readReply reply = .ok reading) (hid : identifier reading length.toNat = .error fault) :
    LeadsTo length (.ok reply) (.error (.store fault))
  /-- The reply is made an identifier. -/
  | written {reply : List ReplyValue} {reading : Reading} {id : String}
    (hread : readReply reply = .ok reading) (hid : identifier reading length.toNat = .ok id) :
    LeadsTo length (.ok reply) (.ok id)

theorem leadsTo_iff {length : UInt64} {answer : Except Fault (List ReplyValue)}
    {outcome : Outcome String} : LeadsTo length answer outcome ↔ outcome = ofAnswer answer length := by
  constructor
  · intro h
    cases h with
    | refused => rfl
    | unread hread => simp only [ofAnswer, bind, Except.bind, hread]
    | undated hread hid | written hread hid => simp only [ofAnswer, bind, Except.bind, hread, hid]
  · rintro rfl
    cases answer with
    | error fault => exact .refused fault
    | ok reply =>
      cases hread : readReply reply with
      | error fault =>
        simp only [ofAnswer, bind, Except.bind, hread]
        exact .unread hread
      | ok reading =>
        cases hid : identifier reading length.toNat with
        | error fault =>
          simp only [ofAnswer, bind, Except.bind, hread, hid]
          exact .undated hread hid
        | ok id =>
          simp only [ofAnswer, bind, Except.bind, hread, hid]
          exact .written hread hid

/-! ## Draws one after the other -/

variable {key : String} {step length : UInt64} {store store' : ReplayedStore}

/-- A draw whose arguments pass the checks makes one call, and its answer decides. -/
theorem next_replayed (hcheck : checkCall key step length = .ok ()) (store : ReplayedStore) :
    next key step length store
      = (ofAnswer (store.answer 0) length, store.after (incrementCall key step) 1) := by
  simp only [next, hcheck, ReplayedStore.run_eq]

/-- Draws one after the other make as many calls, and each of them gets its own answer. -/
theorem answers_of_series (hcheck : checkCall key step length = .ok ())
    {draws : List (Outcome String)}
    (h : Series ((Steps.total ReplayedStore).goes (next key step length)) store draws store') :
    store' = store.after (incrementCall key step) draws.length
      ∧ ∀ i (hi : i < draws.length), draws[i] = ofAnswer (store.answer i) length := by
  induction h with
  | nil => exact ⟨ReplayedStore.after_zero.symm, nofun⟩
  | @cons store _ _ _ draws hfirst _ ih =>
    -- the first call moves the answers of the later ones to the front
    obtain ⟨rfl, rfl⟩ := Prod.mk.inj ((next_replayed hcheck store).symm.trans hfirst)
    obtain ⟨hstore, hdraws⟩ := ih
    rw [ReplayedStore.after_after, Nat.add_comm] at hstore
    refine ⟨hstore, fun i hi => ?_⟩
    cases i with
    | zero => rfl
    | succ i =>
      rw [List.getElem_cons_succ, hdraws, ReplayedStore.answer_after, Nat.add_comm]

/-! ## Batches -/

/-- A batch of these arguments is refused, for its count, its key, its step or its width. -/
def Inadmissible (key : String) (step length count : UInt64) : Prop :=
  count = 0 ∨ 1000 < count ∨ key = "" ∨ step = 0 ∨ 2 ^ 63 ≤ step.toNat ∨ length = 0

/-- What a batch of `count` makes of the first `calls` answers of a store. -/
structure ByAnswers (store : ReplayedStore) (length : UInt64) (count calls : Nat)
    (result : Outcome (List String)) : Prop where
  /-- It reports what these answers lead to. -/
  reports : ∃ draws : List (Outcome String), draws.length = calls
    ∧ (∀ i (hi : i < draws.length), LeadsTo length (store.answer i) draws[i])
    ∧ Reports count draws result
  /-- There are as many as it asks for, if they all lead to identifiers. -/
  calls_of_ok : (∀ i < count, ∃ id, LeadsTo length (store.answer i) (.ok id)) → calls = count
  /-- The first one that does not is the last one. -/
  calls_of_error : ∀ i < count, (∀ j < i, ∃ id, LeadsTo length (store.answer j) (.ok id)) →
    (∃ cause, LeadsTo length (store.answer i) (.error cause)) → calls = i + 1

/-- What is said of a batch on a store that answers prepared replies. -/
structure ReplayedBatch (store : ReplayedStore) (key : String) (step length count : UInt64) :
    Prop where
  /-- A batch that is refused fails, and leaves the store as it is, without a call. -/
  inadmissible : Inadmissible key step length count →
    ∃ cause, nextMany key step length count store = (.error cause, store)
  /-- Any other batch makes calls that are all the same, of the script on the one key with the step in
  decimal, and goes by the answers to them. -/
  byAnswers : ¬ Inadmissible key step length count → ∃ calls result,
    nextMany key step length count store
        = (result, store.after ⟨incrementScript, [key], [toString step.toNat]⟩ calls)
      ∧ ByAnswers store length count.toNat calls result

/-- Arguments pass the checks unless a batch of them is refused. -/
theorem not_inadmissible_iff {count : UInt64} :
    ¬ Inadmissible key step length count
      ↔ checkCount count = .ok () ∧ checkCall key step length = .ok () := by
  have hstep : 0 < step.toNat ↔ step ≠ 0 := by
    rw [Nat.pos_iff_ne_zero, Ne, Ne, ← UInt64.toNat_inj, UInt64.toNat_zero]
  rw [checkCount_eq_ok_iff, checkCall_eq_ok_iff, hstep, limit, Inadmissible, ← Nat.not_le]
  simp only [not_or, Ne, and_assoc]

/-- A batch whose count passes its check draws one identifier after the other. -/
theorem nextMany_of_checkCount {count : UInt64} (hcount : checkCount count = .ok ()) :
    (nextMany key step length count : StateM ReplayedStore (Outcome (List String)))
      = collect (next key step length) ⟨count.toNat, fits_of_checkCount hcount⟩ := by
  rw [nextMany, accept_of_ok hcount]

/-- A batch that is refused fails before its first call. -/
theorem exists_nextMany_of_inadmissible {count : UInt64} (h : Inadmissible key step length count)
    (store : ReplayedStore) :
    ∃ cause, nextMany key step length count store = (.error cause, store) := by
  cases hcount : checkCount count with
  | error cause => exact ⟨cause, by rw [nextMany, accept_of_error hcount]; rfl⟩
  | ok =>
    cases hcheck : checkCall key step length with
    | ok => exact absurd h (not_inadmissible_iff.mpr ⟨hcount, hcheck⟩)
    | error cause =>
      -- the count is not zero, so the batch begins, and its first draw refuses the arguments
      have hpos : count.toNat ≠ 0 := by
        rw [Ne, ← UInt64.toNat_zero, UInt64.toNat_inj]
        exact fun hzero => checkCount_eq_ok_iff.mp hcount (.inl hzero)
      obtain ⟨n, hn⟩ := Nat.exists_eq_succ_of_ne_zero hpos
      have hfirst : next key step length store = (.error cause, store) := by
        simp only [next, hcheck]
      rw [nextMany_of_checkCount hcount]
      refine ⟨cause, (Steps.total _).goes_collect.mpr ⟨_, .cons hfirst (.nil store), ?_⟩⟩
      dsimp only
      rw [hn]
      exact .failed [] n cause

/-- **A batch is its answers.** Whatever a store answers, a batch of counter identifiers calls it only
as often as it has to, loses none of the identifiers that it got, and does not call it for arguments
that it refuses. -/
theorem nextMany_by_answers (store : ReplayedStore) (key : String) (step length count : UInt64) :
    ReplayedBatch store key step length count where
  inadmissible h := exists_nextMany_of_inadmissible h store
  byAnswers h := by
    obtain ⟨hcount, hcheck⟩ := not_inadmissible_iff.mp h
    rw [nextMany_of_checkCount hcount]
    rcases hbatch : collect (next key step length) ⟨_, fits_of_checkCount hcount⟩ store with
      ⟨result, store'⟩
    obtain ⟨draws, hseries, hgathers⟩ := (Steps.total ReplayedStore).goes_collect.mp hbatch
    obtain ⟨rfl, hdraws⟩ := answers_of_series hcheck hseries
    obtain ⟨hall, hfirst⟩ := hgathers.length_eq hdraws
    refine ⟨draws.length, result, rfl, ⟨draws, rfl, ?_, hgathers.reports⟩, ?_, ?_⟩
    · exact fun i hi => leadsTo_iff.mpr (hdraws i hi)
    · simpa only [leadsTo_iff, eq_comm] using hall
    · simpa only [leadsTo_iff, eq_comm] using hfirst

-- the third reply cuts a batch of five short, and the fourth one is left
example : nextMany "p:n:k" 1 2 5
    (⟨[.ok [.bulk "1483228800", .bulk "0", .int 1], .ok [.bulk "1483228800", .bulk "0", .int 102],
      .error (.connection "reset by peer"), .ok []], []⟩ : ReplayedStore)
    = (.error (.partialBatch ["2017010100000000001", "2017010100000000002"]
          (.store (.connection "reset by peer"))),
        ⟨[.ok []], List.replicate 3 ⟨incrementScript, ["p:n:k"], ["1"]⟩⟩) := rfl

end IdMint.Counter
