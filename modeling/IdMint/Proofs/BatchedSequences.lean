import IdMint.Proofs.FreshSequences

/-! # Sequence numbers in batches and one by one

A batch makes sure of the node of its key once and only writes from then on, where single numbers make
sure of the node every time. While nobody disturbs the session both come to the same: the same numbers,
or the same error with no number before it, and the same service. This is so in every phase of the
session and for every key, since what is refused at first is refused again. -/

namespace IdMint.Coordination

/-! ## Programs that are run again -/

/-- What a program comes to that is run several times, one run after the other: the results, and the
phase and the service after the last run. -/
inductive Program.ComesEach (p : Program α) :
    Phase → Coordinator → List α → Phase → Coordinator → Prop
  | done (phase : Phase) (c : Coordinator) : ComesEach p phase c [] phase c
  | more {phase mid phase' : Phase} {c between c' : Coordinator} {calls : Nat} {result : α}
    {results : List α} (first : p.Comes phase c calls result mid between)
    (rest : ComesEach p mid between results phase' c') :
    ComesEach p phase c (result :: results) phase' c'

/-- A program that changes nothing comes to the same every time. -/
theorem Program.comesEach_replicate {p : Program α} {phase : Phase} {c : Coordinator} {calls : Nat}
    {result : α} (h : p.Comes phase c calls result phase c) (times : Nat) :
    p.ComesEach phase c (List.replicate times result) phase c := by
  induction times with
  | zero => exact .done phase c
  | succ times ih => exact .more h ih

/-- Rehearses a program several times, each time on the stage that the time before has left: the
results, and the last stage. -/
def rehearseEach (policy : RetryPolicy) (steps : Nat) (program : Program α) :
    (times : Nat) → Stage → Option (List α × Stage)
  | 0, stage => some ([], stage)
  | times + 1, stage => do
    let (report, stage) ← rehearse policy steps program none stage
    let (results, stage) ← rehearseEach policy steps program times stage
    return (report.result :: results, stage)

/-- Rehearsals without disturbances come to what the program comes to each time. -/
theorem rehearseEach_of_comesEach (policy : RetryPolicy) {p : Program α} {phase phase' : Phase}
    {c c' : Coordinator} {results : List α} (h : p.ComesEach phase c results phase' c') {stage : Stage}
    (hplan : stage.plan = .calm) (hphase : stage.phase = phase) (hservice : stage.coordinator = c) :
    ∃ enough last, (∀ steps, enough ≤ steps →
        rehearseEach policy steps p results.length stage = some (results, last))
      ∧ last.phase = phase' ∧ last.coordinator = c' := by
  induction h generalizing stage with
  | done phase c => exact ⟨0, stage, fun _ _ => rfl, hphase, hservice⟩
  | @more phase mid phase' c between c' calls result results first rest ih =>
    subst hphase hservice
    obtain ⟨report, after, hfirst, rfl, hmid, hbetween, hcalm⟩ := rehearse_of_comes policy hplan first
    obtain ⟨enough, last, hrest, hlast⟩ := ih hcalm hmid hbetween
    refine ⟨max (calls + 1) enough, last, fun steps hsteps => ?_, hlast⟩
    rw [List.length_cons, rehearseEach, hfirst steps (by omega), Option.bind_eq_bind, Option.bind_some]
    dsimp only
    rw [hrest steps (by omega)]
    rfl

/-! ## Results of draws in the form of a batch -/

theorem mapM_ok (ids : List String) :
    (ids.map Except.ok : List (Outcome String)).mapM id = .ok ids := by
  induction ids with
  | nil => rfl
  | cons id ids ih =>
    rw [List.map_cons, List.mapM_cons, ih]
    rfl

theorem mapM_replicate_error {times : Nat} (h : 0 < times) (cause : Error) :
    (List.replicate times (.error cause : Outcome String)).mapM id = .error cause := by
  obtain ⟨times, rfl⟩ := Nat.exists_eq_succ_of_ne_zero (Nat.ne_of_gt h)
  rw [List.replicate_succ, List.mapM_cons]
  rfl

namespace Sequence

open Session

variable {s : Session} {key : String} {count : UInt64} {phase : Phase} {c : Coordinator}

/-! ## Batches and single numbers -/

/-- A batch comes to what the single numbers of a key come to, and leaves the service as they do. -/
def ComesTogether (s : Session) (key : String) (count : UInt64) (phase : Phase) (c : Coordinator) :
    Prop :=
  ∃ calls results c', results.length = count.toNat
    ∧ (nextMany s key count).run.Comes phase c calls (results.mapM id) phase c'
    ∧ (next s key).run.ComesEach phase c results phase c'

/-- What is refused without a call is refused as often as it is asked for. -/
theorem comesTogether_of_refused {cause : Error} (hpos : 0 < count.toNat)
    (hnext : (next s key).run.Comes phase c 0 (.error cause) phase c)
    (hmany : (nextMany s key count).run.Comes phase c 0 (.error cause) phase c) :
    ComesTogether s key count phase c := by
  refine ⟨0, List.replicate count.toNat (.error cause), c, List.length_replicate, ?_,
    Program.comesEach_replicate hnext _⟩
  rw [mapM_replicate_error hpos]
  exact hmany

/-- Once its node is there, single numbers of a key are issued by the very writes of a batch. -/
theorem comes_writes (hkey : CompositeKey.check key = .ok ())
    (hpath : Path.check (s.nodePath key) = .ok ()) (hconnected : c.connected = true)
    (hmem : s.nodePath key ∈ c.tree) (issued : List String) (times : Nat) :
    ∃ ids c', ids.length = times
      ∧ (Batch.collectAfter (draw (s.nodePath key)).run issued times).Comes .started c times
          (.ok (issued ++ ids)) .started c'
      ∧ (next s key).run.ComesEach .started c (ids.map Except.ok) .started c' := by
  -- along the batch: both stand at the same service before every write
  induction times generalizing c issued with
  | zero =>
    refine ⟨[], c, rfl, ?_, .done _ _⟩
    rw [List.append_nil]
    exact .finish _ _ _
  | succ times ih =>
    obtain ⟨c₁, hdraw, hconnected₁, hmem₁, -⟩ := comes_draw hconnected hpath hmem
    obtain ⟨ids, c', hlength, hbatch, heach⟩ :=
      ih hconnected₁ hmem₁ (issued ++ [toString (c.versionAt (s.nodePath key) + 1)])
    have hnext := comes_next_of_ensured s hkey (comes_ensurePath_of_mem hconnected hpath hmem) hdraw
    refine ⟨_ :: ids, c', congrArg (· + 1) hlength, ?_, .more hnext heach⟩
    rw [List.append_cons]
    exact hdraw.bind hbatch (Nat.add_comm times 1)

/-- A started session that may make sure of the node of a key issues its numbers in both ways. -/
theorem comesTogether_of_started (hcount : Batch.checkCount count = .ok ()) (hpos : 0 < count.toNat)
    (hkey : CompositeKey.check key = .ok ()) (hpath : Path.check (s.nodePath key) = .ok ())
    (hconnected : c.connected = true) : ComesTogether s key count .started c := by
  obtain ⟨times, htimes⟩ := Nat.exists_eq_succ_of_ne_zero (Nat.ne_of_gt hpos)
  obtain ⟨first, c₁, -, hensure, hconnected₁, hmem₁, -⟩ :=
    comes_ensurePath hconnected hpath (s.nodePath_ne_root key)
  -- only the first of the single numbers can find the node missing
  obtain ⟨c₂, hdraw, hconnected₂, hmem₂, -⟩ := comes_draw hconnected₁ hpath hmem₁
  obtain ⟨ids, c', hlength, hbatch, heach⟩ := comes_writes hkey hpath hconnected₂ hmem₂
    [toString (c₁.versionAt (s.nodePath key) + 1)] times
  have hcollect : (Batch.collectAfter (draw (s.nodePath key)).run [] count.toNat).Comes .started c₁
      (1 + times) (.ok (toString (c₁.versionAt (s.nodePath key) + 1) :: ids)) .started c' := by
    rw [htimes]
    exact hdraw.bind hbatch rfl
  refine ⟨first + (1 + times), (toString (c₁.versionAt (s.nodePath key) + 1) :: ids).map Except.ok, c',
    ?_, ?_, ?_⟩
  · rw [List.length_map, List.length_cons, hlength, htimes]
  · rw [mapM_ok]
    exact comes_nextMany_of_ensured s hcount hkey hensure hcollect
  · exact .more (comes_next_of_ensured s hkey hensure hdraw) heach

/-- Batches and single numbers come to the same in every phase and for every key. -/
theorem comesTogether (s : Session) (key : String) (hcount : Batch.checkCount count = .ok ())
    (hpos : 0 < count.toNat) (hconnected : phase = .started → c.connected = true) :
    ComesTogether s key count phase c := by
  cases hkey : CompositeKey.check key with
  | error cause =>
    have hnext : (next s key).run.Comes phase c 0 (.error cause) phase c := by
      rw [next, run_lift_bind, hkey]
      exact .finish _ _ _
    have hmany : (nextMany s key count).run.Comes phase c 0 (.error cause) phase c := by
      rw [nextMany, run_lift_bind, Batch.accept_of_ok hcount]
      dsimp only
      rw [run_lift_bind, hkey]
      exact .finish _ _ _
    exact comesTogether_of_refused hpos hnext hmany
  | ok =>
    by_cases hphase : phase = .started
    · subst hphase
      cases hpath : Path.check (s.nodePath key) with
      | ok => exact comesTogether_of_started hcount hpos hkey hpath (hconnected rfl)
      | error fault =>
        exact comesTogether_of_refused hpos (comes_next_invalid s hkey hpath)
          (comes_nextMany_invalid s hcount hkey hpath)
    · have hensure : (ensurePath (s.nodePath key)).run.Comes phase c 0
          (.error (Operation.readNode.refused phase)) phase c :=
        comes_ensurePath_of_refused (comes_onNode_refused hphase .readNode _)
      exact comesTogether_of_refused hpos (comes_next_of_refused s hkey hensure)
        (comes_nextMany_of_refused s hcount hkey hensure)

/-! ## Rehearsals of batches and of single numbers -/

/-- A batch that is rehearsed on a stage yields what as many single numbers yield one after the other,
all of them or the first error, and leaves the service and the phase that they leave. -/
def BatchLikeSingle (s : Session) (key : String) (count : UInt64) (stage : Stage) : Prop :=
  ∃ enough report last results last', ∀ steps, enough ≤ steps →
    rehearse s.policy steps (nextMany s key count).run none stage = some (report, last)
      ∧ rehearseEach s.policy steps (next s key).run count.toNat stage = some (results, last')
      ∧ report.result = results.mapM id
      ∧ last.coordinator = last'.coordinator ∧ last.phase = last'.phase

/-- **A batch is as good as single numbers.** Where nothing disturbs the calls, and a session that is
started has its connection, which none of its own calls takes from it (`ScriptCall.exists_direct?`), this
holds in every phase of the session, for every key, and whatever nodes there are and whatever their
versions. -/
theorem nextMany_like_single (s : Session) (key : String) {count : UInt64} (hpos : 0 < count.toNat)
    (hlimit : count.toNat ≤ 1000) {stage : Stage} (hplan : stage.plan = .calm)
    (hready : stage.phase = .started → stage.coordinator.connected = true) :
    BatchLikeSingle s key count stage := by
  have hcount : Batch.checkCount count = .ok () := by
    rw [Batch.checkCount_eq_ok_iff, UInt64.lt_iff_toNat_lt, ← UInt64.toNat_inj]
    show ¬ (count.toNat = 0 ∨ 1000 < count.toNat)
    omega
  obtain ⟨calls, results, c', hlength, hmany, heach⟩ :=
    comesTogether s key hcount hpos hready
  obtain ⟨report, last, hbatch, hresult, hphase, hservice, -⟩ := rehearse_of_comes s.policy hplan hmany
  obtain ⟨enough, last', hsingle, hphase', hservice'⟩ :=
    rehearseEach_of_comesEach s.policy heach hplan rfl rfl
  rw [hlength] at hsingle
  refine ⟨max (calls + 1) enough, report, last, results, last', fun steps hsteps => ?_⟩
  exact ⟨hbatch steps (by omega), hsingle steps (by omega), hresult, hservice.trans hservice'.symm,
    hphase.trans hphase'.symm⟩

/-- Three numbers for a node whose version is one below the greatest. -/
theorem nextMany_like_single_wraparound :
    BatchLikeSingle ⟨.standard, .nTimes 2 .zero⟩ "idforge:n:k" 3
      { Stage.opening ({ Coordinator.fresh with connected := true }.seed "/idforge/idforge:n:k"
          2147483646) .calm with phase := .started } :=
  nextMany_like_single _ _ (by decide) (by decide) rfl fun _ => rfl

end Sequence

end IdMint.Coordination
