import IdMint.Proofs.DirectRuns
import IdMint.Proofs.Rehearsals
import IdMint.Proofs.TaskSteps

/-! # Transparent retries

A call that fails transiently and without effect is repeated, and as long as the policy permits it
nothing of the failures is left: what a session is asked to do comes to the same as if every call had
succeeded at once. The budget of the policy is for one call, and every call begins with all of it. -/

namespace IdMint

/-- The number of times that a policy repeats a call, if it does not depend on how much time has
passed. -/
def RetryPolicy.budget? : RetryPolicy → Option Nat
  | nTimes count _ => some count.toNat
  | exponentialBackoff _ maxRetries | boundedExponentialBackoff _ _ maxRetries =>
    some (min maxRetries.toNat backoffLimit)
  | forever _ | untilElapsed .. => none

/-- Within its budget a policy permits every retry. -/
theorem RetryPolicy.exists_allowRetry {policy : RetryPolicy} {limit retries : Nat}
    (hlimit : policy.budget? = some limit) (hlt : retries < limit) (elapsed : Duration) (draw : Nat) :
    ∃ sleep, policy.allowRetry retries elapsed draw = some sleep := by
  cases policy with
  | forever | untilElapsed => cases hlimit
  | nTimes | exponentialBackoff | boundedExponentialBackoff =>
    cases hlimit
    exact ⟨_, if_pos hlt⟩

namespace Coordination

/-! ## Mild disturbances -/

namespace Plan

/-- Disturbances that do no more than to delay calls and to make them fail transiently, without
effect, and no more than `limit` times in a row. -/
structure Mild (limit : Nat) (plan : Plan) : Prop where
  closes : ∀ kind, ∀ d ∈ plan kind, d.closes = false
  fault : ∀ kind, ∀ d ∈ plan kind, ∀ fault, d.fault = some fault →
    fault.isRetryable = true ∧ d.applies = false
  inRow : ∀ kind row, row <:+: plan kind → (∀ d ∈ row, d.fault.isSome = true) → row.length ≤ limit

/-- The disturbances to come still leave a call of the kind within its budget that has been repeated
`retries` times. -/
def Spares (limit : Nat) (plan : Plan) (kind : RequestKind) (retries : Nat) : Prop :=
  ∀ row, row <+: plan kind → (∀ d ∈ row, d.fault.isSome = true) → retries + row.length ≤ limit

variable {limit retries : Nat} {plan : Plan} {kind : RequestKind}

theorem mild_calm (limit : Nat) : Mild limit .calm := by
  constructor
  · intro kind d hd
    cases hd
  · intro kind d hd
    cases hd
  · intro kind row hrow _
    simp [List.infix_nil.mp hrow]

/-- A call that is made for the first time has its whole budget. -/
theorem Mild.spares (h : plan.Mild limit) (kind : RequestKind) : plan.Spares limit kind 0 := by
  intro row hrow hfaults
  have hlength := h.inRow kind row hrow.isInfix hfaults
  omega

theorem Mild.take (h : plan.Mild limit) (kind : RequestKind) : (plan.take kind).2.Mild limit := by
  constructor
  · intro other d hd
    exact h.closes other d ((plan.take_isSuffix kind other).subset hd)
  · intro other d hd
    exact h.fault other d ((plan.take_isSuffix kind other).subset hd)
  · intro other row hrow
    exact h.inRow other row (hrow.trans (plan.take_isSuffix kind other).isInfix)

/-- A failure of the next call is transient and without effect; it takes one retry, and the
disturbances after it leave the call within its budget. -/
theorem Mild.fails_take (h : plan.Mild limit) (hspares : plan.Spares limit kind retries) {fault : Fault}
    (hfault : (plan.take kind).1.fault = some fault) :
    plan kind = (plan.take kind).1 :: (plan.take kind).2 kind
      ∧ fault.isRetryable = true ∧ (plan.take kind).1.applies = false
      ∧ retries < limit ∧ (plan.take kind).2.Spares limit kind (retries + 1) := by
  have hcons := eq_cons_of_fault hfault
  obtain ⟨hretryable, happlies⟩ := h.fault kind (plan.take kind).1
    (by rw [hcons]; exact List.mem_cons_self) fault hfault
  refine ⟨hcons, hretryable, happlies, ?_, ?_⟩
  · have hlength := hspares [(plan.take kind).1] (by rw [hcons]; simp) (by simp [hfault])
    simp only [List.length_singleton] at hlength
    omega
  · intro row hrow hfaults
    have hlength := hspares ((plan.take kind).1 :: row)
      (by rw [hcons]; exact (List.prefix_cons_inj _).mpr hrow) (by simpa [hfault] using hfaults)
    simp only [List.length_cons] at hlength
    omega

end Plan

/-- A transient failure within the budget leads to another attempt. -/
theorem Task.answered_of_budget {policy : RetryPolicy} {gate : Option Operation} {phase : Phase}
    {request : Request β} {alarm : Option (Alarm α)} {lasts : Nat → Nat} {limit retries : Nat}
    {fault : Fault} (reply : {β : Type} → Request β → Except Fault β)
    (hreply : reply request = .error fault) (hretry : fault.isRetryable = true)
    (hgate : gateError? gate phase = none) (hlimit : policy.budget? = some limit)
    (hlt : retries < limit) (since now draw : Nat) (next : Outcome β → Program α) :
    ∃ wake, answered policy lasts now draw phase reply
        ⟨.trying gate request retries since next, alarm⟩
      = (phase, ⟨.resting gate request retries since wake next, alarm⟩) := by
  obtain ⟨sleep, hsleep⟩ := policy.exists_allowRetry hlimit hlt (.ofMillis (now - since)) draw
  exact ⟨_, answered_of_allowRetry reply hreply hretry hgate hsleep⟩

/-! ## Programs on the stage -/

section

variable {policy : RetryPolicy} {limit : Nat} {second : Actor β}

/-- A call that is repeated ends with what it would have been answered without disturbances. -/
theorem Scene.endsIn_persist (hlimit : policy.budget? = some limit) (hsecond : second.due? = none)
    {post : Scene α β → Prop} {stage : Stage} {gate : Option Operation} {request : Request γ}
    {retries since : Nat} {outcome : Outcome γ} {next : Outcome γ → Program α}
    (hgate : gateError? gate stage.phase = none)
    (hsettled : Fault.settled? (stage.coordinator.perform request).1 = some outcome)
    (hnext : ∀ stage' now, stage'.coordinator = (stage.coordinator.perform request).2 →
      stage'.plan.Mild limit →
      (beside second (Actor.settleAt stage' ((next outcome).advance now stage.phase none))).EndsIn
        policy post)
    (hmild : stage.plan.Mild limit)
    (hspares : stage.plan.Spares limit request.kind retries) :
    (beside second (Actor.settle stage ⟨.trying gate request retries since next, none⟩)).EndsIn
      policy post := by
  -- on the number of disturbances that are left for calls of the kind
  induction hleft : (stage.plan request.kind).length using Nat.strongRecOn
    generalizing stage retries with
  | ind left ih =>
  apply endsIn_trying hsecond (.inl (Plan.closes_take (hmild.closes request.kind)))
  intro stage' now draw hafter
  have hplan : stage'.plan.Mild limit := by
    rw [hafter.plan]
    exact hmild.take request.kind
  cases hfault : (stage.disturbance request.kind).fault with
  | none =>
    -- at most a delay: the answer is the one of the undisturbed service
    have hperform : stage.coordinator.performDisturbed (stage.disturbance request.kind) request
        = stage.coordinator.perform request := Coordinator.performDisturbed_of_none hfault _ _
    have hreply : Fault.settled? (stage.reply request.kind request) = some outcome := by
      rw [Stage.reply, hperform]
      exact hsettled
    rw [Task.answered_of_settled? (stage.reply request.kind) hreply]
    apply hnext stage' now _ hplan
    rw [hafter.coordinator, Stage.afterCall, hperform]
  | some fault =>
    -- a failure takes one retry and one disturbance, and leaves the service as it was
    obtain ⟨hcons, hretry, happlies, hlt, hspares'⟩ := hmild.fails_take hspares hfault
    have hperform : stage.coordinator.performDisturbed (stage.disturbance request.kind) request
        = (.error fault, stage.coordinator) :=
      Coordinator.performDisturbed_of_missed hfault happlies _ _
    obtain ⟨wake, hrests⟩ := Task.answered_of_budget (stage.reply request.kind)
      (congrArg Prod.fst hperform) hretry hgate hlimit hlt since now draw next
    rw [hrests]
    apply endsIn_resting hsecond hgate
    intro stage'' hagain
    have hplan'' : stage''.plan = (stage.plan.take request.kind).2 :=
      hagain.plan.trans hafter.plan
    have hservice : stage''.coordinator = stage.coordinator :=
      hagain.coordinator.trans (hafter.coordinator.trans (congrArg Prod.snd hperform))
    have hleft' : (stage''.plan request.kind).length < left := by
      rw [← hleft, hcons, hplan'']
      simp
    apply ih _ hleft' _ _ _ _ _ rfl
    · rw [hagain.phase]
      exact hgate
    · rw [hservice]
      exact hsettled
    · rw [hservice, hagain.phase]
      exact hnext
    · rw [hplan'']
      exact hmild.take request.kind
    · rw [hplan'']
      exact hspares'

/-- What is said of a scene in which a task has ended with a result. -/
structure Scene.CameTo (limit : Nat) (result : α) (phase : Phase) (c : Coordinator)
    (last : Scene α β) : Prop where
  first : last.first = ⟨⟨.ended result, none⟩, none, some last.stage.now⟩
  phase : last.stage.phase = phase
  coordinator : last.stage.coordinator = c
  mild : last.stage.plan.Mild limit

/-- On the stage a program comes to what it comes to where every call is answered at once, if the
disturbances are mild. -/
theorem Program.endsIn_of_direct? (hlimit : policy.budget? = some limit)
    (hsecond : second.due? = none) {p : Program α} {result : α} {phase phase' : Phase}
    {c c' : Coordinator} (h : p.direct? phase c = some (result, phase', c')) {stage : Stage} (now : Nat)
    (hservice : stage.coordinator = c) (hmild : stage.plan.Mild limit) :
    (Scene.beside second (Actor.settleAt stage (p.advance now phase none))).EndsIn policy
      (Scene.CameTo limit result phase' c') := by
  induction p generalizing phase c stage now with
  | finish own =>
    cases h
    exact Scene.endsIn_ended hsecond ⟨rfl, rfl, hservice, hmild⟩
  | observe next ih => exact ih phase h now hservice hmild
  | exchange expected new next ih =>
    rw [direct?] at h
    rw [advance]
    by_cases hphase : phase = expected
    · rw [if_pos hphase] at h ⊢
      exact ih true h now hservice hmild
    · rw [if_neg hphase] at h ⊢
      exact ih false h now hservice hmild
  | assign new next ih => exact ih h now hservice hmild
  | persist gate request next ih =>
    obtain ⟨hgate, outcome, hsettled, hnext⟩ := direct?_persist_eq_some_iff.mp h
    have hthen (stage' : Stage) (now' : Nat)
        (hservice' : stage'.coordinator = (c.perform request).2) (hmild' : stage'.plan.Mild limit) :=
      ih outcome hnext now' hservice' hmild'
    subst hservice
    have hbegun : Scene.EndsIn policy _ (.beside second (Actor.settle { stage with phase }
        ⟨.trying gate request 0 now next, none⟩)) :=
      -- a call that begins has its whole budget
      Scene.endsIn_persist hlimit hsecond hgate hsettled hthen hmild (hmild.spares request.kind)
    exact hbegun
  | call | pause | arm => cases h
  | disarm next ih => exact ih h now hservice hmild

/-- A rehearsal comes to what its program comes to where every call is answered at once, if the
disturbances are mild. -/
theorem rehearse_of_direct? (hlimit : policy.budget? = some limit) {p : Program α} {result : α}
    {stage : Stage} {phase : Phase} {c : Coordinator}
    (h : p.direct? stage.phase stage.coordinator = some (result, phase, c))
    (hmild : stage.plan.Mild limit) :
    ∃ enough report last,
      (report.result = result ∧ last.phase = phase ∧ last.coordinator = c ∧ last.plan.Mild limit)
        ∧ ∀ steps, enough ≤ steps → rehearse policy steps p none stage = some (report, last) := by
  apply exists_rehearse fun own last =>
    own = result ∧ last.phase = phase ∧ last.coordinator = c ∧ last.plan.Mild limit
  intro begun second hbegun hsecond
  have hbegunMild : begun.plan.Mild limit := by
    rw [hbegun.plan]
    exact hmild
  obtain ⟨steps, last, hfinish, hcame⟩ :=
    Program.endsIn_of_direct? hlimit hsecond h begun.now hbegun.coordinator hbegunMild
  exact ⟨steps, last, hfinish, result, hcame.first, rfl, hcame.phase, hcame.coordinator, hcame.mild⟩

end

/-! ## Scripts -/

/-- Calls to a session one after the other; what is called next may depend on the results before. -/
inductive Script : Type 1
  | done
  | go {β : Type} (call : ScriptCall β) (next : Outcome β → Script)

namespace Script

/-- Rehearses the calls of a script one after the other, each in no more than the given number of
steps: their results, and the stage after the last one. -/
def play (s : Session) (steps : Nat) : Script → Stage →
    Option (List ((β : Type) × Outcome β) × Stage)
  | done, stage => some ([], stage)
  | @go β call next, stage =>
    (rehearse s.policy steps (call.program s) none stage).bind fun (report, stage') =>
      ((next report.result).play s steps stage').map fun (results, last) =>
        (⟨β, report.result⟩ :: results, last)

variable {settings : CoordinationSettings} {s : Session} {limit : Nat}

/-- A script comes to the same results and to the same service under all mild disturbances. -/
theorem exists_play (hroot : Path.check s.rootPath = .ok ()) (hlimit : s.policy.budget? = some limit)
    (script : Script) {phase : Phase} {c : Coordinator}
    (hready : phase = .started → c.connected = true) :
    ∃ results c', ∀ stage : Stage, stage.phase = phase → stage.coordinator = c →
      stage.plan.Mild limit → ∃ enough, ∀ steps, enough ≤ steps →
        ∃ last, script.play s steps stage = some (results, last) ∧ last.coordinator = c' := by
  induction script generalizing phase c with
  | done => exact ⟨[], c, fun stage _ hservice _ => ⟨0, fun _ _ => ⟨stage, rfl, hservice⟩⟩⟩
  | @go β call next ih =>
    obtain ⟨result, phase', c', hdirect, hready'⟩ := call.exists_direct? hroot hready
    obtain ⟨results, c'', hplays⟩ := ih result hready'
    refine ⟨⟨β, result⟩ :: results, c'', ?_⟩
    rintro stage rfl rfl hmild
    obtain ⟨enough, report, stage', ⟨rfl, hphase, hservice, hmild'⟩, hrehearse⟩ :=
      rehearse_of_direct? hlimit hdirect hmild
    obtain ⟨enough', hplay⟩ := hplays stage' hphase hservice hmild'
    refine ⟨max enough enough', ?_⟩
    intro steps hle
    obtain ⟨last, hrest, hlast⟩ := hplay steps (by omega)
    refine ⟨last, ?_, hlast⟩
    rw [play, hrehearse steps (by omega), Option.bind_some]
    dsimp only
    rw [hrest]
    rfl

/-- **Retries are transparent.** Where calls fail transiently, without effect and no more often in a
row than the retry policy repeats a call, every call of a script comes to what it comes to without
disturbances, and so does the service. -/
theorem plays_like_calm (hsession : Session.ofSettings settings = .ok s)
    (hlimit : s.policy.budget? = some limit) (script : Script) {stage : Stage}
    (hready : stage.phase = .started → stage.coordinator.connected = true)
    (hmild : stage.plan.Mild limit) :
    ∃ enough, ∀ steps, enough ≤ steps → ∃ results last calm,
      script.play s steps stage = some (results, last)
        ∧ script.play s steps { stage with plan := .calm } = some (results, calm)
        ∧ last.coordinator = calm.coordinator := by
  have hroot := Session.check_rootPath hsession
  obtain ⟨results, c, hplays⟩ := exists_play hroot hlimit script hready
  obtain ⟨enough, hplay⟩ := hplays stage rfl rfl hmild
  obtain ⟨enough', hplay'⟩ := hplays { stage with plan := .calm } rfl rfl (Plan.mild_calm limit)
  refine ⟨max enough enough', ?_⟩
  intro steps hle
  obtain ⟨last, hresults, hlast⟩ := hplay steps (by omega)
  obtain ⟨calm, hresults', hcalm⟩ := hplay' steps (by omega)
  exact ⟨results, last, calm, hresults, hresults', hlast.trans hcalm.symm⟩

/-- Settings with the root `r` that repeat a call twice. -/
def twiceSettings : CoordinationSettings :=
  { CoordinationSettings.standard with
    rootName := "r"
    connectString := "host"
    retry := { RetrySettings.standard with tag := RetryKind.nTimes.tag, nTimes := ⟨2, 100⟩ } }

/-- Disturbances that delay calls, and make the first two calls of a kind fail. -/
def twiceFailing : Plan
  | .connect => [⟨0, false, some .connectionLoss, false⟩, ⟨5, false, some .sessionExpired, false⟩]
  | .create => [⟨7, false, none, false⟩, ⟨0, false, some .operationTimeout, false⟩]
  | .setData => [⟨3, false, some .operationTimeout, false⟩, ⟨0, false, some .connectionLoss, false⟩]
  | _ => []

/-- A session is started and issues three numbers in spite of failures. -/
theorem plays_like_calm_twice :
    let s : Session := ⟨twiceSettings, .nTimes 2 (.ofMillis 100)⟩
    let script : Script :=
      .go .start fun _ => .go (.sequence (.nextMany "k" 3)) fun _ => .done
    ∃ enough, ∀ steps, enough ≤ steps → ∃ results last calm,
      script.play s steps (.opening .fresh twiceFailing) = some (results, last)
        ∧ script.play s steps (.opening .fresh .calm) = some (results, calm)
        ∧ last.coordinator = calm.coordinator := by
  have hmild : twiceFailing.Mild 2 := by
    constructor
    · intro kind d hd
      cases kind <;> simp [twiceFailing] at hd <;> grind
    · intro kind d hd fault hfault
      cases kind <;> simp [twiceFailing] at hd <;> grind [Fault.isRetryable]
    · intro kind row hrow _
      have hlength : row.length ≤ (twiceFailing kind).length := hrow.length_le
      have htwo : (twiceFailing kind).length ≤ 2 := by cases kind <;> decide
      omega
  have hsession : Session.ofSettings twiceSettings
      = .ok ⟨twiceSettings, .nTimes 2 (.ofMillis 100)⟩ := rfl
  exact plays_like_calm hsession rfl _ (by rintro ⟨⟩) hmild

end Script

end Coordination

end IdMint
