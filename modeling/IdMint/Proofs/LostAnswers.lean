import IdMint.Proofs.DirectRuns
import IdMint.Proofs.NodePresence
import IdMint.Proofs.Rehearsals

/-! # Lost answers

A call may take effect although its answer is lost. It is repeated then, and finds what the attempt
before has left: the node that is to be created is there, the one to be written has another version,
the one to be deleted is gone. Such an error is about the operation's own effect, which took place
once. `Request.Effect` is what the attempts of one call have done to the service so far; one attempt
keeps it, and so the whole operation does. -/

namespace IdMint.Coordination

/-- The answer to a call is lost: it is reported as failed although it is carried out. -/
def Disturbance.LosesAnswer (d : Disturbance) : Prop := d.applies = true ∧ d.fault.isSome = true

/-- What is to come before a call is what is to come after it, behind what befalls the call itself. -/
theorem Plan.exists_taken (plan : Plan) (kind : RequestKind) :
    ∃ taken, plan kind = taken ++ (plan.take kind).2 kind
      ∧ ((plan.take kind).1 = .calm ∨ (plan.take kind).1 ∈ taken) := by
  rcases plan.take_cases kind with ⟨hnone, hcalm⟩ | hcons
  · refine ⟨[], ?_, .inl hcalm⟩
    simp [Plan.take, hnone]
  · exact ⟨[(plan.take kind).1], hcons, .inr List.mem_cons_self⟩

namespace Coordinator

/-- A write that takes effect gives the node the next version. -/
theorem getElem?_write {tree tree' : NodeTree} {path : String} {data : List UInt8} {version : Int32}
    {stat : NodeStat} (h : write tree path data version = .ok (stat, tree')) :
    ∃ node, tree[path]? = some node ∧ (version = anyVersion ∨ version = node.version)
      ∧ tree'[path]? = some { node with data, version := node.version + 1 } := by
  unfold write at h
  cases hnode : tree[path]? with
  | none =>
    simp only [hnode] at h
    cases h
  | some node =>
    simp only [hnode] at h
    by_cases hversion : version ≠ anyVersion ∧ version ≠ node.version
    · rw [if_pos hversion] at h
      cases h
    · rw [if_neg hversion] at h
      cases h
      refine ⟨node, rfl, ?_, by simp⟩
      by_cases hany : version = anyVersion
      · exact .inl hany
      · exact .inr (Classical.not_not.mp fun hother => hversion ⟨hany, hother⟩)

/-- A disturbed call leaves the connection up, unless it ends the session. -/
theorem connected_performDisturbed {c : Coordinator} (h : c.connected = true) (d : Disturbance)
    {request : Request β} (hkind : request.kind ≠ .close) :
    (c.performDisturbed d request).2.connected = true := by
  obtain heq | ⟨fault, -, heq⟩ | ⟨fault, value, -, -, -, heq⟩ := c.performDisturbed_cases d request
  · rw [heq]
    exact connected_perform h hkind
  · rw [heq]
    exact h
  · rw [heq]
    exact connected_perform h hkind

/-- A call that fails leaves the service as it was. -/
theorem perform_of_error {c : Coordinator} {request : Request β} {fault : Fault}
    (h : (c.perform request).1 = .error fault) : (c.perform request).2 = c := by
  cases request with
  | connect | close => cases h
  | lookUp | create | delete | children => simp only [perform] at h ⊢; grind
  | setData => simp only [perform] at h ⊢; grind

end Coordinator

namespace Request

/-- Once the call has succeeded it does not succeed again, if nothing else happens. -/
def SucceedsOnce (request : Request β) : Prop :=
  ∀ (c : Coordinator) (value : β), (c.perform request).1 = .ok value →
    ∀ again, ((c.perform request).2.perform request).1 ≠ .ok again

theorem succeedsOnce_create (path : String) (data : List UInt8) (mode : NodeMode) :
    (create path data mode).SucceedsOnce := by
  intro c value hok again
  have hnode := NodeTree.hasNode_insert_self
    (c.tree.insertBlanks (Path.ancestors path)) path ⟨data, 0, mode⟩
  by_cases hdown : (!c.connected) = true
  · simp [Coordinator.perform, hdown] at hok
  · by_cases hthere : c.tree.hasNode path = true
    · simp [Coordinator.perform, hdown, hthere] at hok
    · simp [Coordinator.perform, hdown, hthere, NodeTree.create, hnode]

/-- A write that names the version succeeds once, because it changes the version. -/
theorem succeedsOnce_setData (path : String) (data : List UInt8) {version : Int32}
    (hversion : version ≠ anyVersion) : (setData path data version).SucceedsOnce := by
  intro c value hok again
  by_cases hdown : (!c.connected) = true
  · simp [Coordinator.perform, hdown] at hok
  cases hwrite : Coordinator.write c.tree path data version with
  | error fault => simp [Coordinator.perform, hdown, hwrite] at hok
  | ok written =>
    obtain ⟨stat, tree⟩ := written
    obtain ⟨node, -, hnamed, hnode⟩ := Coordinator.getElem?_write hwrite
    have hnext : version ≠ node.version + 1 := by
      rw [hnamed.resolve_left hversion]
      intro hsame
      have hone : (1 : Int32) = 0 := by simpa using hsame.symm
      exact absurd hone (by decide)
    have hagain : Coordinator.write tree path data version = .error (.badVersion path) := by
      simp only [Coordinator.write, hnode]
      exact if_pos ⟨hversion, hnext⟩
    simp [Coordinator.perform, hdown, hwrite, hagain]

theorem succeedsOnce_delete (path : String) : (delete path).SucceedsOnce := by
  intro c value hok again
  have hgone : (c.tree.delete path).contains path = false := by
    simp [NodeTree.delete, ← Bool.not_eq_true, Std.ExtTreeMap.contains_iff_mem,
      Std.ExtTreeMap.mem_filter]
  by_cases hdown : (!c.connected) = true
  · simp [Coordinator.perform, hdown] at hok
  · by_cases hthere : c.tree.contains path = true
    · simp [Coordinator.perform, hdown, hthere, hgone]
    · simp [Coordinator.perform, hdown, hthere] at hok

/-- What the attempts of a call that have failed so far have made of the service, where `used` are the
disturbances that befell them: nothing, or what one attempt does whose answer was lost. -/
def Effect (request : Request β) (used : List Disturbance) (before now : Coordinator) : Prop :=
  now = before
    ∨ (∃ d ∈ used, d.LosesAnswer) ∧ ∃ value, before.perform request = (.ok value, now)

/-- What all attempts of a call have made of the service when it ends: one success does what a single
attempt does. -/
def Leaves (request : Request β) (used : List Disturbance) (before : Coordinator) :
    Except ε β → Coordinator → Prop
  | .ok value, now => before.perform request = (.ok value, now)
  | .error _, now => request.Effect used before now

theorem Effect.append {request : Request β} {used : List Disturbance} {before now : Coordinator}
    (h : request.Effect used before now) (more : List Disturbance) :
    request.Effect (used ++ more) before now := by
  rcases h with rfl | ⟨⟨d, hd, hloses⟩, hvalue⟩
  · exact .inl rfl
  · exact .inr ⟨⟨d, List.mem_append_left more hd, hloses⟩, hvalue⟩

/-- One more attempt leaves what the attempts all in all should. -/
theorem Effect.attempt {request : Request β} {used : List Disturbance} {before now : Coordinator}
    (h : request.Effect used before now) (honce : request.SucceedsOnce) {d : Disturbance}
    (hused : d.LosesAnswer → d ∈ used) :
    request.Leaves used before (now.performDisturbed d request).1
      (now.performDisturbed d request).2 := by
  -- after a lost answer no attempt succeeds
  have hfirst {value : β} (hok : (now.perform request).1 = .ok value) : now = before := by
    rcases h with rfl | ⟨-, value', hbefore⟩
    · rfl
    · have hagain := honce before value' (congrArg Prod.fst hbefore) value
      rw [hbefore] at hagain
      exact absurd hok hagain
  obtain heq | ⟨fault, -, heq⟩ | ⟨fault, value, hfault, happlies, hok, heq⟩ :=
    now.performDisturbed_cases d request
  · rw [heq]
    cases hreply : (now.perform request).1 with
    | ok value =>
      obtain rfl := hfirst hreply
      exact Prod.ext hreply rfl
    | error fault =>
      rw [Coordinator.perform_of_error hreply]
      exact h
  · rw [heq]
    exact h
  · rw [heq]
    obtain rfl := hfirst (congrArg Prod.fst hok)
    have hloses : d.LosesAnswer := ⟨happlies, by rw [hfault]; rfl⟩
    exact .inr ⟨⟨d, hused hloses, hloses⟩, value, hok⟩

/-- What a call comes to leaves what its last attempt does. -/
theorem Leaves.settles {request : Request β} {used : List Disturbance} {before now : Coordinator}
    {gate : Option Operation} {phase : Phase} {reply : Except Fault β} {outcome : Outcome β}
    (h : request.Leaves used before reply now) (hsettles : Settles gate phase reply outcome) :
    request.Leaves used before outcome now := by
  cases hsettles with
  | ok | refused | failed => exact h

end Request

/-! ## Operations -/

/-- What is said of a scene at the end of an operation that makes one call, where there were `all`
disturbances for calls of the kind: some of them are used up, and the service is left as it should. -/
def Scene.Leaves (request : Request β) (all : List Disturbance) (before : Coordinator)
    (last : Scene (Outcome β) γ) : Prop :=
  ∃ outcome, last.first = ⟨⟨.ended outcome, none⟩, none, some last.stage.now⟩
    ∧ ∃ used, all = used ++ last.stage.plan request.kind
      ∧ request.Leaves used before outcome last.stage.coordinator

/-- A call that is repeated leaves what its attempts all in all should, and it ends. -/
theorem Scene.endsIn_once (policy : RetryPolicy) {second : Actor γ} (hsecond : second.due? = none)
    {request : Request β} (honce : request.SucceedsOnce) (hclose : request.kind ≠ .close)
    {before : Coordinator} {all used : List Disturbance} (hcloses : ∀ d ∈ all, d.closes = false)
    (operation : Operation) (retries since : Nat) {stage : Stage} (hphase : stage.phase = .started)
    (hconnected : stage.coordinator.connected = true) (hall : all = used ++ stage.plan request.kind)
    (heffect : request.Effect used before stage.coordinator) :
    (beside second (Actor.settle stage
      ⟨.trying (some operation) request retries since Program.finish, none⟩)).EndsIn policy
      (Leaves request all before) := by
  -- on the number of disturbances that are left for calls of the kind
  induction hleft : (stage.plan request.kind).length using Nat.strongRecOn
    generalizing stage used retries with
  | ind left ih =>
  obtain ⟨taken, htaken, hbefalls⟩ := stage.plan.exists_taken request.kind
  have hall' : all = (used ++ taken) ++ (stage.plan.take request.kind).2 request.kind := by
    rw [List.append_assoc, ← htaken]
    exact hall
  have hcalm : (stage.disturbance request.kind).closes = false := by
    apply Plan.closes_take
    intro d hd
    apply hcloses
    rw [hall]
    exact List.mem_append_right used hd
  have hleaves : request.Leaves (used ++ taken) before (stage.reply request.kind request)
      (stage.afterCall request).coordinator := by
    apply (heffect.append taken).attempt honce
    rintro ⟨happlies, -⟩
    rcases hbefalls with hcalm | hmem
    · rw [Stage.disturbance, hcalm] at happlies
      cases happlies
    · exact List.mem_append_right used hmem
  have hends {stage' : Stage} (hafter : stage'.Resembles (stage.afterCall request)) (now : Nat)
      {outcome : Outcome β}
      (hsettles : Settles (some operation) stage.phase (stage.reply request.kind request) outcome) :
      (beside second (Actor.settleAt stage'
        ((Program.finish outcome).advance now stage.phase none))).EndsIn policy
        (Leaves request all before) := by
    apply endsIn_ended hsecond
    refine ⟨outcome, rfl, used ++ taken, ?_, ?_⟩
    · show all = _ ++ stage'.plan request.kind
      rw [hafter.plan]
      exact hall'
    · show request.Leaves _ before outcome stage'.coordinator
      rw [hafter.coordinator]
      exact hleaves.settles hsettles
  apply endsIn_trying hsecond (.inl hcalm)
  intro stage' now draw hafter
  cases hfault : (stage.disturbance request.kind).fault with
  | none =>
    -- the service does not ask to repeat a call by itself
    obtain ⟨outcome, hsettled⟩ := Coordinator.exists_settled? hconnected request
    have hreply : Fault.settled? (stage.reply request.kind request) = some outcome := by
      rw [Stage.reply, Coordinator.performDisturbed_of_none hfault]
      exact hsettled
    rw [Task.answered_of_settled? (stage.reply request.kind) hreply]
    exact hends hafter now (.of_settled? hreply)
  | some fault =>
    -- the attempt is the last one, or another one follows when the task has slept
    obtain ⟨outcome, hsettles, hstep⟩ | ⟨fault', wake, hreply, hstep⟩ :=
      Task.answered_trying policy stage.lasts now draw (stage.reply request.kind)
    · rw [hstep]
      exact hends hafter now hsettles
    · rw [hstep]
      have hgate : gateError? (some operation) stage.phase = none := if_pos hphase
      apply endsIn_resting hsecond hgate
      intro stage'' hagain
      have hservice : stage''.coordinator = (stage.afterCall request).coordinator :=
        hagain.coordinator.trans hafter.coordinator
      have hplan : stage''.plan = (stage.plan.take request.kind).2 := hagain.plan.trans hafter.plan
      have hless : (stage''.plan request.kind).length < left := by
        rw [← hleft, Plan.eq_cons_of_fault hfault, hplan]
        simp
      apply ih _ hless (retries + 1) (hagain.phase.trans hphase) _ _ _ rfl
      · exact used ++ taken
      · rw [hservice]
        exact Coordinator.connected_performDisturbed hconnected _ hclose
      · rw [hplan]
        exact hall'
      · rw [hreply] at hleaves
        rw [hservice]
        exact hleaves

/-- The rehearsal of a node operation of a started session ends, and the operation leaves what the
attempts at its call all in all should. -/
theorem rehearses_onNode (policy : RetryPolicy) {request : Request β} (honce : request.SucceedsOnce)
    (hclose : request.kind ≠ .close) (operation : Operation) (path : String) {stage : Stage}
    (hphase : stage.phase = .started) (hconnected : stage.coordinator.connected = true)
    (hcloses : ∀ d ∈ stage.plan request.kind, d.closes = false) :
    ∃ enough report last,
      (∃ used, stage.plan request.kind = used ++ last.plan request.kind
        ∧ request.Leaves used stage.coordinator report.result last.coordinator)
      ∧ ∀ steps, enough ≤ steps →
        rehearse policy steps (Session.onNode operation path request).run none stage
          = some (report, last) := by
  apply exists_rehearse fun result last => ∃ used,
    stage.plan request.kind = used ++ last.plan request.kind
      ∧ request.Leaves used stage.coordinator result last.coordinator
  intro begun second hbegun hsecond
  rw [Session.run_onNode, hphase, Program.advance, if_pos rfl, ← hbegun.coordinator, ← hbegun.plan]
  cases Path.check path with
  | error fault =>
    -- no call is made
    apply Scene.endsIn_ended hsecond
    exact ⟨_, rfl, [], rfl, .inl rfl⟩
  | ok =>
    rw [← hbegun.plan] at hcloses
    rw [← hbegun.coordinator] at hconnected
    have hall : begun.plan request.kind = [] ++ begun.plan request.kind := rfl
    exact Scene.endsIn_once policy hsecond honce hclose hcloses operation 0 begun.now
      (show ({ begun with phase := .started } : Stage).phase = .started from rfl) hconnected hall
      (.inl rfl)

/-- The operation changes nodes by the call, and does not succeed twice. -/
inductive SessionCall.Changes : SessionCall β → Request β → Prop
  | createPath (path : String) (data : List UInt8) (mode : NodeMode) :
    Changes (.createPath path data mode) (.create path data mode)
  | setData (path : String) (data : List UInt8) {version : Int32} (hversion : version ≠ anyVersion) :
    Changes (.setData path data version) (.setData path data version)
  | deletePath (path : String) : Changes (.deletePath path) (.delete path)

namespace SessionCall.Changes

variable {call : SessionCall β} {request : Request β}

theorem succeedsOnce (h : call.Changes request) : request.SucceedsOnce := by
  cases h with
  | createPath path data mode => exact Request.succeedsOnce_create path data mode
  | setData path data hversion => exact Request.succeedsOnce_setData path data hversion
  | deletePath path => exact Request.succeedsOnce_delete path

/-- The operation is a node operation with the call. -/
theorem exists_program (h : call.Changes request) (s : Session) :
    ∃ operation path, call.program s = (Session.onNode operation path request).run := by
  cases h <;> exact ⟨_, _, rfl⟩

theorem kind_ne_close (h : call.Changes request) : request.kind ≠ .close := by
  cases h <;> simp [Request.kind]

/-- **Operations take effect at most once.** An operation of a started session that creates a node,
writes to a node of a given version or deletes one, and that ends with an error, has left the service
as it was; unless the answer to one of its attempts, which `used` befell, was lost: then it may have
done to the service exactly what a single attempt does. -/
theorem fails_after_one_effect (h : call.Changes request) (s : Session) {stage : Stage}
    (hphase : stage.phase = .started) (hconnected : stage.coordinator.connected = true)
    (hcloses : ∀ d ∈ stage.plan request.kind, d.closes = false) :
    ∃ enough report last used,
      (∀ steps, enough ≤ steps →
        rehearse s.policy steps (call.program s) none stage = some (report, last))
      ∧ stage.plan request.kind = used ++ last.plan request.kind
      ∧ ∀ cause, report.result = .error cause → last.coordinator = stage.coordinator
        ∨ (∃ d ∈ used, d.LosesAnswer)
          ∧ ∃ value, stage.coordinator.perform request = (.ok value, last.coordinator) := by
  obtain ⟨operation, path, hprogram⟩ := h.exists_program s
  have hends := rehearses_onNode s.policy h.succeedsOnce h.kind_ne_close operation path hphase
    hconnected hcloses
  obtain ⟨enough, report, last, ⟨used, hused, hleaves⟩, hrehearse⟩ := hends
  refine ⟨enough, report, last, used, ?_, hused, ?_⟩
  · rw [hprogram]
    exact hrehearse
  · intro cause hresult
    rw [hresult] at hleaves
    exact hleaves

/-- A started session over a service with the node `/r`; the answer to the first call of every kind is
lost. -/
def losingStage : Stage :=
  { Stage.opening ({ Coordinator.fresh with connected := true }.seed "/r" 0)
      fun _ => [⟨0, false, some .connectionLoss, true⟩] with
    phase := .started }

/-- A session that repeats a call once. -/
def onceMore : Session :=
  ⟨{ CoordinationSettings.standard with rootName := "r" }, .nTimes 1 .zero⟩

/-- A creation that fails after the answer to its first attempt was lost has created the node. -/
theorem fails_after_one_effect_created :
    ∃ enough report last used,
      (∀ steps, enough ≤ steps →
        rehearse onceMore.policy steps
            ((SessionCall.createPath "/k" [7] .persistent).program onceMore) none losingStage
          = some (report, last))
      ∧ losingStage.plan .create = used ++ last.plan .create
      ∧ ∀ cause, report.result = .error cause → last.coordinator = losingStage.coordinator
        ∨ (∃ d ∈ used, d.LosesAnswer)
          ∧ ∃ value, losingStage.coordinator.perform (.create "/k" [7] .persistent)
            = (.ok value, last.coordinator) :=
  fails_after_one_effect (.createPath "/k" [7] .persistent) onceMore rfl rfl (by decide)

/-- The error with which a call has ended. -/
def failure? : Outcome β → Option Error
  | .ok _ => none
  | .error cause => some cause

theorem eq_error_of_failure? {outcome : Outcome β} {cause : Error}
    (h : failure? outcome = some cause) : outcome = .error cause := by
  cases outcome with
  | ok value => cases h
  | error own =>
    cases h
    rfl

/-- An operation has changed the tree that ends with an error, if something is seen of it. -/
theorem changed_of_seen {call : SessionCall β} {stage : Stage} {steps : Nat} {cause : Error}
    (seen : NodeTree → γ) (after : γ)
    (h : (rehearse onceMore.policy steps (call.program onceMore) none stage).map
        (fun (report, last) => (failure? report.result, seen last.coordinator.tree))
      = some (some cause, after))
    (hbefore : seen stage.coordinator.tree ≠ after) :
    ∃ report last, rehearse onceMore.policy steps (call.program onceMore) none stage
        = some (report, last)
      ∧ report.result = .error cause ∧ last.coordinator.tree ≠ stage.coordinator.tree := by
  obtain ⟨⟨report, last⟩, hrehearse, hseen⟩ := Option.map_eq_some_iff.mp h
  obtain ⟨hresult, hafter⟩ := Prod.mk.inj hseen
  refine ⟨report, last, hrehearse, eq_error_of_failure? hresult, ?_⟩
  intro hsame
  rw [hsame] at hafter
  exact hbefore hafter

/-- After a lost answer a creation fails because the node is there, a write because the node has
another version, and a deletion because the node is gone; each of them has changed the tree. -/
theorem fails_after_change :
    (∃ report last, rehearse onceMore.policy 9
          ((SessionCall.createPath "/k" [7] .persistent).program onceMore) none losingStage
        = some (report, last)
      ∧ report.result = .error (.coordination (.nodeExists "/k"))
      ∧ last.coordinator.tree ≠ losingStage.coordinator.tree)
    ∧ (∃ report last, rehearse onceMore.policy 9
          ((SessionCall.setData "/r" [7] 0).program onceMore) none losingStage
        = some (report, last)
      ∧ report.result = .error (.coordination (.badVersion "/r"))
      ∧ last.coordinator.tree ≠ losingStage.coordinator.tree)
    ∧ ∃ report last, rehearse onceMore.policy 9
          ((SessionCall.deletePath "/r").program onceMore) none losingStage
        = some (report, last)
      ∧ report.result = .error (.coordination (.noNode "/r"))
      ∧ last.coordinator.tree ≠ losingStage.coordinator.tree := by
  refine ⟨changed_of_seen (·.hasNode "/k") true ?_ ?_,
    changed_of_seen (·["/r"]?) (some ⟨[7], 1, .persistent⟩) ?_ ?_,
    changed_of_seen (·.hasNode "/r") false ?_ ?_⟩
  · decide +kernel
  · decide +kernel
  · decide +kernel
  · decide +kernel
  · decide +kernel
  · decide +kernel

end SessionCall.Changes

end IdMint.Coordination
