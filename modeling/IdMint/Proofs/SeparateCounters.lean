import IdMint.Proofs.CounterRuns

/-! # Counters that do not meet

A composite key shows its scope up to the first colon and its name up to the second one, where these
hold no colon themselves; the key behind them may hold any number. So different parts make up different
composite keys, and draws from different counters have nothing in common but the clock: the draws for
one key can be had without the others, and come to the same. -/

namespace IdMint

/-! ## The parts of a composite key -/

/-- The parts of a composite key. -/
structure KeyParts where
  scope : String
  name : String
  key : String
  deriving DecidableEq

namespace KeyParts

/-- The composite key of the parts, where they are accepted. -/
def composite (p : KeyParts) : Outcome CompositeKey := CompositeKey.ofParts p.scope p.name p.key

/-- The text that the parts make up. -/
def text (p : KeyParts) : String := CompositeKey.join p.scope p.name p.key

/-- Neither the scope nor the name holds a colon. -/
def Delimited (p : KeyParts) : Prop := ':' ∉ p.scope.toList ∧ ':' ∉ p.name.toList

/-- No part is empty. -/
def Full (p : KeyParts) : Prop := p.scope ≠ "" ∧ p.name ≠ "" ∧ p.key ≠ ""

/-- Parts are accepted where none is empty, and make up the text of the key. -/
theorem composite_eq_ok_iff {p : KeyParts} {k : CompositeKey} :
    p.composite = .ok k ↔ p.Full ∧ k = ⟨p.text⟩ := by
  simp only [composite, CompositeKey.ofParts, Full, text]
  by_cases hscope : p.scope = ""
  · simp [hscope]
  by_cases hname : p.name = ""
  · simp [hscope, hname]
  by_cases hkey : p.key = ""
  · simp [hscope, hname, hkey]
  · simpa [hscope, hname, hkey] using eq_comm

/-- The characters of the text. -/
theorem toList_text (p : KeyParts) :
    p.text.toList = p.scope.toList ++ ':' :: (p.name.toList ++ ':' :: p.key.toList) := by
  simp [text, CompositeKey.join]

/-- What stands in front of the first colon is told from what stands behind it. -/
theorem append_colon_inj {front front' rest rest' : List Char} (hfront : ':' ∉ front)
    (hfront' : ':' ∉ front') (h : front ++ ':' :: rest = front' ++ ':' :: rest') :
    front = front' ∧ rest = rest' := by
  have htake {front rest : List Char} (hfront : ':' ∉ front) :
      (front ++ ':' :: rest).takeWhile (· ≠ ':') = front := by
    have hother : ∀ c ∈ front, decide (c ≠ ':') = true :=
      fun c hc => decide_eq_true fun heq => hfront (heq ▸ hc)
    rw [List.takeWhile_append_of_pos hother, List.takeWhile_cons_of_neg (by simp), List.append_nil]
  obtain rfl : front = front' := by rw [← htake hfront, h, htake hfront']
  exact ⟨rfl, List.tail_eq_of_cons_eq (List.append_cancel_left h)⟩

/-- Parts of which the first two hold no colon are told from the text that they make up. -/
theorem Delimited.text_inj {p q : KeyParts} (hp : p.Delimited) (hq : q.Delimited)
    (h : p.text = q.text) : p = q := by
  have hchars := congrArg String.toList h
  rw [toList_text, toList_text] at hchars
  obtain ⟨hscope, hrest⟩ := append_colon_inj hp.1 hq.1 hchars
  obtain ⟨hname, hkey⟩ := append_colon_inj hp.2 hq.2 hrest
  cases p
  cases q
  simp only [String.toList_inj] at hscope hname hkey
  rw [hscope, hname, hkey]

end KeyParts

namespace Counter

/-- The parts of the key that a call is made for, unless it is made for a composite key. -/
def Request.parts? : Request → Option KeyParts
  | next .. | nextMany .. => none
  | nextFor issuer name key _ _ | nextConfigured issuer name key
  | nextManyFor issuer name key _ _ _ => some ⟨issuer.settings.scope, name, key⟩

/-- A call for parts draws with a step and a width of its own from the counter of their text, where they
are accepted. -/
theorem Request.exists_draw {request : Request} {p : KeyParts} (hparts : request.parts? = some p) :
    ∃ step length : UInt64, request.draw = p.composite.map fun k => ⟨k.text, step, length⟩ := by
  cases request with
  | next | nextMany => cases hparts
  | nextFor | nextConfigured | nextManyFor =>
    cases hparts
    exact ⟨_, _, rfl⟩

/-- What a call for parts draws from is the counter of their text. -/
theorem Request.key_of_draw {request : Request} {p : KeyParts} (hparts : request.parts? = some p)
    {draw : Draw} (hdraw : request.draw = .ok draw) : draw.key = p.text := by
  obtain ⟨step, length, heq⟩ := request.exists_draw hparts
  rw [hdraw] at heq
  cases hk : p.composite with
  | error cause =>
    rw [hk] at heq
    cases heq
  | ok k =>
    rw [hk] at heq
    cases heq
    obtain ⟨-, rfl⟩ := KeyParts.composite_eq_ok_iff.mp hk
    rfl

/-- A call for parts of which none is empty draws from a counter. -/
theorem Errand.key?_of_parts {errand : Errand} {p : KeyParts}
    (hparts : errand.request.parts? = some p) (hfull : p.Full) : errand.key? = some p.text := by
  obtain ⟨step, length, heq⟩ := errand.request.exists_draw hparts
  rw [KeyParts.composite_eq_ok_iff.mpr ⟨hfull, rfl⟩] at heq
  rw [Errand.key?, heq]
  rfl

/-! ## One draw -/

variable {τ : Type} [ServerClock τ]

/-- A draw leaves the counters of all other keys as they are. -/
theorem Drawn.getElem?_of_ne {draw : Draw} {store store' : MemoryStore τ} {outcome : Outcome String}
    (h : Drawn draw store outcome store') {key : String} (hkey : draw.key ≠ key) :
    store'.counters[key]? = store.counters[key]? := by
  cases h with
  | refused | overflow => rfl
  | counted hcheck hcount =>
    show (store.counters.insert draw.key _)[key]? = _
    rw [Std.ExtHashMap.getElem?_insert, if_neg (by simpa using hkey)]

/-- A draw comes to the same wherever its counter stands alike, if the clock there reads what it read:
whatever is to be read after it, some readings lead there. -/
theorem exists_next_alike {draw : Draw} {store store' : MemoryStore τ} {outcome : Outcome String}
    (h : next draw.key draw.step draw.length store = (outcome, store')) {counters : Counters}
    (halike : counters[draw.key]? = store.counters[draw.key]?) :
    ∃ counters' : Counters, counters'[draw.key]? = store'.counters[draw.key]?
      ∧ ∀ rest : Nat → Option Duration, ∃ times : Nat → Option Duration,
        next draw.key draw.step draw.length (⟨counters, times⟩ : MemoryStore (Nat → Option Duration))
          = (outcome, ⟨counters', rest⟩) := by
  cases hcheck : checkCall draw.key draw.step draw.length with
  | error cause =>
    simp only [next, hcheck] at h
    cases h
    exact ⟨counters, halike, fun rest => ⟨rest, by simp only [next, hcheck]⟩⟩
  | ok =>
    have hvalue : counters.value draw.key = store.counters.value draw.key := by
      rw [Counters.value, halike, Counters.value]
    rw [next_of_checkCall draw store hcheck rfl] at h
    cases hcount : Decimal.toInt64? ((store.counters.value draw.key).toInt + draw.step.toNat) with
    | none =>
      rw [hcount] at h
      cases h
      refine ⟨counters, halike, fun rest => ⟨rest, ?_⟩⟩
      rw [next_of_checkCall draw _ hcheck hvalue, hcount]
    | some count =>
      rw [hcount] at h
      cases h
      refine ⟨counters.insert draw.key count, ?_, fun rest => ?_⟩
      · simp only [Std.ExtHashMap.getElem?_insert_self]
      · -- the clock first reads what it read at the draw
        refine ⟨fun n => n.casesOn (ServerClock.read store.clock).1 rest, ?_⟩
        rw [next_of_checkCall draw _ hcheck hvalue, hcount]
        rfl

/-! ## Runs without the other draws -/

/-- The calls that draw for the key are the same ones, and have come as far, in both lists. -/
def AgreeOn (key : String) (errands errands' : List Errand) : Prop :=
  ∀ (i : Nat) (errand : Errand), errand.key? = some key →
    (errands[i]? = some errand ↔ errands'[i]? = some errand)

theorem AgreeOn.refl (key : String) (errands : List Errand) : AgreeOn key errands errands :=
  fun _ _ _ => Iff.rfl

/-- A call for the key goes on in both lists. -/
theorem AgreeOn.set {key : String} {errands errands' : List Errand} (h : AgreeOn key errands errands')
    {caller : Nat} {errand : Errand} (hkey : errand.key? = some key)
    (hcaller : errands[caller]? = some errand) (next : Errand) :
    AgreeOn key (errands.set caller next) (errands'.set caller next) := by
  have hcaller' := (h caller errand hkey).mp hcaller
  intro i other hother
  by_cases hi : caller = i
  · subst hi
    rw [List.getElem?_set_self (List.getElem?_eq_some_iff.mp hcaller).1,
      List.getElem?_set_self (List.getElem?_eq_some_iff.mp hcaller').1]
  · rw [List.getElem?_set_ne hi, List.getElem?_set_ne hi]
    exact h i other hother

/-- A call for another key goes on in the first list only. -/
theorem AgreeOn.set_other {key : String} {errands errands' : List Errand}
    (h : AgreeOn key errands errands') {caller : Nat} {errand next : Errand}
    (hcaller : errands[caller]? = some errand) (hkey : errand.key? ≠ some key)
    (hnext : next.key? ≠ some key) : AgreeOn key (errands.set caller next) errands' := by
  intro i other hother
  by_cases hi : caller = i
  · -- neither list has a call for the key in the caller's place
    subst hi
    rw [← h caller other hother, hcaller,
      List.getElem?_set_self (List.getElem?_eq_some_iff.mp hcaller).1]
    refine iff_of_false ?_ ?_
    · rintro ⟨⟩
      exact hnext hother
    · rintro ⟨⟩
      exact hkey hother
  · rw [List.getElem?_set_ne hi]
    exact h i other hother

/-- The draws are the same one for the key: of the same call, with the same outcome, from the same value
of the counter to the same value. -/
structure Entry.Alike (key : String) (e e' : Entry) : Prop where
  caller_eq : e'.caller = e.caller
  draw_eq : e'.draw = e.draw
  outcome_eq : e'.outcome = e.outcome
  before_eq : e'.before[key]? = e.before[key]?
  after_eq : e'.after[key]? = e.after[key]?

namespace Run

variable {desk desk' : Desk τ} {log : List Entry}

/-- The caller of a draw is one of the calls from the beginning on. -/
theorem exists_caller (h : Run desk log desk') {e : Entry} (he : e ∈ log) :
    ∃ errand : Errand, desk.errands[e.caller]? = some errand ∧ errand.request.draw = .ok e.draw := by
  induction h with
  | nil => cases he
  | @cons _ _ errands request issued left draw outcome _ _ caller hcaller hdraw _ _ ih =>
    rcases List.mem_cons.mp he with rfl | he
    · exact ⟨_, hcaller, hdraw⟩
    · obtain ⟨errand, herrand, hown⟩ := ih he
      by_cases hself : caller = e.caller
      · -- the call was made before the draw, and only its progress is new
        rw [← hself, List.getElem?_set_self (List.getElem?_eq_some_iff.mp hcaller).1] at herrand
        cases herrand
        exact ⟨⟨request, .underWay issued left⟩, hself ▸ hcaller, hown⟩
      · rw [List.getElem?_set_ne hself] at herrand
        exact ⟨errand, herrand, hown⟩

/-- The draws of a run for one key make up a run without the others, wherever the counter of the key
stands alike and the calls for the key have come as far. -/
theorem exists_alone (h : Run desk log desk') (key : String) {counters : Counters}
    (hcounter : counters[key]? = desk.store.counters[key]?) {errands : List Errand}
    (hagree : AgreeOn key desk.errands errands) :
    ∃ (times : Nat → Option Duration) (log' : List Entry) (alone : Desk (Nat → Option Duration)),
      Run ⟨⟨counters, times⟩, errands⟩ log' alone
        ∧ (log.filter (·.draw.key = key)).Forall₂ (Entry.Alike key) log'
        ∧ alone.store.counters[key]? = desk'.store.counters[key]?
        ∧ AgreeOn key desk'.errands alone.errands := by
  -- over the run, whose draws for the key are made again; the readings are found from its end
  induction h generalizing counters errands with
  | nil desk => exact ⟨fun _ => none, [], _, .nil _, .nil, hcounter, hagree⟩
  | @cons store store' others request issued left draw outcome log desk' caller hcaller hdraw hnext
      rest ih =>
    have hkey? (progress : Progress) : (Errand.mk request progress).key? = some draw.key := by
      simp only [Errand.key?, hdraw]
    by_cases hkey : draw.key = key
    · subst hkey
      obtain ⟨counters', hcounter', hreadings⟩ := exists_next_alike hnext hcounter
      obtain ⟨later, log', alone, hrun, halike, hend, hagree'⟩ :=
        ih hcounter' (hagree.set (hkey? _) hcaller _)
      obtain ⟨times, hnext'⟩ := hreadings later
      refine ⟨times, _, alone,
        .cons caller ((hagree caller _ (hkey? _)).mp hcaller) hdraw hnext' hrun, ?_, hend, hagree'⟩
      rw [List.filter_cons_of_pos (by simp)]
      exact .cons ⟨rfl, rfl, rfl, hcounter, hcounter'⟩ halike
    · -- the draw is left out: it does not touch the counter
      have hother : store'.counters[key]? = store.counters[key]? :=
        (drawn_next hnext).getElem?_of_ne hkey
      have hne (progress : Progress) : (Errand.mk request progress).key? ≠ some key := by
        rw [hkey?]
        exact fun heq => hkey (Option.some.inj heq)
      obtain ⟨times, log', alone, hrun, halike, hend, hagree'⟩ :=
        ih (hcounter.trans hother.symm) (hagree.set_other hcaller (hne _) (hne _))
      refine ⟨times, log', alone, hrun, ?_, hend, hagree'⟩
      rwa [List.filter_cons_of_neg (by simpa using hkey)]

/-- What is said of a run of calls for parts that hold no colon in scope and name, with a view to the
calls for the parts `p`. -/
structure Undisturbed (p : KeyParts) (desk : Desk τ) (log : List Entry) (desk' : Desk τ) : Prop where
  /-- The draws from the counter of the parts are those of the calls for them. -/
  drawn_iff : ∀ e ∈ log, e.draw.key = p.text
    ↔ ∃ errand : Errand, desk.errands[e.caller]? = some errand ∧ errand.request.parts? = some p
  /-- Draws of calls for other parts leave the counter as it is, and absent where it is. -/
  untouched : ∀ e ∈ log, e.draw.key ≠ p.text → e.after[p.text]? = e.before[p.text]?
  /-- Were the draws of calls for other parts left out, each draw of a call for `p` would come to the
  same, from and to the same value, and so would the counter and the calls for `p` in the end. -/
  alone : ∃ (times : Nat → Option Duration) (log' : List Entry) (alone : Desk (Nat → Option Duration)),
    Run ⟨⟨desk.store.counters, times⟩, desk.errands⟩ log' alone
      ∧ (log.filter (·.draw.key = p.text)).Forall₂ (Entry.Alike p.text) log'
      ∧ alone.store.counters[p.text]? = desk'.store.counters[p.text]?
      ∧ ∀ (i : Nat) (errand : Errand), errand.request.parts? = some p →
        (desk'.errands[i]? = some errand ↔ alone.errands[i]? = some errand)

/-- **Counters apart.** Parts that hold no colon in scope and name make up one composite key only if they
are the same; and whatever calls for such parts do on one store, and in whatever order, those for some
parts are not disturbed by those for others. -/
theorem parts_stand_alone (h : Run desk log desk')
    (hparts : ∀ errand ∈ desk.errands, ∃ q, errand.request.parts? = some q ∧ q.Delimited) :
    (∀ (p q : KeyParts) (k : CompositeKey), p.Delimited → q.Delimited →
        p.composite = .ok k → q.composite = .ok k → p = q)
      ∧ ∀ p : KeyParts, p.Delimited → p.Full →
        p.composite = .ok ⟨p.text⟩ ∧ Undisturbed p desk log desk' := by
  constructor
  · intro p q k hp hq hpk hqk
    obtain ⟨-, rfl⟩ := KeyParts.composite_eq_ok_iff.mp hpk
    obtain ⟨-, hk⟩ := KeyParts.composite_eq_ok_iff.mp hqk
    exact hp.text_inj hq (congrArg CompositeKey.text hk)
  · intro p hp hfull
    refine ⟨KeyParts.composite_eq_ok_iff.mpr ⟨hfull, rfl⟩, ?_, ?_, ?_⟩
    · intro e he
      obtain ⟨errand, herrand, hdraw⟩ := h.exists_caller he
      obtain ⟨q, hq, hdelimited⟩ := hparts errand (List.mem_of_getElem? herrand)
      have hkey : e.draw.key = q.text := Request.key_of_draw hq hdraw
      constructor
      · intro hown
        obtain rfl := hdelimited.text_inj hp (hkey.symm.trans hown)
        exact ⟨errand, herrand, hq⟩
      · rintro ⟨other, hother, hown⟩
        obtain rfl := Option.some.inj (herrand.symm.trans hother)
        exact Request.key_of_draw hown hdraw
    · intro e he hother
      obtain ⟨store, store', hdrawn, -, hbefore, hafter⟩ := h.exists_drawn he
      rw [hbefore, hafter]
      exact hdrawn.getElem?_of_ne hother
    · obtain ⟨times, log', alone, hrun, halike, hend, hagree⟩ :=
        h.exists_alone p.text rfl (.refl _ _)
      refine ⟨times, log', alone, hrun, halike, hend, fun i errand hown => hagree i errand ?_⟩
      exact Errand.key?_of_parts hown hfull

/-! ### Keys that hold colons -/

/-- Two identifiers for one key, and one in a step of three for what that key begins with. -/
def nestedRequests : List Request :=
  [.nextManyFor ⟨⟨"p", 8, 1⟩⟩ "order" "k:1" 1 4 2, .nextConfigured ⟨⟨"p", 4, 3⟩⟩ "order" "k"]

/-- The counters after a first, a second and a third draw. -/
def nestedFirst : Counters := (∅ : Counters).insert "p:order:k:1" 1

@[inherit_doc nestedFirst]
def nestedSecond : Counters := nestedFirst.insert "p:order:k" 3

@[inherit_doc nestedFirst]
def nestedThird : Counters := nestedSecond.insert "p:order:k:1" 2

/-- The draws: the call for the shorter key draws between those of the call for the longer one. -/
def nestedLog : List Entry :=
  [⟨0, ⟨"p:order:k:1", 1, 4⟩, slippingClock 0, ∅, nestedFirst, .ok "202311142213200050001"⟩,
    ⟨1, ⟨"p:order:k", 3, 4⟩, slippingClock 1, nestedFirst, nestedSecond,
      .ok "202311142213190050003"⟩,
    ⟨0, ⟨"p:order:k:1", 1, 4⟩, slippingClock 2, nestedSecond, nestedThird,
      .ok "202311142213190050002"⟩]

/-- The store and the calls before these draws. -/
def nestedBegin : Desk (Nat → Option Duration) :=
  ⟨.empty slippingClock, nestedRequests.map .ofRequest⟩

/-- The store and the calls after these draws. -/
def nestedEnd : Desk (Nat → Option Duration) :=
  ⟨⟨nestedThird, fun n => slippingClock (n + 3)⟩,
    [⟨.nextManyFor ⟨⟨"p", 8, 1⟩⟩ "order" "k:1" 1 4 2,
        .ended (.ok ["202311142213200050001", "202311142213190050002"])⟩,
      ⟨.nextConfigured ⟨⟨"p", 4, 3⟩⟩ "order" "k", .ended (.ok ["202311142213190050003"])⟩]⟩

/-- A key that goes on behind a colon where another one ends: the calls do not disturb each other. -/
theorem parts_stand_alone_nested :
    Run nestedBegin nestedLog nestedEnd
      ∧ (∀ errand ∈ nestedBegin.errands, ∃ q, errand.request.parts? = some q ∧ q.Delimited)
      ∧ KeyParts.Delimited ⟨"p", "order", "k:1"⟩ ∧ KeyParts.Full ⟨"p", "order", "k:1"⟩
      ∧ Undisturbed ⟨"p", "order", "k:1"⟩ nestedBegin nestedLog nestedEnd := by
  have hnone (key : String) : (∅ : Counters).value key = 0 := by
    rw [Counters.value, Std.ExtHashMap.getElem?_empty]
    rfl
  have hsecond : nestedFirst.value "p:order:k" = 0 := by
    rw [nestedFirst, value_insert, if_neg (by decide), hnone]
  have hthird : nestedSecond.value "p:order:k:1" = 1 := by
    rw [nestedSecond, value_insert, if_neg (by decide)]
    exact value_insert_self ∅ "p:order:k:1" 1
  have hrun : Run nestedBegin nestedLog nestedEnd := by
    refine .cons 0 rfl rfl
      ((next_of_checkCall ⟨"p:order:k:1", 1, 4⟩ ⟨∅, slippingClock⟩ rfl (hnone _)).trans rfl) ?_
    refine .cons 1 rfl rfl
      ((next_of_checkCall ⟨"p:order:k", 3, 4⟩ ⟨nestedFirst, _⟩ rfl hsecond).trans rfl) ?_
    refine .cons 0 rfl rfl
      ((next_of_checkCall ⟨"p:order:k:1", 1, 4⟩ ⟨nestedSecond, _⟩ rfl hthird).trans rfl) ?_
    exact .nil _
  have hdelimited (key : String) : KeyParts.Delimited ⟨"p", "order", key⟩ :=
    ⟨show ':' ∉ "p".toList by decide, show ':' ∉ "order".toList by decide⟩
  have hparts : ∀ errand ∈ nestedBegin.errands,
      ∃ q, errand.request.parts? = some q ∧ q.Delimited := by
    intro errand herrand
    rcases List.mem_cons.mp herrand with rfl | herrand
    · exact ⟨_, rfl, hdelimited "k:1"⟩
    · obtain rfl := List.mem_singleton.mp herrand
      exact ⟨_, rfl, hdelimited "k"⟩
  have hfull : KeyParts.Full ⟨"p", "order", "k:1"⟩ := ⟨by decide, by decide, by decide⟩
  exact ⟨hrun, hparts, hdelimited _, hfull,
    ((parts_stand_alone hrun hparts).2 _ (hdelimited _) hfull).2⟩

end Run

end Counter

end IdMint
