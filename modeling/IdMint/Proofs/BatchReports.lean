import IdMint.Batch

/-! # What a batch makes of single draws

A batch draws one identifier after the other. It stops as soon as there are as many as were asked for
or a draw failed, and what it reports is told by the results of the draws until then: `Reports`. That
holds wherever draws take a state to the next one, so it is proved for all monads of this kind at once
(`Steps`), and only what single draws do is left to each of them. -/

namespace IdMint.Batch

universe u v

/-! ## Steps from state to state -/

/-- A reading of the computations of a monad as steps from state to state: `goes x s a s'` says that `x`
comes from the state `s` to the value `a` and the state `s'`. -/
structure Steps (m : Type → Type u) [Monad m] (S : Type v) where
  goes : {α : Type} → m α → S → α → S → Prop
  goes_pure {α : Type} {a b : α} {s s' : S} : goes (pure a) s b s' ↔ b = a ∧ s' = s
  goes_bind {α β : Type} {x : m α} {f : α → m β} {s s' : S} {b : β} :
    goes (x >>= f) s b s' ↔ ∃ a s₁, goes x s a s₁ ∧ goes (f a) s₁ b s'

/-- Steps that always lead somewhere. -/
def Steps.total (S : Type) : Steps (StateM S) S where
  goes x s a s' := x s = (a, s')
  goes_pure {_ a b s s'} := by
    show (a, s) = (b, s') ↔ _
    rw [Prod.mk.injEq, eq_comm, eq_comm (a := s)]
  goes_bind {_ _ x f s s' b} := by
    show f (x s).1 (x s).2 = (b, s') ↔ _
    constructor
    · intro h
      exact ⟨_, _, rfl, h⟩
    · rintro ⟨a, s₁, hx, hf⟩
      rw [hx]
      exact hf

/-- Steps that may come to nothing. -/
def Steps.partial (S : Type) : Steps (StateT S Option) S where
  goes x s a s' := x s = some (a, s')
  goes_pure {_ a b s s'} := by
    show some (a, s) = some (b, s') ↔ _
    rw [Option.some.injEq, Prod.mk.injEq, eq_comm, eq_comm (a := s)]
  goes_bind {_ _ x f s s' b} := by
    show ((x s).bind fun (a, s₁) => f a s₁) = some (b, s') ↔ _
    rw [Option.bind_eq_some_iff]
    exact ⟨fun ⟨⟨a, s₁⟩, hx, hf⟩ => ⟨a, s₁, hx, hf⟩, fun ⟨a, s₁, hx, hf⟩ => ⟨⟨a, s₁⟩, hx, hf⟩⟩

/-- Steps one after the other, with what each of them comes to. -/
inductive Series {S : Type v} {ρ : Type} (step : S → ρ → S → Prop) : S → List ρ → S → Prop
  | nil (s : S) : Series step s [] s
  | cons {s s₁ s' : S} {r : ρ} {rs : List ρ} (first : step s r s₁) (rest : Series step s₁ rs s') :
    Series step s (r :: rs) s'

/-- Steps one after the other can be taken apart anywhere. -/
theorem Series.append_iff {S : Type v} {ρ : Type} {step : S → ρ → S → Prop} {s s' : S}
    {rs more : List ρ} :
    Series step s (rs ++ more) s' ↔ ∃ s₁, Series step s rs s₁ ∧ Series step s₁ more s' := by
  constructor
  · intro h
    induction rs generalizing s with
    | nil => exact ⟨s, .nil s, h⟩
    | cons r rs ih =>
      cases h with
      | cons first rest =>
        obtain ⟨s₁, hrs, hmore⟩ := ih rest
        exact ⟨s₁, .cons first hrs, hmore⟩
  · rintro ⟨s₁, hrs, hmore⟩
    induction hrs with
    | nil => exact hmore
    | cons first _ ih => exact .cons first (ih hmore)

/-! ## Draws that are enough -/

/-- The results of single draws are enough for a batch of `count`: there are as many, or there is a
failure among them. -/
def Enough {α : Type} (count : Nat) (draws : List (Outcome α)) : Prop :=
  count ≤ draws.length ∨ ∃ cause, .error cause ∈ draws

section Enough

variable {α β : Type} {count : Nat} {draws : List (Outcome α)}

theorem enough_nil : Enough count ([] : List (Outcome α)) ↔ count = 0 := by
  simp [Enough]

theorem enough_ok_cons {a : α} : Enough (count + 1) (.ok a :: draws) ↔ Enough count draws := by
  simp [Enough]

theorem enough_error_cons {cause : Error} : Enough count (.error cause :: draws) :=
  .inr ⟨cause, List.mem_cons_self⟩

/-- Whether draws are enough does not depend on the values drawn. -/
theorem enough_map (f : α → β) : Enough count (draws.map fun d => d.map f) ↔ Enough count draws := by
  have herror (d : Outcome α) (cause : Error) : d.map f = .error cause ↔ d = .error cause := by
    cases d <;> simp [Except.map]
  simp only [Enough, List.length_map, List.mem_map, herror, exists_eq_right]

end Enough

/-! ## What a batch gathers -/

/-- Behind the identifiers in `issued`, a batch of `count` more ends with the last of the draws, and
reports the result. -/
inductive Gathers : (issued : List String) → (count : Nat) → (draws : List (Outcome String)) →
    (result : Outcome (List String)) → Prop
  | done (issued : List String) : Gathers issued 0 [] (.ok issued)
  | failed (issued : List String) (count : Nat) (cause : Error) :
    Gathers issued (count + 1) [.error cause] (.error (interrupted issued cause))
  | drawn {issued : List String} {count : Nat} {id : String} {draws : List (Outcome String)}
      {result : Outcome (List String)} (rest : Gathers (issued ++ [id]) count draws result) :
    Gathers issued (count + 1) (.ok id :: draws) result

namespace Gathers

variable {issued : List String} {count : Nat} {draws : List (Outcome String)}
  {result : Outcome (List String)}

/-- A batch ends when its draws are enough. -/
theorem enough (h : Gathers issued count draws result) : Enough count draws := by
  induction h with
  | done => exact enough_nil.mpr rfl
  | failed => exact enough_error_cons
  | drawn _ ih => exact enough_ok_cons.mpr ih

/-- A batch does not end before its draws are enough. -/
theorem not_enough (h : Gathers issued count draws result) {front back : List (Outcome String)}
    (hdraws : draws = front ++ back) (hback : back ≠ []) : ¬ Enough count front := by
  -- behind the draw that ends the batch there is none, so it is not in front
  induction h generalizing front with
  | done => exact absurd (List.append_eq_nil_iff.mp hdraws.symm).2 hback
  | failed issued count cause =>
    cases front with
    | nil => exact fun henough => nomatch enough_nil.mp henough
    | cons first front =>
      exact absurd (List.append_eq_nil_iff.mp (List.cons.inj hdraws).2.symm).2 hback
  | drawn _ ih =>
    cases front with
    | nil => exact fun henough => nomatch enough_nil.mp henough
    | cons first front =>
      obtain ⟨rfl, hrest⟩ := List.cons.inj hdraws
      rw [enough_ok_cons]
      exact ih hrest

/-- Of draws that are enough, a batch gathers those in front. -/
theorem exists_of_enough (issued : List String) (h : Enough count draws) :
    ∃ front back result, draws = front ++ back ∧ Gathers issued count front result := by
  induction count generalizing issued draws with
  | zero => exact ⟨[], draws, _, rfl, .done issued⟩
  | succ count ih =>
    rcases draws with _ | ⟨cause | id, draws⟩
    · cases enough_nil.mp h
    · exact ⟨[.error cause], draws, _, rfl, .failed issued count cause⟩
    · obtain ⟨front, back, result, rfl, hgathers⟩ := ih (issued ++ [id]) (enough_ok_cons.mp h)
      exact ⟨.ok id :: front, back, result, rfl, .drawn hgathers⟩

end Gathers

/-! ## Reports -/

/-- What a batch of `count` identifiers reports when its draws come to these results, of which the last
one ends it. -/
inductive Reports (count : Nat) : (draws : List (Outcome String)) → (result : Outcome (List String)) →
    Prop
  /-- All draws succeed. -/
  | complete {ids : List String} (hcount : ids.length = count) : Reports count (ids.map .ok) (.ok ids)
  /-- The first draw fails, and its failure stands for itself. -/
  | failed {cause : Error} (hcount : 0 < count) : Reports count [.error cause] (.error cause)
  /-- A later draw fails, and its failure comes with the identifiers drawn before. -/
  | cut {ids : List String} {cause : Error} (hids : 0 < ids.length) (hcount : ids.length < count) :
    Reports count (ids.map .ok ++ [.error cause]) (.error (.partialBatch ids cause))

/-- What a batch gathers, without the course of it. -/
theorem Gathers.closed_form {issued : List String} {count : Nat} {draws : List (Outcome String)}
    {result : Outcome (List String)} (h : Gathers issued count draws result) :
    (∃ ids : List String, ids.length = count ∧ draws = ids.map .ok ∧ result = .ok (issued ++ ids))
    ∨ ∃ (ids : List String) (cause : Error), ids.length < count
        ∧ draws = ids.map .ok ++ [.error cause]
        ∧ result = .error (interrupted (issued ++ ids) cause) := by
  induction h with
  | done issued => exact .inl ⟨[], rfl, rfl, by rw [List.append_nil]⟩
  | failed issued count cause =>
    exact .inr ⟨[], cause, Nat.succ_pos count, rfl, by rw [List.append_nil]⟩
  | @drawn issued _ id _ _ _ ih =>
    obtain ⟨ids, rfl, rfl, rfl⟩ | ⟨ids, cause, hcount, rfl, rfl⟩ := ih
    · exact .inl ⟨id :: ids, rfl, rfl, by rw [List.append_assoc, List.singleton_append]⟩
    · exact .inr ⟨id :: ids, cause, Nat.succ_lt_succ hcount, rfl,
        by rw [List.append_assoc, List.singleton_append]⟩

/-- Of the values of a function, a batch gathers as many as it asks for, if they all succeed, and
otherwise those up to the first failure. -/
theorem Gathers.length_eq {count : Nat} {draws : List (Outcome String)}
    {result : Outcome (List String)} (h : Gathers [] count draws result) {f : Nat → Outcome String}
    (hf : ∀ i (hi : i < draws.length), draws[i] = f i) :
    ((∀ i < count, ∃ id, f i = .ok id) → draws.length = count)
      ∧ ∀ i < count, (∀ j < i, ∃ id, f j = .ok id) → (∃ cause, f i = .error cause)
          → draws.length = i + 1 := by
  obtain ⟨ids, rfl, rfl, -⟩ | ⟨ids, cause, hcount, rfl, -⟩ := h.closed_form
  · -- no value fails below the count
    have hok (i : Nat) (hi : i < ids.length) : f i = .ok ids[i] := by
      rw [← hf i (by rwa [List.length_map]), List.getElem_map]
    refine ⟨fun _ => List.length_map _, ?_⟩
    rintro i hi - ⟨cause, hfail⟩
    cases (hok i hi).symm.trans hfail
  · -- the first value that fails is the last draw
    have hok (i : Nat) (hi : i < ids.length) : f i = .ok ids[i] := by
      rw [← hf i (by simp; omega), List.getElem_append_left (by rwa [List.length_map]),
        List.getElem_map]
    have hfail : f ids.length = .error cause := by
      rw [← hf ids.length (by simp), List.getElem_append_right (Nat.le_of_eq (List.length_map _))]
      simp
    refine ⟨fun hall => ?_, fun i _ hbefore ⟨cause', hcause⟩ => ?_⟩
    · obtain ⟨id, hid⟩ := hall ids.length hcount
      cases hfail.symm.trans hid
    · rcases Nat.lt_trichotomy i ids.length with hlt | rfl | hgt
      · cases (hok i hlt).symm.trans hcause
      · simp
      · obtain ⟨id, hid⟩ := hbefore ids.length hgt
        cases hfail.symm.trans hid

theorem Gathers.reports {count : Nat} {draws : List (Outcome String)} {result : Outcome (List String)}
    (h : Gathers [] count draws result) : Reports count draws result := by
  obtain ⟨ids, hcount, rfl, rfl⟩ | ⟨ids, cause, hcount, rfl, rfl⟩ := h.closed_form
  · exact .complete hcount
  · cases ids with
    | nil => exact .failed hcount
    | cons id ids => exact .cut (Nat.succ_pos _) hcount

/-! ## The batch itself -/

variable {m : Type → Type u} [Monad m] {S : Type v} {next : m (Outcome String)} {s s' : S}
  {result : Outcome (List String)}

/-- A batch goes from state to state as its draws do, and ends with what it gathers from them. -/
theorem Steps.goes_collectAfter (steps : Steps m S) {issued : List String} {count : Nat} :
    steps.goes (collectAfter next issued count) s result s'
      ↔ ∃ draws, Series (steps.goes next) s draws s' ∧ Gathers issued count draws result := by
  -- the recursion of the loop: what is issued grows, while the count that is left goes down
  induction count generalizing issued s with
  | zero =>
    rw [collectAfter_zero, steps.goes_pure]
    constructor
    · rintro ⟨rfl, rfl⟩
      exact ⟨[], .nil s', .done issued⟩
    · rintro ⟨draws, hseries, hgathers⟩
      cases hgathers
      cases hseries
      exact ⟨rfl, rfl⟩
  | succ count ih =>
    rw [collectAfter, steps.goes_bind]
    constructor
    · rintro ⟨cause | id, s₁, hfirst, hrest⟩
      · obtain ⟨rfl, rfl⟩ := steps.goes_pure.mp hrest
        exact ⟨_, .cons hfirst (.nil _), .failed issued count cause⟩
      · obtain ⟨draws, hseries, hgathers⟩ := ih.mp hrest
        exact ⟨_, .cons hfirst hseries, .drawn hgathers⟩
    · rintro ⟨draws, hseries, hgathers⟩
      cases hgathers with
      | failed =>
        obtain @⟨_, _⟩ | ⟨hfirst, hnil⟩ := hseries
        cases hnil
        exact ⟨_, _, hfirst, steps.goes_pure.mpr ⟨rfl, rfl⟩⟩
      | drawn hgathers =>
        cases hseries with
        | cons hfirst hseries => exact ⟨_, _, hfirst, ih.mpr ⟨_, hseries, hgathers⟩⟩

/-- A batch goes as its draws do. -/
theorem Steps.goes_collect (steps : Steps m S) {size : Size} :
    steps.goes (collect next size) s result s'
      ↔ ∃ draws, Series (steps.goes next) s draws s' ∧ Gathers [] size.count draws result :=
  steps.goes_collectAfter

end IdMint.Batch
