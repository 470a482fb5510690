import IdMint.Proofs.AcceptedJobs
import Mathlib.Data.List.TakeWhile

/-! # Retry policies that options choose

The options name a kind of retry policy and may give numbers for its parameters. A kind is named by its
tag, with blanks around it and letters of either case; every parameter of the policy comes from the one
option that is meant for it, or keeps the standard value of the kind. So an option changes the policies
of the kinds that use it and of no others. -/

namespace IdMint

/-! ## Trimmed texts -/

namespace Text

/-- A text is its trimmed text with blanks around it. -/
theorem exists_trim (text : String) : ∃ before after,
    text.toList = before ++ ((trim text).toList ++ after) ∧ (∀ c ∈ before, isBlank c = true)
      ∧ ∀ c ∈ after, isBlank c = true := by
  refine ⟨text.toList.takeWhile isBlank,
    ((text.toList.dropWhile isBlank).reverse.takeWhile isBlank).reverse, ?_,
    fun c hc => List.mem_takeWhile_imp hc, fun c hc => ?_⟩
  · rw [trim, String.toList_ofList, ← List.reverse_append, List.takeWhile_append_dropWhile,
      List.reverse_reverse, List.takeWhile_append_dropWhile]
  · exact List.mem_takeWhile_imp (List.mem_reverse.mp hc)

/-- Blanks are passed over up to the first character that is none. -/
theorem dropWhile_isBlank {blanks cs : List Char} (hblanks : ∀ c ∈ blanks, isBlank c = true)
    (hcs : ∀ c ∈ cs.head?, isBlank c = false) : (blanks ++ cs).dropWhile isBlank = cs := by
  rw [List.dropWhile_append_of_pos hblanks]
  cases cs with
  | nil => rfl
  | cons c cs => exact List.dropWhile_cons_of_neg (by rw [hcs c rfl]; nofun)

/-- Trimming takes off the blanks around characters of which none is blank. -/
theorem trim_eq {text : String} {before core after : List Char}
    (htext : text.toList = before ++ (core ++ after)) (hbefore : ∀ c ∈ before, isBlank c = true)
    (hafter : ∀ c ∈ after, isBlank c = true) (hne : core ≠ [])
    (hcore : ∀ c ∈ core, isBlank c = false) : trim text = String.ofList core := by
  have hfront : ∀ c ∈ (core ++ after).head?, isBlank c = false := by
    intro c hc
    rw [List.head?_append_of_ne_nil _ hne] at hc
    exact hcore c (List.mem_of_mem_head? hc)
  have hback : ∀ c ∈ core.reverse.head?, isBlank c = false := fun c hc =>
    hcore c (List.mem_reverse.mp (List.mem_of_mem_head? hc))
  have hafter' : ∀ c ∈ after.reverse, isBlank c = true := fun c hc =>
    hafter c (List.mem_reverse.mp hc)
  rw [trim, htext, dropWhile_isBlank hbefore hfront, List.reverse_append,
    dropWhile_isBlank hafter' hback, List.reverse_reverse]

/-- A blank is no letter, so it has no other case. -/
theorem toLower_of_isBlank {c : Char} (h : isBlank c = true) : c.toLower = c := by
  have hnone : ¬ (c.val ≥ 'A'.val ∧ c.val ≤ 'Z'.val) := by
    rintro ⟨hlow, hhigh⟩
    have hlow : 65 ≤ c.toNat := UInt32.le_iff_toNat_le.mp hlow
    have hhigh : c.toNat ≤ 90 := UInt32.le_iff_toNat_le.mp hhigh
    simp only [isBlank, Bool.or_eq_true, Bool.and_eq_true, decide_eq_true_eq, beq_iff_eq] at h
    omega
  exact dif_neg hnone

end Text

/-! ## Kinds and their tags -/

namespace RetryKind

/-- The text is the tag of the kind, up to blanks around it and the case of its ASCII letters. -/
def Spelled (kind : RetryKind) (text : String) : Prop :=
  ∃ before core after, text.toList = before ++ (core ++ after)
    ∧ (∀ c ∈ before, Text.isBlank c = true) ∧ (∀ c ∈ after, Text.isBlank c = true)
    ∧ core.map Char.toLower = kind.tag.toList.map Char.toLower

/-- Kinds have different tags, also up to the case of letters. -/
theorem folded_injective {kind kind' : RetryKind}
    (h : kind.tag.toList.map Char.toLower = kind'.tag.toList.map Char.toLower) : kind = kind' := by
  cases kind <;> cases kind' <;> first | rfl | (revert h; decide)

theorem sameFolded_iff {a b : String} :
    sameFolded a b = true ↔ a.toList.map Char.toLower = b.toList.map Char.toLower := by
  rw [sameFolded, decide_eq_true_eq]

/-- No character of a spelled tag is blank. -/
theorem isBlank_of_folded {kind : RetryKind} {core : List Char}
    (h : core.map Char.toLower = kind.tag.toList.map Char.toLower) :
    ∀ c ∈ core, Text.isBlank c = false := by
  intro c hc
  rw [Bool.eq_false_iff]
  intro hblank
  -- a blank stays as it is when letters are folded, and a folded tag has none
  have hmem : c ∈ kind.tag.toList.map Char.toLower := by
    rw [← h, ← Text.toLower_of_isBlank hblank]
    exact List.mem_map_of_mem hc
  have hnone : (kind.tag.toList.map Char.toLower).any Text.isBlank = false := by
    cases kind <;> decide
  exact List.any_eq_false.mp hnone c hmem hblank

/-- A kind is named by the texts that spell its tag. -/
theorem ofTag_eq_ok_iff {text : String} {kind : RetryKind} :
    ofTag text = .ok kind ↔ kind.Spelled text := by
  constructor
  · intro h
    rw [ofTag] at h
    split at h
    · next found hfound =>
      cases h
      have hsame := List.find?_some hfound
      obtain ⟨before, after, htext, hbefore, hafter⟩ := Text.exists_trim text
      exact ⟨before, _, after, htext, hbefore, hafter, (sameFolded_iff.mp hsame).symm⟩
    · cases h
  · rintro ⟨before, core, after, htext, hbefore, hafter, hfolded⟩
    have hne : core ≠ [] := by
      rintro rfl
      cases kind <;> cases hfolded
    have htrim := Text.trim_eq htext hbefore hafter hne (isBlank_of_folded hfolded)
    -- of all kinds this is the one whose tag the text spells
    have hsame (other : RetryKind) :
        sameFolded other.tag (Text.trim text) = decide (other = kind) := by
      rw [Bool.eq_iff_iff, sameFolded_iff, decide_eq_true_eq, htrim, String.toList_ofList, hfolded]
      exact ⟨folded_injective, fun heq => by rw [heq]⟩
    rw [ofTag]
    simp only [hsame]
    cases kind <;> rfl

end RetryKind

/-! ## Options and parameters -/

namespace CommandLine

/-- The options that a kind of policy uses. -/
def optionsOf : RetryKind → List OptionName
  | .exponentialBackoff => [.retryBaseSleep, .retryMaxRetries]
  | .boundedExponentialBackoff => [.retryBaseSleep, .retryMaxSleep, .retryMaxRetries]
  | .nTimes => [.retryCount, .retrySleepBetween]
  | .forever => [.retryInterval]
  | .untilElapsed => [.retryMaxElapsed, .retrySleepBetween]

namespace RetryChoices

/-- The number that is given for an option about retrying. -/
def given? (choices : RetryChoices) : OptionName → Option Nat
  | .retryBaseSleep => choices.baseSleepMs.map UInt64.toNat
  | .retryMaxRetries => choices.maxRetries.map UInt32.toNat
  | .retryMaxSleep => choices.maxSleepMs.map UInt64.toNat
  | .retryCount => choices.count.map UInt32.toNat
  | .retrySleepBetween => choices.sleepBetweenMs.map UInt64.toNat
  | .retryInterval => choices.intervalMs.map UInt64.toNat
  | .retryMaxElapsed => choices.maxElapsedMs.map UInt64.toNat
  | _ => none

/-- The number of an option, or the standard one where none is given. -/
def number (choices : RetryChoices) (option : OptionName) (standard : Nat) : Nat :=
  (choices.given? option).getD standard

/-- The same numbers are given for the options that a kind uses. -/
def AgreeFor (kind : RetryKind) (choices choices' : RetryChoices) : Prop :=
  ∀ option ∈ optionsOf kind, choices.given? option = choices'.given? option

end RetryChoices

end CommandLine

namespace RetryPolicy

open CommandLine

/-- Every parameter is the number of the option that is meant for it, in milliseconds where it is a time
span, or the standard value of the kind. -/
def Follows (choices : RetryChoices) : RetryPolicy → Prop
  | exponentialBackoff base maxRetries =>
    base = .ofMillis (choices.number .retryBaseSleep BackoffSettings.standard.baseSleepMs.toNat)
      ∧ maxRetries.toNat
        = choices.number .retryMaxRetries BackoffSettings.standard.maxRetries.toNat
  | boundedExponentialBackoff base cap maxRetries =>
    base = .ofMillis
        (choices.number .retryBaseSleep BoundedBackoffSettings.standard.baseSleepMs.toNat)
      ∧ cap = .ofMillis
        (choices.number .retryMaxSleep BoundedBackoffSettings.standard.maxSleepMs.toNat)
      ∧ maxRetries.toNat
        = choices.number .retryMaxRetries BoundedBackoffSettings.standard.maxRetries.toNat
  | nTimes count sleep =>
    count.toNat = choices.number .retryCount NTimesSettings.standard.count.toNat
      ∧ sleep = .ofMillis (choices.number .retrySleepBetween NTimesSettings.standard.sleepMs.toNat)
  | forever interval =>
    interval = .ofMillis (choices.number .retryInterval ForeverSettings.standard.intervalMs.toNat)
  | untilElapsed limit sleep =>
    limit = .ofMillis
        (choices.number .retryMaxElapsed UntilElapsedSettings.standard.maxElapsedMs.toNat)
      ∧ sleep = .ofMillis
        (choices.number .retrySleepBetween UntilElapsedSettings.standard.sleepMs.toNat)

/-- A choice of a 64-bit number, or the standard one. -/
theorem toNat_getD_64 (choice : Option UInt64) (standard : UInt64) :
    (choice.getD standard).toNat = (choice.map UInt64.toNat).getD standard.toNat := by
  cases choice <;> rfl

/-- A choice of a 32-bit number, or the standard one. -/
theorem toNat_getD_32 (choice : Option UInt32) (standard : UInt32) :
    (choice.getD standard).toNat = (choice.map UInt32.toNat).getD standard.toNat := by
  cases choice <;> rfl

/-- The settings for a kind name a policy of the kind, whose parameters are as chosen. -/
theorem exists_follows (choices : RetryChoices) (kind : RetryKind) :
    ∃ policy, ofSettings (choices.settings kind) = .ok policy ∧ policy.kind = kind
      ∧ policy.Follows choices := by
  have htag : (choices.settings kind).tag = kind.tag := rfl
  rw [ofSettings, htag, RetryKind.ofTag_tag]
  cases kind with
  | exponentialBackoff =>
    exact ⟨_, rfl, rfl, congrArg _ (toNat_getD_64 _ _), toNat_getD_32 _ _⟩
  | boundedExponentialBackoff =>
    exact ⟨_, rfl, rfl, congrArg _ (toNat_getD_64 _ _), congrArg _ (toNat_getD_64 _ _),
      toNat_getD_32 _ _⟩
  | nTimes => exact ⟨_, rfl, rfl, toNat_getD_32 _ _, congrArg _ (toNat_getD_64 _ _)⟩
  | forever => exact ⟨_, rfl, rfl, congrArg _ (toNat_getD_64 _ _)⟩
  | untilElapsed =>
    exact ⟨_, rfl, rfl, congrArg _ (toNat_getD_64 _ _), congrArg _ (toNat_getD_64 _ _)⟩

/-- A policy follows all choices that agree for its kind. -/
theorem Follows.of_agreeFor {choices choices' : RetryChoices} {policy : RetryPolicy}
    (h : policy.Follows choices) (hagree : choices.AgreeFor policy.kind choices') :
    policy.Follows choices' := by
  have hnumber (option : OptionName) (hoption : option ∈ optionsOf policy.kind) (standard : Nat) :
      choices.number option standard = choices'.number option standard := by
    rw [RetryChoices.number, hagree option hoption, RetryChoices.number]
  -- only the numbers of options that the kind uses occur in what is asked of the parameters
  cases policy
  all_goals
    simp only [kind, optionsOf, List.mem_cons, List.not_mem_nil, or_false, forall_eq_or_imp, forall_eq]
      at hnumber
    simp only [Follows, hnumber] at h ⊢
    exact h

/-- Choices leave one policy of a kind. -/
theorem Follows.unique {choices : RetryChoices} {policy policy' : RetryPolicy}
    (h : policy.Follows choices) (h' : policy'.Follows choices) (hkind : policy'.kind = policy.kind) :
    policy' = policy := by
  cases policy <;> cases policy' <;> cases hkind
  case exponentialBackoff.exponentialBackoff.refl =>
    obtain ⟨rfl, hretries⟩ := h
    obtain ⟨rfl, hretries'⟩ := h'
    rw [UInt32.toNat_inj.mp (hretries'.trans hretries.symm)]
  case boundedExponentialBackoff.boundedExponentialBackoff.refl =>
    obtain ⟨rfl, rfl, hretries⟩ := h
    obtain ⟨rfl, rfl, hretries'⟩ := h'
    rw [UInt32.toNat_inj.mp (hretries'.trans hretries.symm)]
  case nTimes.nTimes.refl =>
    obtain ⟨hcount, rfl⟩ := h
    obtain ⟨hcount', rfl⟩ := h'
    rw [UInt32.toNat_inj.mp (hcount'.trans hcount.symm)]
  case forever.forever.refl => rw [h, h']
  case untilElapsed.untilElapsed.refl =>
    obtain ⟨rfl, rfl⟩ := h
    obtain ⟨rfl, rfl⟩ := h'
    rfl

end RetryPolicy

/-! ## Accepted options -/

namespace CommandLine

/-- A number that an option takes belongs to this option only. -/
theorem Options.given?_assign {o o' : Options} {option other : OptionName} {text : String}
    (h : o.assign option text = .ok o') (hne : other ≠ option) :
    o'.retry.given? other = o.retry.given? other := by
  cases option
  -- the texts that stand for nothing but themselves
  case scope | name | key | connectString | retryType =>
    cases h
    rfl
  all_goals
    obtain ⟨value, -, hset⟩ := Job.exists_of_bind_eq_ok h
    cases hset
  case retryBaseSleep | retryMaxRetries | retryMaxSleep | retryCount | retrySleepBetween |
      retryInterval | retryMaxElapsed =>
    cases other <;> first | rfl | exact absurd rfl hne
  all_goals rfl

/-- Only the option of the kind of policy changes what the kind is named by. -/
theorem Options.retryType_assign {o o' : Options} {option : OptionName} {text : String}
    (h : o.assign option text = .ok o') (hne : option ≠ .retryType) : o'.retryType = o.retryType := by
  cases option
  case retryType => exact absurd rfl hne
  case scope | name | key | connectString =>
    cases h
    rfl
  all_goals
    obtain ⟨value, -, hset⟩ := Job.exists_of_bind_eq_ok h
    cases hset
    rfl

namespace Job

/-- The retry policy of a job. -/
def policy (job : Job) : Outcome RetryPolicy := RetryPolicy.ofSettings job.coordination.retry

/-- Accepted options spell a kind, and their policy is of this kind and follows their choices. -/
theorem exists_policy_of_ofOptions {o : Options} {job : Job} (h : ofOptions o = .ok job) :
    ∃ policy, job.policy = .ok policy ∧ policy.kind.Spelled o.retryType ∧ policy.Follows o.retry := by
  obtain ⟨_, -, h⟩ := exists_of_bind_eq_ok h
  obtain ⟨_, -, h⟩ := exists_of_bind_eq_ok h
  obtain ⟨_, -, h⟩ := exists_of_bind_eq_ok h
  obtain ⟨kind, hkind, h⟩ := exists_of_bind_eq_ok h
  obtain ⟨_, -, h⟩ := exists_of_bind_eq_ok h
  cases h
  obtain ⟨policy, hpolicy, rfl, hfollows⟩ := RetryPolicy.exists_follows o.retry kind
  refine ⟨policy, hpolicy, RetryKind.ofTag_eq_ok_iff.mp ?_, hfollows⟩
  unfold retryKind at hkind
  split at hkind
  · next found hfound => rw [hfound, Except.ok.inj hkind]
  · cases hkind

/-- A text spells one kind at most. -/
theorem kind_eq_of_spelled {kind kind' : RetryKind} {text : String} (h : kind.Spelled text)
    (h' : kind'.Spelled text) : kind = kind' := by
  have hsame := (RetryKind.ofTag_eq_ok_iff.mpr h).symm.trans (RetryKind.ofTag_eq_ok_iff.mpr h')
  exact Except.ok.inj hsame

/-- Jobs whose options spell one kind and agree for it have the same policy. -/
theorem policy_eq_of_agreeFor {o o' : Options} {job job' : Job} (h : ofOptions o = .ok job)
    (h' : ofOptions o' = .ok job') {kind : RetryKind} (hkind : kind.Spelled o.retryType)
    (hkind' : kind.Spelled o'.retryType) (hagree : o.retry.AgreeFor kind o'.retry) :
    job'.policy = job.policy := by
  obtain ⟨policy, hpolicy, hspelled, hfollows⟩ := exists_policy_of_ofOptions h
  obtain ⟨policy', hpolicy', hspelled', hfollows'⟩ := exists_policy_of_ofOptions h'
  obtain rfl := kind_eq_of_spelled hspelled hkind
  have hsame : policy'.kind = policy.kind := kind_eq_of_spelled hspelled' hkind'
  rw [hpolicy, hpolicy', (hfollows.of_agreeFor hagree).unique hfollows' hsame]

/-- What is said of the policy of the job that comes of accepted options. -/
structure PolicyChosen (o : Options) (job : Job) : Prop where
  /-- There is a policy: its kind is the one whose tag the options spell, and its parameters are the
  numbers of the options that are meant for them or standard values. -/
  policy : ∃ policy, job.policy = .ok policy
    ∧ (∀ kind, kind.Spelled o.retryType ↔ kind = policy.kind) ∧ policy.Follows o.retry
  /-- Any other accepted options that spell the kind and agree for it have the same policy. -/
  same : ∀ {o' job' kind}, ofOptions o' = .ok job' → kind.Spelled o.retryType →
    kind.Spelled o'.retryType → o.retry.AgreeFor kind o'.retry → job'.policy = job.policy
  /-- An option that the kind does not use leaves the policy as it is, whatever it is set to. -/
  unused : ∀ {o' job' kind option text}, o.assign option text = .ok o' → ofOptions o' = .ok job' →
    kind.Spelled o.retryType → option ≠ .retryType → option ∉ optionsOf kind → job'.policy = job.policy

/-- **Options choose policies of their own kind only.** Accepted options have a retry policy; its kind
and its parameters are those that they name and give, and nothing else changes it. -/
theorem policy_is_chosen {o : Options} {job : Job} (h : ofOptions o = .ok job) : PolicyChosen o job where
  policy := by
    obtain ⟨policy, hpolicy, hspelled, hfollows⟩ := exists_policy_of_ofOptions h
    refine ⟨policy, hpolicy, fun kind => ⟨fun hkind => kind_eq_of_spelled hkind hspelled, ?_⟩, hfollows⟩
    rintro rfl
    exact hspelled
  same h' hkind hkind' hagree := policy_eq_of_agreeFor h h' hkind hkind' hagree
  unused hassign h' hkind hne hunused := by
    refine policy_eq_of_agreeFor h h' hkind ?_ fun option hoption => ?_
    · rwa [Options.retryType_assign hassign hne]
    · exact (Options.given?_assign hassign fun heq => hunused (heq ▸ hoption)).symm

/-- Options that spell their kind with blanks and capitals, and give a number that it does not use. -/
def untidyOptions : Options :=
  { Options.standard with
    retryType := "\tRETRYnTimes "
    retry := ⟨some 7, none, none, some 0, none, none, some 1⟩ }

/-- The policy of options with an untidy spelling. -/
theorem policy_is_chosen_untidy :
    ofOptions untidyOptions = .ok (describe untidyOptions .nTimes)
      ∧ PolicyChosen untidyOptions (describe untidyOptions .nTimes)
      ∧ (describe untidyOptions .nTimes).policy = .ok (.nTimes 0 (.ofMillis 2000)) := by
  have haccepted : ofOptions untidyOptions = .ok (describe untidyOptions .nTimes) := rfl
  exact ⟨haccepted, policy_is_chosen haccepted, rfl⟩

end Job

end CommandLine

end IdMint
