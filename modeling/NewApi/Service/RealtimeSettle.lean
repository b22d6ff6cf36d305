import NewApi.Pkg.SplitSound
import NewApi.Service.TieredSettle

/-!
# Realtime sessions (service/quota.go, relay/channel/openai/relay_realtime.go)

Every turn is added to the usage total and to the token parameters; the total is settled.
-/

namespace NewApi.Service.Tiered

open NewApi.BillingExpr

/-! ### Usage -/

structure RealtimeUsage where
  totalTokens : ℤ
  inputTokens : ℤ
  outputTokens : ℤ
  cachedTokens : ℤ
  inputTextTokens : ℤ
  inputAudioTokens : ℤ
  outputTextTokens : ℤ
  outputAudioTokens : ℤ
  reasoningTokens : ℤ
  reasoningTokensPresent : Bool
  deriving DecidableEq, Repr

namespace RealtimeUsage

def empty : RealtimeUsage := ⟨0, 0, 0, 0, 0, 0, 0, 0, 0, false⟩

/-- The accumulation of `preConsumeUsage`. -/
def add (total current : RealtimeUsage) : RealtimeUsage where
  totalTokens := total.totalTokens + current.totalTokens
  inputTokens := total.inputTokens + current.inputTokens
  outputTokens := total.outputTokens + current.outputTokens
  cachedTokens := total.cachedTokens + current.cachedTokens
  inputTextTokens := total.inputTextTokens + current.inputTextTokens
  inputAudioTokens := total.inputAudioTokens + current.inputAudioTokens
  outputTextTokens := total.outputTextTokens + current.outputTextTokens
  outputAudioTokens := total.outputAudioTokens + current.outputAudioTokens
  reasoningTokens := total.reasoningTokens + current.reasoningTokens
  reasoningTokensPresent := total.reasoningTokensPresent || current.reasoningTokensPresent

/-- `hasUsage` of `PreWssConsumeQuota`. -/
def hasUsage (u : RealtimeUsage) : Bool :=
  decide (0 < u.totalTokens) || decide (0 < u.inputTokens) || decide (0 < u.outputTokens) ||
    decide (0 < u.cachedTokens) || decide (0 < u.inputTextTokens) ||
    decide (0 < u.outputTextTokens) || decide (0 < u.inputAudioTokens) ||
    decide (0 < u.outputAudioTokens) || decide (0 < u.reasoningTokens)

/-- `hasUsage` of `PostWssConsumeQuota`. -/
def hasFinalUsage (u : RealtimeUsage) : Bool :=
  decide (0 < u.totalTokens) || decide (0 < u.inputTokens) || decide (0 < u.outputTokens) ||
    decide (0 < u.inputTextTokens) || decide (0 < u.outputTextTokens) ||
    decide (0 < u.inputAudioTokens) || decide (0 < u.outputAudioTokens)

end RealtimeUsage

inductive Turn where
  | reported (usage : RealtimeUsage)
  | counted (inputText inputAudio outputText outputAudio : ℤ)
  deriving DecidableEq, Repr

def Turn.usage : Turn → RealtimeUsage
  | .reported usage => usage
  | .counted inputText inputAudio outputText outputAudio =>
    { RealtimeUsage.empty with
      totalTokens := inputText + inputAudio + outputText + outputAudio
      inputTokens := inputText + inputAudio
      outputTokens := outputText + outputAudio
      inputTextTokens := inputText
      inputAudioTokens := inputAudio
      outputTextTokens := outputText
      outputAudioTokens := outputAudio }

def buildRealtimeTieredTokenParams (usage : RealtimeUsage) (usedVars : List Text) : TokenParams :=
  let cr : ℚ := usage.cachedTokens
  let ai : ℚ := usage.inputAudioTokens
  let ao : ℚ := usage.outputAudioTokens
  let rt : ℚ := usage.reasoningTokens
  let p : ℚ := usage.inputTokens - priced usedVars .cr cr - priced usedVars .ai ai
  let c : ℚ := usage.outputTokens - priced usedVars .ao ao
  let fallback := decide (Lane.rt.name ∈ usedVars) && !usage.reasoningTokensPresent
  { noTokens with
    p := max p 0
    c := max (if fallback then 0 else c - priced usedVars .rt rt) 0
    len := usage.inputTokens
    cr := cr
    ai := ai
    ao := ao
    rt := if fallback then c else rt
    reasoningTokensUnknown := if fallback then c else 0
    reasoningTokensFallback := fallback }

/-! ### Session -/

structure RealtimeSession where
  totalUsage : RealtimeUsage
  tieredTokenParams : TokenParams
  consumedQuota : ℤ
  actualQuotaKnown : Bool

def RealtimeSession.new : RealtimeSession := ⟨RealtimeUsage.empty, noTokens, 0, false⟩

def addParams (sum params : TokenParams) : TokenParams :=
  { sum with
    p := sum.p + params.p
    c := sum.c + params.c
    len := sum.len + params.len
    cr := sum.cr + params.cr
    ai := sum.ai + params.ai
    ao := sum.ao + params.ao
    rt := sum.rt + params.rt
    reasoningTokensUnknown := sum.reasoningTokensUnknown + params.reasoningTokensUnknown
    reasoningTokensFallback := sum.reasoningTokensFallback || params.reasoningTokensFallback }

def tieredUsedVars (E : Engine) (info : RelayInfo) : List Text :=
  match info.tieredBillingSnapshot with
  | none => []
  | some snap => usedVars E snap.exprString

section Session

variable (E : Engine) (info : RelayInfo) (audioQuota : RealtimeUsage → ℤ)

/-- `PreWssConsumeQuota` up to the reservation; `audioQuota` is `calculateAudioQuota`. -/
def preWssConsumeQuota (s : RealtimeSession) (usage : RealtimeUsage) : RealtimeSession :=
  if usage.hasUsage then
    match info.tieredBillingSnapshot with
    | none =>
      { s with consumedQuota := s.consumedQuota + audioQuota usage, actualQuotaKnown := true }
    | some _ =>
      let sum := addParams s.tieredTokenParams
        (buildRealtimeTieredTokenParams usage (tieredUsedVars E info))
      let settled := tryTieredSettle E info sum
      { s with
        tieredTokenParams := sum
        consumedQuota := if settled.1 then settled.2.1 else audioQuota usage
        actualQuotaKnown := true }
  else s

def preConsumeUsage (s : RealtimeSession) (usage : RealtimeUsage) : RealtimeSession :=
  preWssConsumeQuota E info audioQuota { s with totalUsage := s.totalUsage.add usage } usage

def consumeAll (turns : List Turn) : RealtimeSession :=
  turns.foldl (fun s turn => preConsumeUsage E info audioQuota s turn.usage) .new

/-- The quota that `PostWssConsumeQuota` settles; `estimate` is `CurrentAutoEstimate`. -/
def postWssConsumeQuota (estimate : ℤ) (s : RealtimeSession) : ℤ :=
  let settled := tryTieredSettle E info
    (buildRealtimeTieredTokenParams s.totalUsage (tieredUsedVars E info))
  if s.totalUsage.hasFinalUsage then
    if settled.1 then settled.2.1 else audioQuota s.totalUsage
  else if s.actualQuotaKnown then s.consumedQuota
  else estimate

end Session

/-! ### Turns -/

/-- Counts are not negative, no part is above its total, and a missing counter is 0. -/
structure TurnFormat (u : RealtimeUsage) : Prop where
  total : 0 ≤ u.totalTokens
  cached : 0 ≤ u.cachedTokens
  cached_le : u.cachedTokens ≤ u.inputTokens
  inputText : 0 ≤ u.inputTextTokens
  inputAudio : 0 ≤ u.inputAudioTokens
  inputAudio_le : u.inputAudioTokens ≤ u.inputTokens
  outputText : 0 ≤ u.outputTextTokens
  outputAudio : 0 ≤ u.outputAudioTokens
  outputAudio_le : u.outputAudioTokens ≤ u.outputTokens
  reasoning : 0 ≤ u.reasoningTokens
  reasoning_le : u.reasoningTokens ≤ u.outputTokens
  absent : u.reasoningTokensPresent = false → u.reasoningTokens = 0

def share (vars : List Text) (l : Lane) (n : ℤ) : ℤ := if l.name ∈ vars then n else 0

/-- The input tokens that no other lane prices; below 0 if cached audio is in both parts. -/
def promptRest (vars : List Text) (u : RealtimeUsage) : ℤ :=
  u.inputTokens - share vars .cr u.cachedTokens - share vars .ai u.inputAudioTokens

def sharedOutput (vars : List Text) (u : RealtimeUsage) : ℤ :=
  u.outputTokens - share vars .ao u.outputAudioTokens

def textRest (vars : List Text) (u : RealtimeUsage) : ℤ :=
  sharedOutput vars u - share vars .rt u.reasoningTokens

def uncounted (vars : List Text) (u : RealtimeUsage) : Bool :=
  decide (Lane.rt.name ∈ vars) && !u.reasoningTokensPresent

def uncountedTokens (vars : List Text) (u : RealtimeUsage) : ℤ :=
  if uncounted vars u then sharedOutput vars u else 0

def promptPart (vars : List Text) (u : RealtimeUsage) : ℤ := max (promptRest vars u) 0

def textPart (vars : List Text) (u : RealtimeUsage) : ℤ :=
  if uncounted vars u then 0 else max (textRest vars u) 0

/-! ### Parameters of sums -/

def sumParams (total : RealtimeUsage) (p c unknown : ℤ) (fallback : Bool) : TokenParams :=
  { noTokens with
    p := p
    c := c
    len := total.inputTokens
    cr := total.cachedTokens
    ai := total.inputAudioTokens
    ao := total.outputAudioTokens
    rt := (total.reasoningTokens + unknown : ℤ)
    reasoningTokensUnknown := unknown
    reasoningTokensFallback := fallback }

def usageParams (vars : List Text) (u : RealtimeUsage) : TokenParams :=
  sumParams u (promptPart vars u) (textPart vars u) (uncountedTokens vars u) (uncounted vars u)

section Usage

variable {vars : List Text} {u v : RealtimeUsage}

theorem priced_intCast (vars : List Text) (l : Lane) (n : ℤ) :
    priced vars l n = (share vars l n : ℤ) := by
  unfold priced share
  split
  · rfl
  · exact Int.cast_zero.symm

theorem share_add (vars : List Text) (l : Lane) (a b : ℤ) :
    share vars l (a + b) = share vars l a + share vars l b := by
  unfold share
  split
  · rfl
  · rfl

theorem share_congr {vars' : List Text} (h : ∀ x, x ∈ vars' ↔ x ∈ vars) :
    share vars' = share vars := by
  funext l n
  simp [share, h]

theorem TurnFormat.sharedOutput_nonneg (h : TurnFormat u) (vars : List Text) :
    0 ≤ sharedOutput vars u := by
  have haudio := h.outputAudio
  have hle := h.outputAudio_le
  unfold sharedOutput share
  split
  · omega
  · omega

theorem TurnFormat.add (hu : TurnFormat u) (hv : TurnFormat v) : TurnFormat (u.add v) where
  total := add_nonneg hu.total hv.total
  cached := add_nonneg hu.cached hv.cached
  cached_le := add_le_add hu.cached_le hv.cached_le
  inputText := add_nonneg hu.inputText hv.inputText
  inputAudio := add_nonneg hu.inputAudio hv.inputAudio
  inputAudio_le := add_le_add hu.inputAudio_le hv.inputAudio_le
  outputText := add_nonneg hu.outputText hv.outputText
  outputAudio := add_nonneg hu.outputAudio hv.outputAudio
  outputAudio_le := add_le_add hu.outputAudio_le hv.outputAudio_le
  reasoning := add_nonneg hu.reasoning hv.reasoning
  reasoning_le := add_le_add hu.reasoning_le hv.reasoning_le
  absent habsent := by
    obtain ⟨hua, hva⟩ := Bool.or_eq_false_iff.mp habsent
    have hu' := hu.absent hua
    have hv' := hv.absent hva
    simp only [RealtimeUsage.add]
    omega

theorem TurnFormat.empty : TurnFormat RealtimeUsage.empty :=
  ⟨le_rfl, le_rfl, le_rfl, le_rfl, le_rfl, le_rfl, le_rfl, le_rfl, le_rfl, le_rfl, le_rfl,
    fun _ => rfl⟩

theorem TurnFormat.params_eq (h : TurnFormat u) (vars : List Text) :
    buildRealtimeTieredTokenParams u vars = usageParams vars u := by
  have hprompt : ((promptPart vars u : ℤ) : ℚ) = max ((u.inputTokens : ℚ) -
      priced vars .cr u.cachedTokens - priced vars .ai u.inputAudioTokens) 0 := by
    simp only [promptPart, promptRest, priced_intCast, Int.cast_max, Int.cast_sub, Int.cast_zero]
  have hshared : ((sharedOutput vars u : ℤ) : ℚ) =
      u.outputTokens - priced vars .ao u.outputAudioTokens := by
    simp only [sharedOutput, priced_intCast, Int.cast_sub]
  unfold buildRealtimeTieredTokenParams usageParams sumParams uncountedTokens textPart
  simp only [← hshared, ← hprompt]
  rcases huncounted : uncounted vars u
  · have hfallback : (decide (Lane.rt.name ∈ vars) && !u.reasoningTokensPresent) = false :=
      huncounted
    simp [hfallback, textRest, priced_intCast]
  · have hfallback : (decide (Lane.rt.name ∈ vars) && !u.reasoningTokensPresent) = true :=
      huncounted
    have hzero : u.reasoningTokens = 0 :=
      h.absent (by simpa using (Bool.and_eq_true_iff.mp hfallback).2)
    simp [hfallback, hzero]

theorem addParams_sumParams (u v : RealtimeUsage) (p p' c c' x y : ℤ) (f g : Bool) :
    addParams (sumParams u p c x f) (sumParams v p' c' y g) =
      sumParams (u.add v) (p + p') (c + c') (x + y) (f || g) := by
  simp only [addParams, sumParams, RealtimeUsage.add, Int.cast_add, TokenParams.mk.injEq, noTokens,
    and_true, true_and]
  ring

theorem TurnFormat.unused (h : TurnFormat u) (hunused : u.hasUsage = false) :
    u = { RealtimeUsage.empty with reasoningTokensPresent := u.reasoningTokensPresent } := by
  obtain ⟨htotal, hcached, hcachedLe, hinputText, hinputAudio, -, houtputText, houtputAudio,
    houtputAudioLe, hreasoning, -, -⟩ := h
  simp only [RealtimeUsage.hasUsage, Bool.or_eq_false_iff, decide_eq_false_iff_not] at hunused
  cases u
  simp only [RealtimeUsage.empty, RealtimeUsage.mk.injEq, and_true] at *
  omega

theorem TurnFormat.hasFinalUsage (h : TurnFormat u) (hused : u.hasUsage = true) :
    u.hasFinalUsage = true := by
  obtain ⟨-, hcached, hcachedLe, -, -, -, -, -, -, hreasoning, hreasoningLe, -⟩ := h
  simp only [RealtimeUsage.hasUsage, RealtimeUsage.hasFinalUsage, Bool.or_eq_true,
    decide_eq_true_eq] at *
  omega

theorem hasFinalUsage_add (hu : TurnFormat u) (hv : TurnFormat v)
    (h : u.hasFinalUsage = true ∨ v.hasFinalUsage = true) : (u.add v).hasFinalUsage = true := by
  obtain ⟨hu₁, hu₂, hu₃, hu₄, hu₅, hu₆, hu₇, hu₈, hu₉, -⟩ := hu
  obtain ⟨hv₁, hv₂, hv₃, hv₄, hv₅, hv₆, hv₇, hv₈, hv₉, -⟩ := hv
  simp only [RealtimeUsage.hasFinalUsage, Bool.or_eq_true, decide_eq_true_eq] at h ⊢
  simp only [RealtimeUsage.add]
  omega

end Usage

/-! ### Sums over turns -/

def tally (f : RealtimeUsage → ℤ) : List Turn → ℤ
  | [] => 0
  | turn :: turns => f turn.usage + tally f turns

def totalOf (turns : List Turn) : RealtimeUsage :=
  turns.foldl (fun total turn => total.add turn.usage) .empty

def OneSign (f : RealtimeUsage → ℤ) (turns : List Turn) : Prop :=
  (∀ turn ∈ turns, 0 ≤ f turn.usage) ∨ ∀ turn ∈ turns, f turn.usage ≤ 0

section Tally

variable {f g : RealtimeUsage → ℤ} {turns : List Turn}

theorem tally_concat (turns : List Turn) (turn : Turn) :
    tally f (turns ++ [turn]) = tally f turns + f turn.usage := by
  induction turns with
  | nil => exact Int.add_comm _ _
  | cons t turns ih => rw [List.cons_append, tally, tally, ih, Int.add_assoc]

theorem tally_congr (h : ∀ turn ∈ turns, f turn.usage = g turn.usage) :
    tally f turns = tally g turns := by
  induction turns with
  | nil => rfl
  | cons t turns ih =>
    rw [tally, tally, h t List.mem_cons_self, ih fun turn ht => h turn (List.mem_cons_of_mem _ ht)]

theorem tally_zero (turns : List Turn) : tally (fun _ => 0) turns = 0 := by
  induction turns with
  | nil => rfl
  | cons t turns ih => rw [tally, ih, Int.add_zero]

theorem tally_eq_zero (f : RealtimeUsage → ℤ) {turns : List Turn}
    (h : ∀ turn ∈ turns, 0 ≤ f turn.usage) :
    0 ≤ tally f turns ∧ (tally f turns = 0 ↔ ∀ turn ∈ turns, f turn.usage = 0) := by
  induction turns with
  | nil => simp [tally]
  | cons t turns ih =>
    have ht := h t List.mem_cons_self
    obtain ⟨hnonneg, hiff⟩ := ih fun turn hturn => h turn (List.mem_cons_of_mem _ hturn)
    rw [List.forall_mem_cons, ← hiff, tally]
    omega

/-- Cutting the summands off at 0 is cutting off the sum exactly if they have one sign. -/
theorem tally_max_iff (f : RealtimeUsage → ℤ) (turns : List Turn) :
    tally (fun u => max (f u) 0) turns = max (tally f turns) 0 ↔ OneSign f turns := by
  have hsplit : tally f turns =
      tally (fun u => max (f u) 0) turns - tally (fun u => max (-f u) 0) turns := by
    induction turns with
    | nil => rfl
    | cons t turns ih =>
      simp only [tally, ih]
      omega
  obtain ⟨hpos, hposIff⟩ := tally_eq_zero (fun u => max (f u) 0)
    fun (turn : Turn) (_ : turn ∈ turns) => le_max_right _ _
  obtain ⟨hneg, hnegIff⟩ := tally_eq_zero (fun u => max (-f u) 0)
    fun (turn : Turn) (_ : turn ∈ turns) => le_max_right _ _
  have hup : (∀ turn ∈ turns, 0 ≤ f turn.usage) ↔
      tally (fun u => max (-f u) 0) turns = 0 := by
    rw [hnegIff]
    refine forall₂_congr fun turn _ => ?_
    omega
  have hdown : (∀ turn ∈ turns, f turn.usage ≤ 0) ↔ tally (fun u => max (f u) 0) turns = 0 := by
    rw [hposIff]
    refine forall₂_congr fun turn _ => ?_
    omega
  rw [OneSign, hup, hdown, hsplit]
  omega

theorem totalOf_concat (turns : List Turn) (turn : Turn) :
    totalOf (turns ++ [turn]) = (totalOf turns).add turn.usage :=
  List.foldl_concat ..

theorem tally_totalOf (hempty : f .empty = 0) (hadd : ∀ u v, f (u.add v) = f u + f v)
    (turns : List Turn) : f (totalOf turns) = tally f turns := by
  induction turns using List.reverseRecOn with
  | nil => exact hempty
  | append_singleton turns turn ih => rw [totalOf_concat, hadd, ih, tally_concat]

theorem promptRest_totalOf (vars : List Text) (turns : List Turn) :
    promptRest vars (totalOf turns) = tally (promptRest vars) turns := by
  refine tally_totalOf (by simp [promptRest, share, RealtimeUsage.empty]) (fun u v => ?_) turns
  simp only [promptRest, RealtimeUsage.add, share_add]
  omega

theorem sharedOutput_totalOf (vars : List Text) (turns : List Turn) :
    sharedOutput vars (totalOf turns) = tally (sharedOutput vars) turns := by
  refine tally_totalOf (by simp [sharedOutput, share, RealtimeUsage.empty]) (fun u v => ?_) turns
  simp only [sharedOutput, RealtimeUsage.add, share_add]
  omega

theorem textRest_totalOf (vars : List Text) (turns : List Turn) :
    textRest vars (totalOf turns) = tally (textRest vars) turns := by
  refine tally_totalOf (by simp [textRest, sharedOutput, share, RealtimeUsage.empty])
    (fun u v => ?_) turns
  simp only [textRest, sharedOutput, RealtimeUsage.add, share_add]
  omega

theorem reasoning_totalOf (turns : List Turn) :
    (totalOf turns).reasoningTokens = tally RealtimeUsage.reasoningTokens turns :=
  tally_totalOf rfl (fun _ _ => rfl) turns

theorem present_totalOf (turns : List Turn) : (totalOf turns).reasoningTokensPresent =
    turns.any fun turn => turn.usage.reasoningTokensPresent := by
  induction turns using List.reverseRecOn with
  | nil => rfl
  | append_singleton turns turn ih =>
    rw [totalOf_concat, List.any_append, ← ih]
    simp [RealtimeUsage.add]

theorem totalOf_format (hformat : ∀ turn ∈ turns, TurnFormat turn.usage) :
    TurnFormat (totalOf turns) ∧ ((∃ turn ∈ turns, turn.usage.hasUsage = true) →
      (totalOf turns).hasFinalUsage = true) := by
  induction turns using List.reverseRecOn with
  | nil => exact ⟨TurnFormat.empty, fun ⟨_, hmem, _⟩ => by cases hmem⟩
  | append_singleton turns turn ih =>
    obtain ⟨hbefore, hused⟩ := ih fun t ht => hformat t (List.mem_append_left _ ht)
    have hturn := hformat turn (List.mem_append_right _ (List.mem_singleton.mpr rfl))
    rw [totalOf_concat]
    refine ⟨hbefore.add hturn, ?_⟩
    rintro ⟨found, hfound, hfoundUsed⟩
    apply hasFinalUsage_add hbefore hturn
    rcases List.mem_append.mp hfound with hfound | hfound
    · exact .inl (hused ⟨found, hfound, hfoundUsed⟩)
    · rw [List.mem_singleton.mp hfound] at hfoundUsed
      exact .inr (hturn.hasFinalUsage hfoundUsed)

end Tally

/-! ### Sessions -/

def anyUncounted (vars : List Text) (turns : List Turn) : Bool :=
  turns.any fun turn => turn.usage.hasUsage && uncounted vars turn.usage

def sessionParams (vars : List Text) (turns : List Turn) : TokenParams :=
  sumParams (totalOf turns) (tally (promptPart vars) turns) (tally (textPart vars) turns)
    (tally (uncountedTokens vars) turns) (anyUncounted vars turns)

section Session

variable {E : Engine} {info : RelayInfo} {snap : BillingSnapshot} {audioQuota : RealtimeUsage → ℤ}
  {vars : List Text} {turns : List Turn}

theorem preConsumeUsage_total (s : RealtimeSession) (u : RealtimeUsage) :
    (preConsumeUsage E info audioQuota s u).totalUsage = s.totalUsage.add u := by
  unfold preConsumeUsage preWssConsumeQuota
  split
  · split
    · rfl
    · rfl
  · rfl

theorem preConsumeUsage_params (hsnap : info.tieredBillingSnapshot = some snap)
    (s : RealtimeSession) (u : RealtimeUsage) :
    (preConsumeUsage E info audioQuota s u).tieredTokenParams =
      if u.hasUsage then addParams s.tieredTokenParams
        (buildRealtimeTieredTokenParams u (usedVars E snap.exprString))
      else s.tieredTokenParams := by
  unfold preConsumeUsage preWssConsumeQuota
  simp only [tieredUsedVars, hsnap]
  split
  · rfl
  · rfl

theorem consumeAll_total (turns : List Turn) :
    (consumeAll E info audioQuota turns).totalUsage = totalOf turns := by
  induction turns using List.reverseRecOn with
  | nil => rfl
  | append_singleton turns turn ih =>
    unfold consumeAll at ih ⊢
    rw [List.foldl_concat, preConsumeUsage_total, ih, totalOf_concat]

theorem consumeAll_params (hsnap : info.tieredBillingSnapshot = some snap)
    (hformat : ∀ turn ∈ turns, TurnFormat turn.usage) :
    (consumeAll E info audioQuota turns).tieredTokenParams =
      sessionParams (usedVars E snap.exprString) turns := by
  induction turns using List.reverseRecOn with
  | nil => simp [consumeAll, RealtimeSession.new, sessionParams, sumParams, totalOf, tally,
      anyUncounted, RealtimeUsage.empty, noTokens]
  | append_singleton turns turn ih =>
    have hbefore := ih fun t ht => hformat t (List.mem_append_left _ ht)
    have hturn := hformat turn (List.mem_append_right _ (List.mem_singleton.mpr rfl))
    unfold consumeAll at hbefore ⊢
    rw [List.foldl_concat, preConsumeUsage_params hsnap, hbefore]
    simp only [sessionParams, totalOf_concat, tally_concat, anyUncounted, List.any_append,
      List.any_cons, List.any_nil, Bool.or_false]
    rcases hused : turn.usage.hasUsage
    · -- a turn without usage adds nothing to any sum
      rw [hturn.unused hused]
      simp [uncountedTokens, promptPart, promptRest, textPart, textRest,
        sumParams, sharedOutput, share, RealtimeUsage.add, RealtimeUsage.empty]
    · simp [hturn.params_eq, usageParams, addParams_sumParams]

theorem consumed_eq (hsnap : info.tieredBillingSnapshot = some snap)
    (hmode : snap.billingMode = tieredExpr)
    (hused : ∃ turn ∈ turns, turn.usage.hasUsage = true) :
    (consumeAll E info audioQuota turns).consumedQuota =
      (tryTieredSettle E info (consumeAll E info audioQuota turns).tieredTokenParams).2.1 := by
  have hsettled : ∀ t, (tryTieredSettle E info t).1 = true := by
    intro t
    simp [tryTieredSettle, hsnap, hmode]
  induction turns using List.reverseRecOn with
  | nil => simp at hused
  | append_singleton turns turn ih =>
    unfold consumeAll at ih ⊢
    rw [List.foldl_append, List.foldl_cons, List.foldl_nil]
    rcases hlast : turn.usage.hasUsage
    · have hearlier : ∃ t ∈ turns, t.usage.hasUsage = true := by
        obtain ⟨t, ht, htused⟩ := hused
        rcases List.mem_append.mp ht with ht | ht
        · exact ⟨t, ht, htused⟩
        · rw [List.mem_singleton.mp ht, hlast] at htused
          cases htused
      simp only [preConsumeUsage, preWssConsumeQuota, hlast, Bool.false_eq_true, if_false]
      exact ih hearlier
    · simp [preConsumeUsage, preWssConsumeQuota, hlast, hsnap, hsettled]

theorem postWss_eq (hsnap : info.tieredBillingSnapshot = some snap)
    (hmode : snap.billingMode = tieredExpr) (estimate : ℤ)
    (hformat : ∀ turn ∈ turns, TurnFormat turn.usage)
    (hused : ∃ turn ∈ turns, turn.usage.hasUsage = true) :
    postWssConsumeQuota E info audioQuota estimate (consumeAll E info audioQuota turns) =
      (tryTieredSettle E info
        (usageParams (usedVars E snap.exprString) (totalOf turns))).2.1 := by
  obtain ⟨htotal, hfinal⟩ := totalOf_format hformat
  simp only [postWssConsumeQuota, consumeAll_total, hfinal hused, if_true, tieredUsedVars, hsnap,
    htotal.params_eq]
  simp [tryTieredSettle, hsnap, hmode]

/-- The session is settled at what it has consumed, by every accepted expression that reads
these variables and evaluates. -/
def SettlesConsumed (turns : List Turn) (vars : List Text) : Prop :=
  ∀ (E : Engine) (info : RelayInfo) (snap : BillingSnapshot) (audioQuota : RealtimeUsage → ℤ)
    (estimate : ℤ), info.tieredBillingSnapshot = some snap → snap.billingMode = tieredExpr →
    reasoningSplitIsSafe E snap.exprString = true →
    (∀ x, x ∈ usedVars E snap.exprString ↔ x ∈ vars) →
    (tryTieredSettle E info (consumeAll E info audioQuota turns).tieredTokenParams).2.2 ≠ none →
    (tryTieredSettle E info (buildRealtimeTieredTokenParams
      (consumeAll E info audioQuota turns).totalUsage (usedVars E snap.exprString))).2.2 ≠ none →
    postWssConsumeQuota E info audioQuota estimate (consumeAll E info audioQuota turns) =
        (tryTieredSettle E info (consumeAll E info audioQuota turns).tieredTokenParams).2.1 ∧
      (consumeAll E info audioQuota turns).consumedQuota =
        (tryTieredSettle E info (consumeAll E info audioQuota turns).tieredTokenParams).2.1

/-- An expression with these variables can read the lane, by name or through `$env`. -/
def CanRead (vars : List Text) (l : Lane) : Prop := l.name ∈ vars ∨ envName ∈ vars

/-- No turn has the reasoning counter, or every turn with usage has it and no turn hides more
reasoning than text, or there is nothing that the counter could split. -/
def CounterUniform (turns : List Turn) (vars : List Text) : Prop :=
  (∀ turn ∈ turns, turn.usage.reasoningTokensPresent = false) ∨
  ((∀ turn ∈ turns, turn.usage.hasUsage = true → turn.usage.reasoningTokensPresent = true) ∧
    (CanRead vars .c → OneSign (textRest vars) turns)) ∨
  ∀ turn ∈ turns, turn.usage.reasoningTokens = 0 ∧
    (turn.usage.reasoningTokensPresent = false → sharedOutput vars turn.usage = 0)

/-- The turns are cut off alike in every lane that the expression reads. -/
def TurnsUniform (turns : List Turn) (vars : List Text) : Prop :=
  (CanRead vars .p → OneSign (promptRest vars) turns) ∧
    (Lane.rt.name ∉ vars ∨ CounterUniform turns vars)

theorem rests_congr {vars' : List Text} (h : ∀ x, x ∈ vars' ↔ x ∈ vars) :
    promptRest vars' = promptRest vars ∧ sharedOutput vars' = sharedOutput vars ∧
      textRest vars' = textRest vars ∧ uncounted vars' = uncounted vars := by
  refine ⟨?_, ?_, ?_, ?_⟩
  all_goals funext u
  · rw [promptRest, promptRest, share_congr h]
  · rw [sharedOutput, sharedOutput, share_congr h]
  · rw [textRest, textRest, sharedOutput, sharedOutput, share_congr h]
  · simp [uncounted, h]

theorem turnsUniform_congr {vars' : List Text} (h : ∀ x, x ∈ vars' ↔ x ∈ vars) :
    TurnsUniform turns vars' ↔ TurnsUniform turns vars := by
  obtain ⟨hprompt, hshared, htext, -⟩ := rests_congr h
  simp only [TurnsUniform, CounterUniform, CanRead, hprompt, hshared, htext, h]

theorem params_congr {vars' : List Text} (turns : List Turn) (h : ∀ x, x ∈ vars' ↔ x ∈ vars) :
    sessionParams vars' turns = sessionParams vars turns ∧
      usageParams vars' (totalOf turns) = usageParams vars (totalOf turns) := by
  obtain ⟨hprompt, hshared, htext, huncounted⟩ := rests_congr h
  have hpromptPart : promptPart vars' = promptPart vars := by
    funext u
    rw [promptPart, promptPart, hprompt]
  have htextPart : textPart vars' = textPart vars := by
    funext u
    rw [textPart, textPart, htext, huncounted]
  have htokens : uncountedTokens vars' = uncountedTokens vars := by
    funext u
    rw [uncountedTokens, uncountedTokens, hshared, huncounted]
  rw [sessionParams, sessionParams, anyUncounted, anyUncounted, usageParams, usageParams,
    hpromptPart, htextPart, htokens, huncounted]
  exact ⟨rfl, rfl⟩

/-! ### Settlements -/

theorem settle_eq (hsnap : info.tieredBillingSnapshot = some snap)
    (hmode : snap.billingMode = tieredExpr) {t : TokenParams}
    (hcache : t.cacheCreationTokensFallback = false) :
    (tryTieredSettle E info t).2 = settleEnds info snap (computeTieredQuotaWithRequest E snap t)
      (computeTieredQuotaWithRequest E snap (shiftOutput t (unknownOutput t))) := by
  simp [tryTieredSettle, hsnap, hmode, settleWith, hcache, settleAllocated_eq]

theorem compute_of_read {s t : TokenParams}
    (h : ∀ l, CanRead (usedVars E snap.exprString) l → s.get l = t.get l) :
    computeTieredQuotaWithRequest E snap s = computeTieredQuotaWithRequest E snap t := by
  by_cases henv : envName ∈ usedVars E snap.exprString
  · exact compute_of_lanes fun l => h l (.inr henv)
  · exact compute_congr henv fun l hl => h l (.inl hl)

theorem settle_of_read (hsnap : info.tieredBillingSnapshot = some snap)
    (hmode : snap.billingMode = tieredExpr) {s t : TokenParams}
    (hs : s.cacheCreationTokensFallback = false) (ht : t.cacheCreationTokensFallback = false)
    (hlanes : ∀ l, CanRead (usedVars E snap.exprString) l → s.get l = t.get l)
    (hunknown : unknownOutput s = unknownOutput t) :
    (tryTieredSettle E info s).2 = (tryTieredSettle E info t).2 := by
  rw [settle_eq hsnap hmode hs, settle_eq hsnap hmode ht, compute_of_read hlanes, hunknown]
  congr 1
  refine compute_of_read fun l hl => ?_
  have hlane := hlanes l hl
  cases l with
  | c => exact congrArg (· + unknownOutput t) hlane
  | rt => exact congrArg (· - unknownOutput t) hlane
  | _ => exact hlane

theorem unknownOutput_sumParams (total : RealtimeUsage) (p c unknown : ℤ) (fallback : Bool) :
    unknownOutput (sumParams total p c unknown fallback) =
      ((if fallback then if unknown ≤ 0 then total.reasoningTokens + unknown else unknown
        else 0 : ℤ) : ℚ) := by
  have hiff : ((unknown : ℤ) : ℚ) ≤ 0 ↔ unknown ≤ 0 := Int.cast_nonpos
  simp only [unknownOutput, reasoningUnknown, sumParams, hiff]
  split_ifs
  · rfl
  · rfl
  · rfl

theorem sumParams_get (total : RealtimeUsage) {p p' c c' unknown : ℤ} {f f' : Bool}
    (hp : CanRead vars .p → p = p') (hc : CanRead vars .c → c = c') (l : Lane)
    (hl : CanRead vars l) :
    (sumParams total p c unknown f).get l = (sumParams total p' c' unknown f').get l := by
  cases l with
  | p => exact congrArg Int.cast (hp hl)
  | c => exact congrArg Int.cast (hc hl)
  | _ => rfl

/-- What the settlements of both parameters see is the same. -/
def SeenAlike (turns : List Turn) (vars : List Text) : Prop :=
  (∀ l, CanRead vars l →
    (sessionParams vars turns).get l = (usageParams vars (totalOf turns)).get l) ∧
    unknownOutput (sessionParams vars turns) = unknownOutput (usageParams vars (totalOf turns))

section Uniform

variable (hprompt : CanRead vars .p → OneSign (promptRest vars) turns)
include hprompt

theorem prompt_of_oneSign (h : CanRead vars .p) :
    tally (promptPart vars) turns = promptPart vars (totalOf turns) := by
  rw [promptPart, promptRest_totalOf]
  exact (tally_max_iff _ turns).mpr (hprompt h)

theorem seenAlike_of_counted
    (hturns : ∀ turn ∈ turns, uncounted vars turn.usage = false ∨
      sharedOutput vars turn.usage = 0 ∧ textRest vars turn.usage = 0)
    (htotal : uncounted vars (totalOf turns) = false)
    (htext : CanRead vars .c → OneSign (textRest vars) turns)
    (hflag : anyUncounted vars turns = false ∨ (totalOf turns).reasoningTokens = 0) :
    SeenAlike turns vars := by
  have htokens : tally (uncountedTokens vars) turns = 0 := by
    rw [← tally_zero turns]
    refine tally_congr fun turn hturn => ?_
    rcases hturns turn hturn with hcounted | ⟨hshared, -⟩
    · rw [uncountedTokens, if_neg (Bool.not_eq_true _ ▸ hcounted)]
    · rw [uncountedTokens, hshared, ite_self]
  have hparts : tally (textPart vars) turns = tally (fun u => max (textRest vars u) 0) turns := by
    refine tally_congr fun turn hturn => ?_
    rcases hturns turn hturn with hcounted | ⟨-, hrest⟩
    · rw [textPart, if_neg (Bool.not_eq_true _ ▸ hcounted)]
    · rw [textPart, hrest, max_self, ite_self]
  have hzero : uncountedTokens vars (totalOf turns) = 0 := by
    rw [uncountedTokens, if_neg (Bool.not_eq_true _ ▸ htotal)]
  unfold SeenAlike sessionParams usageParams
  rw [htokens, hzero]
  refine ⟨sumParams_get _ (prompt_of_oneSign hprompt) fun hc => ?_, ?_⟩
  · rw [hparts, textPart, if_neg (Bool.not_eq_true _ ▸ htotal), textRest_totalOf]
    exact (tally_max_iff _ turns).mpr (htext hc)
  · rw [unknownOutput_sumParams, unknownOutput_sumParams, htotal]
    rcases hflag with hnone | hreasoning
    · rw [hnone]
    · simp [hreasoning]

theorem seenAlike_of_absent (hrt : Lane.rt.name ∈ vars)
    (hused : ∃ turn ∈ turns, turn.usage.hasUsage = true)
    (habsent : ∀ turn ∈ turns, turn.usage.reasoningTokensPresent = false) :
    SeenAlike turns vars := by
  have huncounted : ∀ u : RealtimeUsage, u.reasoningTokensPresent = false →
      uncounted vars u = true := by
    intro u hu
    simp [uncounted, hrt, hu]
  have htotal : uncounted vars (totalOf turns) = true := by
    refine huncounted _ ?_
    rw [present_totalOf, List.any_eq_false]
    exact fun turn hturn => Bool.not_eq_true _ ▸ habsent turn hturn
  have hany : anyUncounted vars turns = true := by
    obtain ⟨turn, hturn, hturnUsed⟩ := hused
    refine List.any_eq_true.mpr ⟨turn, hturn, ?_⟩
    rw [hturnUsed, huncounted _ (habsent turn hturn)]
    rfl
  have htokens : tally (uncountedTokens vars) turns = uncountedTokens vars (totalOf turns) := by
    rw [uncountedTokens, if_pos htotal, sharedOutput_totalOf]
    refine tally_congr fun turn hturn => ?_
    rw [uncountedTokens, if_pos (huncounted _ (habsent turn hturn))]
  have hparts : tally (textPart vars) turns = textPart vars (totalOf turns) := by
    rw [textPart, if_pos htotal, ← tally_zero turns]
    refine tally_congr fun turn hturn => ?_
    rw [textPart, if_pos (huncounted _ (habsent turn hturn))]
  unfold SeenAlike sessionParams usageParams
  rw [htokens, hany, htotal]
  refine ⟨sumParams_get _ (prompt_of_oneSign hprompt) fun _ => hparts, ?_⟩
  rw [unknownOutput_sumParams, unknownOutput_sumParams]

end Uniform

theorem seenAlike_of_uniform (hformat : ∀ turn ∈ turns, TurnFormat turn.usage)
    (hused : ∃ turn ∈ turns, turn.usage.hasUsage = true) (h : TurnsUniform turns vars) :
    SeenAlike turns vars := by
  obtain ⟨hprompt, hcounter⟩ := h
  have hshared : ∀ turn ∈ turns, 0 ≤ sharedOutput vars turn.usage :=
    fun turn hturn => (hformat turn hturn).sharedOutput_nonneg vars
  by_cases hrt : Lane.rt.name ∈ vars
  swap
  · -- without the lane nothing is uncounted, and the output is not reduced
    have huncounted : ∀ u, uncounted vars u = false := by
      intro u
      simp [uncounted, hrt]
    refine seenAlike_of_counted hprompt (fun turn _ => .inl (huncounted _)) (huncounted _)
      (fun _ => .inl fun turn hturn => ?_) (.inl ?_)
    · rw [textRest, share, if_neg hrt, sub_zero]
      exact hshared turn hturn
    · simp [anyUncounted, huncounted]
  have hpresent : ∀ u : RealtimeUsage, u.reasoningTokensPresent = true →
      uncounted vars u = false := by
    intro u hu
    simp [uncounted, hu]
  by_cases hnone : ∀ turn ∈ turns, turn.usage.reasoningTokensPresent = false
  · exact seenAlike_of_absent hprompt hrt hused hnone
  have htotal : uncounted vars (totalOf turns) = false := by
    apply hpresent
    rw [present_totalOf]
    simpa using hnone
  rcases (hcounter.resolve_left (not_not_intro hrt)).resolve_left hnone with ⟨hall, htext⟩ | hempty
  · refine seenAlike_of_counted hprompt (fun turn hturn => ?_) htotal htext (.inl ?_)
    · rcases hturnUsed : turn.usage.hasUsage
      · right
        rw [(hformat turn hturn).unused hturnUsed]
        simp [sharedOutput, textRest, share, RealtimeUsage.empty]
      · exact .inl (hpresent _ (hall turn hturn hturnUsed))
    · simp only [anyUncounted, List.any_eq_false, Bool.and_eq_true, not_and]
      exact fun turn hturn hturnUsed => Bool.not_eq_true _ ▸ hpresent _ (hall turn hturn hturnUsed)
  · have hrest : ∀ turn ∈ turns, textRest vars turn.usage = sharedOutput vars turn.usage := by
      intro turn hturn
      rw [textRest, share, (hempty turn hturn).1, ite_self, sub_zero]
    refine seenAlike_of_counted hprompt (fun turn hturn => ?_) htotal
      (fun _ => .inl fun turn hturn => ?_) (.inr ?_)
    · rcases hturnPresent : turn.usage.reasoningTokensPresent
      · have hzero := (hempty turn hturn).2 hturnPresent
        exact .inr ⟨hzero, (hrest turn hturn).trans hzero⟩
      · exact .inl (hpresent _ hturnPresent)
    · rw [hrest turn hturn]
      exact hshared turn hturn
    · rw [reasoning_totalOf, ← tally_zero turns]
      exact tally_congr fun turn hturn => (hempty turn hturn).1

theorem settlesConsumed_of_uniform (hformat : ∀ turn ∈ turns, TurnFormat turn.usage)
    (hused : ∃ turn ∈ turns, turn.usage.hasUsage = true) (h : TurnsUniform turns vars) :
    SettlesConsumed turns vars := by
  intro E info snap audioQuota estimate hsnap hmode _ hvars _ _
  obtain ⟨hlanes, hunknown⟩ :=
    seenAlike_of_uniform hformat hused ((turnsUniform_congr hvars).mpr h)
  have hsettle := settle_of_read (E := E) hsnap hmode rfl rfl hlanes hunknown
  refine ⟨?_, consumed_eq hsnap hmode hused⟩
  rw [postWss_eq hsnap hmode estimate hformat hused, consumeAll_params hsnap hformat, hsettle]

/-! ### Expressions that read one lane -/

/-- The lane by its name, or `get($env, name)`. -/
def reader (vars : List Text) (l : Lane) : Node :=
  if l.name ∈ vars then lane l
  else .builtin "get".toList [.ident envName, .const (.str l.name)]

def readEngine (k : ℤ) (l : Lane) (vars : List Text) : Engine :=
  coreEngine fun _ => some (withVars (.binary .mul (.int k) (reader vars l)) vars)

variable {l : Lane}

theorem run_reader (k : ℤ) (l : Lane) (vars : List Text) (exprString : Text) (t : TokenParams) :
    runExpr (readEngine k l vars) exprString t = some (k * t.get l) := by
  have hread : eval (readEngine k l vars) t (reader vars l) = some (.num (t.get l)) := by
    unfold reader
    split
    · exact lookup_name t l
    · have henv : t.lookup envName = some (.env t.visible) := rfl
      have hvisible : t.visible.get l = t.get l := by cases l <;> rfl
      simp [eval, evalAll, henv, readEngine, coreEngine, getBuiltin, lookup_name, hvisible]
  have heval : eval (readEngine k l vars) t (.binary .mul (.int k) (reader vars l)) =
      some (.num (k * t.get l)) := by
    simp [eval, hread, evalBinary, strictBinary, applyBinary, arithmetic]
  simp only [runExpr, readEngine, coreEngine, eval_withVars] at heval ⊢
  rw [heval]

theorem safe_reader (k : ℤ) (l : Lane) (vars : List Text) :
    reasoningSplitIsSafe (readEngine k l vars) unitSnapshot.exprString = true := by
  have hreader : (tokenSplitFormFor Lane.c.name Lane.rt.name
      (.binary .mul (.int k) (reader vars l))).safe = true := by
    unfold reader
    split
    · cases l <;> rfl
    · rfl
  have hsafe := safe_withVars hreader vars
  simp [reasoningSplitIsSafe, readEngine, coreEngine, hsafe]

theorem reads_reader (k : ℤ) (hl : CanRead vars l) (x : Text) :
    x ∈ usedVars (readEngine k l vars) unitSnapshot.exprString ↔ x ∈ vars := by
  refine mem_withVars (fun y hy => ?_) x
  unfold reader at hy
  split at hy
  · next hmem =>
    have hname : y = l.name := List.mem_singleton.mp hy
    rw [hname]
    exact hmem
  · next hmem =>
    have hname : y = envName := List.mem_singleton.mp hy
    rw [hname]
    exact hl.resolve_left hmem

/-- The settlement of a lane is its larger value at the ends of the unknown split. -/
theorem settle_reader (k : ℤ) (l : Lane) (vars : List Text) {t : TokenParams} {n m : ℤ}
    (hcache : t.cacheCreationTokensFallback = false) (hn : t.get l = n)
    (hm : (shiftOutput t (unknownOutput t)).get l = m) :
    (tryTieredSettle (readEngine k l vars) ⟨some unitSnapshot, 0⟩ t).2.1 = max (k * n) (k * m) ∧
      (tryTieredSettle (readEngine k l vars) ⟨some unitSnapshot, 0⟩ t).2.2 ≠ none := by
  have hcompute : ∀ (s : TokenParams) (q : ℤ), s.get l = q →
      computeTieredQuotaWithRequest (readEngine k l vars) unitSnapshot s =
        some ⟨quotaConversion (k * q) unitSnapshot, k * q⟩ := by
    intro s q hq
    have hquota := quotaOf_unitSnapshot (k * q)
    rw [compute_of_run (run_reader k l vars _ s), hq]
    rw [Int.cast_mul] at hquota
    rw [hquota]
  rw [settle_eq rfl rfl hcache, hcompute t n hn, hcompute _ m hm]
  dsimp only [settleEnds]
  split
  · next hlt => exact ⟨(max_eq_right hlt.le).symm, Option.some_ne_none _⟩
  · next hlt => exact ⟨(max_eq_left (not_lt.mp hlt)).symm, Option.some_ne_none _⟩

theorem SettlesConsumed.reader (h : SettlesConsumed turns vars)
    (hformat : ∀ turn ∈ turns, TurnFormat turn.usage)
    (hused : ∃ turn ∈ turns, turn.usage.hasUsage = true) (hl : CanRead vars l) (k : ℤ)
    {n m n' m' : ℤ} (hn : (sessionParams vars turns).get l = n)
    (hm : (shiftOutput (sessionParams vars turns)
      (unknownOutput (sessionParams vars turns))).get l = m)
    (hn' : (usageParams vars (totalOf turns)).get l = n')
    (hm' : (shiftOutput (usageParams vars (totalOf turns))
      (unknownOutput (usageParams vars (totalOf turns)))).get l = m') :
    max (k * n') (k * m') = max (k * n) (k * m) := by
  have hvars := reads_reader k hl
  have hsettled := h (readEngine k l vars) ⟨some unitSnapshot, 0⟩ unitSnapshot (fun _ => 0) 0 rfl rfl
    (safe_reader k l vars) hvars
  obtain ⟨hsession, htotal⟩ := params_congr turns hvars
  rw [postWss_eq rfl rfl 0 hformat hused, consumeAll_params rfl hformat, consumeAll_total,
    (totalOf_format hformat).1.params_eq, hsession, htotal] at hsettled
  obtain ⟨hsum, hsome⟩ := settle_reader k l vars rfl hn hm
  obtain ⟨hlast, hsome'⟩ := settle_reader k l vars rfl hn' hm'
  rw [← hsum, ← hlast]
  exact (hsettled hsome hsome').1

theorem shift_text (total : RealtimeUsage) (p c unknown : ℤ) :
    (shiftOutput (sumParams total p c unknown false)
      (unknownOutput (sumParams total p c unknown false))).get .c = c :=
  add_zero _

theorem shift_reasoning (total : RealtimeUsage) (p c unknown : ℤ) (fallback : Bool) :
    (shiftOutput (sumParams total p c unknown fallback)
      (unknownOutput (sumParams total p c unknown fallback))).get .rt =
      ((total.reasoningTokens + unknown - if fallback then
        if unknown ≤ 0 then total.reasoningTokens + unknown else unknown else 0 : ℤ) : ℚ) := by
  rw [Int.cast_sub, ← unknownOutput_sumParams]
  rfl

section Necessary

variable (hformat : ∀ turn ∈ turns, TurnFormat turn.usage)
  (hused : ∃ turn ∈ turns, turn.usage.hasUsage = true) (h : SettlesConsumed turns vars)
include hformat hused h

theorem SettlesConsumed.prompt (hp : CanRead vars .p) : OneSign (promptRest vars) turns := by
  have hread : max (1 * promptPart vars (totalOf turns)) (1 * promptPart vars (totalOf turns)) =
      max (1 * tally (promptPart vars) turns) (1 * tally (promptPart vars) turns) :=
    h.reader hformat hused hp 1 rfl rfl rfl rfl
  rw [max_self, max_self, one_mul, one_mul, promptPart, promptRest_totalOf] at hread
  exact (tally_max_iff _ turns).mp hread.symm

theorem SettlesConsumed.text (hc : CanRead vars .c)
    (htotal : uncounted vars (totalOf turns) = false)
    (hall : ∀ turn ∈ turns, turn.usage.hasUsage = true →
      turn.usage.reasoningTokensPresent = true) : OneSign (textRest vars) turns := by
  have hparts : tally (textPart vars) turns = tally (fun u => max (textRest vars u) 0) turns := by
    refine tally_congr fun turn hturn => ?_
    rcases hturnUsed : turn.usage.hasUsage
    · rw [(hformat turn hturn).unused hturnUsed]
      simp [textPart, textRest, sharedOutput, share, RealtimeUsage.empty]
    · rw [textPart, if_neg (by simp [uncounted, hall turn hturn hturnUsed])]
  have hany : anyUncounted vars turns = false := by
    simp only [anyUncounted, List.any_eq_false, Bool.and_eq_true, not_and]
    intro turn hturn hturnUsed
    simp [uncounted, hall turn hturn hturnUsed]
  have hread : max (1 * textPart vars (totalOf turns)) (1 * textPart vars (totalOf turns)) =
      max (1 * tally (textPart vars) turns) (1 * tally (textPart vars) turns) := by
    refine h.reader hformat hused hc 1 rfl ?_ rfl ?_
    · rw [sessionParams, hany]
      exact shift_text _ _ _ _
    · rw [usageParams, htotal]
      exact shift_text _ _ _ _
  rw [max_self, max_self, one_mul, one_mul, textPart, if_neg (Bool.not_eq_true _ ▸ htotal),
    textRest_totalOf, hparts] at hread
  exact (tally_max_iff _ turns).mp hread.symm

theorem SettlesConsumed.reasoning (hrt : Lane.rt.name ∈ vars)
    (htotal : uncounted vars (totalOf turns) = false) (hany : anyUncounted vars turns = true) :
    ∀ turn ∈ turns, turn.usage.reasoningTokens = 0 ∧ uncountedTokens vars turn.usage = 0 := by
  obtain ⟨hnonneg, hzero⟩ := tally_eq_zero RealtimeUsage.reasoningTokens
    fun turn (hturn : turn ∈ turns) => (hformat turn hturn).reasoning
  obtain ⟨hunknown, hunknownZero⟩ := tally_eq_zero (uncountedTokens vars)
    fun turn (hturn : turn ∈ turns) => by
      unfold uncountedTokens
      split
      · exact (hformat turn hturn).sharedOutput_nonneg vars
      · exact le_rfl
  have hread : ∀ k : ℤ, _ := fun k => h.reader hformat hused (.inl hrt) k rfl
    (shift_reasoning _ _ _ _ _) rfl (shift_reasoning _ _ _ _ _)
  have hcounted : uncountedTokens vars (totalOf turns) = 0 := by
    rw [uncountedTokens, if_neg (Bool.not_eq_true _ ▸ htotal)]
  simp only [hany, htotal, hcounted, reasoning_totalOf, if_true, Bool.false_eq_true, if_false] at hread
  -- a price makes the unknown tokens cost, a credit the ones that are taken for unknown
  have hprice := hread 1
  have hcredit := hread (-1)
  have hboth : tally RealtimeUsage.reasoningTokens turns = 0 ∧
      tally (uncountedTokens vars) turns = 0 := by
    split at hprice
    · omega
    · omega
  intro turn hturn
  exact ⟨hzero.mp hboth.1 turn hturn, hunknownZero.mp hboth.2 turn hturn⟩

theorem SettlesConsumed.uniform : TurnsUniform turns vars := by
  refine ⟨h.prompt hformat hused, ?_⟩
  by_cases hrt : Lane.rt.name ∈ vars
  swap
  · exact .inl hrt
  right
  by_cases hnone : ∀ turn ∈ turns, turn.usage.reasoningTokensPresent = false
  · exact .inl hnone
  have htotal : uncounted vars (totalOf turns) = false := by
    have hpresent : (totalOf turns).reasoningTokensPresent = true := by
      rw [present_totalOf]
      simpa using hnone
    simp [uncounted, hpresent]
  right
  by_cases hall : ∀ turn ∈ turns, turn.usage.hasUsage = true →
      turn.usage.reasoningTokensPresent = true
  · exact .inl ⟨hall, fun hc => h.text hformat hused hc htotal hall⟩
  · right
    have hany : anyUncounted vars turns = true := by
      simp only [not_forall] at hall
      obtain ⟨turn, hturn, hturnUsed, habsent⟩ := hall
      refine List.any_eq_true.mpr ⟨turn, hturn, ?_⟩
      simp [hturnUsed, uncounted, hrt, Bool.not_eq_true _ ▸ habsent]
    intro turn hturn
    obtain ⟨hreasoning, htokens⟩ := h.reasoning hformat hused hrt htotal hany turn hturn
    refine ⟨hreasoning, fun habsent => ?_⟩
    rw [uncountedTokens, if_pos (by simp [uncounted, hrt, habsent])] at htokens
    exact htokens

end Necessary

end Session

def splitTurn : Turn := .reported ⟨300, 100, 200, 0, 100, 0, 200, 0, 100, true⟩

def countedTurn : Turn := .counted 50 0 300 0

/-- Cached audio is in both parts of the input. -/
def cachedTurn : Turn := .reported ⟨100, 100, 0, 80, 20, 80, 0, 0, 0, true⟩

def plainTurn : Turn := .reported ⟨100, 100, 0, 0, 100, 0, 0, 0, 0, true⟩

/-- The quota that a session has consumed and the one that it is settled at. -/
def bothQuotas (exprString : Text) (node : Node) (turns : List Turn) : ℤ × ℤ :=
  let E := oneExpr exprString node
  let info : RelayInfo := ⟨some (snapshotOf exprString), 0⟩
  ((consumeAll E info (fun _ => 0) turns).consumedQuota,
    postWssConsumeQuota E info (fun _ => 0) 0 (consumeAll E info (fun _ => 0) turns))

end NewApi.Service.Tiered
