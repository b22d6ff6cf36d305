import Mathlib.Data.Int.Cast.Basic
import Mathlib.Tactic.Ring
import NewApi.Pkg.SplitForm

/-!
# Tiered settlement (service/tiered_settle.go)

The token counts of a usage report as an expression sees them, and the quota of a request from the
frozen snapshot.
-/

namespace NewApi.Service.Tiered

open NewApi.BillingExpr

structure CacheWriteTokenDetails where
  ttl30mTokens : ℤ
  ttl12hTokens : ℤ
  deriving DecidableEq, Repr

structure InputTokenDetails where
  cacheWriteTokens : ℤ
  cacheWriteTokensDetails : Option CacheWriteTokenDetails
  cachedTokens : ℤ
  cachedCreationTokens : ℤ
  audioTokens : ℤ
  imageTokens : ℤ
  deriving DecidableEq, Repr

structure OutputTokenDetails where
  audioTokens : ℤ
  imageTokens : ℤ
  reasoningTokens : ℤ
  reasoningTokensPresent : Bool
  deriving DecidableEq, Repr

structure Usage where
  promptTokens : ℤ
  completionTokens : ℤ
  totalTokens : ℤ
  usageSemantic : Text
  usageSource : Text
  promptTokensDetails : InputTokenDetails
  completionTokenDetails : OutputTokenDetails
  inputTokens : ℤ
  claudeCacheCreation5mTokens : ℤ
  claudeCacheCreation1hTokens : ℤ
  deriving DecidableEq, Repr

def normalizeCacheCreationSplit (totalTokens tokens5m tokens1h : ℤ) : ℤ × ℤ :=
  (tokens5m + max (totalTokens - tokens5m - tokens1h) 0, tokens1h)

/-- `cacheWriteTokenCounts`: short, long and unknown lifetimes. -/
def cacheWriteTokenCounts (details : InputTokenDetails) : ℤ × ℤ × ℤ :=
  let short := match details.cacheWriteTokensDetails with
    | some d => max d.ttl30mTokens 0
    | none => 0
  let long := match details.cacheWriteTokensDetails with
    | some d => max d.ttl12hTokens 0
    | none => 0
  (short, long, max (details.cacheWriteTokens - short - long) 0)

structure CacheCreation where
  cc5m : ℤ
  cc1h : ℤ
  cc12h : ℤ
  unknown : ℤ

def anthropic : Text := "anthropic".toList

def cacheCreation (usage : Usage) : CacheCreation :=
  let details := usage.promptTokensDetails
  let split :=
    if (0 < usage.claudeCacheCreation5mTokens ∨ 0 < usage.claudeCacheCreation1hTokens) ∧
        (usage.usageSemantic = anthropic ∨ usage.usageSource = anthropic ∨
          usage.usageSource = "openai-compatible".toList) then
      normalizeCacheCreationSplit details.cachedCreationTokens usage.claudeCacheCreation5mTokens
        usage.claudeCacheCreation1hTokens
    else (details.cachedCreationTokens, 0)
  if 0 < details.cacheWriteTokens ∨ details.cacheWriteTokensDetails.isSome then
    let counts := cacheWriteTokenCounts details
    ⟨counts.1 + counts.2.2, split.2, counts.2.1, counts.2.2⟩
  else ⟨split.1, split.2, 0, 0⟩

def priced (usedVars : List Text) (l : Lane) (n : ℚ) : ℚ := if l.name ∈ usedVars then n else 0

def buildTieredTokenParams (usage : Usage) (isClaudeUsageSemantic : Bool) (usedVars : List Text) :
    TokenParams :=
  let creation := cacheCreation usage
  let cr : ℚ := usage.promptTokensDetails.cachedTokens
  let cc5m : ℚ := creation.cc5m
  let cc1h : ℚ := creation.cc1h
  let cc12h : ℚ := creation.cc12h
  let img : ℚ := usage.promptTokensDetails.imageTokens
  let ai : ℚ := usage.promptTokensDetails.audioTokens
  let imgO : ℚ := usage.completionTokenDetails.imageTokens
  let ao : ℚ := usage.completionTokenDetails.audioTokens
  let rt : ℚ := usage.completionTokenDetails.reasoningTokens
  let unknownCacheWrites : ℚ := priced usedVars .cc12h creation.unknown
  let inputLen : ℚ :=
    if isClaudeUsageSemantic then usage.promptTokens + cr + cc5m + cc1h + cc12h
    else usage.promptTokens
  let p : ℚ :=
    if isClaudeUsageSemantic then usage.promptTokens
    else usage.promptTokens - priced usedVars .cr cr - priced usedVars .cc cc5m -
      priced usedVars .cc1h cc1h - priced usedVars .cc12h cc12h - priced usedVars .img img -
      priced usedVars .ai ai
  let c : ℚ :=
    if isClaudeUsageSemantic then usage.completionTokens
    else usage.completionTokens - priced usedVars .imgO imgO - priced usedVars .ao ao
  let present := usage.completionTokenDetails.reasoningTokensPresent
  let fallback := decide (Lane.rt.name ∈ usedVars) && !present
  { p := max p 0
    -- without the reasoning counter all output is kept as reasoning of unknown split
    c := max (if fallback then 0 else c - priced usedVars .rt rt) 0
    len := inputLen
    cr := cr
    cc := cc5m
    cc1h := cc1h
    cc12h := cc12h
    cacheCreationTokensUnknown := unknownCacheWrites
    cacheCreationTokensFallback := decide (0 < unknownCacheWrites)
    img := img
    imgO := imgO
    ai := ai
    ao := ao
    rt := if fallback then c else rt
    reasoningTokensUnknown := if fallback then c else 0
    reasoningTokensFallback := fallback }

structure RelayInfo where
  tieredBillingSnapshot : Option BillingSnapshot
  finalPreConsumedQuota : ℤ

def tieredExpr : Text := "tiered_expr".toList

variable (E : Engine)

/-- The output tokens whose split is unknown; without a count of their own all of `rt`. -/
def reasoningUnknown (t : TokenParams) : ℚ :=
  if t.reasoningTokensUnknown ≤ 0 then t.rt else t.reasoningTokensUnknown

/-- `TryTieredSettle` after the cache writes are allocated. -/
def settleAllocated (info : RelayInfo) (snap : BillingSnapshot) (t : TokenParams) :
    ℤ × Option TieredResult :=
  match computeTieredQuotaWithRequest E snap t with
  | none =>
    (if info.finalPreConsumedQuota ≤ 0 then snap.estimatedQuotaAfterGroup
      else info.finalPreConsumedQuota, none)
  | some tr =>
    if t.reasoningTokensFallback then
      let unknown := reasoningUnknown t
      let known := { t with
        rt := t.rt - unknown
        reasoningTokensUnknown := 0
        reasoningTokensFallback := false }
      let reasoning := computeTieredQuotaWithRequest E snap { known with rt := known.rt + unknown }
      let completion := computeTieredQuotaWithRequest E snap { known with c := known.c + unknown }
      match reasoning, completion with
      | some reasoning, some completion =>
        let tr :=
          if reasoning.actualQuotaAfterGroup < completion.actualQuotaAfterGroup then completion
          else reasoning
        (tr.actualQuotaAfterGroup, some tr)
      | _, _ =>
        (max (max tr.actualQuotaAfterGroup snap.estimatedQuotaAfterGroup)
          info.finalPreConsumedQuota, none)
    else (tr.actualQuotaAfterGroup, some tr)

def knownWrites (usedVars : List Text) (t : TokenParams) : TokenParams :=
  let known := { t with
    cc := t.cc - t.cacheCreationTokensUnknown
    cacheCreationTokensUnknown := 0
    cacheCreationTokensFallback := false }
  if Lane.cc.name ∈ usedVars then known
  else { known with p := max (known.p - t.cacheCreationTokensUnknown) 0 }

def shortWrites (usedVars : List Text) (t : TokenParams) : TokenParams :=
  let known := knownWrites usedVars t
  if Lane.cc.name ∈ usedVars then { known with cc := known.cc + t.cacheCreationTokensUnknown }
  else { known with p := known.p + t.cacheCreationTokensUnknown }

def longWrites (usedVars : List Text) (t : TokenParams) : TokenParams :=
  let known := knownWrites usedVars t
  { known with cc12h := known.cc12h + t.cacheCreationTokensUnknown }

def settleWith (info : RelayInfo) (snap : BillingSnapshot) (t : TokenParams) :
    ℤ × Option TieredResult :=
  if t.cacheCreationTokensFallback then
    let vars := usedVars E snap.exprString
    let short := settleAllocated E info snap (shortWrites vars t)
    let long := settleAllocated E info snap (longWrites vars t)
    if short.1 < long.1 then long else short
  else settleAllocated E info snap t

def tryTieredSettle (info : RelayInfo) (t : TokenParams) : Bool × ℤ × Option TieredResult :=
  match info.tieredBillingSnapshot with
  | none => (false, 0, none)
  | some snap =>
    if snap.billingMode ≠ tieredExpr then (false, 0, none)
    else (true, settleWith E info snap t)

def quotaOf (snap : BillingSnapshot) (cost : ℚ) : ℤ :=
  quotaRound (quotaConversion cost snap * snap.groupRatio)

variable {E} {info : RelayInfo} {snap : BillingSnapshot} {t : TokenParams}

theorem compute_of_run {cost : ℚ} (h : runExpr E snap.exprString t = some cost) :
    computeTieredQuotaWithRequest E snap t = some ⟨quotaConversion cost snap, quotaOf snap cost⟩ := by
  simp [computeTieredQuotaWithRequest, h, quotaOf]

theorem compute_of_lanes {s : TokenParams} (h : ∀ l : Lane, s.get l = t.get l) :
    computeTieredQuotaWithRequest E snap s = computeTieredQuotaWithRequest E snap t := by
  simp [computeTieredQuotaWithRequest, runExpr_of_lanes h]

theorem compute_congr {s : TokenParams} (henv : envName ∉ usedVars E snap.exprString)
    (h : ∀ l : Lane, l.name ∈ usedVars E snap.exprString → s.get l = t.get l) :
    computeTieredQuotaWithRequest E snap s = computeTieredQuotaWithRequest E snap t := by
  simp [computeTieredQuotaWithRequest, runExpr_congr (lookup_of_get henv h)]

def unknownOutput (t : TokenParams) : ℚ := if t.reasoningTokensFallback then reasoningUnknown t else 0

def shiftOutput (s : TokenParams) (x : ℚ) : TokenParams := { s with c := s.c + x, rt := s.rt - x }

/-- The settlement from the results at both ends of the unknown split. -/
def settleEnds (info : RelayInfo) (snap : BillingSnapshot) :
    Option TieredResult → Option TieredResult → ℤ × Option TieredResult
  | none, _ =>
    (if info.finalPreConsumedQuota ≤ 0 then snap.estimatedQuotaAfterGroup
      else info.finalPreConsumedQuota, none)
  | some tr, none =>
    (max (max tr.actualQuotaAfterGroup snap.estimatedQuotaAfterGroup) info.finalPreConsumedQuota,
      none)
  | some reasoning, some completion =>
    let tr :=
      if reasoning.actualQuotaAfterGroup < completion.actualQuotaAfterGroup then completion
      else reasoning
    (tr.actualQuotaAfterGroup, some tr)

theorem settleAllocated_eq (t : TokenParams) :
    settleAllocated E info snap t =
      settleEnds info snap (computeTieredQuotaWithRequest E snap t)
        (computeTieredQuotaWithRequest E snap (shiftOutput t (unknownOutput t))) := by
  unfold settleAllocated
  rcases hcompute : computeTieredQuotaWithRequest E snap t with _ | tr
  · rfl
  dsimp only
  split
  · next hfallback =>
    have hreasoning : computeTieredQuotaWithRequest E snap { t with
        rt := t.rt - reasoningUnknown t + reasoningUnknown t
        reasoningTokensUnknown := 0
        reasoningTokensFallback := false } = some tr := by
      rw [← hcompute]
      refine compute_of_lanes fun l => ?_
      cases l with
      | rt => exact sub_add_cancel _ _
      | _ => rfl
    have hcompletion : computeTieredQuotaWithRequest E snap { t with
        c := t.c + reasoningUnknown t
        rt := t.rt - reasoningUnknown t
        reasoningTokensUnknown := 0
        reasoningTokensFallback := false } =
        computeTieredQuotaWithRequest E snap (shiftOutput t (unknownOutput t)) := by
      rw [unknownOutput, if_pos hfallback]
      refine compute_of_lanes fun l => ?_
      cases l <;> rfl
    rw [hreasoning, hcompletion]
    rcases computeTieredQuotaWithRequest E snap (shiftOutput t (unknownOutput t)) with _ | completion
    · rfl
    · rfl
  · next hfallback =>
    have hsame : computeTieredQuotaWithRequest E snap (shiftOutput t (unknownOutput t)) = some tr := by
      rw [unknownOutput, if_neg hfallback, ← hcompute]
      refine compute_of_lanes fun l => ?_
      cases l with
      | c => exact add_zero _
      | rt => exact sub_zero _
      | _ => rfl
    rw [hsame]
    simp [settleEnds]

theorem tryTieredSettle_of_run (hsnap : info.tieredBillingSnapshot = some snap)
    (hmode : snap.billingMode = tieredExpr) (hcache : t.cacheCreationTokensFallback = false)
    (hreasoning : t.reasoningTokensFallback = false) {cost : ℚ}
    (hrun : runExpr E snap.exprString t = some cost) :
    (tryTieredSettle E info t).2.1 = quotaOf snap cost := by
  simp [tryTieredSettle, hsnap, hmode, settleWith, hcache, settleAllocated, compute_of_run hrun,
    hreasoning]

def lane (l : Lane) : Node := .ident l.name

def price (l : Lane) (n : ℤ) : Node := .binary .mul (lane l) (.int n)

def unitSnapshot : BillingSnapshot := ⟨tieredExpr, [], 1, 0, 1000000⟩

def snapshotOf (exprString : Text) : BillingSnapshot :=
  { unitSnapshot with exprString := exprString }

/-- A parser that knows one text. -/
def oneExpr (exprString : Text) (node : Node) : Engine :=
  coreEngine fun text => if text = exprString then some node else none

theorem quotaOf_unitSnapshot (n : ℤ) : quotaOf unitSnapshot n = n := by
  have hcost : quotaConversion n unitSnapshot * unitSnapshot.groupRatio = (n : ℚ) := by
    simp only [quotaConversion, unitSnapshot]
    ring
  rw [quotaOf, hcost]
  exact roundHalfAway_intCast n

end NewApi.Service.Tiered
