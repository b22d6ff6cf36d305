import NewApi.Pkg.SplitForm
import NewApi.Service.TieredSettle

/-!
# Usage reports in two formats (relay/channel/claude/relay-claude.go)

A Claude report counts the text of the input, an OpenAI report the whole input.
-/

namespace NewApi.Relay.Claude

open NewApi.BillingExpr NewApi.Service.Tiered

def cacheCreationTokensForOpenAIUsage (usage : Usage) : ℤ :=
  let splitCacheCreationTokens :=
    usage.claudeCacheCreation5mTokens + usage.claudeCacheCreation1hTokens
  if splitCacheCreationTokens = 0 then usage.promptTokensDetails.cachedCreationTokens
  else if splitCacheCreationTokens < usage.promptTokensDetails.cachedCreationTokens then
    usage.promptTokensDetails.cachedCreationTokens
  else splitCacheCreationTokens

def buildOpenAIStyleUsageFromClaudeUsage (usage : Usage) : Usage :=
  let split := normalizeCacheCreationSplit usage.promptTokensDetails.cachedCreationTokens
    usage.claudeCacheCreation5mTokens usage.claudeCacheCreation1hTokens
  let totalInputTokens := usage.promptTokens + usage.promptTokensDetails.cachedTokens +
    cacheCreationTokensForOpenAIUsage usage
  { usage with
    claudeCacheCreation5mTokens := split.1
    claudeCacheCreation1hTokens := split.2
    promptTokens := totalInputTokens
    inputTokens := totalInputTokens
    totalTokens := totalInputTokens + usage.completionTokens
    usageSemantic := "openai".toList
    usageSource := anthropic }

structure ClaudeFormat (u : Usage) : Prop where
  semantic : u.usageSemantic = anthropic
  input : 0 ≤ u.promptTokens
  cacheRead : 0 ≤ u.promptTokensDetails.cachedTokens
  creation : 0 ≤ u.promptTokensDetails.cachedCreationTokens
  short : 0 ≤ u.claudeCacheCreation5mTokens
  long : 0 ≤ u.claudeCacheCreation1hTokens
  output : 0 ≤ u.completionTokens
  reasoning : 0 ≤ u.completionTokenDetails.reasoningTokens
  present : u.completionTokenDetails.reasoningTokensPresent = true
  writes : u.promptTokensDetails.cacheWriteTokens = 0
  lifetimes : u.promptTokensDetails.cacheWriteTokensDetails = none
  image : u.promptTokensDetails.imageTokens = 0
  audio : u.promptTokensDetails.audioTokens = 0
  imageOutput : u.completionTokenDetails.imageTokens = 0
  audioOutput : u.completionTokenDetails.audioTokens = 0

instance (u : Usage) : Decidable (ClaudeFormat u) :=
  decidable_of_iff
    (u.usageSemantic = anthropic ∧ 0 ≤ u.promptTokens ∧ 0 ≤ u.promptTokensDetails.cachedTokens ∧
      0 ≤ u.promptTokensDetails.cachedCreationTokens ∧ 0 ≤ u.claudeCacheCreation5mTokens ∧
      0 ≤ u.claudeCacheCreation1hTokens ∧ 0 ≤ u.completionTokens ∧
      0 ≤ u.completionTokenDetails.reasoningTokens ∧
      u.completionTokenDetails.reasoningTokensPresent = true ∧
      u.promptTokensDetails.cacheWriteTokens = 0 ∧
      u.promptTokensDetails.cacheWriteTokensDetails = none ∧
      u.promptTokensDetails.imageTokens = 0 ∧ u.promptTokensDetails.audioTokens = 0 ∧
      u.completionTokenDetails.imageTokens = 0 ∧ u.completionTokenDetails.audioTokens = 0)
    ⟨fun ⟨a, b, c, d, e, f, g, h, i, j, k, l, m, n, o⟩ => ⟨a, b, c, d, e, f, g, h, i, j, k, l, m, n, o⟩,
      fun ⟨a, b, c, d, e, f, g, h, i, j, k, l, m, n, o⟩ => ⟨a, b, c, d, e, f, g, h, i, j, k, l, m, n, o⟩⟩

def unpriced (vars : List Text) (l : Lane) (n : ℤ) : ℤ := if l.name ∈ vars then 0 else n

def omittedTokens (vars : List Text) (u : Usage) : ℤ :=
  unpriced vars .cr u.promptTokensDetails.cachedTokens + unpriced vars .cc (cacheCreation u).cc5m +
    unpriced vars .cc1h (cacheCreation u).cc1h

variable {u : Usage} {vars : List Text}

theorem sub_priced (vars : List Text) (l : Lane) (n : ℤ) :
    (n : ℚ) - priced vars l n = unpriced vars l n := by
  unfold priced unpriced
  split
  · rw [sub_self, Int.cast_zero]
  · exact sub_zero _

theorem unpriced_nonneg (vars : List Text) (l : Lane) {n : ℤ} (hn : 0 ≤ n) :
    0 ≤ unpriced vars l n := by
  unfold unpriced
  split
  · exact le_rfl
  · exact hn

theorem omittedTokens_congr {vars' : List Text} (h : ∀ x, x ∈ vars' ↔ x ∈ vars) (u : Usage) :
    omittedTokens vars' u = omittedTokens vars u := by
  simp [omittedTokens, unpriced, h]

namespace ClaudeFormat

section

variable (h : ClaudeFormat u)
include h

theorem cacheCreation_eq : cacheCreation u =
    ⟨u.claudeCacheCreation5mTokens + max (u.promptTokensDetails.cachedCreationTokens -
      u.claudeCacheCreation5mTokens - u.claudeCacheCreation1hTokens) 0,
      u.claudeCacheCreation1hTokens, 0, 0⟩ := by
  have hshort := h.short
  have hlong := h.long
  have hcreation := h.creation
  unfold cacheCreation
  simp only [h.semantic, h.writes, h.lifetimes, true_or, and_true, lt_self_iff_false,
    Option.isSome_none, Bool.false_eq_true, or_self, if_false]
  by_cases hsplit : 0 < u.claudeCacheCreation5mTokens ∨ 0 < u.claudeCacheCreation1hTokens
  · simp [if_pos hsplit, normalizeCacheCreationSplit]
  · -- without a split both counters are 0 and the total is the 5 minute count
    have hzero : u.claudeCacheCreation5mTokens = 0 ∧ u.claudeCacheCreation1hTokens = 0 := by omega
    simp only [if_neg hsplit]
    rw [hzero.1, hzero.2, sub_zero, sub_zero, max_eq_left hcreation, zero_add]

theorem cacheCreation_converted :
    cacheCreation (buildOpenAIStyleUsageFromClaudeUsage u) = cacheCreation u := by
  have hshort := h.short
  have hlong := h.long
  have hcreation := h.creation
  rw [h.cacheCreation_eq]
  unfold cacheCreation buildOpenAIStyleUsageFromClaudeUsage
  simp only [h.writes, h.lifetimes, normalizeCacheCreationSplit, true_or, or_true, and_true,
    lt_self_iff_false, Option.isSome_none, Bool.false_eq_true, or_self, if_false]
  generalize hr : max (u.promptTokensDetails.cachedCreationTokens -
    u.claudeCacheCreation5mTokens - u.claudeCacheCreation1hTokens) 0 = remainder
  have hremainder : 0 ≤ remainder ∧ u.promptTokensDetails.cachedCreationTokens -
      u.claudeCacheCreation5mTokens - u.claudeCacheCreation1hTokens ≤ remainder := by omega
  by_cases hsplit : 0 < u.claudeCacheCreation5mTokens + remainder ∨
      0 < u.claudeCacheCreation1hTokens
  · -- the repaired split has no remainder left
    have hrest : u.promptTokensDetails.cachedCreationTokens -
        (u.claudeCacheCreation5mTokens + remainder) - u.claudeCacheCreation1hTokens ≤ 0 := by omega
    simp [if_pos hsplit, max_eq_right hrest]
  · have htotal : u.promptTokensDetails.cachedCreationTokens =
        u.claudeCacheCreation5mTokens + remainder := by omega
    have hlong' : u.claudeCacheCreation1hTokens = 0 := by omega
    simp only [if_neg hsplit]
    rw [htotal, hlong']

theorem creation_nonneg : 0 ≤ (cacheCreation u).cc5m ∧ 0 ≤ (cacheCreation u).cc1h := by
  have hshort := h.short
  have hlong := h.long
  rw [h.cacheCreation_eq]
  dsimp only
  omega

theorem creationTokens_eq : cacheCreationTokensForOpenAIUsage u =
    (cacheCreation u).cc5m + (cacheCreation u).cc1h := by
  have hshort := h.short
  have hlong := h.long
  have hcreation := h.creation
  rw [h.cacheCreation_eq]
  unfold cacheCreationTokensForOpenAIUsage
  dsimp only
  split
  · omega
  · split <;> omega

theorem omittedTokens_nonneg (vars : List Text) : 0 ≤ omittedTokens vars u := by
  have hread := unpriced_nonneg vars .cr h.cacheRead
  have hshort := unpriced_nonneg vars .cc h.creation_nonneg.1
  have hlong := unpriced_nonneg vars .cc1h h.creation_nonneg.2
  unfold omittedTokens
  omega

theorem claude_p (vars : List Text) : (buildTieredTokenParams u true vars).p = u.promptTokens := by
  have hinput : (0 : ℚ) ≤ u.promptTokens := Int.cast_nonneg h.input
  simp only [buildTieredTokenParams, if_true]
  exact max_eq_left hinput

theorem openAI_p (vars : List Text) :
    (buildTieredTokenParams (buildOpenAIStyleUsageFromClaudeUsage u) false vars).p =
      ((u.promptTokens + omittedTokens vars u : ℤ) : ℚ) := by
  have hzero : ∀ l : Lane, priced vars l 0 = 0 := fun l => ite_self 0
  have hread := sub_priced vars .cr u.promptTokensDetails.cachedTokens
  have hshort := sub_priced vars .cc (cacheCreation u).cc5m
  have hlong := sub_priced vars .cc1h (cacheCreation u).cc1h
  have hnonneg : (0 : ℚ) ≤ ((u.promptTokens + omittedTokens vars u : ℤ) : ℚ) :=
    Int.cast_nonneg (add_nonneg h.input (h.omittedTokens_nonneg vars))
  have hlifetime : (cacheCreation u).cc12h = 0 := by rw [h.cacheCreation_eq]
  unfold buildTieredTokenParams
  rw [h.cacheCreation_converted]
  simp only [buildOpenAIStyleUsageFromClaudeUsage, Bool.false_eq_true, hlifetime, h.image, h.audio,
    Int.cast_zero, hzero, h.creationTokens_eq]
  rw [← max_eq_left hnonneg]
  congr 1
  unfold omittedTokens
  push_cast
  linarith

theorem params_eq (vars : List Text) :
    buildTieredTokenParams (buildOpenAIStyleUsageFromClaudeUsage u) false vars =
      { buildTieredTokenParams u true vars with
        p := ((u.promptTokens + omittedTokens vars u : ℤ) : ℚ) } := by
  have hzero : ∀ l : Lane, priced vars l 0 = 0 := fun l => ite_self 0
  rw [← h.openAI_p vars]
  unfold buildTieredTokenParams
  rw [h.cacheCreation_converted]
  simp only [buildOpenAIStyleUsageFromClaudeUsage, Bool.false_eq_true, if_false, if_true,
    h.imageOutput, h.audioOutput, Int.cast_zero, hzero, sub_zero, TokenParams.mk.injEq, and_true,
    true_and]
  have hlifetime : (cacheCreation u).cc12h = 0 := by rw [h.cacheCreation_eq]
  rw [h.creationTokens_eq, hlifetime]
  push_cast
  ring

theorem claude_known (vars : List Text) :
    (buildTieredTokenParams u true vars).cacheCreationTokensFallback = false ∧
      (buildTieredTokenParams u true vars).reasoningTokensFallback = false := by
  have hunknown : (cacheCreation u).unknown = 0 := by rw [h.cacheCreation_eq]
  have hzero : priced vars .cc12h 0 = 0 := ite_self 0
  simp [buildTieredTokenParams, hunknown, hzero, h.present]

end

end ClaudeFormat

def settledUsage (E : Engine) (info : RelayInfo) (snap : BillingSnapshot) (usage : Usage)
    (isClaudeUsageSemantic : Bool) : ℤ :=
  (tryTieredSettle E info
    (buildTieredTokenParams usage isClaudeUsageSemantic (usedVars E snap.exprString))).2.1

def UpstreamAgnostic (u : Usage) (vars : List Text) : Prop :=
  ∀ (E : Engine) (info : RelayInfo) (snap : BillingSnapshot),
    info.tieredBillingSnapshot = some snap → snap.billingMode = tieredExpr →
    (∀ x, x ∈ usedVars E snap.exprString ↔ x ∈ vars) →
    runExpr E snap.exprString
      (buildTieredTokenParams u true (usedVars E snap.exprString)) ≠ none →
    runExpr E snap.exprString (buildTieredTokenParams (buildOpenAIStyleUsageFromClaudeUsage u) false
      (usedVars E snap.exprString)) ≠ none →
    settledUsage E info snap u true =
      settledUsage E info snap (buildOpenAIStyleUsageFromClaudeUsage u) false

theorem ClaudeFormat.openAI_known (h : ClaudeFormat u) (vars : List Text) :
    (buildTieredTokenParams (buildOpenAIStyleUsageFromClaudeUsage u) false
        vars).cacheCreationTokensFallback = false ∧
      (buildTieredTokenParams (buildOpenAIStyleUsageFromClaudeUsage u) false
        vars).reasoningTokensFallback = false := by
  rw [h.params_eq]
  exact h.claude_known vars

theorem ClaudeFormat.settled_eq (h : ClaudeFormat u) {E : Engine} {info : RelayInfo}
    {snap : BillingSnapshot} (hsnap : info.tieredBillingSnapshot = some snap)
    (hmode : snap.billingMode = tieredExpr)
    (hrun : runExpr E snap.exprString
      (buildTieredTokenParams u true (usedVars E snap.exprString)) ≠ none)
    (hsame : runExpr E snap.exprString (buildTieredTokenParams
        (buildOpenAIStyleUsageFromClaudeUsage u) false (usedVars E snap.exprString)) =
      runExpr E snap.exprString (buildTieredTokenParams u true (usedVars E snap.exprString))) :
    settledUsage E info snap u true =
      settledUsage E info snap (buildOpenAIStyleUsageFromClaudeUsage u) false := by
  obtain ⟨cost, hcost⟩ := Option.ne_none_iff_exists'.mp hrun
  have hclaude := h.claude_known (usedVars E snap.exprString)
  have hopenAI := h.openAI_known (usedVars E snap.exprString)
  unfold settledUsage
  rw [tryTieredSettle_of_run hsnap hmode hclaude.1 hclaude.2 hcost,
    tryTieredSettle_of_run hsnap hmode hopenAI.1 hopenAI.2 (hsame.trans hcost)]

theorem ClaudeFormat.agnostic_of_unused (h : ClaudeFormat u) (hp : Lane.p.name ∉ vars)
    (henv : envName ∉ vars) : UpstreamAgnostic u vars := by
  intro E info snap hsnap hmode hvars hrun _
  apply h.settled_eq hsnap hmode hrun
  rw [h.params_eq]
  refine runExpr_congr (lookup_of_get ?_ fun l hl => ?_)
  · exact fun hmem => henv ((hvars _).mp hmem)
  · cases l with
    | p => exact absurd ((hvars _).mp hl) hp
    | _ => rfl

theorem ClaudeFormat.agnostic_of_omitted (h : ClaudeFormat u) (homitted : omittedTokens vars u = 0) :
    UpstreamAgnostic u vars := by
  intro E info snap hsnap hmode hvars hrun _
  apply h.settled_eq hsnap hmode hrun
  have hp := h.claude_p (usedVars E snap.exprString)
  rw [h.params_eq, omittedTokens_congr hvars, homitted, add_zero, ← hp]

def probe (reader : Node) (vars : List Text) : Node :=
  .cond (.const (.bool true)) reader (.other [] (vars.map .ident))

/-- `get($env, "p")`. -/
def hiddenInput : Node := .builtin "get".toList [.ident envName, .const (.str Lane.p.name)]

theorem usedVarsAll_idents (vars : List Text) : usedVarsAll (vars.map .ident) = vars := by
  induction vars with
  | nil => rfl
  | cons x xs ih =>
    simp [usedVarsAll, ih, Node.usedVars]

theorem mem_probe_usedVars {reader : Node} (hreader : ∀ x ∈ reader.usedVars, x ∈ vars) (x : Text) :
    x ∈ (probe reader vars).usedVars ↔ x ∈ vars := by
  simp only [probe, Node.usedVars, usedVarsAll_idents, List.nil_append, List.mem_append]
  exact ⟨fun hx => hx.elim (hreader x) id, Or.inr⟩

def probeEngine (reader : Node) (vars : List Text) : Engine :=
  coreEngine fun _ => some (probe reader vars)

theorem runExpr_probe {reader : Node} {t : TokenParams} {exprString : Text}
    (hreader : eval (probeEngine reader vars) t reader = some (.num t.p)) :
    runExpr (probeEngine reader vars) exprString t = some t.p := by
  have hprobe : eval (probeEngine reader vars) t (probe reader vars) = some (.num t.p) := by
    simp [probe, eval, hreader]
  simp only [runExpr, probeEngine, coreEngine] at hprobe ⊢
  rw [hprobe]

theorem ClaudeFormat.not_agnostic (h : ClaudeFormat u) (reader : Node)
    (hvars : ∀ x ∈ reader.usedVars, x ∈ vars)
    (hreader : ∀ t, eval (probeEngine reader vars) t reader = some (.num t.p))
    (homitted : omittedTokens vars u ≠ 0) : ¬ UpstreamAgnostic u vars := by
  intro hagnostic
  have hmem : ∀ x, x ∈ usedVars (probeEngine reader vars) unitSnapshot.exprString ↔ x ∈ vars :=
    mem_probe_usedVars hvars
  have hrun : ∀ t, runExpr (probeEngine reader vars) unitSnapshot.exprString t = some t.p :=
    fun t => runExpr_probe (hreader t)
  have hsettled : ∀ {t : TokenParams} {n : ℤ}, t.cacheCreationTokensFallback = false ∧
      t.reasoningTokensFallback = false → t.p = (n : ℚ) →
      (tryTieredSettle (probeEngine reader vars) ⟨some unitSnapshot, 0⟩ t).2.1 = n := by
    intro t n hknown hp
    rw [tryTieredSettle_of_run rfl rfl hknown.1 hknown.2 (hrun t), hp]
    exact quotaOf_unitSnapshot n
  have hsame := hagnostic (probeEngine reader vars) ⟨some unitSnapshot, 0⟩ unitSnapshot rfl rfl hmem
    (by rw [hrun]; exact Option.some_ne_none _) (by rw [hrun]; exact Option.some_ne_none _)
  unfold settledUsage at hsame
  rw [hsettled (h.claude_known _) (h.claude_p _), hsettled (h.openAI_known _) (h.openAI_p _),
    omittedTokens_congr hmem] at hsame
  omega

/-- The formats cost the same exactly if the expression cannot see `p` or references every cache
variable with tokens. The omitted tokens are in `p` of the converted report only. -/
theorem upstream_agnostic_iff (u : Usage) (vars : List Text) (h : ClaudeFormat u) :
    (UpstreamAgnostic u vars ↔
      (Lane.p.name ∉ vars ∧ envName ∉ vars) ∨ omittedTokens vars u = 0) ∧
    (buildTieredTokenParams (buildOpenAIStyleUsageFromClaudeUsage u) false vars).p =
      ((u.promptTokens + omittedTokens vars u : ℤ) : ℚ) ∧
    (buildTieredTokenParams u true vars).p = u.promptTokens := by
  refine ⟨⟨fun hagnostic => ?_, ?_⟩, h.openAI_p vars, h.claude_p vars⟩
  · by_contra hcond
    obtain ⟨hseen, homitted⟩ := not_or.mp hcond
    by_cases hp : Lane.p.name ∈ vars
    · refine h.not_agnostic (lane .p) ?_ (fun t => ?_) homitted hagnostic
      · intro x hx
        rw [List.mem_singleton.mp hx]
        exact hp
      · exact lookup_name t .p
    · have henv : envName ∈ vars := by
        by_contra henv
        exact hseen ⟨hp, henv⟩
      refine h.not_agnostic hiddenInput ?_ (fun t => ?_) homitted hagnostic
      · intro x hx
        rw [List.mem_singleton.mp hx]
        exact henv
      · exact lookup_name t .p
  · rintro (⟨hp, henv⟩ | homitted)
    · exact h.agnostic_of_unused hp henv
    · exact h.agnostic_of_omitted homitted

def cachedReport : Usage where
  promptTokens := 1000
  completionTokens := 100
  totalTokens := 1100
  usageSemantic := anthropic
  usageSource := []
  promptTokensDetails := ⟨0, none, 200, 30, 0, 0⟩
  completionTokenDetails := ⟨0, 0, 40, true⟩
  inputTokens := 1000
  claudeCacheCreation5mTokens := 0
  claudeCacheCreation1hTokens := 20

theorem upstream_agnostic_all_lanes :
    ClaudeFormat cachedReport ∧
    UpstreamAgnostic cachedReport
      [Lane.p.name, Lane.c.name, Lane.cr.name, Lane.cc.name, Lane.cc1h.name, Lane.len.name] :=
  ⟨by decide, (upstream_agnostic_iff cachedReport _ (by decide)).1.mpr (Or.inr (by decide))⟩

def flatText : Text := "p * 3 + c * 15".toList

def flatPrice : Node := .binary .add (price .p 3) (price .c 15)

/-- The cache tokens of a Claude report are free under `p * 3 + c * 15`. -/
theorem upstream_formats_differ :
    ClaudeFormat cachedReport ∧
    settledUsage (oneExpr flatText flatPrice) ⟨some (snapshotOf flatText), 0⟩
      (snapshotOf flatText) cachedReport true = 4500 ∧
    settledUsage (oneExpr flatText flatPrice) ⟨some (snapshotOf flatText), 0⟩
      (snapshotOf flatText) (buildOpenAIStyleUsageFromClaudeUsage cachedReport) false =
        5190 := by
  refine ⟨by decide, ?_, ?_⟩
  all_goals decide +kernel

end NewApi.Relay.Claude
