import Mathlib.Tactic.LinearCombination
import NewApi.Service.TieredSettle

/-!
# Imported step pricing (controller/pricing_sync_task.go)

The generator of a billing expression from the step ratios of an upstream item.
-/

namespace NewApi.Controller.PricingSteps

open NewApi.BillingExpr NewApi.Service.Tiered

structure UpstreamPricingStep where
  stepSize : ℤ
  completionStepSize : ℤ
  promptStepRatio : ℚ
  completionStepRatio : ℚ
  cacheStepRatio : ℚ
  promptThinkingStepRatio : ℚ
  completionThinkingStepRatio : ℚ
  deriving DecidableEq, Repr

structure UpstreamPricingItem where
  quotaType : ℤ
  modelRatio : ℚ
  completionRatio : ℚ
  cacheRatio : Option ℚ
  createCacheRatio : Option ℚ
  cacheCreationRatio : Option ℚ
  cacheCreation5mRatio : Option ℚ
  cacheCreation1hRatio : Option ℚ
  cacheCreation12hRatio : Option ℚ
  imageRatio : Option ℚ
  audioRatio : Option ℚ
  audioCompletionRatio : Option ℚ
  stepRatios : List UpstreamPricingStep
  deriving DecidableEq, Repr

def nonNegativeFinite (value : ℚ) : Bool := decide (0 ≤ value)

def validOptionalPricingRatios (item : UpstreamPricingItem) : Bool :=
  [item.cacheRatio, item.createCacheRatio, item.cacheCreationRatio, item.cacheCreation5mRatio,
    item.cacheCreation1hRatio, item.cacheCreation12hRatio, item.imageRatio, item.audioRatio,
    item.audioCompletionRatio].all fun value => value.all nonNegativeFinite

def hasExplicitCacheCreationRatios (item : UpstreamPricingItem) : Bool :=
  item.cacheCreation5mRatio.isSome || item.cacheCreation1hRatio.isSome ||
    item.cacheCreation12hRatio.isSome

def upstreamCacheCreation1hMultiplier : ℚ := 6 / (15 / 4)

/-! ### Prices of a step -/

/-- The prices that `upstreamTokenCostExpr` computes. A lane without a price is not named. -/
structure StepPrices where
  input : ℚ
  output : ℚ
  cache : ℚ
  cacheCreation : ℚ
  cacheCreation1h : ℚ
  cacheCreation12h : Option ℚ
  image : Option ℚ
  audioInput : ℚ
  audioOutput : ℚ
  reasoning : Option ℚ
  deriving DecidableEq, Repr

def createCacheRatioOf (item : UpstreamPricingItem) : ℚ :=
  item.cacheCreation5mRatio.getD
    (item.cacheCreationRatio.getD (item.createCacheRatio.getD (5 / 4)))

def stepPrices (item : UpstreamPricingItem) (step : UpstreamPricingStep) : StepPrices :=
  let cacheRatio := item.cacheRatio.getD 1
  let audioRatio := item.audioRatio.getD 1
  let audioCompletionRatio := item.audioCompletionRatio.getD 1
  let cacheCreationPrice := item.modelRatio * createCacheRatioOf item * 2 * step.cacheStepRatio
  { input := item.modelRatio * 2 * step.promptStepRatio
    output := item.modelRatio * item.completionRatio * 2 * step.completionStepRatio
    cache := item.modelRatio * cacheRatio * 2 * step.cacheStepRatio
    cacheCreation := cacheCreationPrice
    cacheCreation1h := match item.cacheCreation1hRatio with
      | some ratio => item.modelRatio * ratio * 2 * step.cacheStepRatio
      | none => cacheCreationPrice * upstreamCacheCreation1hMultiplier
    cacheCreation12h := item.cacheCreation12hRatio.map fun ratio =>
      item.modelRatio * ratio * 2 * step.cacheStepRatio
    image := item.imageRatio.map fun ratio => item.modelRatio * ratio * 2 * step.promptStepRatio
    audioInput := item.modelRatio * audioRatio * 2 * step.promptStepRatio
    audioOutput :=
      item.modelRatio * audioRatio * audioCompletionRatio * 2 * step.completionStepRatio
    reasoning :=
      if step.completionThinkingStepRatio ≠ 0 then
        some (item.modelRatio * item.completionRatio * 2 * step.completionThinkingStepRatio)
      else none }

/-! ### The generated expression -/

/-- `FormatFloat` prints a whole price without a point, and it is parsed as an integer. -/
def number (q : ℚ) : Node := if q.den = 1 then .int q.num else .float q

def term (l : Lane) (q : ℚ) : Node := .binary .mul (lane l) (number q)

def plus (cost : Node) (l : Lane) (q : ℚ) : Node := .binary .add cost (term l q)

def plusOptional (cost : Node) (l : Lane) (q : Option ℚ) : Node := q.elim cost (plus cost l)

def upstreamTokenCostExpr (item : UpstreamPricingItem) (step : UpstreamPricingStep) : Node :=
  let prices := stepPrices item step
  let cost := Node.binary .add (term .p prices.input) (term .c prices.output)
  let cost := plus cost .cr prices.cache
  let cost := plus cost .cc prices.cacheCreation
  let cost := plus cost .cc1h prices.cacheCreation1h
  let cost := plusOptional cost .cc12h prices.cacheCreation12h
  let cost := plusOptional cost .img prices.image
  let cost := plus cost .ai prices.audioInput
  let cost := plus cost .ao prices.audioOutput
  plusOptional cost .rt prices.reasoning

/-- `tier("name", cost)`. -/
def tierCall (name : Text) (cost : Node) : Node := .call (.ident tierName) [.const (.str name), cost]

def stepName (index : ℕ) : Text := "step_".toList ++ Nat.toDigits 10 (index + 1)

/-- `len <= size`, and `c + ao + rt <= completionSize` if the step bounds the completion. -/
def stepCondition (step : UpstreamPricingStep) : Node :=
  let condition := Node.binary .le (lane .len) (.int step.stepSize)
  if 0 < step.completionStepSize then
    .binary .and condition
      (.binary .le (.binary .add (.binary .add (lane .c) (lane .ao)) (lane .rt))
        (.int step.completionStepSize))
  else condition

def completionStepAfter (previous current : ℤ) : Bool :=
  if previous = -1 then false else decide (current = -1) || decide (previous < current)

def validStep (step : UpstreamPricingStep) : Bool :=
  decide (0 < step.stepSize) && nonNegativeFinite step.promptStepRatio &&
    nonNegativeFinite step.completionStepRatio && nonNegativeFinite step.cacheStepRatio &&
    decide (step.completionStepSize ≠ 0) && decide (-1 ≤ step.completionStepSize) &&
    nonNegativeFinite step.promptThinkingStepRatio &&
    nonNegativeFinite step.completionThinkingStepRatio &&
    (decide (step.promptThinkingStepRatio = 0) ||
      decide (step.promptThinkingStepRatio = step.promptStepRatio))

def stepAfter (previous : Option UpstreamPricingStep) (step : UpstreamPricingStep) : Bool :=
  match previous with
  | none => true
  | some previous =>
    decide (previous.stepSize ≤ step.stepSize) &&
      (decide (step.stepSize ≠ previous.stepSize) ||
        completionStepAfter previous.completionStepSize step.completionStepSize)

def stepsExpr (item : UpstreamPricingItem) :
    ℕ → Option UpstreamPricingStep → List UpstreamPricingStep → Option Node
  | _, _, [] => none
  | index, previous, step :: rest =>
    if validStep step && stepAfter previous step then
      let tier := tierCall (stepName index) (upstreamTokenCostExpr item step)
      if rest.isEmpty then some tier
      else (stepsExpr item (index + 1) (some step) rest).map (.cond (stepCondition step) tier)
    else none

def baseStep : UpstreamPricingStep := ⟨0, 0, 1, 1, 1, 0, 0⟩

def pricingStepRatiosExpr (item : UpstreamPricingItem) : Option Node :=
  if item.quotaType = 1 ∨ (item.stepRatios = [] ∧ hasExplicitCacheCreationRatios item = false) ∨
      nonNegativeFinite item.modelRatio = false ∨ nonNegativeFinite item.completionRatio = false ∨
      validOptionalPricingRatios item = false then none
  else if item.stepRatios = [] then
    some (tierCall "base".toList (upstreamTokenCostExpr item baseStep))
  else stepsExpr item 0 none item.stepRatios

/-! ### Published cost -/

def publishedSteps (item : UpstreamPricingItem) : List UpstreamPricingStep :=
  if item.stepRatios = [] then [baseStep] else item.stepRatios

def StepApplies (len completion : ℚ) (step : UpstreamPricingStep) : Prop :=
  len ≤ step.stepSize ∧ (step.completionStepSize = -1 ∨ completion ≤ step.completionStepSize)

instance (len completion : ℚ) (step : UpstreamPricingStep) :
    Decidable (StepApplies len completion step) :=
  inferInstanceAs (Decidable (_ ∧ _))

def publishedStep (steps : List UpstreamPricingStep) (len completion : ℚ) :
    Option UpstreamPricingStep :=
  (steps.find? fun step => decide (StepApplies len completion step)).or steps.getLast?

/-- The cost of a usage report at the prices of one step. An input token without a lane of its
own is text, an output token without one is completion. -/
def publishedCost (prices : StepPrices) (usage : Usage) : ℚ :=
  let creation := cacheCreation usage
  let input := usage.promptTokensDetails
  let output := usage.completionTokenDetails
  let text : ℤ := usage.promptTokens - input.cachedTokens - creation.cc5m - creation.cc1h -
    creation.cc12h - input.imageTokens - input.audioTokens
  let completion : ℤ := usage.completionTokens - output.audioTokens - output.reasoningTokens
  text * prices.input + input.cachedTokens * prices.cache + creation.cc5m * prices.cacheCreation +
    creation.cc1h * prices.cacheCreation1h +
    creation.cc12h * prices.cacheCreation12h.getD prices.input +
    input.imageTokens * prices.image.getD prices.input + input.audioTokens * prices.audioInput +
    (completion * prices.output + output.audioTokens * prices.audioOutput +
      output.reasoningTokens * prices.reasoning.getD prices.output)

structure OpenAIFormat (u : Usage) : Prop where
  image : 0 ≤ u.promptTokensDetails.imageTokens
  imageOutput : 0 ≤ u.completionTokenDetails.imageTokens
  inputs : u.promptTokensDetails.cachedTokens + (cacheCreation u).cc5m + (cacheCreation u).cc1h +
    (cacheCreation u).cc12h + u.promptTokensDetails.imageTokens +
    u.promptTokensDetails.audioTokens ≤ u.promptTokens
  reasoning : 0 ≤ u.completionTokenDetails.reasoningTokens
  outputs : u.completionTokenDetails.audioTokens + u.completionTokenDetails.imageTokens +
    u.completionTokenDetails.reasoningTokens ≤ u.completionTokens
  present : u.completionTokenDetails.reasoningTokensPresent = true

/-- The expression names `rt`: in the price of some step or in the bound of a step that is not
the last. -/
def NamesReasoning (steps : List UpstreamPricingStep) : Prop :=
  (∃ step ∈ steps, step.completionThinkingStepRatio ≠ 0) ∨
    ∃ step ∈ steps.dropLast, 0 < step.completionStepSize

/-! ### What the expression names -/

variable {item : UpstreamPricingItem} {step : UpstreamPricingStep} {l : Lane}

@[simp] theorem usedVars_term (m : Lane) (q : ℚ) : (term m q).usedVars = [m.name] := by
  unfold term number
  split <;> rfl

@[simp] theorem usedVars_plus (cost : Node) (m : Lane) (q : ℚ) :
    (plus cost m q).usedVars = cost.usedVars ++ [m.name] := by
  rw [plus, Node.usedVars, usedVars_term]

theorem mem_plusOptional (cost : Node) (m : Lane) (q : Option ℚ) :
    l.name ∈ (plusOptional cost m q).usedVars ↔ l.name ∈ cost.usedVars ∨ (q.isSome ∧ l = m) := by
  cases q with
  | none => simp [plusOptional]
  | some q =>
    have hname : l.name = m.name ↔ l = m := ⟨Lane.name_injective, fun h => h ▸ rfl⟩
    simp [plusOptional, hname]

def PricedLane (item : UpstreamPricingItem) (step : UpstreamPricingStep) : Lane → Prop
  | .len => False
  | .imgO => False
  | .cc12h => item.cacheCreation12hRatio.isSome
  | .img => item.imageRatio.isSome
  | .rt => step.completionThinkingStepRatio ≠ 0
  | _ => True

theorem mem_tokenCost : l.name ∈ (upstreamTokenCostExpr item step).usedVars ↔
    PricedLane item step l := by
  have hname : ∀ m : Lane, l.name = m.name ↔ l = m :=
    fun m => ⟨Lane.name_injective, fun h => h ▸ rfl⟩
  have hreasoning : (stepPrices item step).reasoning.isSome ↔
      step.completionThinkingStepRatio ≠ 0 := by
    simp only [stepPrices]
    split <;> simp_all
  simp only [upstreamTokenCostExpr, mem_plusOptional, usedVars_plus, Node.usedVars, usedVars_term,
    List.mem_append, List.mem_singleton, hname]
  simp only [stepPrices]
  cases l <;> simp [PricedLane]

theorem mem_tierCall (name : Text) (cost : Node) :
    l.name ∈ (tierCall name cost).usedVars ↔ l.name ∈ cost.usedVars := by
  have htier : l.name ≠ tierName := by cases l <;> decide
  simp [tierCall, Node.usedVars, usedVarsAll, htier]

theorem mem_stepCondition : l.name ∈ (stepCondition step).usedVars ↔
    l = .len ∨ (0 < step.completionStepSize ∧ (l = .c ∨ l = .ao ∨ l = .rt)) := by
  have hname : ∀ m : Lane, l.name = m.name ↔ l = m :=
    fun m => ⟨Lane.name_injective, fun h => h ▸ rfl⟩
  unfold stepCondition
  by_cases hsize : 0 < step.completionStepSize
  · simp [hsize, Node.usedVars, lane, hname]
  · simp [hsize, Node.usedVars, lane, hname]

/-- The lanes that the whole expression names, `len` apart. -/
def NamedLane (item : UpstreamPricingItem) (steps : List UpstreamPricingStep) : Lane → Prop
  | .len => False
  | .imgO => False
  | .cc12h => item.cacheCreation12hRatio.isSome
  | .img => item.imageRatio.isSome
  | .rt => NamesReasoning steps
  | _ => True

theorem namesReasoning_cons {rest : List UpstreamPricingStep} (hrest : rest ≠ []) :
    NamesReasoning (step :: rest) ↔
      step.completionThinkingStepRatio ≠ 0 ∨ 0 < step.completionStepSize ∨ NamesReasoning rest := by
  unfold NamesReasoning
  rw [List.dropLast_cons_of_ne_nil hrest]
  rw [List.exists_mem_cons_iff, List.exists_mem_cons_iff, or_or_or_comm, or_assoc]

theorem namesReasoning_singleton :
    NamesReasoning [step] ↔ step.completionThinkingStepRatio ≠ 0 := by
  simp [NamesReasoning]

variable {steps : List UpstreamPricingStep} {completion : ℚ} {node : Node} {cost : Node}
  {a b : Node} {x : ℚ}

theorem mem_stepsExpr (hlen : l ≠ .len) {index : ℕ} {previous : Option UpstreamPricingStep}
    (h : stepsExpr item index previous steps = some node) :
    l.name ∈ node.usedVars ↔ NamedLane item steps l := by
  induction steps generalizing index previous node with
  | nil => cases h
  | cons step rest ih =>
    unfold stepsExpr at h
    split at h
    · split at h
      · next hrest =>
        cases h
        rw [List.isEmpty_iff.mp hrest, mem_tierCall, mem_tokenCost]
        cases l <;> simp [PricedLane, NamedLane, namesReasoning_singleton]
      · next hrest =>
        obtain ⟨tail, htail, rfl⟩ := Option.map_eq_some_iff.mp h
        have hne : rest ≠ [] := fun hnil => hrest (List.isEmpty_iff.mpr hnil)
        simp only [Node.usedVars, List.mem_append, mem_stepCondition, mem_tierCall, mem_tokenCost,
          ih htail]
        cases l with
        | len => exact absurd rfl hlen
        | rt =>
          simp only [NamedLane, namesReasoning_cons hne]
          tauto
        | _ => simp [PricedLane, NamedLane]
    · cases h

theorem mem_expr (hlen : l ≠ .len) (h : pricingStepRatiosExpr item = some node) :
    l.name ∈ node.usedVars ↔ NamedLane item (publishedSteps item) l := by
  unfold pricingStepRatiosExpr at h
  split at h
  · cases h
  split at h
  · next hsteps =>
    cases h
    rw [publishedSteps, if_pos hsteps, mem_tierCall, mem_tokenCost]
    cases l <;> simp [PricedLane, NamedLane, namesReasoning_singleton]
  · next hsteps =>
    rw [publishedSteps, if_neg hsteps]
    exact mem_stepsExpr hlen h

/-! ### What the expression costs -/

def laneCost (prices : StepPrices) (t : TokenParams) : ℚ :=
  t.p * prices.input + t.c * prices.output + t.cr * prices.cache + t.cc * prices.cacheCreation +
    t.cc1h * prices.cacheCreation1h + t.cc12h * prices.cacheCreation12h.getD 0 +
    t.img * prices.image.getD 0 + t.ai * prices.audioInput + t.ao * prices.audioOutput +
    t.rt * prices.reasoning.getD 0

variable {E : Engine} {t : TokenParams}

theorem eval_lane (m : Lane) : eval E t (lane m) = some (.num (t.get m)) := lookup_name t m

theorem eval_number (q : ℚ) : eval E t (number q) = some (.num q) := by
  unfold number
  split
  · next hwhole =>
    rw [eval, Rat.coe_int_num_of_den_eq_one hwhole]
  · rfl

theorem eval_term (m : Lane) (q : ℚ) : eval E t (term m q) = some (.num (t.get m * q)) := by
  simp [term, eval, evalBinary, strictBinary, eval_lane, eval_number, applyBinary, arithmetic]

theorem eval_add {x y : ℚ} (ha : eval E t a = some (.num x)) (hb : eval E t b = some (.num y)) :
    eval E t (.binary .add a b) = some (.num (x + y)) := by
  simp [eval, evalBinary, strictBinary, ha, hb, applyBinary, addValues]

theorem eval_plus (m : Lane) (q : ℚ) (hcost : eval E t cost = some (.num x)) :
    eval E t (plus cost m q) = some (.num (x + t.get m * q)) :=
  eval_add hcost (eval_term m q)

theorem eval_plusOptional (m : Lane) (q : Option ℚ) (hcost : eval E t cost = some (.num x)) :
    eval E t (plusOptional cost m q) = some (.num (x + t.get m * q.getD 0)) := by
  cases q with
  | none =>
    rw [Option.getD_none, mul_zero, add_zero]
    exact hcost
  | some q => exact eval_plus m q hcost

theorem eval_tokenCost (item : UpstreamPricingItem) (step : UpstreamPricingStep) :
    eval E t (upstreamTokenCostExpr item step) =
      some (.num (laneCost (stepPrices item step) t)) := by
  have hbase := eval_add (eval_term (E := E) (t := t) .p (stepPrices item step).input)
    (eval_term .c (stepPrices item step).output)
  have hcache := eval_plus .cc1h (stepPrices item step).cacheCreation1h
    (eval_plus .cc (stepPrices item step).cacheCreation
      (eval_plus .cr (stepPrices item step).cache hbase))
  have hinput := eval_plusOptional .img (stepPrices item step).image
    (eval_plusOptional .cc12h (stepPrices item step).cacheCreation12h hcache)
  have haudio := eval_plus .ao (stepPrices item step).audioOutput
    (eval_plus .ai (stepPrices item step).audioInput hinput)
  exact eval_plusOptional .rt (stepPrices item step).reasoning haudio

theorem eval_tierCall {name : Text} (hcost : eval E t cost = some (.num x)) :
    eval E t (tierCall name cost) = some (.num x) := by
  simp [tierCall, eval, evalAll, hcost, evalCallee, applyCall]

theorem eval_le {x y : ℚ} (ha : eval E t a = some (.num x)) (hb : eval E t b = some (.num y)) :
    eval E t (.binary .le a b) = some (.bool (decide (x ≤ y))) := by
  simp [eval, evalBinary, strictBinary, ha, hb, applyBinary, compareValues]

theorem eval_and {x y : Bool} (ha : eval E t a = some (.bool x))
    (hb : eval E t b = some (.bool y)) : eval E t (.binary .and a b) = some (.bool (x && y)) := by
  cases x with
  | false => simp [eval, evalBinary, ha]
  | true => simp [eval, evalBinary, ha, hb]

theorem eval_stepCondition (hvalid : validStep step = true)
    (hcompletion : 0 < step.completionStepSize → t.c + t.ao + t.rt = completion) :
    eval E t (stepCondition step) =
      some (.bool (decide (StepApplies t.len completion step))) := by
  have hlen : eval E t (.binary .le (lane .len) (.int step.stepSize)) =
      some (.bool (decide (t.len ≤ step.stepSize))) := eval_le (eval_lane .len) rfl
  unfold stepCondition StepApplies
  by_cases hsize : 0 < step.completionStepSize
  · have hbound : eval E t (.binary .le (.binary .add (.binary .add (lane .c) (lane .ao))
        (lane .rt)) (.int step.completionStepSize)) =
        some (.bool (decide (t.c + t.ao + t.rt ≤ step.completionStepSize))) :=
      eval_le (eval_add (eval_add (eval_lane .c) (eval_lane .ao)) (eval_lane .rt)) rfl
    have hne : step.completionStepSize ≠ -1 := by omega
    simp [if_pos hsize, eval_and hlen hbound, hcompletion hsize, hne]
  · have hunbounded : step.completionStepSize = -1 := by
      simp only [validStep, Bool.and_eq_true, decide_eq_true_eq] at hvalid
      omega
    simp only [if_neg hsize, hlen]
    simp [hunbounded]

theorem publishedStep_singleton (step : UpstreamPricingStep) (len completion : ℚ) :
    publishedStep [step] len completion = some step := by
  unfold publishedStep
  by_cases happlies : StepApplies len completion step
  · simp [happlies]
  · simp [happlies]

theorem publishedStep_cons {rest : List UpstreamPricingStep} (hrest : rest ≠ [])
    (len completion : ℚ) :
    publishedStep (step :: rest) len completion =
      if StepApplies len completion step then some step
      else publishedStep rest len completion := by
  unfold publishedStep
  obtain ⟨next, rest, rfl⟩ := List.exists_cons_of_ne_nil hrest
  by_cases happlies : StepApplies len completion step
  · simp [happlies]
  · simp [happlies]

theorem eval_stepsExpr {index : ℕ} {previous : Option UpstreamPricingStep}
    (h : stepsExpr item index previous steps = some node)
    (hcompletion : ∀ step ∈ steps.dropLast, 0 < step.completionStepSize →
      t.c + t.ao + t.rt = completion) : ∃ step, publishedStep steps t.len completion = some step ∧
      eval E t node = some (.num (laneCost (stepPrices item step) t)) := by
  induction steps generalizing index previous node with
  | nil => cases h
  | cons step rest ih =>
    obtain ⟨hvalid, h⟩ := Option.ite_none_right_eq_some.mp h
    have hvalid := (Bool.and_eq_true_iff.mp hvalid).1
    split at h
    · next hrest =>
      cases h
      rw [List.isEmpty_iff.mp hrest]
      exact ⟨step, publishedStep_singleton _ _ _, eval_tierCall (eval_tokenCost item step)⟩
    · next hrest =>
      obtain ⟨tail, htail, rfl⟩ := Option.map_eq_some_iff.mp h
      have hne : rest ≠ [] := fun hnil => hrest (List.isEmpty_iff.mpr hnil)
      rw [List.dropLast_cons_of_ne_nil hne] at hcompletion
      have hcondition := eval_stepCondition (E := E) hvalid
        (hcompletion step List.mem_cons_self)
      obtain ⟨found, hfound, htree⟩ := ih htail fun s hs =>
        hcompletion s (List.mem_cons_of_mem _ hs)
      rw [publishedStep_cons hne]
      by_cases happlies : StepApplies t.len completion step
      · refine ⟨step, if_pos happlies, ?_⟩
        simp only [eval, hcondition, decide_eq_true happlies]
        exact eval_tierCall (eval_tokenCost item step)
      · refine ⟨found, (if_neg happlies).trans hfound, ?_⟩
        simp only [eval, hcondition, decide_eq_false happlies]
        exact htree

theorem eval_expr (h : pricingStepRatiosExpr item = some node)
    (hcompletion : NamesReasoning (publishedSteps item) → t.c + t.ao + t.rt = completion) :
    ∃ step, publishedStep (publishedSteps item) t.len completion = some step ∧
      eval E t node = some (.num (laneCost (stepPrices item step) t)) := by
  unfold pricingStepRatiosExpr at h
  split at h
  · cases h
  split at h
  · next hsteps =>
    cases h
    rw [publishedSteps, if_pos hsteps]
    exact ⟨baseStep, publishedStep_singleton _ _ _, eval_tierCall (eval_tokenCost item baseStep)⟩
  · next hsteps =>
    rw [publishedSteps, if_neg hsteps] at hcompletion ⊢
    exact eval_stepsExpr h fun step hstep hsize => hcompletion (Or.inr ⟨step, hstep, hsize⟩)

theorem publishedStep_mem {len completion : ℚ}
    (h : publishedStep steps len completion = some step) : step ∈ steps := by
  rcases Option.or_eq_some_iff.mp h with hfound | ⟨-, hlast⟩
  · exact List.mem_of_find?_eq_some hfound
  · exact List.mem_of_getLast? hlast

/-! ### Token counts of a report -/

section Report

variable {u : Usage} {node : Node}

theorem priced_of_named {vars : List Text} (h : l.name ∈ vars) (n : ℚ) : priced vars l n = n :=
  if_pos h

theorem priced_of_unnamed {vars : List Text} (h : l.name ∉ vars) (n : ℚ) : priced vars l n = 0 :=
  if_neg h

theorem creation12h_nonneg (u : Usage) : 0 ≤ (cacheCreation u).cc12h := by
  unfold cacheCreation cacheWriteTokenCounts
  dsimp only
  split
  · split
    · exact le_max_right _ _
    · exact le_rfl
  · exact le_rfl

theorem params_p (hexpr : pricingStepRatiosExpr item = some node) (hu : OpenAIFormat u) :
    (buildTieredTokenParams u false node.usedVars).p =
      u.promptTokens - u.promptTokensDetails.cachedTokens - (cacheCreation u).cc5m -
        (cacheCreation u).cc1h -
        (if item.cacheCreation12hRatio.isSome then ((cacheCreation u).cc12h : ℚ) else 0) -
        (if item.imageRatio.isSome then (u.promptTokensDetails.imageTokens : ℚ) else 0) -
        u.promptTokensDetails.audioTokens := by
  have hnamed : ∀ l : Lane, l ≠ .len →
      (l.name ∈ node.usedVars ↔ NamedLane item (publishedSteps item) l) :=
    fun l hl => mem_expr hl hexpr
  have hcr := (hnamed .cr (by decide)).mpr trivial
  have hcc := (hnamed .cc (by decide)).mpr trivial
  have hcc1h := (hnamed .cc1h (by decide)).mpr trivial
  have hai := (hnamed .ai (by decide)).mpr trivial
  have hcc12h := hnamed .cc12h (by decide)
  have himg := hnamed .img (by decide)
  simp only [NamedLane] at hcc12h himg
  simp only [buildTieredTokenParams, Bool.false_eq_true, if_false, priced, if_pos hcr, if_pos hcc,
    if_pos hcc1h, if_pos hai, hcc12h, himg]
  apply max_eq_left
  have hinputs : ((u.promptTokensDetails.cachedTokens + (cacheCreation u).cc5m +
      (cacheCreation u).cc1h + (cacheCreation u).cc12h + u.promptTokensDetails.imageTokens +
      u.promptTokensDetails.audioTokens : ℤ) : ℚ) ≤ u.promptTokens := Int.cast_le.mpr hu.inputs
  have hlong : (0 : ℚ) ≤ (cacheCreation u).cc12h := Int.cast_nonneg (creation12h_nonneg u)
  have himage : (0 : ℚ) ≤ u.promptTokensDetails.imageTokens := Int.cast_nonneg hu.image
  push_cast at hinputs
  split <;> split <;> linarith

theorem params_c (hexpr : pricingStepRatiosExpr item = some node) (hu : OpenAIFormat u) :
    (buildTieredTokenParams u false node.usedVars).c =
      u.completionTokens - u.completionTokenDetails.audioTokens -
        priced node.usedVars .rt u.completionTokenDetails.reasoningTokens := by
  have hao := (mem_expr (l := .ao) (by decide) hexpr).mpr trivial
  have himgO : Lane.imgO.name ∉ node.usedVars := fun h => (mem_expr (by decide) hexpr).mp h
  simp only [buildTieredTokenParams, Bool.false_eq_true, if_false, hu.present, Bool.not_true,
    Bool.and_false, priced_of_named hao, priced_of_unnamed himgO, sub_zero]
  apply max_eq_left
  have houtputs : ((u.completionTokenDetails.audioTokens + u.completionTokenDetails.imageTokens +
      u.completionTokenDetails.reasoningTokens : ℤ) : ℚ) ≤ u.completionTokens :=
    Int.cast_le.mpr hu.outputs
  have himage : (0 : ℚ) ≤ u.completionTokenDetails.imageTokens := Int.cast_nonneg hu.imageOutput
  have hreasoning : (0 : ℚ) ≤ u.completionTokenDetails.reasoningTokens :=
    Int.cast_nonneg hu.reasoning
  push_cast at houtputs
  unfold priced
  split <;> linarith

theorem params_rt (hu : OpenAIFormat u) (vars : List Text) :
    (buildTieredTokenParams u false vars).rt = u.completionTokenDetails.reasoningTokens := by
  simp [buildTieredTokenParams, hu.present]

/-- The tokens that the expression takes out of `c` and prices at 0 in this step. -/
def freeReasoning (vars : List Text) (step : UpstreamPricingStep) (u : Usage) : ℚ :=
  if step.completionThinkingStepRatio = 0 then
    priced vars .rt u.completionTokenDetails.reasoningTokens
  else 0

theorem base_or_own (n price : ℚ) (ratio : Option ℚ) (f : ℚ → ℚ) :
    n * (ratio.map f).getD price =
      n * (ratio.map f).getD 0 + (n - if ratio.isSome then n else 0) * price := by
  cases ratio with
  | none | some r => simp

theorem laneCost_eq (hexpr : pricingStepRatiosExpr item = some node) (hu : OpenAIFormat u)
    (hnamed : step.completionThinkingStepRatio ≠ 0 → Lane.rt.name ∈ node.usedVars) :
    laneCost (stepPrices item step) (buildTieredTokenParams u false node.usedVars) =
      publishedCost (stepPrices item step) u -
        freeReasoning node.usedVars step u * (stepPrices item step).output := by
  have hp := params_p hexpr hu
  have hc := params_c hexpr hu
  have hrt := params_rt hu node.usedVars
  have hlong := base_or_own (cacheCreation u).cc12h (stepPrices item step).input
    item.cacheCreation12hRatio fun ratio => item.modelRatio * ratio * 2 * step.cacheStepRatio
  have himage := base_or_own u.promptTokensDetails.imageTokens (stepPrices item step).input
    item.imageRatio fun ratio => item.modelRatio * ratio * 2 * step.promptStepRatio
  have hreasoning : (u.completionTokenDetails.reasoningTokens : ℚ) *
        (stepPrices item step).reasoning.getD (stepPrices item step).output =
      u.completionTokenDetails.reasoningTokens * (stepPrices item step).reasoning.getD 0 +
        (u.completionTokenDetails.reasoningTokens -
          priced node.usedVars .rt u.completionTokenDetails.reasoningTokens +
          freeReasoning node.usedVars step u) * (stepPrices item step).output := by
    unfold freeReasoning
    by_cases hthinking : step.completionThinkingStepRatio = 0
    · simp only [stepPrices, hthinking, ne_eq, not_true_eq_false, if_false, if_true,
        Option.getD_none]
      ring
    · simp only [stepPrices, ne_eq, hthinking, not_false_eq_true, if_true, if_false,
        Option.getD_some, priced_of_named (hnamed hthinking)]
      ring
  have hlanes : laneCost (stepPrices item step) (buildTieredTokenParams u false node.usedVars) =
      (buildTieredTokenParams u false node.usedVars).p * (stepPrices item step).input +
      (buildTieredTokenParams u false node.usedVars).c * (stepPrices item step).output +
      u.promptTokensDetails.cachedTokens * (stepPrices item step).cache +
      (cacheCreation u).cc5m * (stepPrices item step).cacheCreation +
      (cacheCreation u).cc1h * (stepPrices item step).cacheCreation1h +
      (cacheCreation u).cc12h * (stepPrices item step).cacheCreation12h.getD 0 +
      u.promptTokensDetails.imageTokens * (stepPrices item step).image.getD 0 +
      u.promptTokensDetails.audioTokens * (stepPrices item step).audioInput +
      u.completionTokenDetails.audioTokens * (stepPrices item step).audioOutput +
      (buildTieredTokenParams u false node.usedVars).rt *
        (stepPrices item step).reasoning.getD 0 := rfl
  have hlong' : (stepPrices item step).cacheCreation12h = item.cacheCreation12hRatio.map fun ratio =>
    item.modelRatio * ratio * 2 * step.cacheStepRatio := rfl
  have himage' : (stepPrices item step).image = item.imageRatio.map fun ratio =>
    item.modelRatio * ratio * 2 * step.promptStepRatio := rfl
  rw [← hlong'] at hlong
  rw [← himage'] at himage
  rw [hlanes, hp, hc, hrt]
  unfold publishedCost
  push_cast
  linear_combination -hlong - himage - hreasoning

/-- An imported expression charges the published cost of a report exactly if it does not name
`rt`, or the step of the report prices reasoning, or no reasoning token has a price. -/
theorem step_pricing_iff {exprString : Text} (hexpr : pricingStepRatiosExpr item = some node)
    (hcompile : E.compile exprString = some node) (hu : OpenAIFormat u) :
    ∃ step, publishedStep (publishedSteps item) u.promptTokens u.completionTokens = some step ∧
      (runExpr E exprString (buildTieredTokenParams u false (usedVars E exprString)) =
          some (publishedCost (stepPrices item step) u) ↔
        ¬ NamesReasoning (publishedSteps item) ∨ step.completionThinkingStepRatio ≠ 0 ∨
          u.completionTokenDetails.reasoningTokens = 0 ∨ (stepPrices item step).output = 0) := by
  have hvars : usedVars E exprString = node.usedVars := by simp [usedVars, hcompile]
  have hrt : Lane.rt.name ∈ node.usedVars ↔ NamesReasoning (publishedSteps item) :=
    mem_expr (by decide) hexpr
  rw [hvars]
  have hcompletion : NamesReasoning (publishedSteps item) →
      (buildTieredTokenParams u false node.usedVars).c +
        (buildTieredTokenParams u false node.usedVars).ao +
        (buildTieredTokenParams u false node.usedVars).rt = u.completionTokens := by
    intro hnames
    have hao : (buildTieredTokenParams u false node.usedVars).ao =
      u.completionTokenDetails.audioTokens := rfl
    rw [params_c hexpr hu, params_rt hu, hao, priced_of_named (hrt.mpr hnames)]
    ring
  obtain ⟨step, hstep, heval⟩ := eval_expr (E := E) hexpr hcompletion
  refine ⟨step, hstep, ?_⟩
  have hnamed : step.completionThinkingStepRatio ≠ 0 → Lane.rt.name ∈ node.usedVars :=
    fun hthinking => hrt.mpr (Or.inl ⟨step, publishedStep_mem hstep, hthinking⟩)
  have hrun : runExpr E exprString (buildTieredTokenParams u false node.usedVars) =
      some (publishedCost (stepPrices item step) u -
        freeReasoning node.usedVars step u * (stepPrices item step).output) := by
    simp [runExpr, hcompile, heval, laneCost_eq hexpr hu hnamed]
  rw [hrun, Option.some.injEq, sub_eq_self]
  unfold freeReasoning
  by_cases hthinking : step.completionThinkingStepRatio = 0
  · by_cases hnames : NamesReasoning (publishedSteps item)
    · simp [hthinking, hnames, priced_of_named (hrt.mpr hnames)]
    · simp [hnames, priced_of_unnamed (fun h => hnames (hrt.mp h))]
  · simp [hthinking]

end Report

/-! ### Items with a bound on the completion -/

def boundedItem (thinking : ℚ) : UpstreamPricingItem where
  quotaType := 0
  modelRatio := 1
  completionRatio := 5
  cacheRatio := none
  createCacheRatio := none
  cacheCreationRatio := none
  cacheCreation5mRatio := none
  cacheCreation1hRatio := none
  cacheCreation12hRatio := none
  imageRatio := none
  audioRatio := none
  audioCompletionRatio := none
  stepRatios := [⟨1000, 500, 1, 1, 1, 0, thinking⟩, ⟨2000, -1, 2, 2, 2, 0, thinking⟩]

def reasoningReport : Usage where
  promptTokens := 100
  completionTokens := 300
  totalTokens := 400
  usageSemantic := []
  usageSource := []
  promptTokensDetails := ⟨0, none, 0, 0, 0, 0⟩
  completionTokenDetails := ⟨0, 0, 200, true⟩
  inputTokens := 0
  claudeCacheCreation5mTokens := 0
  claudeCacheCreation1hTokens := 0

theorem reasoningReport_format : OpenAIFormat reasoningReport :=
  ⟨by decide, by decide, by decide, by decide, by decide, by decide⟩

/-- What is generated for `boundedItem`, with the summand of the reasoning tokens. -/
def boundedText (reasoning : Text) : Text :=
  "len <= 1000 && c + ao + rt <= 500 ? tier(\"step_1\", p * 2 + c * 10 + cr * 2 + ".toList ++
    "cc * 2.5 + cc1h * 4 + ai * 2 + ao * 2".toList ++ reasoning ++
    ") : tier(\"step_2\", p * 4 + c * 20 + cr * 4 + cc * 5 + cc1h * 8 + ai * 4 + ao * 4".toList ++
    reasoning ++ ")".toList

def thinkingText : Text := boundedText " + rt * 30".toList

def importEngine (item : UpstreamPricingItem) (exprString : Text) : Engine :=
  coreEngine fun text => if text = exprString then pricingStepRatiosExpr item else none

theorem compile_importEngine (item : UpstreamPricingItem) (exprString : Text) :
    (importEngine item exprString).compile exprString = pricingStepRatiosExpr item :=
  if_pos rfl

theorem step_pricing_thinking :
    publishedStep (publishedSteps (boundedItem 3)) 100 300 = some ⟨1000, 500, 1, 1, 1, 0, 3⟩ ∧
    runExpr (importEngine (boundedItem 3) thinkingText) thinkingText
        (buildTieredTokenParams reasoningReport false
          (usedVars (importEngine (boundedItem 3) thinkingText) thinkingText)) =
      some (publishedCost (stepPrices (boundedItem 3) ⟨1000, 500, 1, 1, 1, 0, 3⟩)
        reasoningReport) := by
  have hstep : publishedStep (publishedSteps (boundedItem 3)) 100 300 =
      some ⟨1000, 500, 1, 1, 1, 0, 3⟩ := by decide
  obtain ⟨node, hnode⟩ := Option.isSome_iff_exists.mp
    (show (pricingStepRatiosExpr (boundedItem 3)).isSome = true by decide)
  have hengine : (importEngine (boundedItem 3) thinkingText).compile thinkingText = some node :=
    (compile_importEngine _ _).trans hnode
  obtain ⟨step, hfound, hiff⟩ := step_pricing_iff hnode hengine reasoningReport_format
  have hsame : some step = some ⟨1000, 500, 1, 1, 1, 0, 3⟩ := hfound.symm.trans hstep
  cases hsame
  exact ⟨hstep, hiff.mpr (Or.inr (Or.inl (by decide)))⟩

/-- Without thinking ratios the bound on the completion makes 200 reasoning tokens free: 1200 in
place of 3200. -/
theorem step_pricing_reasoning_free :
    publishedStep (publishedSteps (boundedItem 0)) 100 300 = some ⟨1000, 500, 1, 1, 1, 0, 0⟩ ∧
    publishedCost (stepPrices (boundedItem 0) ⟨1000, 500, 1, 1, 1, 0, 0⟩) reasoningReport = 3200 ∧
    runExpr (importEngine (boundedItem 0) (boundedText [])) (boundedText [])
      (buildTieredTokenParams reasoningReport false
        (usedVars (importEngine (boundedItem 0) (boundedText [])) (boundedText []))) =
          some 1200 := by
  refine ⟨by decide, ?_, ?_⟩
  all_goals decide +kernel

end NewApi.Controller.PricingSteps
