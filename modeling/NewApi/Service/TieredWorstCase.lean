import NewApi.Pkg.SplitSound
import NewApi.Service.TieredSettle

/-!
# Unknown splits are settled at the worst case

An allocation gives `x` of the unknown output tokens to `c` and `y` of the unknown cache writes to
`cc12h`.
-/

namespace NewApi.Service.Tiered

open NewApi.BillingExpr

variable {E : Engine} {info : RelayInfo} {snap : BillingSnapshot} {t : TokenParams} {x y : ℚ}

def unknownWrites (t : TokenParams) : ℚ :=
  if t.cacheCreationTokensFallback then t.cacheCreationTokensUnknown else 0

def allocation (vars : List Text) (t : TokenParams) (x y : ℚ) : TokenParams :=
  { t with
    p := if Lane.cc.name ∈ vars then t.p else t.p - y
    c := t.c + x
    cc := if Lane.cc.name ∈ vars then t.cc - y else t.cc
    cc12h := t.cc12h + y
    rt := t.rt - x
    cacheCreationTokensUnknown := 0
    cacheCreationTokensFallback := false
    reasoningTokensUnknown := 0
    reasoningTokensFallback := false }

def allocationQuota (E : Engine) (snap : BillingSnapshot) (t : TokenParams) (x y : ℚ) : Option ℤ :=
  (computeTieredQuotaWithRequest E snap
    (allocation (usedVars E snap.exprString) t x y)).map TieredResult.actualQuotaAfterGroup

structure InLanes (vars : List Text) (t : TokenParams) : Prop where
  output : 0 ≤ unknownOutput t ∧ unknownOutput t ≤ t.rt
  writes : 0 ≤ unknownWrites t ∧ unknownWrites t ≤ t.get (firstWriteLane vars)

theorem quotaOf_mono (hg : 0 ≤ snap.groupRatio) (hu : 0 ≤ snap.quotaPerUnit) {a b : ℚ}
    (hab : a ≤ b) : quotaOf snap a ≤ quotaOf snap b := by
  apply roundHalfAway_mono
  have hdiv : a / 1000000 ≤ b / 1000000 := by linarith
  exact mul_le_mul_of_nonneg_right (mul_le_mul_of_nonneg_right hdiv hu) hg

theorem allocation_output_line (vars : List Text) (t : TokenParams) (y : ℚ) :
    Line .c .rt fun x => allocation vars t x y where
  gain x x' := by
    simp only [allocation, TokenParams.get]
    ring
  loss x x' := by
    simp only [allocation, TokenParams.get]
    ring
  others l hc hrt x x' := by
    cases l with
    | c => exact absurd rfl hc
    | rt => exact absurd rfl hrt
    | _ => rfl

theorem allocation_writes_line (vars : List Text) (t : TokenParams) (x : ℚ) :
    Line (firstWriteLane vars) .cc12h fun z => allocation vars t x (-1 * z) := by
  by_cases hcc : Lane.cc.name ∈ vars
  · simp only [firstWriteLane, if_pos hcc, allocation]
    refine ⟨fun z z' => ?_, fun z z' => ?_, fun l hl hl' z z' => ?_⟩
    · simp only [TokenParams.get]
      ring
    · simp only [TokenParams.get]
      ring
    · cases l with
      | cc => exact absurd rfl hl
      | cc12h => exact absurd rfl hl'
      | _ => rfl
  · simp only [firstWriteLane, if_neg hcc, allocation]
    refine ⟨fun z z' => ?_, fun z z' => ?_, fun l hl hl' z z' => ?_⟩
    · simp only [TokenParams.get]
      ring
    · simp only [TokenParams.get]
      ring
    · cases l with
      | p => exact absurd rfl hl
      | cc12h => exact absurd rfl hl'
      | _ => rfl

theorem settleAllocated_max {s : TokenParams} {q₀ q₁ : ℤ}
    (h₀ : (computeTieredQuotaWithRequest E snap s).map TieredResult.actualQuotaAfterGroup = some q₀)
    (h₁ : (computeTieredQuotaWithRequest E snap (shiftOutput s (unknownOutput s))).map
      TieredResult.actualQuotaAfterGroup = some q₁) :
    (settleAllocated E info snap s).1 = max q₀ q₁ := by
  obtain ⟨r₀, hr₀, rfl⟩ := Option.map_eq_some_iff.mp h₀
  obtain ⟨r₁, hr₁, rfl⟩ := Option.map_eq_some_iff.mp h₁
  rw [settleAllocated_eq, hr₀, hr₁]
  dsimp only [settleEnds]
  split
  · next hlt => exact (max_eq_right hlt.le).symm
  · next hlt => exact (max_eq_left (not_lt.mp hlt)).symm

theorem unknownOutput_shortWrites (vars : List Text) (t : TokenParams) :
    unknownOutput (shortWrites vars t) = unknownOutput t := by
  unfold shortWrites knownWrites
  by_cases hcc : Lane.cc.name ∈ vars
  · simp only [if_pos hcc]
    rfl
  · simp only [if_neg hcc]
    rfl

theorem unknownOutput_longWrites (vars : List Text) (t : TokenParams) :
    unknownOutput (longWrites vars t) = unknownOutput t := by
  unfold longWrites knownWrites
  by_cases hcc : Lane.cc.name ∈ vars
  · simp only [if_pos hcc]
    rfl
  · simp only [if_neg hcc]
    rfl

theorem shortWrites_get {vars : List Text} {l : Lane}
    (hw : t.cacheCreationTokensUnknown ≤ t.get (firstWriteLane vars)) (hl : l.name ∈ vars) :
    (shortWrites vars t).get l = (allocation vars t 0 0).get l := by
  unfold shortWrites knownWrites allocation
  by_cases hcc : Lane.cc.name ∈ vars
  · simp only [if_pos hcc]
    cases l with
    | c | cc12h => exact (add_zero _).symm
    | cc => exact (sub_add_cancel _ _).trans (sub_zero _).symm
    | rt => exact (sub_zero _).symm
    | _ => rfl
  · simp only [firstWriteLane, if_neg hcc, TokenParams.get] at hw
    simp only [if_neg hcc]
    cases l with
    | p =>
      simp only [TokenParams.get]
      rw [max_eq_left (sub_nonneg.mpr hw), sub_add_cancel, sub_zero]
    | c | cc12h => exact (add_zero _).symm
    | cc => exact absurd hl hcc
    | rt => exact (sub_zero _).symm
    | _ => rfl

theorem longWrites_get {vars : List Text} {l : Lane}
    (hw : t.cacheCreationTokensUnknown ≤ t.get (firstWriteLane vars)) (hl : l.name ∈ vars) :
    (longWrites vars t).get l = (allocation vars t 0 t.cacheCreationTokensUnknown).get l := by
  unfold longWrites knownWrites allocation
  by_cases hcc : Lane.cc.name ∈ vars
  · simp only [if_pos hcc]
    cases l with
    | c => exact (add_zero _).symm
    | rt => exact (sub_zero _).symm
    | _ => rfl
  · simp only [firstWriteLane, if_neg hcc] at hw
    simp only [if_neg hcc]
    cases l with
    | p => exact max_eq_left (sub_nonneg.mpr hw)
    | c => exact (add_zero _).symm
    | cc => exact absurd hl hcc
    | rt => exact (sub_zero _).symm
    | _ => rfl

structure Accepted (E : Engine) (snap : BillingSnapshot) (t : TokenParams) : Prop where
  reasoning : reasoningSplitIsSafe E snap.exprString = true
  cache : cacheCreationSplitIsSafe E snap.exprString = true
  ratio : 0 ≤ snap.groupRatio
  unit : 0 ≤ snap.quotaPerUnit
  env : envName ∉ usedVars E snap.exprString
  outputSeen : ∀ node, E.compile snap.exprString = some node →
    node.hides Lane.c.name Lane.rt.name = false
  writesSeen : ∀ node, E.compile snap.exprString = some node →
    node.hides (firstWriteLane (usedVars E snap.exprString)).name Lane.cc12h.name = false
  output : t.reasoningTokensFallback = true → Lane.rt.name ∈ usedVars E snap.exprString
  writes : t.cacheCreationTokensFallback = true → Lane.cc12h.name ∈ usedVars E snap.exprString
  lanes : InLanes (usedVars E snap.exprString) t
  runs : ∀ x y, 0 ≤ x → x ≤ unknownOutput t → 0 ≤ y → y ≤ unknownWrites t →
    runExpr E snap.exprString (allocation (usedVars E snap.exprString) t x y) ≠ none

def costAt (E : Engine) (snap : BillingSnapshot) (t : TokenParams) (x y : ℚ) : ℚ :=
  (runExpr E snap.exprString (allocation (usedVars E snap.exprString) t x y)).getD 0

theorem runExpr_some {exprString : Text} {cost : ℚ} (h : runExpr E exprString t = some cost) :
    ∃ node, E.compile exprString = some node ∧ eval E t node = some (.num cost) := by
  unfold runExpr at h
  split at h
  · cases h
  rename_i node hnode
  split at h
  · next q hq =>
    cases h
    exact ⟨node, hnode, hq⟩
  · cases h

namespace Accepted

section

variable (h : Accepted E snap t)
include h

theorem run_eq (hx : 0 ≤ x) (hxu : x ≤ unknownOutput t) (hy : 0 ≤ y) (hyw : y ≤ unknownWrites t) :
    runExpr E snap.exprString (allocation (usedVars E snap.exprString) t x y) =
      some (costAt E snap t x y) := by
  obtain ⟨cost, hcost⟩ := Option.ne_none_iff_exists'.mp (h.runs x y hx hxu hy hyw)
  simp [costAt, hcost]

theorem quota_eq (hx : 0 ≤ x) (hxu : x ≤ unknownOutput t) (hy : 0 ≤ y) (hyw : y ≤ unknownWrites t) :
    allocationQuota E snap t x y = some (quotaOf snap (costAt E snap t x y)) := by
  simp [allocationQuota, compute_of_run (h.run_eq hx hxu hy hyw)]

theorem eval_eq (hx : 0 ≤ x) (hxu : x ≤ unknownOutput t) (hy : 0 ≤ y) (hyw : y ≤ unknownWrites t)
    {node : Node} (hnode : E.compile snap.exprString = some node) :
    eval E (allocation (usedVars E snap.exprString) t x y) node =
      some (.num (costAt E snap t x y)) := by
  obtain ⟨node', hnode', heval⟩ := runExpr_some (h.run_eq hx hxu hy hyw)
  rw [hnode] at hnode'
  cases hnode'
  exact heval

theorem compiles : ∃ node, E.compile snap.exprString = some node := by
  obtain ⟨node, hnode, -⟩ := runExpr_some (h.run_eq le_rfl h.lanes.output.1 le_rfl h.lanes.writes.1)
  exact ⟨node, hnode⟩

theorem output_affine (hy : 0 ≤ y) (hyw : y ≤ unknownWrites t) :
    AffineOn (fun x => costAt E snap t x y) (unknownOutput t) := by
  obtain ⟨node, hnode⟩ := h.compiles
  rcases hfallback : t.reasoningTokensFallback
  · simp only [unknownOutput, hfallback, Bool.false_eq_true]
    exact affineOn_zero _
  · have hsafe : (tokenSplitFormFor Lane.c.name Lane.rt.name node).safe = true := by
      have hsafe := h.reasoning
      simp only [reasoningSplitIsSafe, if_neg (not_not_intro (h.output hfallback)), hnode] at hsafe
      exact hsafe
    refine cost_affineOn (E := E) (k := 1) (allocation_output_line (usedVars E snap.exprString) t y)
      (h.outputSeen node hnode) hsafe fun x hx hxu => ?_
    rw [one_mul]
    exact h.eval_eq hx hxu hy hyw hnode

theorem writes_affine (hx : 0 ≤ x) (hxu : x ≤ unknownOutput t) :
    AffineOn (costAt E snap t x) (unknownWrites t) := by
  obtain ⟨node, hnode⟩ := h.compiles
  rcases hfallback : t.cacheCreationTokensFallback
  · simp only [unknownWrites, hfallback, Bool.false_eq_true]
    exact affineOn_zero _
  · have hsafe : (tokenSplitFormFor (firstWriteLane (usedVars E snap.exprString)).name
        Lane.cc12h.name node).safe = true := by
      have hsafe := h.cache
      simp only [cacheCreationSplitIsSafe, if_neg (not_not_intro (h.writes hfallback)),
        hnode] at hsafe
      exact hsafe
    refine cost_affineOn (E := E) (k := -1) (allocation_writes_line (usedVars E snap.exprString) t x)
      (h.writesSeen node hnode) hsafe fun y hy hyw => ?_
    have hback : -1 * (-1 * y) = y := by ring
    rw [hback]
    exact h.eval_eq hx hxu hy hyw hnode

theorem cost_le_corners (hx : 0 ≤ x) (hxu : x ≤ unknownOutput t) (hy : 0 ≤ y)
    (hyw : y ≤ unknownWrites t) :
    costAt E snap t x y ≤
      max (max (costAt E snap t 0 0) (costAt E snap t (unknownOutput t) 0))
        (max (costAt E snap t 0 (unknownWrites t))
          (costAt E snap t (unknownOutput t) (unknownWrites t))) :=
  le_max_corners (fun _ hy hyw => h.output_affine hy hyw) (fun _ hx hxu => h.writes_affine hx hxu)
    hx hxu hy hyw

theorem settle_row {s : TokenParams} (hy : 0 ≤ y) (hyw : y ≤ unknownWrites t)
    (hout : unknownOutput s = unknownOutput t)
    (hlanes : ∀ l : Lane, l.name ∈ usedVars E snap.exprString →
      s.get l = (allocation (usedVars E snap.exprString) t 0 y).get l) :
    (settleAllocated E info snap s).1 = max (quotaOf snap (costAt E snap t 0 y))
      (quotaOf snap (costAt E snap t (unknownOutput t) y)) := by
  obtain ⟨hu, -⟩ := h.lanes.output
  have hzero := h.quota_eq le_rfl hu hy hyw
  have hend := h.quota_eq hu le_rfl hy hyw
  refine settleAllocated_max ?_ ?_
  · rw [compute_congr h.env hlanes]
    exact hzero
  · rw [hout]
    have hshift : ∀ l : Lane, l.name ∈ usedVars E snap.exprString →
        (shiftOutput s (unknownOutput t)).get l =
          (allocation (usedVars E snap.exprString) t (unknownOutput t) y).get l := by
      intro l hl
      have hlane := hlanes l hl
      cases l with
      | c =>
        simp only [shiftOutput, allocation, TokenParams.get, add_zero] at hlane ⊢
        rw [hlane]
      | rt =>
        simp only [shiftOutput, allocation, TokenParams.get, sub_zero] at hlane ⊢
        rw [hlane]
      | _ => exact hlane
    rw [compute_congr h.env hshift]
    exact hend

theorem settleWith_eq :
    (settleWith E info snap t).1 =
      max (max (quotaOf snap (costAt E snap t 0 0))
          (quotaOf snap (costAt E snap t (unknownOutput t) 0)))
        (max (quotaOf snap (costAt E snap t 0 (unknownWrites t)))
          (quotaOf snap (costAt E snap t (unknownOutput t) (unknownWrites t)))) := by
  obtain ⟨hw, hwlane⟩ := h.lanes.writes
  unfold settleWith
  split
  · next hfallback =>
    have hunknown : unknownWrites t = t.cacheCreationTokensUnknown := by
      simp [unknownWrites, hfallback]
    rw [hunknown] at hw hwlane ⊢
    have hyw : t.cacheCreationTokensUnknown ≤ unknownWrites t := hunknown.ge
    have hshort : (settleAllocated E info snap (shortWrites (usedVars E snap.exprString) t)).1 =
        _ := h.settle_row le_rfl (hw.trans hyw) (unknownOutput_shortWrites _ t)
      fun l hl => shortWrites_get hwlane hl
    have hlong : (settleAllocated E info snap (longWrites (usedVars E snap.exprString) t)).1 =
        _ := h.settle_row hw hyw (unknownOutput_longWrites _ t)
      fun l hl => longWrites_get hwlane hl
    rw [← hshort, ← hlong]
    dsimp only
    split
    · next hlt => exact (max_eq_right hlt.le).symm
    · next hlt => exact (max_eq_left (not_lt.mp hlt)).symm
  · next hfallback =>
    have hunknown : unknownWrites t = 0 := by
      simp [unknownWrites, if_neg hfallback]
    rw [hunknown, max_self]
    refine h.settle_row le_rfl hw rfl fun l hl => ?_
    unfold allocation
    cases l with
    | p => simp [TokenParams.get]
    | c | cc12h => exact (add_zero _).symm
    | cc => simp [TokenParams.get]
    | rt => exact (sub_zero _).symm
    | _ => rfl

end

end Accepted

/-- The settlement of unknown splits is the quota of the dearest allocation. -/
theorem tiered_settle_charges_worst_case (hsnap : info.tieredBillingSnapshot = some snap)
    (hmode : snap.billingMode = tieredExpr) (h : Accepted E snap t) :
    (∀ x y, 0 ≤ x → x ≤ unknownOutput t → 0 ≤ y → y ≤ unknownWrites t →
      ∃ q, allocationQuota E snap t x y = some q ∧ q ≤ (tryTieredSettle E info t).2.1) ∧
    ∃ x y, 0 ≤ x ∧ x ≤ unknownOutput t ∧ 0 ≤ y ∧ y ≤ unknownWrites t ∧
      allocationQuota E snap t x y = some (tryTieredSettle E info t).2.1 := by
  have hsettle : (tryTieredSettle E info t).2.1 = (settleWith E info snap t).1 := by
    simp [tryTieredSettle, hsnap, hmode]
  have hmono : Monotone (quotaOf snap) := fun _ _ => quotaOf_mono h.ratio h.unit
  obtain ⟨hu, -⟩ := h.lanes.output
  obtain ⟨hw, -⟩ := h.lanes.writes
  rw [hsettle, h.settleWith_eq]
  refine ⟨fun x y hx hxu hy hyw => ⟨_, h.quota_eq hx hxu hy hyw, ?_⟩, ?_⟩
  · have hcorner := hmono (h.cost_le_corners hx hxu hy hyw)
    rw [hmono.map_max, hmono.map_max, hmono.map_max] at hcorner
    exact hcorner
  · -- a maximum of four is one of them
    rcases max_choice (max (quotaOf snap (costAt E snap t 0 0))
        (quotaOf snap (costAt E snap t (unknownOutput t) 0)))
      (max (quotaOf snap (costAt E snap t 0 (unknownWrites t)))
        (quotaOf snap (costAt E snap t (unknownOutput t) (unknownWrites t)))) with hmax | hmax
    · rw [hmax]
      rcases max_choice (quotaOf snap (costAt E snap t 0 0))
        (quotaOf snap (costAt E snap t (unknownOutput t) 0)) with hmax | hmax
      · exact ⟨0, 0, le_rfl, hu, le_rfl, hw, by rw [hmax]; exact h.quota_eq le_rfl hu le_rfl hw⟩
      · exact ⟨_, 0, hu, le_rfl, le_rfl, hw, by rw [hmax]; exact h.quota_eq hu le_rfl le_rfl hw⟩
    · rw [hmax]
      rcases max_choice (quotaOf snap (costAt E snap t 0 (unknownWrites t)))
        (quotaOf snap (costAt E snap t (unknownOutput t) (unknownWrites t))) with hmax | hmax
      · exact ⟨0, _, le_rfl, hu, hw, le_rfl, by rw [hmax]; exact h.quota_eq le_rfl hu hw le_rfl⟩
      · exact ⟨_, _, hu, le_rfl, hw, le_rfl, by rw [hmax]; exact h.quota_eq hu le_rfl hw le_rfl⟩

def fourLanesText : Text := "p * 1 + c * 4 + rt * 6 + cc12h * 3".toList

def fourLanes : Node :=
  .binary .add (.binary .add (.binary .add (price .p 1) (price .c 4)) (price .rt 6))
    (price .cc12h 3)

def unsplitTokens : TokenParams :=
  { p := 100, c := 0, len := 100, cr := 0, cc := 40, cc1h := 0, cc12h := 0
    cacheCreationTokensUnknown := 40, cacheCreationTokensFallback := true
    img := 0, imgO := 0, ai := 0, ao := 0
    rt := 50, reasoningTokensUnknown := 50, reasoningTokensFallback := true }

theorem fourLanes_accepted :
    Accepted (oneExpr fourLanesText fourLanes) (snapshotOf fourLanesText) unsplitTokens where
  reasoning := by decide
  cache := by decide
  ratio := by decide
  unit := by decide
  env := by decide
  outputSeen := by
    rintro node ⟨⟩
    decide
  writesSeen := by
    rintro node ⟨⟩
    decide
  output _ := by decide
  writes _ := by decide
  lanes := ⟨by decide, by decide⟩
  runs x y _ _ _ _ := by
    simp [runExpr, oneExpr, snapshotOf, coreEngine, fourLanes, price, lane, eval, evalBinary, strictBinary, lookup_name,
      applyBinary, arithmetic, addValues]

theorem tiered_settle_charges_worst_case_fourLanes :
    (tryTieredSettle (oneExpr fourLanesText fourLanes) ⟨some (snapshotOf fourLanesText), 0⟩
      unsplitTokens).2.1 = 480 ∧
    (∀ x y, 0 ≤ x → x ≤ unknownOutput unsplitTokens → 0 ≤ y → y ≤ unknownWrites unsplitTokens →
      ∃ q, allocationQuota (oneExpr fourLanesText fourLanes) (snapshotOf fourLanesText)
          unsplitTokens x y = some q ∧
        q ≤ (tryTieredSettle (oneExpr fourLanesText fourLanes)
          ⟨some (snapshotOf fourLanesText), 0⟩ unsplitTokens).2.1) :=
  ⟨by decide +kernel, (tiered_settle_charges_worst_case rfl rfl fourLanes_accepted).1⟩

/-- Without `rt` the split is not analysed. -/
def parabolaText : Text := "c * (500 - c)".toList

def parabola : Node := .binary .mul (lane .c) (.binary .sub (.int 500) (lane .c))

def dearCompletionText : Text := "c * 2 + rt".toList

def dearCompletion : Node := .binary .add (price .c 2) (lane .rt)

/-- `get($env, "rt")`. -/
def hiddenReasoning : Node := .builtin "get".toList [.ident envName, .const (.str Lane.rt.name)]

def hiddenParabolaText : Text :=
  "rt + get($env, \"rt\") * (500 - get($env, \"rt\"))".toList

def hiddenParabola : Node :=
  .binary .add (lane .rt)
    (.binary .mul hiddenReasoning (.binary .sub (.int 500) hiddenReasoning))

def hiddenWaitText : Text :=
  "rt + duration(string(c) + \"s\").Seconds() * ".toList ++
    "(500 - duration(string(c) + \"s\").Seconds())".toList

def hiddenWait : Node :=
  .binary .add (lane .rt) (.binary .mul hiddenSeconds (.binary .sub (.int 500) hiddenSeconds))

def waitEngine : Engine :=
  { secondsEngine with
    compile := fun text => if text = hiddenWaitText then some hiddenWait else none }

def unsplitOutput (unknown : ℚ) : TokenParams :=
  { p := 0, c := 0, len := 0, cr := 0, cc := 0, cc1h := 0, cc12h := 0
    cacheCreationTokensUnknown := 0, cacheCreationTokensFallback := false
    img := 0, imgO := 0, ai := 0, ao := 0
    rt := 500, reasoningTokensUnknown := unknown, reasoningTokensFallback := true }

def settledQuota (E : Engine) (text : Text) (t : TokenParams) : ℤ :=
  (tryTieredSettle E ⟨some (snapshotOf text), 0⟩ t).2.1

def quotaAt (E : Engine) (text : Text) (t : TokenParams) (x : ℚ) : Option ℤ :=
  allocationQuota E (snapshotOf text) t x 0

structure SplitsSafe (E : Engine) (text : Text) : Prop where
  reasoning : reasoningSplitIsSafe E text = true
  cache : cacheCreationSplitIsSafe E text = true
  runs : ∀ t, runExpr E text t ≠ none

/-- A dearer allocation of an expression without `rt`; a charge above every allocation when the
unknown count is 0; a dearer allocation of an expression that reads `rt` through `$env`, and of
one that reads `c` through the method of a value. -/
theorem tiered_settle_not_worst_case :
    (SplitsSafe (oneExpr parabolaText parabola) parabolaText ∧
      settledQuota (oneExpr parabolaText parabola) parabolaText (unsplitOutput 500) = 0 ∧
      quotaAt (oneExpr parabolaText parabola) parabolaText (unsplitOutput 500) 250 =
        some 62500) ∧
    (SplitsSafe (oneExpr dearCompletionText dearCompletion) dearCompletionText ∧
      settledQuota (oneExpr dearCompletionText dearCompletion) dearCompletionText
        (unsplitOutput 0) = 1000 ∧
      quotaAt (oneExpr dearCompletionText dearCompletion) dearCompletionText (unsplitOutput 0) 0 =
        some 500) ∧
    (SplitsSafe (oneExpr hiddenParabolaText hiddenParabola) hiddenParabolaText ∧
      settledQuota (oneExpr hiddenParabolaText hiddenParabola) hiddenParabolaText
        (unsplitOutput 500) = 500 ∧
      quotaAt (oneExpr hiddenParabolaText hiddenParabola) hiddenParabolaText (unsplitOutput 500)
        250 = some 62750) ∧
    SplitsSafe waitEngine hiddenWaitText ∧
      settledQuota waitEngine hiddenWaitText (unsplitOutput 500) = 500 ∧
      quotaAt waitEngine hiddenWaitText (unsplitOutput 500) 250 = some 62750 := by
  have hparabola : SplitsSafe (oneExpr parabolaText parabola) parabolaText := by
    refine ⟨by decide, by decide, fun t => ?_⟩
    simp [runExpr, oneExpr, coreEngine, parabola, lane, eval, evalBinary, strictBinary, lookup_name,
      applyBinary, arithmetic]
  have hdear : SplitsSafe (oneExpr dearCompletionText dearCompletion) dearCompletionText := by
    refine ⟨by decide, by decide, fun t => ?_⟩
    simp [runExpr, oneExpr, coreEngine, dearCompletion, price, lane, eval, evalBinary, strictBinary,
      lookup_name, applyBinary, arithmetic, addValues]
  have hhidden : SplitsSafe (oneExpr hiddenParabolaText hiddenParabola) hiddenParabolaText := by
    have henv : ∀ t : TokenParams, t.lookup envName = some (.env t.visible) := fun t => rfl
    refine ⟨by decide +kernel, by decide, fun t => ?_⟩
    simp [runExpr, oneExpr, coreEngine, hiddenParabola, hiddenReasoning, lane, eval, evalAll,
      evalBinary, strictBinary, henv, lookup_name, getBuiltin, applyBinary, arithmetic, addValues]
  have hwait : SplitsSafe waitEngine hiddenWaitText := by
    refine ⟨by decide +kernel, by decide +kernel, fun t => ?_⟩
    have hcompile : waitEngine.compile hiddenWaitText = some hiddenWait := by simp [waitEngine]
    have hseconds : eval waitEngine t hiddenSeconds = some (.num (t.get .c)) := rfl
    simp [runExpr, hcompile, hiddenWait, hseconds, lane, eval, evalBinary, strictBinary,
      lookup_name, applyBinary, arithmetic, addValues]
  refine ⟨⟨hparabola, ?_, ?_⟩, ⟨hdear, ?_, ?_⟩, ⟨hhidden, ?_, ?_⟩, hwait, ?_, ?_⟩
  all_goals decide +kernel

end NewApi.Service.Tiered
