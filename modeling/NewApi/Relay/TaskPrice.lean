import NewApi.Relay.TaskSubmit

/-!
# What a submitted task costs

Its base quota times its ratios, rounded down, unless a step on the way cuts a fraction off or loses
a ratio.
-/

namespace NewApi.Relay.TaskSubmit

def Whole (x : ℚ) : Prop := (⌊x⌋ : ℚ) = x

theorem goInt_zero : goInt 0 = 0 := by
  decide +kernel

theorem goInt_of_whole {x : ℚ} (h : Whole x) : (goInt x : ℚ) = x := by
  unfold goInt
  split
  · exact h
  · have hx : x = ((⌊x⌋ : ℤ) : ℚ) := h.symm
    rw [hx, Int.ceil_intCast]

theorem goInt_eq_floor {x : ℚ} (h : 0 ≤ x ∨ Whole x) : goInt x = ⌊x⌋ := by
  rcases h with h | h
  · exact if_pos h
  · calc goInt x = ⌊(goInt x : ℚ)⌋ := (Int.floor_intCast _).symm
      _ = ⌊x⌋ := by rw [goInt_of_whole h]

theorem applyRatios_cons (q : ℤ) (r : ℚ) (rs : List ℚ) :
    applyRatios q (r :: rs) = applyRatios (if r ≠ 1 then goInt (q * r) else q) rs := rfl

theorem step_of_whole {q : ℤ} {r : ℚ} (h : Whole (q * r)) :
    ((if r ≠ 1 then goInt (q * r) else q : ℤ) : ℚ) = q * r := by
  split
  · exact goInt_of_whole h
  · next hr => rw [not_not.mp hr, mul_one]

theorem last_step {q : ℤ} {r : ℚ} (h : 0 ≤ (q : ℚ) * r ∨ Whole (q * r)) :
    (if r ≠ 1 then goInt (q * r) else q) = ⌊(q : ℚ) * r⌋ := by
  split
  · exact goInt_eq_floor h
  · next hr => rw [not_not.mp hr, mul_one, Int.floor_intCast]

theorem applyRatios_eq_floor (rs : List ℚ) : ∀ q : ℤ,
    (∀ l₁ l₂, l₁ ++ l₂ = rs → l₂ ≠ [] → Whole (q * l₁.prod)) →
    (0 ≤ (q : ℚ) * rs.prod ∨ Whole (q * rs.prod)) →
    applyRatios q rs = ⌊(q : ℚ) * rs.prod⌋ := by
  induction rs with
  | nil =>
    intro q _ _
    rw [List.prod_nil, mul_one]
    rfl
  | cons r rs ih =>
    intro q hw h0
    rw [applyRatios_cons]
    by_cases hrs : rs = []
    · subst hrs
      rw [List.prod_singleton] at h0 ⊢
      exact last_step h0
    · have hr : Whole ((q : ℚ) * r) := by
        have h := hw [r] rs rfl hrs
        rwa [List.prod_singleton] at h
      have hq := step_of_whole hr
      rw [ih, hq, List.prod_cons, mul_assoc]
      · intro l₁ l₂ hl hne
        rw [hq, mul_assoc]
        exact hw (r :: l₁) l₂ (congrArg (r :: ·) hl) hne
      · rw [hq, mul_assoc]
        exact h0

theorem applyRatios_of_whole (rs : List ℚ) : ∀ q : ℤ,
    (∀ l₁ l₂, l₁ ++ l₂ = rs → Whole (q * l₁.prod)) →
    ((applyRatios q rs : ℤ) : ℚ) = q * rs.prod := by
  induction rs with
  | nil =>
    intro q _
    exact (mul_one _).symm
  | cons r rs ih =>
    intro q hw
    have hr : Whole ((q : ℚ) * r) := by
      have h := hw [r] rs rfl
      rwa [List.prod_singleton] at h
    have hq := step_of_whole hr
    rw [applyRatios_cons, ih, hq, List.prod_cons, mul_assoc]
    intro l₁ l₂ hl
    rw [hq, mul_assoc]
    exact hw (r :: l₁) l₂ (congrArg (r :: ·) hl)

theorem divideRatios_eq (q : ℤ) (rs : List ℚ) : ∀ n : ℤ, (n : ℚ) = q * rs.prod →
    (∀ r ∈ rs, 0 < r) → (∀ l₁ l₂, l₁ ++ l₂ = rs → Whole (q * l₂.prod)) →
    divideRatios n rs = q := by
  induction rs with
  | nil =>
    intro n hn _ _
    rw [List.prod_nil, mul_one] at hn
    exact_mod_cast hn
  | cons r rs ih =>
    intro n hn hpos hw
    have hr : 0 < r := hpos r List.mem_cons_self
    have hdiv : (n : ℚ) / r = q * rs.prod := by
      rw [hn, List.prod_cons]
      field_simp
    have hwhole : Whole ((n : ℚ) / r) := by
      rw [hdiv]
      exact hw [r] rs rfl
    have hnext : ((if r ≠ 1 ∧ 0 < r then goInt (n / r) else n : ℤ) : ℚ) = q * rs.prod := by
      split
      · rw [goInt_of_whole hwhole, hdiv]
      rename_i h
      have h1 : r = 1 := by
        by_contra hne
        exact h ⟨hne, hr⟩
      rw [← hdiv, h1, div_one]
    apply ih _ hnext
    · intro x hx
      exact hpos x (List.mem_cons_of_mem _ hx)
    · intro l₁ l₂ hl
      exact hw (r :: l₁) l₂ (congrArg (r :: ·) hl)

theorem divideRatios_ones (q : ℤ) (rs : List ℚ) (h : ∀ r ∈ rs, r = 1) :
    divideRatios q rs = q := by
  induction rs with
  | nil => rfl
  | cons r rs ih =>
    have hr : r = 1 := h r List.mem_cons_self
    rw [divideRatios, List.foldl_cons, if_neg (fun hc => hc.1 hr)]
    apply ih
    intro x hx
    exact h x (List.mem_cons_of_mem _ hx)

theorem divideRatios_zero (rs : List ℚ) : divideRatios 0 rs = 0 := by
  induction rs with
  | nil => rfl
  | cons r rs ih =>
    rw [divideRatios, List.foldl_cons, Int.cast_zero, zero_div, goInt_zero, ite_self]
    exact ih

/-- The ratios that the loops use: they skip a ratio of 1. -/
def changing (ratios : List ℚ) : List ℚ := ratios.filter fun r => decide (r ≠ 1)

theorem changing_prod (rs : List ℚ) : (changing rs).prod = rs.prod := by
  induction rs with
  | nil => rfl
  | cons r rs ih =>
    by_cases hr : r = 1
    · rw [changing, List.filter_cons_of_neg (by simp [hr]), ← changing, ih, hr, List.prod_cons, one_mul]
    · rw [changing, List.filter_cons_of_pos (by simp [hr]), ← changing, List.prod_cons, ih,
        List.prod_cons]

theorem applyRatios_changing (q : ℤ) (rs : List ℚ) :
    applyRatios q (changing rs) = applyRatios q rs := by
  unfold applyRatios changing
  rw [List.foldl_filter]
  congr 1
  funext n r
  by_cases hr : r = 1
  · simp [hr]
  · simp [hr]

theorem divideRatios_changing (q : ℤ) (rs : List ℚ) :
    divideRatios q (changing rs) = divideRatios q rs := by
  unfold divideRatios changing
  rw [List.foldl_filter]
  congr 1
  funext n r
  by_cases hr : r = 1
  · simp [hr]
  · simp [hr]

theorem multiplyRatios_eq (q : ℤ) (rs : List ℚ) : multiplyRatios q rs = q * rs.prod := by
  have h : ∀ (rs : List ℚ) (x : ℚ),
      rs.foldl (fun result ra => if ra ≠ 1 then result * ra else result) x = x * rs.prod := by
    intro rs
    induction rs with
    | nil => intro x; exact (mul_one x).symm
    | cons r rs ih =>
      intro x
      rw [List.foldl_cons, ih, List.prod_cons, ← mul_assoc]
      congr 1
      split
      · rfl
      · next hr => rw [not_not.mp hr, mul_one]
  exact h rs q

theorem mem_addOtherRatio {m : Ratios} {key : Text} {ratio r : ℚ}
    (hm : ∀ x ∈ m.values, 0 < x) (h : r ∈ (addOtherRatio m key ratio).values) : 0 < r := by
  unfold addOtherRatio at h
  split at h
  · exact hm r h
  rename_i hpos
  rw [Ratios.values, AList.entries_insert, List.map_cons, List.mem_cons] at h
  rcases h with rfl | h
  · exact not_le.mp hpos
  · apply hm r
    obtain ⟨e, he, rfl⟩ := List.mem_map.mp h
    exact List.mem_map_of_mem ((List.kerase_sublist key m.entries).subset he)

theorem addOtherRatios_pos (m estimated : Ratios) (hm : ∀ x ∈ m.values, 0 < x) :
    ∀ r ∈ (addOtherRatios m estimated).values, 0 < r := by
  have h : ∀ (es : List (Sigma fun _ : Text => ℚ)) (m : Ratios), (∀ x ∈ m.values, 0 < x) →
      ∀ r ∈ (es.foldl (fun m e => addOtherRatio m e.1 e.2) m).values, 0 < r := by
    intro es
    induction es with
    | nil => intro m hm; exact hm
    | cons e es ih =>
      intro m hm
      apply ih
      intro x hx
      exact mem_addOtherRatio hm hx
  exact h estimated.entries m hm

variable {cfg : Config} {a : Attempt} {info priced : Info} {g : Text}

theorem applyTaskPriceUnit_pos {name : Text} {m : Ratios} (hm : ∀ x ∈ m.values, 0 < x) :
    ∀ r ∈ (applyTaskPriceUnit cfg name m).values, 0 < r := by
  intro r hr
  unfold applyTaskPriceUnit at hr
  split at hr
  · apply hm r
    obtain ⟨e, he, rfl⟩ := List.mem_map.mp hr
    exact List.mem_map_of_mem ((List.kerase_sublist secondsKey m.entries).subset he)
  · exact hm r hr

/-- The ratios of a request over those of its origin task, without `seconds` where the model is
priced per call. -/
def requestRatios (cfg : Config) (a : Attempt) (origin : Ratios) : Ratios :=
  applyTaskPriceUnit cfg a.billingModelName (addOtherRatios origin a.estimateBilling)

theorem requestRatios_pos (cfg : Config) (a : Attempt) :
    ∀ r ∈ (requestRatios cfg a ∅).values, 0 < r := by
  apply applyTaskPriceUnit_pos
  apply addOtherRatios_pos
  intro x hx
  cases hx

def ratioMap (cfg : Config) (origin : Option OriginTask) (pricedBy acceptedBy : Attempt) :
    Ratios :=
  if !acceptedBy.adjustBillingOnSubmit.entries.isEmpty then acceptedBy.adjustBillingOnSubmit
  else if isPatched cfg pricedBy.billingModelName then ∅
  else requestRatios cfg pricedBy (resolveOriginTask origin)

theorem modelPriceHelperPerCall_otherRatios {o b u g : Text} {p : PriceData}
    (h : modelPriceHelperPerCall cfg o b u g = .ok p) : p.otherRatios = ∅ := by
  unfold modelPriceHelperPerCall at h
  split at h
  · cases h
  dsimp only at h
  split at h
  · cases h; rfl
  · cases h; rfl
  · split at h
    · cases h
    · cases h; rfl

def Priced (cfg : Config) (info : Info) (a : Attempt) (group : Text) (d : PriceData) : Prop :=
  ∃ base loop, modelPriceHelperPerCall cfg info.originModelName a.billingModelName info.userGroup
    group = .ok base ∧ d = withRatios cfg a loop base (requestRatios cfg a ∅)

def RoutePriced (cfg : Config) (info : Info) (a : Attempt) : Prop :=
  info.tokenGroup = autoName → ∀ c ∈ info.autoRoute.candidates, Priced cfg info a c.group c.priceData

def SameRequest (info info' : Info) : Prop :=
  info'.originModelName = info.originModelName ∧ info'.userGroup = info.userGroup ∧
    info'.tokenGroup = info.tokenGroup

theorem Priced.congr {info info' : Info} {d : PriceData} (hs : SameRequest info info')
    (h : Priced cfg info a g d) : Priced cfg info' a g d := by
  unfold Priced
  rw [hs.1, hs.2.1]
  exact h

theorem RoutePriced.congr {info info' : Info} (hs : SameRequest info info')
    (hroute : info'.autoRoute.candidates = info.autoRoute.candidates) (h : RoutePriced cfg info a) :
    RoutePriced cfg info' a := by
  intro htok c hc
  rw [hs.2.2] at htok
  rw [hroute] at hc
  exact (h htok c hc).congr hs

theorem routePriced_of_not_ready {info : Info} (h : autoRouteReady info = false) :
    RoutePriced cfg info a := by
  intro htok c hc
  rw [autoRouteReady, decide_eq_true htok, Bool.true_and, Bool.not_eq_false'] at h
  rw [List.isEmpty_iff.mp h] at hc
  cases hc

theorem buildCandidates_spec {groups : List Text} {i : ℕ} {state state' : AutoRouteState}
    (h : buildCandidates cfg a info (requestRatios cfg a ∅) i groups state = .ok state') :
    ∃ new, state'.candidates = state.candidates ++ new ∧
      new.map AutoRouteCandidate.group = groups ∧
      ∀ c ∈ new, Priced cfg info a c.group c.priceData := by
  induction groups generalizing i state with
  | nil =>
    cases h
    exact ⟨[], (List.append_nil _).symm, rfl, fun _ hc => by cases hc⟩
  | cons g groups ih =>
    rw [buildCandidates] at h
    split at h
    · cases h
    rename_i p hp
    obtain ⟨new, hnew, hgroups, hpriced⟩ := ih h
    rw [apply_ite AutoRouteState.candidates, ite_self, List.append_assoc] at hnew
    refine ⟨_, hnew, congrArg (g :: ·) hgroups, fun c hc => ?_⟩
    rcases List.mem_cons.mp hc with rfl | hc
    · exact ⟨p, .candidate i, hp, rfl⟩
    · exact hpriced c hc

theorem applyAutoRouteCandidate_isSome {info : Info}
    (h : ∃ c ∈ info.autoRoute.candidates, c.group = g) :
    ∃ info', applyAutoRouteCandidate info g = some info' := by
  obtain ⟨c, hc, hg⟩ := h
  have hfind : (info.autoRoute.candidates.find? fun c => decide (c.group = g)).isSome := by
    rw [List.find?_isSome]
    exact ⟨c, hc, decide_eq_true hg⟩
  obtain ⟨d, hd⟩ := Option.isSome_iff_exists.mp hfind
  exact ⟨_, by rw [applyAutoRouteCandidate, hd]; rfl⟩

structure Settled (cfg : Config) (info : Info) (a : Attempt) (priced : Info) : Prop where
  same : SameRequest info priced
  price : Priced cfg priced a priced.usingGroup priced.priceData
  route : RoutePriced cfg priced a

theorem settled_of_candidate (h : applyAutoRouteCandidate info g = some priced)
    (htok : info.tokenGroup = autoName) (hroute : RoutePriced cfg info a) :
    Settled cfg info a priced := by
  obtain ⟨c, hc, rfl⟩ := Option.map_eq_some_iff.mp h
  have hs : SameRequest info { info with usingGroup := c.group, priceData := c.priceData } :=
    ⟨rfl, rfl, rfl⟩
  have hprice := (hroute htok c (List.mem_of_find?_eq_some hc)).congr hs
  refine ⟨hs, ?_, hroute.congr hs rfl⟩
  exact hprice

theorem buildAutoPerCallRouteState_settled {first : Text} {groups : List Text}
    (h : buildAutoPerCallRouteState cfg a info first groups (requestRatios cfg a ∅) = .ok priced)
    (htok : info.tokenGroup = autoName) : Settled cfg info a priced := by
  unfold buildAutoPerCallRouteState at h
  split at h
  · cases h
  rename_i state hstate
  obtain ⟨new, hnew, hgroups, hpriced⟩ := buildCandidates_spec hstate
  obtain ⟨found, rest, rfl, hfound, -⟩ := List.map_eq_cons_iff.mp hgroups
  rw [List.nil_append] at hnew
  have hroute : ∀ used init, RoutePriced cfg
      { info with autoRoute := { state with
          initialGroup := init
          usedGroup := used } } a := by
    intro used init _ c hc
    exact hpriced c (hnew ▸ hc)
  dsimp only at h
  split at h
  · next applied happ =>
    cases h
    have hs := settled_of_candidate happ htok (hroute _ _)
    exact ⟨hs.same, hs.price, hs.route⟩
  · have hfound : ∃ applied, applyAutoRouteCandidate
        { info with autoRoute := { state with
            initialGroup := first
            usedGroup := first } } first = some applied :=
      applyAutoRouteCandidate_isSome ⟨found, hnew ▸ List.mem_cons_self, hfound⟩
    obtain ⟨applied, happ⟩ := hfound
    rw [happ] at h
    cases h
    have hs := settled_of_candidate happ htok (hroute _ _)
    exact ⟨hs.same, hs.price, hs.route⟩

theorem priceAttempt_settled {a prior : Attempt} (hroute : RoutePriced cfg info prior)
    (h : priceAttempt cfg a info = .ok priced) :
    Settled cfg info (if autoRouteReady info then prior else a) priced := by
  unfold priceAttempt at h
  split at h
  · next hready =>
    rw [if_pos hready]
    have htok : info.tokenGroup = autoName :=
      of_decide_eq_true (Bool.and_eq_true_iff.mp hready).1
    split at h
    · next applied happ =>
      cases h
      exact settled_of_candidate happ htok hroute
    · cases h
  · next hready =>
    rw [if_neg hready]
    dsimp only at h
    split at h
    · cases h
    rename_i p hp
    rw [modelPriceHelperPerCall_otherRatios hp] at h
    have hown : Settled cfg info a
        { info with
          usingGroup := info.autoGroup.getD info.usingGroup
          priceData := withRatios cfg a .applied p (requestRatios cfg a ∅) } :=
      ⟨⟨rfl, rfl, rfl⟩, ⟨p, .applied, hp, rfl⟩,
        routePriced_of_not_ready (Bool.eq_false_iff.mpr hready)⟩
    split at h
    · cases h
      exact hown
    · split at h
      · next htok =>
        have hs := buildAutoPerCallRouteState_settled h htok
        exact ⟨hs.same, hs.price, hs.route⟩
      · cases h
        exact hown

def WholeBeforeLast (base : ℤ) (ratios : List ℚ) : Prop :=
  ∀ l₁ l₂ : List ℚ, (l₁ ++ l₂).Perm (changing ratios) → l₂ ≠ [] → Whole (base * l₁.prod)

def WholeThroughout (base : ℤ) (ratios : List ℚ) : Prop :=
  ∀ l₁ l₂ : List ℚ, (l₁ ++ l₂).Perm (changing ratios) → Whole (base * l₁.prod)

/-- When the charge is exact. Without an adjustment the ratios of the origin task that the request
does not set leave the price as it is, and no step before the last has a fraction to cut. With
one, the ratios that are divided out were multiplied in, and without a loss, or the task is free.
The last step cuts a fraction off towards zero, which is down unless the price is negative. -/
structure ChargedExactly (cfg : Config) (origin : Option OriginTask)
    (pricedBy acceptedBy : Attempt) (base : ℤ) : Prop where
  last : 0 ≤ (base : ℚ) * (ratioMap cfg origin pricedBy acceptedBy).product ∨
    Whole (base * (ratioMap cfg origin pricedBy acceptedBy).product)
  unadjusted : acceptedBy.adjustBillingOnSubmit.entries.isEmpty = true →
    isPatched cfg pricedBy.billingModelName = false →
    (base : ℚ) * (requestRatios cfg pricedBy (resolveOriginTask origin)).product =
      base * (requestRatios cfg pricedBy ∅).product ∧
    WholeBeforeLast base (requestRatios cfg pricedBy ∅).values
  adjusted : acceptedBy.adjustBillingOnSubmit.entries.isEmpty = false →
    isPatched cfg pricedBy.billingModelName = false →
    WholeThroughout base (requestRatios cfg pricedBy ∅).values
  adjustedPatched : acceptedBy.adjustBillingOnSubmit.entries.isEmpty = false →
    isPatched cfg pricedBy.billingModelName = true →
    base = 0 ∨ ∀ r ∈ (requestRatios cfg pricedBy ∅).values, r = 1

section Charge

variable {cfg : Config} {origin : Option OriginTask} {p a : Attempt} {info : Info} {base : PriceData}
  {loop : Loop}

theorem quota_unadjusted (hx : ChargedExactly cfg origin p a base.quota)
    (hadj : a.adjustBillingOnSubmit.entries.isEmpty = true) :
    (withRatios cfg p loop base (requestRatios cfg p ∅)).quota =
      ⌊(base.quota : ℚ) * (ratioMap cfg origin p a).product⌋ := by
  have h0 := hx.last
  simp only [ratioMap, hadj, Bool.not_true] at h0 ⊢
  unfold withRatios
  cases hpatched : isPatched cfg p.billingModelName with
  | true =>
    simp [Ratios.product, Ratios.values]
  | false =>
    rw [hpatched] at h0
    simp only [Bool.false_eq_true, if_false] at h0 ⊢
    obtain ⟨horigin, hwhole⟩ := hx.unadjusted hadj hpatched
    rw [horigin] at h0 ⊢
    have hperm := p.order.perm loop (requestRatios cfg p ∅)
    have hprod : (changing (p.order.range loop (requestRatios cfg p ∅))).prod =
        (requestRatios cfg p ∅).product := (changing_prod _).trans hperm.prod_eq
    rw [← hprod] at h0 ⊢
    rw [← applyRatios_changing]
    apply applyRatios_eq_floor _ _ _ h0
    intro l₁ l₂ hl hne
    exact hwhole l₁ l₂ (hl ▸ hperm.filter _) hne

theorem divided_back (hx : ChargedExactly cfg origin p a base.quota)
    (hadj : a.adjustBillingOnSubmit.entries.isEmpty = false) :
    divideRatios (withRatios cfg p loop base (requestRatios cfg p ∅)).quota
      (a.order.range .divided (requestRatios cfg p ∅)) = base.quota := by
  have hdiv := a.order.perm .divided (requestRatios cfg p ∅)
  unfold withRatios
  cases hpatched : isPatched cfg p.billingModelName with
  | true =>
    simp only [if_true]
    rcases hx.adjustedPatched hadj hpatched with hfree | hones
    · rw [hfree, divideRatios_zero]
    · apply divideRatios_ones
      intro r hr
      exact hones r (hdiv.mem_iff.mp hr)
  | false =>
    simp only [Bool.false_eq_true, if_false]
    have hwhole := hx.adjusted hadj hpatched
    have hperm := p.order.perm loop (requestRatios cfg p ∅)
    rw [← divideRatios_changing, ← applyRatios_changing]
    apply divideRatios_eq
    · rw [applyRatios_of_whole, changing_prod, changing_prod, hperm.prod_eq, hdiv.prod_eq]
      intro l₁ l₂ hl
      exact hwhole l₁ l₂ (hl ▸ hperm.filter _)
    · intro r hr
      exact requestRatios_pos cfg p r (hdiv.mem_iff.mp (List.mem_of_mem_filter hr))
    · intro l₁ l₂ hl
      exact hwhole l₂ l₁ (List.perm_append_comm.trans (hl ▸ hdiv.filter _))

theorem adjustOnSubmit_quota (hx : ChargedExactly cfg origin p a base.quota)
    (hprice : info.priceData = withRatios cfg p loop base (requestRatios cfg p ∅)) :
    (adjustOnSubmit a info).1 = ⌊(base.quota : ℚ) * (ratioMap cfg origin p a).product⌋ := by
  unfold adjustOnSubmit
  cases hadj : a.adjustBillingOnSubmit.entries.isEmpty with
  | true =>
    rw [hprice]
    exact quota_unadjusted hx hadj
  | false =>
    have h0 := hx.last
    simp only [ratioMap, hadj, Bool.not_false, if_true, Bool.false_eq_true, if_false] at h0 ⊢
    have hback : divideRatios info.priceData.quota
        (a.order.range .divided info.priceData.otherRatios) = base.quota := by
      rw [hprice]
      exact divided_back hx hadj
    have hprod : (a.order.range .multiplied a.adjustBillingOnSubmit).prod =
        a.adjustBillingOnSubmit.product := (a.order.perm _ _).prod_eq
    rw [recalcQuotaFromRatios, hback, multiplyRatios_eq, hprod, goInt_eq_floor h0]

end Charge

/-- `RelayTask` from the state that `ResolveOriginTask` leaves. -/
def submitTask (cfg : Config) (origin : Option OriginTask) (info : Info) (first : Attempt)
    (retries : List Attempt) : Option Receipt :=
  relayTask cfg first (first :: retries)
    { info with
      autoRoute := {}
      priceData := { info.priceData with otherRatios := resolveOriginTask origin } }

theorem relayTask_receipt {o u : Text} (attempts : List Attempt) :
    ∀ (prior : Attempt) (info : Info) {r : Receipt}, info.originModelName = o →
      info.userGroup = u → RoutePriced cfg info prior → relayTask cfg prior attempts info = some r →
      ∃ priced base loop, modelPriceHelperPerCall cfg o r.pricedBy.billingModelName u r.group =
          .ok base ∧ priced.priceData =
          withRatios cfg r.pricedBy loop base (requestRatios cfg r.pricedBy ∅) ∧
        r.quota = (adjustOnSubmit r.acceptedBy priced).1 := by
  induction attempts with
  | nil =>
    intro prior info r _ _ _ h
    cases h
  | cons a attempts ih =>
    intro prior info r ho hu hroute h
    rw [relayTask] at h
    set start := { info with
      usingGroup := a.usingGroup
      autoGroup := a.autoGroup } with hstart
    have hroute' : RoutePriced cfg start prior := hroute.congr ⟨rfl, rfl, rfl⟩ rfl
    rw [relayTaskSubmit] at h
    cases hp : priceAttempt cfg a start with
    | error e =>
      rw [hp] at h
      refine ih _ start ho hu ?_ h
      split
      · exact hroute'
      · next hready => exact routePriced_of_not_ready (Bool.eq_false_iff.mpr hready)
    | ok priced =>
      rw [hp] at h
      have hs := priceAttempt_settled hroute' hp
      have hpo : priced.originModelName = o := hs.same.1.trans ho
      have hpu : priced.userGroup = u := hs.same.2.1.trans hu
      cases hup : a.upstream with
      | error e =>
        rw [hup] at h
        exact ih _ priced hpo hpu hs.route h
      | ok x =>
        rw [hup] at h
        have hr : r = ⟨(adjustOnSubmit a priced).1, (adjustOnSubmit a priced).2.usingGroup,
            if autoRouteReady start then prior else a, a⟩ := (Option.some.inj h).symm
        have hgroup : (adjustOnSubmit a priced).2.usingGroup = priced.usingGroup := by
          unfold adjustOnSubmit
          split
          · rfl
          · rfl
        obtain ⟨base, loop, hbase, hprice⟩ := hs.price
        rw [hpo, hpu] at hbase
        rw [hr]
        rw [hgroup]
        exact ⟨priced, base, loop, hbase, hprice, rfl⟩

section Runs

def threeUnits : Config where
  hasModelBillingConfig := fun _ => true
  getModelPrice := fun _ => some 3
  getDefaultModelPrice := fun _ => none
  getModelRatio := fun name => (0, false, name)
  acceptUnsetRatioModel := false
  isAdmin := false
  quotaPerUnit := 1
  getGroupGroupRatio := fun _ _ => none
  getGroupRatio := fun _ => 1
  enableFreeModelPreConsume := false
  taskPriceUnitPerCall := fun _ => false
  taskPricePatches := []

def storedOrder : Orders := ⟨fun _ m => m.values, fun _ _ => .refl _⟩

def reversedOrder : Orders := ⟨fun _ m => m.values.reverse, fun _ m => m.values.reverse_perm⟩

def defaultInfo : Info where
  tokenGroup := "default".toList
  userGroup := "default".toList
  usingGroup := "default".toList
  originModelName := "sora-2".toList
  autoGroup := none
  autoGroupSnapshot := []
  autoRoute := {}
  priceData := pricedPerCall threeUnits ⟨1, -1, false⟩ 0

def acceptedAttempt (estimate : Ratios) (order : Orders) : Attempt where
  usingGroup := "default".toList
  autoGroup := none
  billingModelName := "sora-2".toList
  estimateBilling := estimate
  adjustBillingOnSubmit := ∅
  upstream := .ok ()
  order := order

def halfAndMore : Ratios :=
  (AList.insert sizeKey (1 / 2) ∅).insert secondsKey (3 / 2)

def largerSize : Attempt :=
  acceptedAttempt ((AList.insert sizeKey (3 / 2) ∅).insert secondsKey 1) storedOrder

end Runs

end NewApi.Relay.TaskSubmit
