import Mathlib.Algebra.Order.Floor.Ring
import Mathlib.Data.List.AList
import Mathlib.Data.Rat.Floor
import Mathlib.Tactic.FieldSimp
import NewApi.Common.Text

/-!
# Pricing a submitted task (relay/relay_task.go, relay/helper/price.go, types/price_data.go)

A task costs its base quota times the ratios of its request.
-/

namespace NewApi.Relay.TaskSubmit

abbrev Ratios := AList fun _ : Text => ℚ

def Ratios.values (m : Ratios) : List ℚ := m.entries.map Sigma.snd

def Ratios.product (m : Ratios) : ℚ := m.values.prod

def goInt (x : ℚ) : ℤ := if 0 ≤ x then ⌊x⌋ else ⌈x⌉

inductive Loop where
  | applied
  | candidate (i : ℕ)
  | divided
  | multiplied
  deriving DecidableEq, Repr

structure Orders where
  range : Loop → Ratios → List ℚ
  perm : ∀ l m, (range l m).Perm m.values

structure GroupRatioInfo where
  groupRatio : ℚ
  groupSpecialRatio : ℚ
  hasSpecialRatio : Bool
  deriving DecidableEq

structure PriceData where
  freeModel : Bool
  modelPrice : ℚ
  modelRatio : ℚ
  usePrice : Bool
  quota : ℤ
  groupRatioInfo : GroupRatioInfo
  otherRatios : Ratios

structure Config where
  hasModelBillingConfig : Text → Bool
  getModelPrice : Text → Option ℚ
  getDefaultModelPrice : Text → Option ℚ
  /-- The ratio, whether it is configured, and the name it was found under. -/
  getModelRatio : Text → ℚ × Bool × Text
  acceptUnsetRatioModel : Bool
  isAdmin : Bool
  quotaPerUnit : ℚ
  getGroupGroupRatio : Text → Text → Option ℚ
  getGroupRatio : Text → ℚ
  enableFreeModelPreConsume : Bool
  taskPriceUnitPerCall : Text → Bool
  taskPricePatches : List Text

structure TaskError where
  code : Text
  message : Text
  deriving DecidableEq, Repr

def modelPriceNotConfiguredError (cfg : Config) (modelName : Text) : TaskError :=
  ⟨"model_price_error".toList,
    if cfg.isAdmin then
      "模型 ".toList ++ modelName ++ (" 的价格未配置。请前往「系统设置 → 运营设置」开启自用模式，" ++
        "或在「系统设置 → 分组与模型定价设置」中为该模型配置价格；Model ").toList ++ modelName ++
        (" price not configured. Go to System Settings → Operation Settings to enable self-use " ++
        "mode, or configure the model price in System Settings → Group & Model Pricing.").toList
    else
      "模型 ".toList ++ modelName ++
        " 的价格尚未由管理员配置，暂时无法使用，请联系站点管理员开启该模型；Model ".toList ++ modelName ++
        (" has not been priced by the administrator yet. Please contact the site administrator " ++
        "to enable this model.").toList⟩

def handleGroupRatio (cfg : Config) (userGroup usingGroup : Text) : GroupRatioInfo :=
  match cfg.getGroupGroupRatio userGroup usingGroup with
  | some special => ⟨special, special, true⟩
  | none => ⟨cfg.getGroupRatio usingGroup, -1, false⟩

def pricedPerCall (cfg : Config) (g : GroupRatioInfo) (modelPrice : ℚ) : PriceData :=
  let free := !cfg.enableFreeModelPreConsume && (g.groupRatio == 0 || modelPrice == 0)
  { freeModel := free, modelPrice := modelPrice, modelRatio := 0, usePrice := true,
    quota := if free then 0 else goInt (modelPrice * cfg.quotaPerUnit * g.groupRatio),
    groupRatioInfo := g, otherRatios := ∅ }

def pricedByRatio (cfg : Config) (g : GroupRatioInfo) (modelRatio : ℚ) : PriceData :=
  let free := !cfg.enableFreeModelPreConsume && (g.groupRatio == 0 || modelRatio == 0)
  { freeModel := free, modelPrice := -1, modelRatio := modelRatio, usePrice := false,
    quota := if free then 0 else goInt (modelRatio / 2 * cfg.quotaPerUnit * g.groupRatio),
    groupRatioInfo := g, otherRatios := ∅ }

/-- `ModelPriceHelperPerCall` for a billing model and a group; it builds the price data anew,
without any ratio. -/
def modelPriceHelperPerCall (cfg : Config) (originModelName billingModelName userGroup
    usingGroup : Text) : Except TaskError PriceData :=
  if !cfg.hasModelBillingConfig billingModelName then
    .error (modelPriceNotConfiguredError cfg originModelName)
  else
    let g := handleGroupRatio cfg userGroup usingGroup
    match cfg.getModelPrice billingModelName, cfg.getDefaultModelPrice billingModelName with
    | some price, _ => .ok (pricedPerCall cfg g price)
    | none, some price => .ok (pricedPerCall cfg g price)
    | none, none =>
      let (ratio, ratioSuccess, matchName) := cfg.getModelRatio billingModelName
      if !ratioSuccess && !cfg.acceptUnsetRatioModel then
        .error (modelPriceNotConfiguredError cfg matchName)
      else .ok (pricedByRatio cfg g ratio)

/-- `PriceData.AddOtherRatio`: a ratio that is not positive is ignored. -/
def addOtherRatio (m : Ratios) (key : Text) (ratio : ℚ) : Ratios :=
  if ratio ≤ 0 then m else m.insert key ratio

def addOtherRatios (m estimated : Ratios) : Ratios :=
  estimated.entries.foldl (fun m e => addOtherRatio m e.1 e.2) m

def secondsKey : Text := "seconds".toList

def sizeKey : Text := "size".toList

def applyTaskPriceUnit (cfg : Config) (modelName : Text) (ratios : Ratios) : Ratios :=
  if cfg.taskPriceUnitPerCall modelName then ratios.erase secondsKey else ratios

def isPatched (cfg : Config) (modelName : Text) : Bool :=
  cfg.taskPricePatches.any fun s => decide (s = modelName)

/-- What `ResolveOriginTask` reads of the origin task of a remix: the ratios of its billing
context, or the `seconds` and `size` texts of its data where it has no billing context. -/
inductive OriginTask where
  | billingContext (otherRatios : Ratios)
  | taskData (seconds : Text) (size : Text)

/-- The ratios that `ResolveOriginTask` leaves in `info.PriceData`. -/
def resolveOriginTask : Option OriginTask → Ratios
  | none => ∅
  | some (.billingContext otherRatios) => addOtherRatios ∅ otherRatios
  | some (.taskData seconds size) =>
    let n := atoiValue seconds
    (AList.insert secondsKey (if n ≤ 0 then 4 else (n : ℚ)) ∅).insert sizeKey
      (if size = "1792x1024".toList ∨ size = "1024x1792".toList then 1666667 / 1000000 else 1)

def applyRatios (quota : ℤ) (ratios : List ℚ) : ℤ :=
  ratios.foldl (fun q ra => if ra ≠ 1 then goInt (q * ra) else q) quota

/-- The first loop of `recalcQuotaFromRatios`. -/
def divideRatios (quota : ℤ) (ratios : List ℚ) : ℤ :=
  ratios.foldl (fun q ra => if ra ≠ 1 ∧ 0 < ra then goInt (q / ra) else q) quota

/-- The second loop of `recalcQuotaFromRatios`. -/
def multiplyRatios (quota : ℤ) (ratios : List ℚ) : ℚ :=
  ratios.foldl (fun result ra => if ra ≠ 1 then result * ra else result) (quota : ℚ)

def recalcQuotaFromRatios (order : Orders) (priceData : PriceData) (ratios : Ratios) : ℤ :=
  let baseQuota := divideRatios priceData.quota (order.range .divided priceData.otherRatios)
  goInt (multiplyRatios baseQuota (order.range .multiplied ratios))

structure AutoRouteCandidate where
  group : Text
  ratio : ℚ
  estimatedQuota : ℤ
  priceData : PriceData

structure AutoRouteState where
  candidates : List AutoRouteCandidate := []
  reservedQuota : ℤ := 0
  reserveGroup : Text := []
  initialGroup : Text := []
  usedGroup : Text := []

structure Info where
  tokenGroup : Text
  userGroup : Text
  usingGroup : Text
  originModelName : Text
  /-- The context's `auto_group`. -/
  autoGroup : Option Text
  /-- The context's Auto group snapshot. -/
  autoGroupSnapshot : List Text
  autoRoute : AutoRouteState
  priceData : PriceData

/-- One turn of the retry loop: the group that channel selection leaves, the model that is
billed, what the adaptor answers, the outcome of the reserve, of the dispatch and of the
response, and the iteration orders. -/
structure Attempt where
  usingGroup : Text
  autoGroup : Option Text
  billingModelName : Text
  estimateBilling : Ratios
  adjustBillingOnSubmit : Ratios
  upstream : Except TaskError Unit
  order : Orders

def autoName : Text := "auto".toList

def autoRouteReady (info : Info) : Bool :=
  decide (info.tokenGroup = autoName) && !info.autoRoute.candidates.isEmpty

def applyAutoRouteCandidate (info : Info) (group : Text) : Option Info :=
  (info.autoRoute.candidates.find? fun c => decide (c.group = group)).map fun c =>
    { info with usingGroup := c.group, priceData := c.priceData }

def withRatios (cfg : Config) (a : Attempt) (loop : Loop) (priceData : PriceData)
    (ratios : Ratios) : PriceData :=
  { priceData with
    otherRatios := ratios
    quota := if isPatched cfg a.billingModelName then priceData.quota
      else applyRatios priceData.quota (a.order.range loop ratios) }

def buildCandidates (cfg : Config) (a : Attempt) (info : Info) (ratios : Ratios) :
    ℕ → List Text → AutoRouteState → Except TaskError AutoRouteState
  | _, [], state => .ok state
  | i, group :: groups, state =>
    match modelPriceHelperPerCall cfg info.originModelName a.billingModelName info.userGroup
      group with
    | .error e => .error e
    | .ok p =>
      let priceData := withRatios cfg a (.candidate i) p ratios
      let state := { state with
        candidates := state.candidates ++
          [⟨group, priceData.groupRatioInfo.groupRatio, priceData.quota, priceData⟩] }
      buildCandidates cfg a info ratios (i + 1) groups
        (if state.reservedQuota ≤ priceData.quota then
          { state with
            reservedQuota := priceData.quota
            reserveGroup := group }
        else state)

/-- `BuildAutoPerCallRouteState` for a snapshot that is not empty. -/
def buildAutoPerCallRouteState (cfg : Config) (a : Attempt) (info : Info) (first : Text)
    (groups : List Text) (ratios : Ratios) : Except TaskError Info :=
  match buildCandidates cfg a info ratios 0 (first :: groups) {} with
  | .error e => .error e
  | .ok state =>
    let used := { info with
      autoRoute := { state with
        initialGroup := first
        usedGroup := info.usingGroup } }
    match applyAutoRouteCandidate used info.usingGroup with
    | some applied => .ok applied
    | none =>
      let used := { info with
        autoRoute := { state with
          initialGroup := first
          usedGroup := first } }
      .ok ((applyAutoRouteCandidate used first).getD used)

/-- Steps 4 to 6.5 of `RelayTaskSubmit`. An Auto route that an earlier attempt froze is reused. -/
def priceAttempt (cfg : Config) (a : Attempt) (info : Info) : Except TaskError Info :=
  if autoRouteReady info then
    match applyAutoRouteCandidate info info.usingGroup with
    | some applied => .ok applied
    | none => .error ⟨"model_price_error".toList, "Auto group ".toList ++ info.usingGroup ++
        " is not present in the frozen route plan".toList⟩
  else
    -- `HandleGroupRatio` also stores the context's group in `info`.
    let info := { info with usingGroup := info.autoGroup.getD info.usingGroup }
    match modelPriceHelperPerCall cfg info.originModelName a.billingModelName info.userGroup
      info.usingGroup with
    | .error e => .error e
    | .ok p =>
      -- The price data that `ResolveOriginTask` prepared is replaced here.
      let ratios := applyTaskPriceUnit cfg a.billingModelName
        (addOtherRatios p.otherRatios a.estimateBilling)
      let info := { info with priceData := withRatios cfg a .applied p ratios }
      match info.autoGroupSnapshot with
      | [] => .ok info
      | first :: groups =>
        if info.tokenGroup = autoName then
          buildAutoPerCallRouteState cfg a info first groups ratios
        else .ok info

def adjustOnSubmit (a : Attempt) (info : Info) : ℤ × Info :=
  if a.adjustBillingOnSubmit.entries.isEmpty then (info.priceData.quota, info)
  else
    let finalQuota := recalcQuotaFromRatios a.order info.priceData a.adjustBillingOnSubmit
    (finalQuota, { info with
      priceData := { info.priceData with
        otherRatios := a.adjustBillingOnSubmit
        quota := finalQuota } })

/-- `RelayTaskSubmit` as far as it prices: the quota or the error, and the info it leaves. -/
def relayTaskSubmit (cfg : Config) (a : Attempt) (info : Info) : Except TaskError ℤ × Info :=
  match priceAttempt cfg a info with
  | .error e => (.error e, info)
  | .ok priced =>
    match a.upstream with
    | .error e => (.error e, priced)
    | .ok () => ((.ok (adjustOnSubmit a priced).1), (adjustOnSubmit a priced).2)

structure Receipt where
  quota : ℤ
  group : Text
  pricedBy : Attempt
  acceptedBy : Attempt

/-- The retry loop of `RelayTask`: attempts until one is accepted. `prior` is the attempt that
priced last. -/
def relayTask (cfg : Config) : Attempt → List Attempt → Info → Option Receipt
  | _, [], _ => none
  | prior, a :: attempts, info =>
    let info := { info with
      usingGroup := a.usingGroup
      autoGroup := a.autoGroup }
    let pricing := if autoRouteReady info then prior else a
    match relayTaskSubmit cfg a info with
    | (.ok quota, left) => some ⟨quota, left.usingGroup, pricing, a⟩
    | (.error _, left) => relayTask cfg pricing attempts left

end NewApi.Relay.TaskSubmit
