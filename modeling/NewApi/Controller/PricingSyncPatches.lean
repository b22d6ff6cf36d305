import NewApi.Model.PricingSync

/-!
# What a scheduled pass wants to change

Patches of the pricing options and new model states, from the confirmed quotes of the sources.
-/

namespace NewApi.Controller.PricingSync

open Model.PricingSync

variable {F : Type}

/-- What the pass uses besides the database: the arithmetic, `Marshal` of a contract, SHA-256,
the hash of a candidate and the smoke test of a billing expression. -/
structure Env (F : Type) where
  floats : Floats F
  marshal : Contract F → Text
  sha256Hex : Text → Text
  candidateHash : List ℤ → Patches F → Text
  smokeTestExpr : Text → Bool

inductive Category
  | tiered
  | price
  | ratio
  deriving DecidableEq

def ratioFields : List Field :=
  [.modelRatio, .completionRatio, .cacheRatio, .createCacheRatio, .imageRatio, .audioRatio,
    .audioCompletionRatio]

def isTieredExpr : Option (Value F) → Bool
  | some (.string mode) => decide (mode = "tiered_expr".toList)
  | _ => false

def pricingCategory (data : SyncData F) (modelName : Text) : Option Category :=
  if isTieredExpr ((data .billingMode).lookup modelName) then some .tiered
  else if ((data .modelPrice).lookup modelName).isSome then some .price
  else if ratioFields.any fun field => ((data field).lookup modelName).isSome then some .ratio
  else none

def optionKeyForPricingField : Field → PricingOption
  | .billingMode => .billingMode
  | .billingExpr => .billingExpr
  | .modelRatio => .modelRatio
  | .completionRatio => .completionRatio
  | .cacheRatio => .cacheRatio
  | .createCacheRatio => .createCacheRatio
  | .imageRatio => .imageRatio
  | .audioRatio => .audioRatio
  | .audioCompletionRatio => .audioCompletionRatio
  | .modelPrice => .modelPrice

/-- `none` is the panic of Go's `==` on two interfaces that both hold a slice or both a map. -/
def valuesEqual (fl : Floats F) : Value F → Value F → Option Bool
  | .number a, .number b => some (fl.nearlyEqual a b)
  | .string a, .string b => some (decide (a = b))
  | .bool a, .bool b => some (decide (a = b))
  | .null, .null => some true
  | .array _, .array _ | .object _, .object _ => none
  | _, _ => some false

def contractOf (data : SyncData F) (modelName : Text) : Contract F :=
  pricingSyncFields.foldl (fun contract field =>
    match (data field).lookup modelName with
    | none => contract
    | some value => contract.insert field value) ∅

inductive Strategy
  | highest
  | lowest
  | average
  deriving DecidableEq

def aggregate (fl : Floats F) (strategy : Strategy) (first : F) (rest : List F) : F :=
  match strategy with
  | .lowest => rest.foldl (fun result value => if fl.lt value result then value else result) first
  | .average => fl.div ((first :: rest).foldl fl.add fl.zero) (fl.ofNat (rest.length + 1))
  | .highest => rest.foldl (fun result value => if fl.lt result value then value else result) first

abbrev Lanes (F : Type) := AList fun _ : Field => F

def lane (fl : Floats F) (field : Field) (lanes : Lanes F) : F := (lanes.lookup field).getD fl.zero

/-- The numbers of one source; `none` when one of them is not a finite non-negative number. -/
def numericContract (fl : Floats F) (fields : List Field) (modelName : Text)
    (upstream : SyncData F) : Option (Lanes F) :=
  fields.foldlM (fun lanes field =>
    match (upstream field).lookup modelName with
    | none => some lanes
    | some value =>
      match asFloat64 value with
      | none => none
      | some parsed =>
        if fl.nonNegativeFinite parsed then some (lanes.insert field parsed) else none) ∅

def sameLanes (category : Category) (fields : List Field) (contracts : List (Lanes F)) : Bool :=
  fields.all fun field =>
    let present := contracts.countP fun lanes => (lanes.lookup field).isSome
    decide ((present = 0 ∨ present = contracts.length) ∧
      ¬ (category = .ratio ∧ (field = .modelRatio ∨ field = .completionRatio) ∧
        present ≠ contracts.length))

def resolveLanes (fl : Floats F) (strategy : Strategy) (base : F) (first : Lanes F)
    (rest : List (Lanes F)) : Lanes F :=
  [Field.completionRatio, .cacheRatio, .createCacheRatio, .imageRatio, .audioRatio].foldl
    (fun resolved field =>
      match first.lookup field with
      | none => resolved
      | some _ =>
        let price := fun lanes => fl.mul (lane fl .modelRatio lanes) (lane fl field lanes)
        resolved.insert field (fl.div (aggregate fl strategy (price first) (rest.map price)) base))
    ((∅ : Lanes F).insert .modelRatio base)

def resolveRatio (fl : Floats F) (strategy : Strategy) (first : Lanes F)
    (rest : List (Lanes F)) : Option (Lanes F) :=
  let base := aggregate fl strategy (lane fl .modelRatio first) (rest.map (lane fl .modelRatio))
  if fl.isZero base then none
  else
    let resolved := resolveLanes fl strategy base first rest
    match first.lookup .audioCompletionRatio with
    | none => some resolved
    | some _ =>
      match resolved.lookup .audioRatio with
      | none => none
      | some audioRatio =>
        if fl.isZero audioRatio then none
        else
          let price := fun lanes => fl.mul (fl.mul (lane fl .modelRatio lanes)
            (lane fl .audioRatio lanes)) (lane fl .audioCompletionRatio lanes)
          some (resolved.insert .audioCompletionRatio
            (fl.div (fl.div (aggregate fl strategy (price first) (rest.map price)) base)
              audioRatio))

def resolveComparableNumericPricing (fl : Floats F) (strategy : Strategy)
    (upstreams : List (SyncData F)) (modelName : Text) (category : Category) :
    Option (Lanes F) :=
  let fields := if category = .ratio then ratioFields else [.modelPrice]
  match (upstreams.filter fun upstream =>
      decide (pricingCategory upstream modelName = some category)).mapM
        (numericContract fl fields modelName) with
  | none => none
  | some [] => none
  | some (first :: rest) =>
    if sameLanes category fields (first :: rest) then
      if category = .price then
        some ((∅ : Lanes F).insert .modelPrice (aggregate fl strategy
          (lane fl .modelPrice first) (rest.map (lane fl .modelPrice))))
      else resolveRatio fl strategy first rest
    else none

inductive Change (F : Type)
  | set (value : Value F)
  | delete

/-- Why there are no changes of a model: it is skipped, or a comparison panics. -/
inductive Stop
  | skipped
  | panicked

def agreed (fl : Floats F) : Value F → List (Value F) → Except Stop (Value F)
  | value, [] => .ok value
  | value, next :: rest =>
    match valuesEqual fl value next with
    | none => .error .panicked
    | some true => agreed fl next rest
    | some false => .error .skipped

def expectedValue (fl : Floats F) (resolved : Option (Lanes F)) (exposing : List (SyncData F))
    (modelName : Text) (field : Field) : Except Stop (Option (Value F)) :=
  match resolved with
  | some lanes => .ok ((lanes.lookup field).map .number)
  | none =>
    match exposing.filterMap fun upstream => (upstream field).lookup modelName with
    | [] => .ok none
    | value :: rest =>
      (agreed fl value rest).bind fun expected =>
        if rest.length + 1 = exposing.length then .ok (some expected) else .error .skipped

def fieldChange (fl : Floats F) (field : Field) :
    Option (Value F) → Option (Value F) → Except Stop (List (Field × Change F))
  | none, none => .ok []
  | none, some _ => .ok [(field, .delete)]
  | some expected, none => .ok [(field, .set expected)]
  | some expected, some current =>
    match valuesEqual fl current expected with
    | none => .error .panicked
    | some true => .ok []
    | some false => .ok [(field, .set expected)]

/-- The loop over the fields, with what each should hold and what it holds. -/
def fieldChanges (fl : Floats F) (expect : Field → Except Stop (Option (Value F)))
    (current : Field → Option (Value F)) : List Field → Except Stop (List (Field × Change F))
  | [] => .ok []
  | field :: rest =>
    (expect field).bind fun expected =>
      (fieldChange fl field expected (current field)).bind fun changes =>
        (fieldChanges fl expect current rest).map fun others => changes ++ others

def modelChanges (fl : Floats F) (localPricing : SyncData F) (resolved : Option (Lanes F))
    (exposing : List (SyncData F)) (modelName : Text) : Except Stop (List (Field × Change F)) :=
  fieldChanges fl (expectedValue fl resolved exposing modelName)
    (fun field => (localPricing field).lookup modelName) pricingSyncFields

def modelUpstreams (upstreams : List (ℤ × SyncData F)) :
    Option ModelState → Option (List (SyncData F))
  | none => some (upstreams.map Prod.snd)
  | some preference =>
    match preference.mode with
    | .manual => none
    | .channel =>
      match upstreams.filter fun upstream => decide (upstream.1 = preference.channelID) with
      | [] => none
      | chosen => some (chosen.map Prod.snd)
    | _ => some (upstreams.map Prod.snd)

def resolveModel (fl : Floats F) (strategy : Strategy) (localPricing : SyncData F)
    (upstreams : List (ℤ × SyncData F)) (preferences : Preferences) (modelName : Text) :
    Except Stop (List (Field × Change F)) :=
  match modelUpstreams upstreams (preferences.get modelName) with
  | none => .error .skipped
  | some chosen =>
    let exposing := chosen.filter fun upstream => (pricingCategory upstream modelName).isSome
    match chosen.filterMap fun upstream => pricingCategory upstream modelName with
    | [] => .error .skipped
    | category :: categories =>
      if categories.all fun other => decide (other = category) then
        if category = .tiered then modelChanges fl localPricing none exposing modelName
        else
          match resolveComparableNumericPricing fl strategy exposing modelName category with
          | none => .error .skipped
          | some lanes => modelChanges fl localPricing (some lanes) exposing modelName
      else .error .skipped

def addChange (modelName : Text) (patches : Patches F) (change : Field × Change F) : Patches F :=
  let key := optionKeyForPricingField change.1
  let patch := (patches key).getD .empty
  Function.update patches key (some (
    match change.2 with
    | .set value => { patch with set := patch.set.insert modelName value }
    | .delete => { patch with delete := patch.delete ++ [modelName] }))

structure Candidate (F : Type) where
  patches : Patches F
  skipped : List Text
  applied : ℕ

def addModel (fl : Floats F) (strategy : Strategy) (localPricing : SyncData F)
    (upstreams : List (ℤ × SyncData F)) (preferences : Preferences)
    (candidate : Candidate F) (modelName : Text) : Option (Candidate F) :=
  match resolveModel fl strategy localPricing upstreams preferences modelName with
  | .error .panicked => none
  | .error .skipped => some { candidate with skipped := candidate.skipped ++ [modelName] }
  | .ok [] => some candidate
  | .ok changes =>
    some { candidate with
      patches := changes.foldl (addChange modelName) candidate.patches
      applied := candidate.applied + 1 }

def exposedModels (upstreams : List (ℤ × SyncData F)) : List Text :=
  (upstreams.flatMap fun upstream =>
    pricingSyncFields.flatMap fun field => (upstream.2 field).keys).dedup

/-- `none` when one of the comparisons panics. -/
def buildUpstreamPricingSyncPatchesWithPreferences (fl : Floats F) (strategy : Strategy)
    (localPricing : SyncData F) (upstreams : List (ℤ × SyncData F)) (preferences : Preferences) :
    Option (Candidate F) :=
  (sortStrings (exposedModels upstreams)).foldlM
    (addModel fl strategy localPricing upstreams preferences) ⟨fun _ => none, [], 0⟩

def pricingSyncPatchModels (patches : Patches F) : List Text :=
  (jsonObjectPatchOptionKeys.flatMap fun key =>
    match patches key with
    | none => []
    | some patch => patch.set.keys ++ patch.delete).dedup

def pricingSyncMissingModels (quotes : List (Quote F)) (preferences : Preferences) : List Text :=
  ((quotes.map Quote.modelName).filter fun modelName =>
    let missing := fun channelID =>
      quotes.any fun quote => decide (quote.modelName = modelName ∧ quote.channelID = channelID)
    match preferences.get modelName with
    | none => false
    | some state =>
      match state.mode with
      | .manual => false
      | .channel => missing state.channelID
      | _ =>
        match state.provenance with
        | none => false
        | some provenance => provenance.any missing).dedup

def removeModel (patches : Patches F) (modelName : Text) : Patches F :=
  pricingSyncFields.foldl (fun patches field =>
    let key := optionKeyForPricingField field
    let patch := (patches key).getD .empty
    Function.update patches key (some ⟨patch.set.erase modelName, patch.delete ++ [modelName]⟩))
    patches

def removeUnavailablePricingSyncModels (patches : Patches F) (unavailable : List Text) :
    Patches F :=
  unavailable.foldl removeModel patches

def keptMode : Option ModelState → Mode
  | some previous => if previous.mode = .channel then .channel else .general
  | none => .general

def owners (upstreams : List (ℤ × SyncData F)) (previous : Option ModelState)
    (modelName : Text) : List (ℤ × SyncData F) :=
  upstreams.filter fun upstream =>
    (pricingCategory upstream.2 modelName).isSome &&
      decide (keptMode previous = .channel → upstream.1 = (previous.map ModelState.channelID).getD 0)

def appliedState (env : Env F) (unavailable : List Text) (staleSources : List ℤ)
    (upstreams : List (ℤ × SyncData F)) (preferences : Preferences) (now : ℤ)
    (modelName : Text) : ModelState :=
  let previous := preferences.get modelName
  let exposing := owners upstreams previous modelName
  let provenance := exposing.map Prod.fst
  let signatures := (exposing.map fun upstream => env.marshal (contractOf upstream.2 modelName)).dedup
  { modelName := modelName
    mode := keptMode previous
    channelID := (previous.map ModelState.channelID).getD 0
    provenance := some provenance.dedup
    status :=
      if unavailable.any fun name => decide (name = modelName) then .unavailable
      else if provenance.any fun id => staleSources.any fun stale => decide (stale = id) then .stale
      else if 1 < signatures.length then .conflict
      else .ready
    lastAppliedAt := now }

def followed (upstreams : List (ℤ × SyncData F)) (preferences : Preferences)
    (modelName : Text) : Bool :=
  match preferences.get modelName with
  | none => false
  | some state =>
    decide (state.mode ≠ .manual) &&
      upstreams.any fun upstream => (pricingCategory upstream.2 modelName).isSome

def pricingSyncAppliedStates (env : Env F) (patches : Patches F) (unavailable : List Text)
    (staleSources : List ℤ) (upstreams : List (ℤ × SyncData F)) (preferences : Preferences)
    (now : ℤ) : List ModelState :=
  (pricingSyncPatchModels patches ++ preferences.names.filter (followed upstreams preferences)).dedup.map
    (appliedState env unavailable staleSources upstreams preferences now)

def incompatible (env : Env F) (strategy : Strategy) (exposing : List (ℤ × SyncData F))
    (modelName : Text) : Bool :=
  match (exposing.filterMap fun upstream => pricingCategory upstream.2 modelName).dedup with
  | [.tiered] =>
    decide (1 < (exposing.map fun upstream =>
      env.marshal (contractOf upstream.2 modelName)).dedup.length)
  | [category] =>
    (resolveComparableNumericPricing env.floats strategy (exposing.map Prod.snd) modelName
      category).isNone
  | _ => true

def incompatibleState (env : Env F) (strategy : Strategy) (upstreams : List (ℤ × SyncData F))
    (staleSources : List ℤ) (preferences : Preferences) (now : ℤ) (modelName : Text) :
    Option ModelState :=
  let previous := preferences.get modelName
  if IsManual previous then none
  else
    match owners upstreams previous modelName with
    | [] => none
    | exposing =>
      if incompatible env strategy exposing modelName then
        some {
          modelName := modelName
          mode := keptMode previous
          channelID := (previous.map ModelState.channelID).getD 0
          provenance := some (exposing.map Prod.fst).dedup
          status :=
            if exposing.any fun upstream => staleSources.any fun stale =>
                decide (stale = upstream.1) then .stale
            else .conflict
          lastAppliedAt := now }
      else none

def pricingSyncIncompatibleStates (env : Env F) (strategy : Strategy)
    (upstreams : List (ℤ × SyncData F)) (staleSources : List ℤ) (preferences : Preferences)
    (now : ℤ) : List ModelState :=
  (exposedModels upstreams).filterMap
    (incompatibleState env strategy upstreams staleSources preferences now)

def putState (states : List ModelState) (state : ModelState) : List ModelState :=
  if states.any fun other => decide (other.modelName = state.modelName) then
    states.map fun other => if other.modelName = state.modelName then state else other
  else states ++ [state]

structure Proposal (F : Type) where
  patches : Patches F
  states : List ModelState

def proposal (env : Env F) (strategy : Strategy) (localPricing : SyncData F)
    (upstreams : List (ℤ × SyncData F)) (missingQuotes : List (Quote F))
    (staleSources : List ℤ) (preferences : Preferences) (now : ℤ) : Option (Proposal F) :=
  (buildUpstreamPricingSyncPatchesWithPreferences env.floats strategy localPricing upstreams
    preferences).map fun candidate =>
      let unavailable := pricingSyncMissingModels missingQuotes preferences
      let patches := removeUnavailablePricingSyncModels candidate.patches unavailable
      { patches := patches
        states := (pricingSyncIncompatibleStates env strategy upstreams staleSources preferences
          now).foldl putState (pricingSyncAppliedStates env patches unavailable staleSources
            upstreams preferences now) }

def verdict (patches : Patches F) (key : PricingOption) (modelName : Text) :
    Option (Option (Value F)) :=
  let patch := (patches key).getD .empty
  match patch.set.lookup modelName with
  | some value => some (some value)
  | none => if patch.delete.any fun name => decide (name = modelName) then some none else none

section Entry

variable {fl : Floats F} {patches : Patches F} {key : PricingOption} {name modelName : Text}
  {strategy : Strategy} {localPricing : SyncData F} {upstreams : List (ℤ × SyncData F)}
  {preferences : Preferences}

theorem verdict_of_touches (h : patches.Touches key modelName) :
    verdict patches key modelName ≠ none := by
  obtain ⟨patch, hpatch, htouch⟩ := h
  simp only [verdict, hpatch, Option.getD_some]
  rcases hset : patch.set.lookup modelName with _ | value
  · have hdelete := htouch.resolve_left (AList.lookup_eq_none.mp hset)
    simp [hdelete]
  · simp

theorem verdict_addChange_of_ne {change : Field × Change F}
    (h : optionKeyForPricingField change.1 = key → name ≠ modelName) :
    verdict (addChange name patches change) key modelName = verdict patches key modelName := by
  obtain ⟨field, change⟩ := change
  by_cases hkey : optionKeyForPricingField field = key
  · subst hkey
    have hname := h rfl
    cases change with
    | set value => simp [verdict, addChange, AList.lookup_insert_ne hname.symm]
    | delete => simp [verdict, addChange, hname]
  · simp [verdict, addChange, Function.update_of_ne (Ne.symm hkey)]

theorem verdict_foldl_of_ne {changes : List (Field × Change F)}
    (h : ∀ change ∈ changes, optionKeyForPricingField change.1 = key → name ≠ modelName) :
    verdict (changes.foldl (addChange name) patches) key modelName =
      verdict patches key modelName := by
  induction changes generalizing patches with
  | nil => rfl
  | cons change changes ih =>
    rw [List.forall_mem_cons] at h
    exact (ih h.2).trans (verdict_addChange_of_ne h.1)

theorem verdict_addModel_of_ne {candidate next : Candidate F} (hne : name ≠ modelName)
    (h : addModel fl strategy localPricing upstreams preferences candidate name = some next) :
    verdict next.patches key modelName = verdict candidate.patches key modelName := by
  unfold addModel at h
  split at h
  · cases h
  · cases h; rfl
  · cases h; rfl
  · cases h
    exact verdict_foldl_of_ne fun _ _ _ => hne

theorem verdict_foldlM_addModel {names : List Text} {candidate last : Candidate F}
    (hskip : modelName ∈ names →
      resolveModel fl strategy localPricing upstreams preferences modelName = .error .skipped)
    (h : names.foldlM (addModel fl strategy localPricing upstreams preferences) candidate =
      some last) :
    verdict last.patches key modelName = verdict candidate.patches key modelName := by
  induction names generalizing candidate with
  | nil => rw [Option.some.inj h]
  | cons name names ih =>
    obtain ⟨next, hnext, hrest⟩ := Option.bind_eq_some_iff.mp h
    refine (ih (fun hmem => hskip (List.mem_cons_of_mem _ hmem)) hrest).trans ?_
    by_cases hname : name = modelName
    · subst hname
      rw [addModel, hskip List.mem_cons_self] at hnext
      cases hnext
      rfl
    · exact verdict_addModel_of_ne hname hnext

theorem verdict_removeModel_of_ne (h : name ≠ modelName) :
    verdict (removeModel patches name) key modelName = verdict patches key modelName := by
  unfold removeModel
  induction pricingSyncFields generalizing patches with
  | nil => rfl
  | cons field fields ih =>
    refine ih.trans ?_
    by_cases hkey : optionKeyForPricingField field = key
    · subst hkey
      simp [verdict, AList.lookup_erase_ne h.symm, h]
    · simp [verdict, Function.update_of_ne (Ne.symm hkey)]

theorem verdict_removeUnavailable {unavailable : List Text} (h : modelName ∉ unavailable) :
    verdict (removeUnavailablePricingSyncModels patches unavailable) key modelName =
      verdict patches key modelName := by
  induction unavailable generalizing patches with
  | nil => rfl
  | cons name names ih =>
    rw [List.mem_cons, not_or] at h
    exact (ih h.2).trans (verdict_removeModel_of_ne (Ne.symm h.1))

end Entry

section Manual

variable {preferences : Preferences} {patches : Patches F} {key : PricingOption}
  {modelName : Text} {upstreams : List (ℤ × SyncData F)} {strategy : Strategy}
  {localPricing : SyncData F} {staleSources : List ℤ} {env : Env F} {now : ℤ}

theorem resolveModel_manual {fl : Floats F} (h : IsManual (preferences.get modelName)) :
    resolveModel fl strategy localPricing upstreams preferences modelName = .error .skipped := by
  obtain ⟨state, hstate, hmode⟩ := Option.map_eq_some_iff.mp h
  simp [resolveModel, modelUpstreams, hstate, hmode]

theorem missing_not_manual {quotes : List (Quote F)}
    (h : modelName ∈ pricingSyncMissingModels quotes preferences) :
    ¬ IsManual (preferences.get modelName) := by
  intro hmanual
  obtain ⟨state, hstate, hmode⟩ := Option.map_eq_some_iff.mp hmanual
  have hkeep := (List.mem_filter.mp (List.mem_dedup.mp h)).2
  simp only [hstate, hmode, Bool.false_eq_true] at hkeep

theorem patchModels_touches (h : modelName ∈ pricingSyncPatchModels patches) :
    ∃ key, patches.Touches key modelName := by
  obtain ⟨key, _, hkey⟩ := List.mem_flatMap.mp (List.mem_dedup.mp h)
  refine ⟨key, ?_⟩
  split at hkey
  · cases hkey
  · next patch hpatch =>
    rcases List.mem_append.mp hkey with hset | hdelete
    · exact ⟨patch, hpatch, .inl hset⟩
    · exact ⟨patch, hpatch, .inr hdelete⟩

theorem followed_not_manual (h : followed upstreams preferences modelName = true) :
    ¬ IsManual (preferences.get modelName) := by
  intro hmanual
  obtain ⟨state, hstate, hmode⟩ := Option.map_eq_some_iff.mp hmanual
  simp only [followed, hstate, hmode, ne_eq, not_true_eq_false, decide_false, Bool.false_and,
    Bool.false_eq_true] at h

theorem appliedStates_only {unavailable : List Text} {state : ModelState}
    (hpatches : ∀ key name, patches.Touches key name → ¬ IsManual (preferences.get name))
    (h : state ∈ pricingSyncAppliedStates env patches unavailable staleSources upstreams
      preferences now) : ¬ IsManual (preferences.get state.modelName) := by
  obtain ⟨name, hname, rfl⟩ := List.mem_map.mp h
  rcases List.mem_append.mp (List.mem_dedup.mp hname) with hpatch | hfollow
  · obtain ⟨key, htouch⟩ := patchModels_touches hpatch
    exact hpatches key name htouch
  · exact followed_not_manual (List.mem_filter.mp hfollow).2

theorem incompatibleState_only {state : ModelState}
    (h : incompatibleState env strategy upstreams staleSources preferences now modelName =
      some state) : ¬ IsManual (preferences.get state.modelName) := by
  simp only [incompatibleState] at h
  split at h
  · cases h
  rename_i hmanual
  split at h
  · cases h
  · split at h
    · cases h
      exact hmanual
    · cases h

theorem mem_putState {states : List ModelState} {state found : ModelState}
    (h : found ∈ putState states state) : found = state ∨ found ∈ states := by
  unfold putState at h
  split at h
  · obtain ⟨before, hbefore, rfl⟩ := List.mem_map.mp h
    split
    · exact .inl rfl
    · exact .inr hbefore
  · rcases List.mem_append.mp h with h | h
    · exact .inr h
    · exact .inl (List.mem_singleton.mp h)

theorem mem_foldl_putState {found : ModelState} (news states : List ModelState)
    (h : found ∈ news.foldl putState states) : found ∈ news ∨ found ∈ states := by
  induction news generalizing states with
  | nil => exact .inr h
  | cons state news ih =>
    rcases ih _ h with h | h
    · exact .inl (List.mem_cons_of_mem _ h)
    · rcases mem_putState h with rfl | h
      · exact .inl List.mem_cons_self
      · exact .inr h

theorem proposal_not_manual {missingQuotes : List (Quote F)} {proposed : Proposal F}
    (hproposed : proposal env strategy localPricing upstreams missingQuotes staleSources
      preferences now = some proposed)
    (h : (∃ key, proposed.patches.Touches key modelName) ∨
      ∃ state ∈ proposed.states, state.modelName = modelName) :
    ¬ IsManual (preferences.get modelName) := by
  obtain ⟨candidate, hcandidate, rfl⟩ := Option.map_eq_some_iff.mp hproposed
  have hpatches : ∀ key name, (removeUnavailablePricingSyncModels candidate.patches
      (pricingSyncMissingModels missingQuotes preferences)).Touches key name →
        ¬ IsManual (preferences.get name) := by
    intro key name htouch hmanual
    refine verdict_of_touches htouch ?_
    refine (verdict_removeUnavailable fun hmissing => missing_not_manual hmissing hmanual).trans ?_
    exact verdict_foldlM_addModel (fun _ => resolveModel_manual hmanual) hcandidate
  rcases h with ⟨key, htouch⟩ | ⟨state, hstate, rfl⟩
  · exact hpatches key modelName htouch
  · rcases mem_foldl_putState _ _ hstate with hnew | hold
    · obtain ⟨name, _, hname⟩ := List.mem_filterMap.mp hnew
      exact incompatibleState_only hname
    · exact appliedStates_only hpatches hold

end Manual

end NewApi.Controller.PricingSync
