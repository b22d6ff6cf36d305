import NewApi.Controller.PricingSyncPatches
import NewApi.Lib.Interleaving
import NewApi.Model.PricingSyncStatements

/-!
# The scheduled pass and its rivals

`runUpstreamPricingSyncTaskOnce`, statement by statement.
-/

namespace NewApi.Controller.PricingSync

open Model.PricingSync Transition

variable {F : Type}

inductive Fetch (F : Type)
  | failed (message : Text)
  | fetched (data : SyncData F) (unsupported : List Text)

/-- What a statement finds outside the modelled tables: the clock, the channels and those that
are enabled, the answer of a source, and the pricing and strategy in memory. -/
structure Input (F : Type) where
  now : ℤ
  channels : List ℤ
  enabledChannels : List ℤ
  answer : Fetch F
  localPricing : SyncData F
  strategy : Strategy

structure Pass where
  previousCandidateHash : Text
  configVersion : ℤ
  now : ℤ
  syncSources : List Source
  enabledChannels : List ℤ
  staleSources : List ℤ
  activeSourceIDs : List ℤ
  failedChannels : ℕ

inductive SourceWrite (F : Type)
  | attempt
  | error (message : Text)
  | confirm (data : SyncData F) (unsupported : List Text)

inductive TaskPc (F : Type)
  | insertVersion (previousCandidateHash : Text)
  | readVersion (previousCandidateHash : Text)
  | readSources (previousCandidateHash : Text) (configVersion : ℤ)
  | readChannels (previousCandidateHash : Text) (configVersion : ℤ) (syncSources : List Source)
  | lockVersion (p : Pass) (source : Source) (rest : List Source) (w : SourceWrite F)
  | lockSource (p : Pass) (source : Source) (rest : List Source) (w : SourceWrite F)
  | readQuotes (p : Pass) (source : Source) (rest : List Source) (data : SyncData F)
      (unsupported : List Text)
  | saveQuote (p : Pass) (source : Source) (rest : List Source) (w : SourceWrite F)
      (quote : Quote F) (todo : List (Quote F))
  | updateSource (p : Pass) (source : Source) (rest : List Source) (w : SourceWrite F)
  | commitSource (p : Pass) (source : Source) (rest : List Source) (w : SourceWrite F)
  | readStale (p : Pass)
  | markStale (p : Pass) (names : List Text)
  | readConfirmed (p : Pass) (source : Source) (rest : List Source)
      (upstreams : List (ℤ × SyncData F))
  | readPreferences (p : Pass) (upstreams : List (ℤ × SyncData F))
  | readMissing (p : Pass) (upstreams : List (ℤ × SyncData F)) (preferences : Preferences)

inductive Pc (F : Type)
  | task (pc : TaskPc F)
  | update (pc : UpdatePc F)

def returned : Pc F := .update (.finished none)

def validPricingSyncContract (env : Env F) (data : SyncData F) (modelName : Text) : Bool :=
  let positive := fun field =>
    match ((data field).lookup modelName).bind asFloat64 with
    | none => false
    | some value => env.floats.lt env.floats.zero value && env.floats.nonNegativeFinite value
  match pricingCategory data modelName with
  | some .price => positive .modelPrice
  | some .ratio => positive .modelRatio
  | some .tiered =>
    match (data .billingExpr).lookup modelName with
    | some (.string expr) => decide (trimSpace expr ≠ []) && env.smokeTestExpr expr
    | _ => false
  | none => false

def confirmedQuote (env : Env F) (channelID now : ℤ) (data : SyncData F)
    (existing : List (Quote F)) (modelName : Text) : Quote F :=
  let contract := contractOf data modelName
  let hash := env.sha256Hex (env.marshal contract)
  let previous := existing.find? fun quote => decide (quote.modelName = modelName)
  { channelID := channelID
    modelName := modelName
    data := some contract
    candidateHash := hash
    confirmations :=
      match previous with
      | some quote => if quote.candidateHash = hash then quote.confirmations + 1 else 1
      | none => 1
    missingCount := 0
    confirmedAt := now }

def quoteWrites (env : Env F) (channelID now : ℤ) (data : SyncData F) (unsupported : List Text)
    (existing : List (Quote F)) : List (Quote F) :=
  let modelNames := (exposedModels [(channelID, data)]).filter (validPricingSyncContract env data)
  modelNames.map (confirmedQuote env channelID now data existing) ++
    existing.filterMap fun quote =>
      if modelNames.any fun name => decide (name = quote.modelName) then none
      else if unsupported.any fun name => decide (name = quote.modelName) then
        if quote.missingCount = 0 then none else some { quote with missingCount := 0 }
      else some { quote with missingCount := quote.missingCount + 1, confirmations := 0 }

def confirmedPricingSyncQuoteData (quotes : List (Quote F)) : Option (SyncData F) :=
  quotes.foldlM (fun (data : SyncData F) quote =>
    quote.data.map fun contract => fun field =>
      match contract.lookup field with
      | none => data field
      | some value => (data field).insert quote.modelName value) fun _ => ∅

def quotesWhere (i : ℕ) (s : Store F) (p : Quote F → Bool) : List (Quote F) :=
  (s.quotes.keys.dedup.filterMap fun key => (s.quotes.row key).select i).filter p

def hasID (ids : List ℤ) (id : ℤ) : Bool := ids.any fun x => decide (x = id)

def addID (ids : List ℤ) (id : ℤ) : List ℤ := if hasID ids id then ids else id :: ids

def confirmedNext (p : Pass) (upstreams : List (ℤ × SyncData F)) : List Source → Pc F
  | [] => .task (.readPreferences p upstreams)
  | source :: rest =>
    if source.enabled = false ∨ source.intervalSeconds = 0 ∨
        hasID p.activeSourceIDs source.channelID = false then confirmedNext p upstreams rest
    else .task (.readConfirmed p source rest upstreams)

def afterStale (p : Pass) : Pc F :=
  if 0 < p.failedChannels then returned else confirmedNext p [] p.syncSources

def afterSources (p : Pass) : Pc F :=
  if p.staleSources.isEmpty then afterStale p else .task (.readStale p)

def sourceNext (p : Pass) : List Source → Pc F
  | [] => afterSources p
  | source :: rest =>
    if source.enabled = false ∨ source.intervalSeconds = 0 then sourceNext p rest
    else if 0 < source.channelID ∧ hasID p.enabledChannels source.channelID = false then
      sourceNext { p with staleSources := addID p.staleSources source.channelID } rest
    else
      let active := { p with
        activeSourceIDs := addID p.activeSourceIDs source.channelID
        staleSources :=
          if source.lastError = [] then p.staleSources
          else addID p.staleSources source.channelID }
      if 0 < source.lastAttemptAt ∧ p.now - source.lastAttemptAt < source.intervalSeconds then
        sourceNext active rest
      else .task (.lockVersion active source rest .attempt)

def saveNext (p : Pass) (source : Source) (rest : List Source) (w : SourceWrite F) :
    List (Quote F) → TaskPc F
  | [] => .updateSource p source rest w
  | quote :: todo => .saveQuote p source rest w quote todo

def updatedSource (now : ℤ) (source : Source) : SourceWrite F → Source
  | .attempt => { source with lastAttemptAt := now }
  | .error message => { source with lastError := message }
  | .confirm _ _ => { source with
      lastSuccessAt := now
      lastError := [] }

def afterCommit (answer : Fetch F) (p : Pass) (source : Source) (rest : List Source) :
    SourceWrite F → Pc F
  | .attempt =>
    match answer with
    | .failed message => .task (.lockVersion { p with
        failedChannels := p.failedChannels + 1
        staleSources := addID p.staleSources source.channelID } source rest (.error message))
    | .fetched data unsupported => .task (.lockVersion p source rest (.confirm data unsupported))
  | .error _ => sourceNext p rest
  | .confirm _ _ =>
    sourceNext { p with
      staleSources := p.staleSources.filter fun id => decide (id ≠ source.channelID) } rest

def staleNames (p : Pass) (s : Store F) : List Text :=
  namesWhere s.states.keys s.states.find fun state =>
    decide (state.mode ≠ .manual) &&
      ((decide (state.mode = .channel) && hasID p.staleSources state.channelID) ||
        (state.provenance.getD []).any (hasID p.staleSources))

/-- The transaction of the pass, unless there is nothing to do or the patches are not the ones
that the pass before proposed. -/
def propose (env : Env F) (p : Pass) (upstreams : List (ℤ × SyncData F))
    (proposed : Proposal F) : Pc F :=
  let patched := jsonObjectPatchOptionKeys.any fun key => (proposed.patches key).isSome
  if patched = false ∧ proposed.states = [] then returned
  else
    let hash := env.candidateHash (upstreams.map Prod.fst) proposed.patches
    if patched = true ∧ ¬ (hash ≠ [] ∧ hash = p.previousCandidateHash) then returned
    else .update (beginUpdate (.sync ⟨p.configVersion, proposed.patches, proposed.states⟩))

def taskStatement (env : Env F) (input : Input F) (i : ℕ) (s : Store F) :
    TaskPc F → Option (Store F × Pc F)
  | .insertVersion hash =>
    (insertVersion i s).map fun s' =>
      ({ s' with version := s'.version.commit i }, .task (.readVersion hash))
  | .readVersion hash =>
    match s.version.committed with
    | some version => some (s, .task (.readSources hash version))
    | none => some (s, returned)
  | .readSources hash version =>
    some (s, .task (.readChannels hash version
      ((currentSources i s).insertionSort fun a b => a.channelID ≤ b.channelID)))
  | .readChannels hash version syncSources =>
    some (s, sourceNext ⟨hash, version, input.now, syncSources, input.enabledChannels, [], [], 0⟩
      syncSources)
  | .lockVersion p source rest w =>
    if s.version.free i then
      if s.version.select i = some p.configVersion then
        some (s.writeVersion i (s.version.select i), .task (.lockSource p source rest w))
      else some (s.abort i, returned)
    else none
  | .lockSource p source rest w =>
    if (s.sources.row source.channelID).free i then
      match (s.sources.row source.channelID).select i with
      | none => some (s.abort i, returned)
      | some current =>
        if current.sameConfig source then
          some ({ s with sources := s.sources.write i source.channelID (some current) },
            match w with
            | .confirm data unsupported => .task (.readQuotes p source rest data unsupported)
            | w => .task (.updateSource p source rest w))
        else some (s.abort i, returned)
    else none
  | .readQuotes p source rest data unsupported =>
    some (s, .task (saveNext p source rest (.confirm data unsupported)
      (quoteWrites env source.channelID p.now data unsupported
        (quotesWhere i s fun quote => decide (quote.channelID = source.channelID)))))
  | .saveQuote p source rest w quote todo =>
    let key := (quote.channelID, quote.modelName)
    if (s.quotes.row key).free i then
      some ({ s with quotes := s.quotes.write i key (some quote) },
        .task (saveNext p source rest w todo))
    else none
  | .updateSource p source rest w =>
    let row := s.sources.row source.channelID
    if row.free i then
      let updated := (row.select i).map fun current => updatedSource p.now current w
      some ({ s with sources := s.sources.write i source.channelID updated },
        .task (.commitSource p source rest w))
    else none
  | .commitSource p source rest w => some (s.commit i, afterCommit input.answer p source rest w)
  | .readStale p =>
    some (s, match staleNames p s with
      | [] => afterStale p
      | names => .task (.markStale p names))
  | .markStale p names =>
    if s.states.freeEach i names then
      let marked := s.states.writeEach i names
        (Option.map fun state => { state with status := .stale })
      some ({ s with states := marked.commit i }, afterStale p)
    else none
  | .readConfirmed p source rest upstreams =>
    match confirmedPricingSyncQuoteData (quotesWhere i s fun quote =>
        decide (quote.channelID = source.channelID ∧ 2 ≤ quote.confirmations ∧
          quote.missingCount < 2)) with
    | none => some (s, returned)
    | some data =>
      if pricingSyncFields.all fun field => (data field).keys.isEmpty then
        some (s, confirmedNext p upstreams rest)
      else some (s, confirmedNext p (upstreams ++ [(source.channelID, data)]) rest)
  | .readPreferences p upstreams =>
    some (s, .task (.readMissing p upstreams (getPricingSyncModelStates s)))
  | .readMissing p upstreams preferences =>
    -- a panic ends the pass before its transaction
    some (s, ((proposal env input.strategy input.localPricing upstreams
      (quotesWhere i s fun quote =>
        hasID p.activeSourceIDs quote.channelID && decide (2 ≤ quote.missingCount))
      p.staleSources preferences p.now).map (propose env p upstreams)).getD returned)

inductive Action (F : Type)
  | run (input : Input F)
  | fail

def step (env : Env F) (i : ℕ) (s : Store F) : Pc F → Action F → Option (Store F × Pc F)
  | .update (.finished _), _ => none
  | _, .fail => some (s.abort i, returned)
  | .update pc, .run input =>
    (updateStatement env.floats input.channels i s pc).map fun r => (r.1, .update r.2)
  | .task pc, .run input => taskStatement env input i s pc

abbrev State (F : Type) := Processes ℕ (Store F) (Pc F)

inductive Call : Pc F → Prop
  | scheduled (previousCandidateHash : Text) : Call (.task (.insertVersion previousCandidateHash))
  | manual (key : PricingOption) (value : Object F) :
    Call (.update (beginUpdate (.manual ⟨key, value, []⟩)))
  | preferences (u : PreferenceUpdate F) : Call (.update (beginUpdate (.preferences u)))
  | configuration (u : ConfigurationUpdate) : Call (.update (.readExisting u))

end NewApi.Controller.PricingSync
