import NewApi.Model.PricingSync

/-!
# The transactions on the pricing options, statement by statement

Lock the options, rewrite them as whole documents, compare and move the version, write the models.
-/

namespace NewApi.Model.PricingSync

variable {F : Type}

/-- `UpdatePricingOptionManual`, with the models that it found to differ. -/
structure ManualUpdate (F : Type) where
  key : PricingOption
  value : Object F
  changed : List Text

/-- `ApplyPricingSyncUpdateIfVersion`. -/
structure SyncUpdate (F : Type) where
  expectedVersion : ℤ
  patches : Patches F
  states : List ModelState

/-- `PricingSyncModelPreferenceInput`. -/
structure Preference where
  modelName : Text
  mode : Mode
  channelID : ℤ

/-- `ApplyPricingSyncUpdateWithPreferencesIfVersion`. -/
structure PreferenceUpdate (F : Type) where
  patches : Patches F
  preferences : List Preference
  expectedVersion : ℤ

/-- `savePricingSyncConfiguration`, with the models that a removed source owns. -/
structure ConfigurationUpdate where
  sources : List Source
  removedSourceIDs : List ℤ
  expectedPrevious : Option (List Source)
  expectedVersion : ℤ
  owned : List Text

inductive Update (F : Type)
  | manual (u : ManualUpdate F)
  | sync (u : SyncUpdate F)
  | preferences (u : PreferenceUpdate F)
  | configuration (u : ConfigurationUpdate)

def Update.patches : Update F → Patches F
  | .manual _ => fun _ => none
  | .sync u => u.patches
  | .preferences u => u.patches
  | .configuration u => fun _ => if u.owned = [] then none else some ⟨∅, u.owned⟩

def Update.keys : Update F → List PricingOption
  | .manual u => [u.key]
  | u => jsonObjectPatchOptionKeys.filter fun key => (u.patches key).isSome

def Patches.apply (patches : Patches F) (key : PricingOption) (current : Object F) : Object F :=
  match patches key with
  | none => current
  | some patch => patch.apply current

def Update.newValue (key : PricingOption) (current : Object F) : Update F → Object F
  | .manual u => u.value
  | u => u.patches.apply key current

def Update.compare (fl : Floats F) (current : Object F) : Update F → Update F
  | .manual u => .manual { u with changed := changedModels fl current u.value }
  | u => u

def Update.expectedVersion : Update F → ℤ
  | .manual _ => -1
  | .sync u => u.expectedVersion
  | .preferences u => u.expectedVersion
  | .configuration u => u.expectedVersion

inductive UpdatePc (F : Type)
  | readExisting (u : ConfigurationUpdate)
  | readOwned (u : ConfigurationUpdate)
  | insertOption (u : Update F) (key : PricingOption) (todo : List PricingOption)
      (values : List (PricingOption × Object F))
  | lockOption (u : Update F) (key : PricingOption) (todo : List PricingOption)
      (values : List (PricingOption × Object F))
  | saveOption (u : Update F) (key : PricingOption) (value : Object F)
      (todo : List (PricingOption × Object F))
  | insertVersion (u : Update F)
  | lockVersion (u : Update F)
  | bumpInsert (u : Update F)
  | bumpLock (u : Update F)
  | bumpSave (u : Update F) (currentVersion : ℤ)
  | markManual (u : ManualUpdate F) (name : Text) (todo : List Text)
  | upsertState (u : SyncUpdate F) (state : ModelState) (todo : List ModelState)
  | readApplied (u : PreferenceUpdate F)
  | lockNamed (u : PreferenceUpdate F)
  | readSource (u : PreferenceUpdate F) (current : Text → Option ModelState) (id : ℤ)
      (todo : List ℤ)
  | upsertPreference (u : PreferenceUpdate F) (current : Text → Option ModelState)
      (preference : Preference) (todo : List Preference)
  | readSources (u : ConfigurationUpdate)
  | readChannels (u : ConfigurationUpdate)
  | lockStates (u : ConfigurationUpdate)
  | deleteSources (u : ConfigurationUpdate)
  | createSources (u : ConfigurationUpdate)
  | deleteQuotes (u : ConfigurationUpdate)
  | deleteStates (u : ConfigurationUpdate)
  | commit (u : Update F)
  | finished (result : Option (Update F))

def markNext (u : ManualUpdate F) : List Text → UpdatePc F
  | [] => .commit (.manual u)
  | name :: todo => .markManual u name todo

def upsertNext (u : SyncUpdate F) : List ModelState → UpdatePc F
  | [] => .commit (.sync u)
  | state :: todo => .upsertState u state todo

def preferenceNext (u : PreferenceUpdate F) (current : Text → Option ModelState) :
    List Preference → UpdatePc F
  | [] => .commit (.preferences u)
  | preference :: todo => .upsertPreference u current preference todo

def sourceNext (u : PreferenceUpdate F) (current : Text → Option ModelState) :
    List ℤ → UpdatePc F
  | [] => preferenceNext u current u.preferences
  | id :: todo => .readSource u current id todo

def afterBump : Update F → UpdatePc F
  | .manual u => markNext u u.changed
  | .sync u => upsertNext u (u.states.filter fun state => decide (state.modelName ≠ []))
  | .preferences u => .readApplied u
  | .configuration u => .readSources u

def afterGuard : Update F → UpdatePc F
  | .sync u =>
    if (jsonObjectPatchOptionKeys.any fun key => (u.patches key).isSome) || !u.states.isEmpty then
      .bumpInsert (.sync u)
    else upsertNext u []
  | u => .bumpInsert u

def afterSaves : Update F → UpdatePc F
  | .manual u => if u.changed = [] then .commit (.manual u) else .bumpInsert (.manual u)
  | .configuration u =>
    if 0 ≤ u.expectedVersion then .lockVersion (.configuration u)
    else afterGuard (.configuration u)
  | u => if 0 ≤ u.expectedVersion then .insertVersion u else afterGuard u

def saveNext (u : Update F) : List (PricingOption × Object F) → UpdatePc F
  | [] => afterSaves u
  | (key, value) :: todo => .saveOption u key value todo

def lockNext (u : Update F) (values : List (PricingOption × Object F)) :
    List PricingOption → UpdatePc F
  | [] => saveNext u values
  | key :: todo => .insertOption u key todo values

def beginUpdate (u : Update F) : UpdatePc F := lockNext u [] u.keys

/-- The row of a manual model: of an existing row the columns that the conflict clause names. -/
def manualState (name : Text) : Option ModelState → ModelState
  | none => ⟨name, .manual, 0, none, .ready, 0⟩
  | some state => { state with
      mode := .manual
      channelID := 0
      provenance := none
      status := .ready }

def preferenceState (current : Text → Option ModelState) (preference : Preference) :
    Option ModelState :=
  let name := trimSpace preference.modelName
  match preference.mode with
  | .manual => some ⟨name, .manual, 0, none, .ready, 0⟩
  | .general => some ⟨name, .general, 0, (current name).bind ModelState.provenance, .stale,
      ((current name).map ModelState.lastAppliedAt).getD 0⟩
  | .channel => some ⟨name, .channel, preference.channelID,
      (current name).bind ModelState.provenance, .stale,
      ((current name).map ModelState.lastAppliedAt).getD 0⟩
  | .other _ => none

def validNames (preferences : List Preference) : Bool :=
  let names := preferences.map fun preference => trimSpace preference.modelName
  names.all (fun name => decide (name ≠ [])) && decide names.Nodup

def ownsRemovedSource (removed : List ℤ) (state : ModelState) : Bool :=
  let isRemoved := fun id => removed.any fun other => decide (other = id)
  (decide (state.mode = .channel) && isRemoved state.channelID) ||
    (state.provenance.getD []).any isRemoved

def ownedNames (u : ConfigurationUpdate) (names : List Text) (get : Text → Option ModelState) :
    List Text :=
  namesWhere names get fun state =>
    decide (state.mode ≠ .manual) && ownsRemovedSource u.removedSourceIDs state

def keepAttempts (get : ℤ → Option Source) (source : Source) : Source :=
  match get source.channelID with
  | none => source
  | some previous =>
    if previous.sameConfig source then { source with
      lastAttemptAt := previous.lastAttemptAt
      lastSuccessAt := previous.lastSuccessAt
      lastError := previous.lastError }
    else source

def sameSources (current expected : List Source) : Bool :=
  let config := fun sources : List Source =>
    (sources.insertionSort fun a b => a.channelID ≤ b.channelID).map fun source =>
      (source.channelID, source.enabled, source.endpoint, source.intervalSeconds)
  decide (config current = config expected)

def currentSources (i : ℕ) (s : Store F) : List Source :=
  s.sources.keys.dedup.filterMap fun id => (s.sources.row id).select i

def rollback (i : ℕ) (s : Store F) : Option (Store F × UpdatePc F) :=
  some (s.abort i, .finished none)

/-- `INSERT ... ON CONFLICT DO NOTHING` of the version: a committed row is left alone, an
uncommitted one of another transaction is waited for. -/
def insertVersion (i : ℕ) (s : Store F) : Option (Store F) :=
  if (s.version.select i).isSome then some s
  else if s.version.free i then some (s.writeVersion i (some 0))
  else none

def insertOption (i : ℕ) (key : PricingOption) (s : Store F) : Option (Store F) :=
  if ((s.options key).select i).isSome then some s
  else if (s.options key).free i then some (s.writeOption i key (some (.object ∅)))
  else none

def updateStatement (fl : Floats F) (channels : List ℤ) (i : ℕ) (s : Store F) :
    UpdatePc F → Option (Store F × UpdatePc F)
  | .readExisting u =>
    some (s, .readOwned { u with sources := u.sources.map (keepAttempts s.sources.find) })
  | .readOwned u =>
    some (s, beginUpdate (.configuration
      { u with owned := ownedNames u s.states.keys s.states.find }))
  | .insertOption u key todo values =>
    (insertOption i key s).map fun s' => (s', .lockOption u key todo values)
  | .lockOption u key todo values =>
    if (s.options key).free i then
      match (s.options key).select i with
      | some (.object current) =>
        some (s.writeOption i key (some (.object current)),
          lockNext (u.compare fl current) (values ++ [(key, u.newValue key current)]) todo)
      | _ => rollback i s
    else none
  | .saveOption u key value todo =>
    if (s.options key).free i then
      some (s.writeOption i key (some (.object value)), saveNext u todo)
    else none
  | .insertVersion u => (insertVersion i s).map fun s' => (s', .lockVersion u)
  | .lockVersion u =>
    if s.version.free i then
      match s.version.select i with
      | some value =>
        if value = u.expectedVersion then some (s.writeVersion i (some value), afterGuard u)
        else rollback i s
      | none => rollback i s
    else none
  | .bumpInsert u => (insertVersion i s).map fun s' => (s', .bumpLock u)
  | .bumpLock u =>
    if s.version.free i then
      match s.version.select i with
      | some value => some (s.writeVersion i (some value), .bumpSave u value)
      | none => rollback i s
    else none
  | .bumpSave u currentVersion =>
    if s.version.free i then some (s.writeVersion i (some (currentVersion + 1)), afterBump u)
    else none
  | .markManual u name todo =>
    if (s.states.row name).free i then
      some (s.writeState i name (some (manualState name ((s.states.row name).select i))),
        markNext u todo)
    else none
  | .upsertState u state todo =>
    if (s.states.row state.modelName).free i then
      some (s.writeState i state.modelName (some state), upsertNext u todo)
    else none
  | .readApplied u =>
    if u.preferences.isEmpty then some (s, .commit (.preferences u))
    else if validNames u.preferences then some (s, .lockNamed u)
    else rollback i s
  | .lockNamed u =>
    let current := fun name => (s.states.row name).select i
    let found := (u.preferences.map fun preference => trimSpace preference.modelName).filter
      fun name => (current name).isSome
    if s.states.freeEach i found then
      some (s.writeStates i found id,
        sourceNext u current ((u.preferences.filter fun preference =>
          decide (preference.mode = .channel)).map Preference.channelID))
    else none
  | .readSource u current id todo =>
    match (s.sources.row id).select i with
    | some source => if source.enabled then some (s, sourceNext u current todo) else rollback i s
    | none => rollback i s
  | .upsertPreference u current preference todo =>
    match preferenceState current preference with
    | none => rollback i s
    | some state =>
      if (s.states.row state.modelName).free i then
        some (s.writeState i state.modelName (some state), preferenceNext u current todo)
      else none
  | .readSources u =>
    if u.expectedPrevious.all (sameSources (currentSources i s)) then
      some (s, .readChannels
        { u with sources := u.sources.map (keepAttempts fun id => (s.sources.row id).select i) })
    else rollback i s
  | .readChannels u =>
    if u.sources.all fun source => decide (0 < source.channelID) → channels.any
        fun id => decide (id = source.channelID) then some (s, .lockStates u)
    else rollback i s
  | .lockStates u =>
    let get := fun name => (s.states.row name).select i
    let found := namesWhere s.states.keys get fun state => decide (state.mode ≠ .manual)
    if s.states.freeEach i found then
      if sortStrings (ownedNames u s.states.keys get) = sortStrings u.owned then
        some (s.writeStates i found id, .deleteSources u)
      else rollback i s
    else none
  | .deleteSources u =>
    if s.sources.freeEach i s.sources.keys then
      some ({ s with sources := s.sources.writeEach i s.sources.keys fun _ => none },
        .createSources u)
    else none
  | .createSources u =>
    if s.sources.freeEach i (u.sources.map Source.channelID) then
      let created := u.sources.foldl
        (fun table source => table.write i source.channelID (some source)) s.sources
      some ({ s with sources := created }, .deleteQuotes u)
    else none
  | .deleteQuotes u =>
    let found := s.quotes.keys.filter fun key =>
      u.removedSourceIDs.any fun id => decide (id = key.1)
    if s.quotes.freeEach i found then
      some ({ s with quotes := s.quotes.writeEach i found fun _ => none }, .deleteStates u)
    else none
  | .deleteStates u =>
    if s.states.freeEach i u.owned then
      some (s.writeStates i u.owned fun _ => none, .commit (.configuration u))
    else none
  | .commit u => some (s.commit i, .finished (some u))
  | .finished _ => none

end NewApi.Model.PricingSync
