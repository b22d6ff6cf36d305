import Mathlib.Data.List.AList
import NewApi.Common.Text
import NewApi.Lib.Chase

/-!
# Model mappings (relay/helper/model_mapped.go, relay/helper/price.go)

A key mapping and a channel mapping are followed one after the other.
-/

namespace NewApi.Relay.ModelMapped

open Chase

abbrev Table := AList fun _ : Text => Text

inductive RelayMode where
  | responsesCompact
  | other
  deriving DecidableEq, Repr

inductive MappingError where
  | unmarshalFailed
  | containsCycle
  | conflictingTargets
  /-- No error of the source: the bound of a loop is reached. -/
  | outOfFuel
  deriving DecidableEq, Repr

def MappingError.text : MappingError → Text
  | .unmarshalFailed => "unmarshal_model_mapping_failed".toList
  | .containsCycle => "model_mapping_contains_cycle".toList
  | .conflictingTargets => "model_mapping_has_conflicting_targets".toList
  | .outOfFuel => []

def compactModelSuffix : Text := "-openai-compact".toList

def hasCompactSuffix (name : Text) : Bool := compactModelSuffix.reverse.isPrefixOf name.reverse

def trimCompactSuffix (name : Text) : Text :=
  if hasCompactSuffix name then name.take (name.length - compactModelSuffix.length) else name

def withCompactModelSuffix (name : Text) : Text :=
  if hasCompactSuffix name then name else name ++ compactModelSuffix

def mappingModelName (mode : RelayMode) (name : Text) : Text :=
  match mode with
  | .responsesCompact => trimCompactSuffix name
  | .other => name

section Follow

-- the JSON decoder
variable (unmarshal : Text → Option Table)

def tableOf (mapping : Text) : Option Table :=
  if mapping = [] ∨ mapping = "\x7b\x7d".toList then some ∅ else unmarshal mapping

def followLoop (t : Table) : ℕ → List Text → Text → Except MappingError (Text × List Text)
  | 0, _, _ => .error .outOfFuel
  | fuel + 1, visited, currentModel =>
    match t.lookup currentModel with
    | none => .ok (currentModel, visited)
    | some mappedModel =>
      if mappedModel = [] ∨ mappedModel = currentModel then .ok (currentModel, visited)
      else if seen visited mappedModel then .error .containsCycle
      else followLoop t fuel (mappedModel :: visited) mappedModel

def fuelOf (t : Table) : ℕ := (t.entries.map Sigma.snd).length + 1

def followModelMapping (mapping modelName : Text) (visited : List Text) :
    Except MappingError (Text × List Text) :=
  match tableOf unmarshal mapping with
  | none => .error .unmarshalFailed
  | some t => followLoop t (fuelOf t) visited modelName

def resolveLoop (t : Table) (modelName : Text) :
    ℕ → List Text → Text → Except MappingError (Text × Bool)
  | 0, _, _ => .error .outOfFuel
  | fuel + 1, visited, currentModel =>
    match t.lookup currentModel with
    | none => .ok (currentModel, decide (currentModel ≠ modelName))
    | some mappedModel =>
      if mappedModel = [] then .ok (currentModel, decide (currentModel ≠ modelName))
      else if seen visited mappedModel then
        if mappedModel = currentModel ∧ currentModel ≠ modelName then .ok (currentModel, true)
        else if mappedModel = modelName ∧ currentModel = modelName then .ok (modelName, false)
        else .error .containsCycle
      else resolveLoop t modelName fuel (mappedModel :: visited) mappedModel

def resolveModelMapping (mapping modelName : Text) : Except MappingError (Text × Bool) :=
  match tableOf unmarshal mapping with
  | none => .error .unmarshalFailed
  | some t => resolveLoop t modelName (fuelOf t) [modelName] modelName

def validateModelMappingComposition (keyMapping channelMapping modelName : Text)
    (mode : RelayMode) : Except MappingError Unit :=
  if modelName = [] then .ok ()
  else
    let name := mappingModelName mode modelName
    match followModelMapping unmarshal keyMapping name [name] with
    | .error e => .error e
    | .ok (currentModel, visited) =>
      match followModelMapping unmarshal channelMapping currentModel visited with
      | .error e => .error e
      | .ok _ => .ok ()

def validateModelMappingCandidates (keyMapping modelName : Text) (mode : RelayMode) :
    List Text → Except MappingError Unit
  | [] => .ok ()
  | mapping :: mappings =>
    match validateModelMappingComposition unmarshal keyMapping mapping modelName mode with
    | .error e => .error e
    | .ok () => validateModelMappingCandidates keyMapping modelName mode mappings

def resolveRelayModelMapping (mapping originModelName : Text) (mode : RelayMode) :
    Except MappingError (Text × Bool) :=
  match resolveModelMapping unmarshal mapping (mappingModelName mode originModelName) with
  | .error e => .error e
  | .ok (target, false) => .ok (target, false)
  | .ok (target, true) =>
    match mode with
    | .responsesCompact => .ok (withCompactModelSuffix target, true)
    | .other => .ok (target, true)

def candidateTargets (originModelName : Text) (mode : RelayMode) :
    List Text → Except MappingError (List Text)
  | [] => .ok []
  | mapping :: mappings =>
    match resolveRelayModelMapping unmarshal mapping originModelName mode with
    | .error e => .error e
    | .ok (target, isMapped) =>
      match candidateTargets originModelName mode mappings with
      | .error e => .error e
      | .ok targets => .ok ((if isMapped then target else originModelName) :: targets)

/-- `ResolveCandidateModelMapping`. The source collects the targets in a set. -/
def resolveCandidateModelMapping (mappings : List Text) (originModelName : Text)
    (mode : RelayMode) : Except MappingError (Text × Bool) :=
  match candidateTargets unmarshal originModelName mode mappings with
  | .error e => .error e
  | .ok [] => .ok (originModelName, false)
  | .ok (target :: targets) =>
    if targets.all fun t => decide (t = target) then
      .ok (target, decide (target ≠ originModelName))
    else .error .conflictingTargets

structure RelayInfo where
  relayMode : RelayMode
  originModelName : Text
  billingModelName : Text
  hasChannelMeta : Bool
  upstreamModelName : Text
  sentUpstreamModelName : Text
  isModelMapped : Bool
  deriving DecidableEq, Repr

def getBillingModelName (info : RelayInfo) : Text :=
  if info.billingModelName ≠ [] then info.billingModelName
  else if info.hasChannelMeta ∧ info.isModelMapped ∧ info.upstreamModelName ≠ [] then
    info.upstreamModelName
  else info.originModelName

def requestedModel (mode : RelayMode) (model : Text) : Text :=
  match mode with
  | .responsesCompact => if model ≠ [] then withCompactModelSuffix model else model
  | .other => model

def originModel (keyMapping model : Text) (mode : RelayMode) : Except MappingError Text :=
  match resolveRelayModelMapping unmarshal keyMapping (requestedModel mode model) mode with
  | .error e => .error e
  | .ok (target, isMapped) => .ok (if isMapped then target else requestedModel mode model)

/-- `Relay` up to the reserve: the checks over all channels and the model to be billed. -/
def reserve (keyMapping model : Text) (mode : RelayMode) (mappings : List Text) :
    Except MappingError RelayInfo :=
  match originModel unmarshal keyMapping model mode with
  | .error e => .error e
  | .ok origin =>
    match validateModelMappingCandidates unmarshal keyMapping (requestedModel mode model) mode
      mappings with
    | .error e => .error e
    | .ok () =>
      match resolveCandidateModelMapping unmarshal mappings origin mode with
      | .error e => .error e
      | .ok (billingModelName, isModelMapped) => .ok
        { relayMode := mode
          originModelName := origin
          billingModelName := if isModelMapped then billingModelName else []
          hasChannelMeta := false
          upstreamModelName := []
          sentUpstreamModelName := origin
          isModelMapped := false }

/-- `InitChannelMeta`: a new `ChannelMeta`, whose upstream model is the context's original model,
which channel selection set to the origin model of `info`. -/
def initChannelMeta (info : RelayInfo) : RelayInfo :=
  { info with
    hasChannelMeta := true
    upstreamModelName := info.originModelName
    isModelMapped := false }

def modelMappedHelper (keyMapping requested channelMapping : Text) (info : RelayInfo) :
    Except MappingError RelayInfo :=
  let mappingName := mappingModelName info.relayMode info.originModelName
  match validateModelMappingComposition unmarshal keyMapping channelMapping requested
    info.relayMode with
  | .error e => .error e
  | .ok () =>
    match resolveModelMapping unmarshal channelMapping mappingName with
    | .error e => .error e
    | .ok (target, isMapped) =>
      let compact := decide (info.relayMode = .responsesCompact)
      let info := { info with
        isModelMapped := isMapped
        upstreamModelName := if isMapped then target else info.upstreamModelName
        billingModelName := if isMapped then
            (if compact then withCompactModelSuffix target else target)
          else [] }
      if compact then
        let final := if info.isModelMapped ∧ info.upstreamModelName ≠ [] then info.upstreamModelName
          else mappingName
        .ok { info with
          upstreamModelName := final
          sentUpstreamModelName := final
          originModelName := withCompactModelSuffix final }
      else .ok info

def attempt (keyMapping requested channelMapping : Text) (info : RelayInfo) :
    Except MappingError RelayInfo :=
  modelMappedHelper unmarshal keyMapping requested channelMapping (initChannelMeta info)

def attempts (keyMapping requested : Text) : List Text → RelayInfo → Except MappingError RelayInfo
  | [], info => .ok info
  | mapping :: mappings, info =>
    match attempt unmarshal keyMapping requested mapping info with
    | .error e => .error e
    | .ok info => attempts keyMapping requested mappings info

end Follow

end NewApi.Relay.ModelMapped
