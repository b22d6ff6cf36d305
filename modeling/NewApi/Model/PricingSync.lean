import Mathlib.Data.List.AList
import Mathlib.Data.List.Dedup
import Mathlib.Data.List.Sort
import NewApi.Common.Text
import NewApi.Lib.RowTable

/-!
# Pricing synchronization: options, model states and sources

Each option is a JSON object with an entry per model.
-/

namespace NewApi.Model.PricingSync

variable {F : Type}

/-- What the code asks of `float64`. -/
structure Floats (F : Type) where
  zero : F
  ofNat : ℕ → F
  add : F → F → F
  mul : F → F → F
  div : F → F → F
  lt : F → F → Bool
  isZero : F → Bool
  nonNegativeFinite : F → Bool
  nearlyEqual : F → F → Bool
  format : F → Text

/-- A decoded JSON value; of an array or an object only what `%v` prints of it. -/
inductive Value (F : Type)
  | null
  | bool (b : Bool)
  | number (f : F)
  | string (s : Text)
  | array (printed : Text)
  | object (printed : Text)
  deriving DecidableEq

def interface2String (fl : Floats F) : Value F → Text
  | .string s => s
  | .number f => fl.format f
  | .bool b => if b then "true".toList else "false".toList
  | .null => []
  | .array printed | .object printed => printed

def asFloat64 : Value F → Option F
  | .number f => some f
  | _ => none

abbrev Object (F : Type) := AList fun _ : Text => Value F

/-- The keys of `jsonObjectPatchOptionKeys`, in the order of `sort.Strings`. -/
inductive PricingOption
  | audioCompletionRatio
  | audioRatio
  | cacheRatio
  | completionRatio
  | createCacheRatio
  | imageRatio
  | modelPrice
  | modelRatio
  | billingExpr
  | billingMode
  | taskPriceUnit
  deriving DecidableEq

def jsonObjectPatchOptionKeys : List PricingOption :=
  [.audioCompletionRatio, .audioRatio, .cacheRatio, .completionRatio, .createCacheRatio,
    .imageRatio, .modelPrice, .modelRatio, .billingExpr, .billingMode, .taskPriceUnit]

structure JSONObjectPatch (F : Type) where
  set : Object F
  delete : List Text

abbrev Patches (F : Type) := PricingOption → Option (JSONObjectPatch F)

namespace JSONObjectPatch

def empty : JSONObjectPatch F := ⟨∅, []⟩

def apply (patch : JSONObjectPatch F) (current : Object F) : Object F :=
  patch.set ∪ patch.delete.foldl (fun object field => object.erase field) current

def Touches (patch : JSONObjectPatch F) (modelName : Text) : Prop :=
  modelName ∈ patch.set ∨ modelName ∈ patch.delete

theorem lookup_foldl_erase {modelName : Text} (fields : List Text) (object : Object F)
    (h : modelName ∉ fields) :
    (fields.foldl (fun object field => object.erase field) object).lookup modelName =
      object.lookup modelName := by
  induction fields generalizing object with
  | nil => rfl
  | cons field fields ih =>
    rw [List.mem_cons, not_or] at h
    rw [List.foldl_cons, ih (object.erase field) h.2]
    exact AList.lookup_erase_ne h.1

theorem lookup_apply {patch : JSONObjectPatch F} {current : Object F} {modelName : Text}
    (h : ¬ patch.Touches modelName) :
    (patch.apply current).lookup modelName = current.lookup modelName := by
  rw [Touches, not_or] at h
  rw [apply, AList.lookup_union_right h.1, lookup_foldl_erase _ _ h.2]

end JSONObjectPatch

def Patches.Touches (patches : Patches F) (key : PricingOption) (modelName : Text) : Prop :=
  ∃ patch, patches key = some patch ∧ patch.Touches modelName

instance (patch : JSONObjectPatch F) (modelName : Text) : Decidable (patch.Touches modelName) :=
  inferInstanceAs (Decidable (_ ∨ _))

instance (patches : Patches F) (key : PricingOption) (modelName : Text) :
    Decidable (patches.Touches key modelName) :=
  decidable_of_iff (∃ patch ∈ patches key, patch.Touches modelName) Iff.rfl

inductive Stored (F : Type)
  | malformed
  | object (value : Object F)

def entry : Option (Stored F) → Text → Option (Value F)
  | some (.object value), modelName => value.lookup modelName
  | _, _ => none

def changedModels (fl : Floats F) (before after : Object F) : List Text :=
  ((before.keys ++ after.keys).filter fun name =>
    decide ((after.lookup name).map (interface2String fl) ≠
      (before.lookup name).map (interface2String fl))).dedup

inductive Mode
  | manual
  | general
  | channel
  | other (text : Text)
  deriving DecidableEq

inductive Status
  | ready
  | conflict
  | stale
  | unavailable
  deriving DecidableEq

/-- `PricingSyncModelState`. A provenance that is not a JSON list of ids is `none`. -/
structure ModelState where
  modelName : Text
  mode : Mode
  channelID : ℤ
  provenance : Option (List ℤ)
  status : Status
  lastAppliedAt : ℤ
  deriving DecidableEq

def IsManual (state : Option ModelState) : Prop := state.map ModelState.mode = some .manual

instance (state : Option ModelState) : Decidable (IsManual state) :=
  inferInstanceAs (Decidable (_ = _))

structure Source where
  channelID : ℤ
  enabled : Bool
  endpoint : Text
  intervalSeconds : ℤ
  lastAttemptAt : ℤ
  lastSuccessAt : ℤ
  lastError : Text
  deriving DecidableEq

def Source.sameConfig (a b : Source) : Bool :=
  decide (a.enabled = b.enabled ∧ a.endpoint = b.endpoint ∧ a.intervalSeconds = b.intervalSeconds)

inductive Field
  | modelRatio
  | completionRatio
  | cacheRatio
  | createCacheRatio
  | imageRatio
  | audioRatio
  | audioCompletionRatio
  | modelPrice
  | billingMode
  | billingExpr
  deriving DecidableEq

def pricingSyncFields : List Field :=
  [.modelRatio, .completionRatio, .cacheRatio, .createCacheRatio, .imageRatio, .audioRatio,
    .audioCompletionRatio, .modelPrice, .billingMode, .billingExpr]

abbrev SyncData (F : Type) := Field → Object F

abbrev Contract (F : Type) := AList fun _ : Field => Value F

/-- `PricingSyncQuote`. Data that does not decode is `none`. -/
structure Quote (F : Type) where
  channelID : ℤ
  modelName : Text
  data : Option (Contract F)
  candidateHash : Text
  confirmations : ℤ
  missingCount : ℤ
  confirmedAt : ℤ

structure Store (F : Type) where
  options : PricingOption → Row ℕ (Option (Stored F))
  version : Row ℕ (Option ℤ)
  states : RowTable ℕ Text ModelState
  sources : RowTable ℕ ℤ Source
  quotes : RowTable ℕ (ℤ × Text) (Quote F)

namespace Store

def writeOption (i : ℕ) (key : PricingOption) (value : Option (Stored F)) (s : Store F) :
    Store F :=
  { s with options := Function.update s.options key ((s.options key).write i value) }

def writeVersion (i : ℕ) (value : Option ℤ) (s : Store F) : Store F :=
  { s with version := s.version.write i value }

def writeState (i : ℕ) (name : Text) (value : Option ModelState) (s : Store F) : Store F :=
  { s with states := s.states.write i name value }

def writeStates (i : ℕ) (names : List Text) (f : Option ModelState → Option ModelState)
    (s : Store F) : Store F :=
  { s with states := s.states.writeEach i names f }

def commit (i : ℕ) (s : Store F) : Store F where
  options := fun key => (s.options key).commit i
  version := s.version.commit i
  states := s.states.commit i
  sources := s.sources.commit i
  quotes := s.quotes.commit i

def abort (i : ℕ) (s : Store F) : Store F where
  options := fun key => (s.options key).abort i
  version := s.version.abort i
  states := s.states.abort i
  sources := s.sources.abort i
  quotes := s.quotes.abort i

end Store

/-- `GetPricingSyncModelStates`: the names that have rows, and the row of each. -/
structure Preferences where
  names : List Text
  get : Text → Option ModelState

def getPricingSyncModelStates (s : Store F) : Preferences := ⟨s.states.keys, s.states.find⟩

def sortStrings (names : List Text) : List Text :=
  names.insertionSort fun a b => textLe a b = true

def namesWhere (names : List Text) (get : Text → Option ModelState) (p : ModelState → Bool) :
    List Text :=
  (names.filter fun name => (get name).any p).dedup

theorem of_mem_namesWhere {names : List Text} {get : Text → Option ModelState}
    {p : ModelState → Bool} {name : Text} (h : name ∈ namesWhere names get p) :
    ∃ state, get name = some state ∧ p state = true := by
  have hany := (List.mem_filter.mp (List.mem_dedup.mp h)).2
  rcases hget : get name with _ | state
  · rw [hget] at hany
    cases hany
  · rw [hget] at hany
    exact ⟨state, rfl, hany⟩

end NewApi.Model.PricingSync
