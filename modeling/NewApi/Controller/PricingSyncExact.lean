import Mathlib.Algebra.Order.Field.Rat
import Mathlib.Tactic.FieldSimp
import NewApi.Controller.PricingSyncPatches

/-!
# What the patches make of the local pricing
-/

namespace NewApi.Controller.PricingSync

open Model.PricingSync

variable {F : Type}

def applyPatches (patches : Patches F) (data : SyncData F) : SyncData F := fun field =>
  match patches (optionKeyForPricingField field) with
  | none => data field
  | some patch => patch.apply (data field)

def exposingSources (upstreams : List (ℤ × SyncData F)) (preferences : Preferences)
    (modelName : Text) : List (SyncData F) :=
  ((modelUpstreams upstreams (preferences.get modelName)).getD []).filter fun upstream =>
    (pricingCategory upstream modelName).isSome

/-! ### One entry -/

def Change.value : Change F → Option (Value F)
  | .set value => some value
  | .delete => none

def settledValue (fl : Floats F) : Option (Value F) → Option (Value F) → Option (Value F)
  | none, _ => none
  | some expected, none => some expected
  | some expected, some current =>
    if valuesEqual fl current expected = some true then some current else some expected

section Entry

variable {fl : Floats F} {patches : Patches F} {key : PricingOption} {name modelName : Text}
  {field : Field} {strategy : Strategy} {localPricing : SyncData F}
  {upstreams : List (ℤ × SyncData F)} {preferences : Preferences}
  {expect : Field → Except Stop (Option (Value F))} {held : Field → Option (Value F)}
  {fields : List Field} {changes : List (Field × Change F)}

theorem lookup_foldl_erase_mem (fields : List Text) (object : Object F)
    (h : modelName ∈ fields ∨ object.lookup modelName = none) :
    (fields.foldl (fun object field => object.erase field) object).lookup modelName = none := by
  induction fields generalizing object with
  | nil => simpa using h
  | cons field fields ih =>
    apply ih
    by_cases hfield : modelName = field
    · subst hfield
      exact .inr (AList.lookup_erase _ _)
    · simpa [hfield] using h

theorem lookup_applyPatches (data : SyncData F) :
    (applyPatches patches data field).lookup modelName =
      (verdict patches (optionKeyForPricingField field) modelName).getD
        ((data field).lookup modelName) := by
  unfold applyPatches verdict
  rcases patches (optionKeyForPricingField field) with _ | patch
  · rfl
  simp only [Option.getD_some, JSONObjectPatch.apply]
  rcases hset : patch.set.lookup modelName with _ | value
  · rw [AList.lookup_union_right (AList.lookup_eq_none.mp hset)]
    by_cases hdelete : modelName ∈ patch.delete
    · rw [lookup_foldl_erase_mem _ _ (.inl hdelete), if_pos (by simpa using hdelete)]
      rfl
    · rw [JSONObjectPatch.lookup_foldl_erase _ _ hdelete, if_neg (by simpa using hdelete)]
      rfl
  · exact (AList.lookup_union_left (AList.lookup_isSome.mp (by simp [hset]))).trans hset

theorem verdict_addChange_self {change : Change F}
    (h : verdict patches (optionKeyForPricingField field) modelName = none) :
    verdict (addChange modelName patches (field, change)) (optionKeyForPricingField field)
      modelName = some change.value := by
  cases change with
  | set value => simp [verdict, addChange, Change.value]
  | delete =>
    simp only [verdict] at h
    split at h
    · cases h
    · next hset => simp [verdict, addChange, Change.value, hset]

theorem optionKey_injective : Function.Injective optionKeyForPricingField := by
  intro a b h
  cases a <;> cases b <;> first | rfl | cases h

/-! ### One model -/

theorem fieldChanges_cons
    (h : fieldChanges fl expect held (field :: fields) = .ok changes) :
    ∃ expected first others, expect field = .ok expected ∧
      fieldChange fl field expected (held field) = .ok first ∧
      fieldChanges fl expect held fields = .ok others ∧ changes = first ++ others := by
  rw [fieldChanges] at h
  rcases hexpect : expect field with _ | expected
  · simp [hexpect, Except.bind] at h
  rcases hfirst : fieldChange fl field expected (held field) with _ | first
  · simp [hexpect, hfirst, Except.bind] at h
  rcases hothers : fieldChanges fl expect held fields with _ | others
  · simp [hexpect, hfirst, hothers, Except.bind, Except.map] at h
  simp only [hexpect, hfirst, hothers, Except.bind, Except.map, Except.ok.injEq] at h
  exact ⟨expected, first, others, rfl, hfirst, rfl, h.symm⟩

theorem fieldChange_fst {value current : Option (Value F)} {change : Field × Change F}
    (h : fieldChange fl field value current = .ok changes) (hchange : change ∈ changes) :
    change.1 = field := by
  unfold fieldChange at h
  grind

theorem fieldChanges_fst {change : Field × Change F}
    (h : fieldChanges fl expect held fields = .ok changes) (hchange : change ∈ changes) :
    change.1 ∈ fields := by
  induction fields generalizing changes with
  | nil => cases h; cases hchange
  | cons field fields ih =>
    obtain ⟨expected, first, others, -, hfirst, hothers, rfl⟩ := fieldChanges_cons h
    rcases List.mem_append.mp hchange with hchange | hchange
    · rw [fieldChange_fst hfirst hchange]
      exact List.mem_cons_self
    · exact List.mem_cons_of_mem _ (ih hothers hchange)

theorem verdict_fieldChange {value current : Option (Value F)}
    (hempty : verdict patches (optionKeyForPricingField field) modelName = none)
    (h : fieldChange fl field value current = .ok changes) :
    (verdict (changes.foldl (addChange modelName) patches) (optionKeyForPricingField field)
      modelName).getD current = settledValue fl value current := by
  rcases value with _ | value <;> rcases current with _ | current
  · cases h
    simp [settledValue, hempty]
  · cases h
    simp [settledValue, verdict_addChange_self hempty, Change.value]
  · cases h
    simp [settledValue, verdict_addChange_self hempty, Change.value]
  · simp only [fieldChange] at h
    split at h
    · cases h
    · next hequal =>
      cases h
      simp [settledValue, hequal, hempty]
    · next hequal =>
      cases h
      simp [settledValue, hequal, verdict_addChange_self hempty, Change.value]

/-- Only the changes of the field itself matter, wherever it stands. -/
theorem verdict_fieldChanges (hnodup : fields.Nodup) (hfield : field ∈ fields)
    (hempty : verdict patches (optionKeyForPricingField field) modelName = none)
    (h : fieldChanges fl expect held fields = .ok changes) :
    ∃ expected, expect field = .ok expected ∧
      (verdict (changes.foldl (addChange modelName) patches) (optionKeyForPricingField field)
        modelName).getD (held field) = settledValue fl expected (held field) := by
  induction fields generalizing patches changes with
  | nil => cases hfield
  | cons other fields ih =>
    rw [List.nodup_cons] at hnodup
    obtain ⟨expected, first, others, hexpected, hfirst, hothers, rfl⟩ := fieldChanges_cons h
    rw [List.foldl_append]
    by_cases heq : field = other
    · subst heq
      refine ⟨expected, hexpected, ?_⟩
      rw [verdict_foldl_of_ne fun change hchange hkey => ?_]
      · exact verdict_fieldChange hempty hfirst
      · have hmem := fieldChanges_fst hothers hchange
        rw [optionKey_injective hkey] at hmem
        exact absurd hmem hnodup.1
    · refine ih hnodup.2 ((List.mem_cons.mp hfield).resolve_left heq) ?_ hothers
      rw [verdict_foldl_of_ne fun change hchange hkey => ?_]
      · exact hempty
      · rw [fieldChange_fst hfirst hchange] at hkey
        exact absurd (optionKey_injective hkey).symm heq

theorem fieldChanges_nil (h : ∀ field ∈ fields, ∃ expected, expect field = .ok expected ∧
    fieldChange fl field expected (held field) = .ok []) :
    fieldChanges fl expect held fields = .ok [] := by
  induction fields with
  | nil => rfl
  | cons field fields ih =>
    rw [List.forall_mem_cons] at h
    obtain ⟨⟨expected, hexpected, hfield⟩, hrest⟩ := h
    simp [fieldChanges, hexpected, hfield, ih hrest, Except.bind, Except.map]

/-! ### Arrays and objects -/

def isNested : Value F → Bool
  | .array _ | .object _ => true
  | _ => false

def bothNested : Value F → Value F → Bool
  | .array _, .array _ | .object _, .object _ => true
  | _, _ => false

def valuesOf (sources : List (SyncData F)) (modelName : Text) (field : Field) : List (Value F) :=
  sources.filterMap fun source => (source field).lookup modelName

/-- No source has the field, or all have it with equal values. -/
def Agree (fl : Floats F) (sources : List (SyncData F)) (modelName : Text) (field : Field) :
    Prop :=
  let values := valuesOf sources modelName field
  values = [] ∨ values.length = sources.length ∧
    values.IsChain fun a b => valuesEqual fl a b = some true

/-- Two arrays or two objects meet in a comparison: those of the first two sources that have the
field, or the one of the only source and its own copy in the patched table. -/
def NestedMeet (sources : List (SyncData F)) (modelName : Text) (field : Field) : Prop :=
  match valuesOf sources modelName field with
  | [] => False
  | [value] => sources.length = 1 ∧ isNested value = true
  | a :: b :: _ => bothNested a b = true

/-- They meet in no field, up to the first one on which the sources disagree. -/
def ComparableFields (fl : Floats F) (sources : List (SyncData F)) (modelName : Text) :
    List Field → Prop
  | [] => True
  | field :: rest => ¬ NestedMeet sources modelName field ∧
    (Agree fl sources modelName field → ComparableFields fl sources modelName rest)

theorem valuesEqual_eq_none (fl : Floats F) {a b : Value F} :
    valuesEqual fl a b = none ↔ bothNested a b = true := by
  cases a <;> cases b <;> simp [valuesEqual, bothNested]

theorem valuesEqual_nested {a b : Value F} (h : isNested b = true) :
    valuesEqual fl a b ≠ some true := by
  cases a <;> cases b <;> simp_all [valuesEqual, isNested]

theorem valuesEqual_plain {a b : Value F} (h : isNested b = false) : valuesEqual fl a b ≠ none := by
  cases a <;> cases b <;> simp_all [valuesEqual, isNested]

theorem fieldChange_plain (fl : Floats F) (field : Field) {expected : Option (Value F)}
    (h : ∀ value, expected = some value → isNested value = false) (current : Option (Value F)) :
    ∃ changes, fieldChange fl field expected current = .ok changes := by
  rcases expected with _ | expected <;> rcases current with _ | current
  · exact ⟨_, rfl⟩
  · exact ⟨_, rfl⟩
  · exact ⟨_, rfl⟩
  · simp only [fieldChange]
    split
    · next hnone => exact absurd hnone (valuesEqual_plain (h expected rfl))
    · exact ⟨_, rfl⟩
    · exact ⟨_, rfl⟩

theorem agreed_cases (fl : Floats F) (value : Value F) (rest : List (Value F)) :
    (∀ last, agreed fl value rest = .ok last →
      (value :: rest).IsChain (fun a b => valuesEqual fl a b = some true) ∧
        (isNested last = true → rest = [] ∧ last = value)) ∧
    (agreed fl value rest = .error .skipped →
      ¬ (value :: rest).IsChain fun a b => valuesEqual fl a b = some true) ∧
    (agreed fl value rest = .error .panicked →
      ∃ next others, rest = next :: others ∧ valuesEqual fl value next = none) := by
  induction rest generalizing value with
  | nil => simp [agreed]
  | cons next rest ih =>
    rw [agreed]
    split
    · next hnone => simp [hnone]
    · next hequal =>
      -- equal values are not nested: the panic can only be at the first pair
      obtain ⟨hok, hskipped, hpanicked⟩ := ih next
      have hplain : isNested next = false :=
        Bool.eq_false_iff.mpr fun hnested => valuesEqual_nested hnested hequal
      refine ⟨fun last hlast => ⟨?_, fun hnested => ?_⟩, fun h hchain => ?_, fun h => ?_⟩
      · exact .cons_cons hequal (hok last hlast).1
      · obtain ⟨-, rfl⟩ := (hok last hlast).2 hnested
        simp [hplain] at hnested
      · exact hskipped h (List.isChain_cons_cons.mp hchain).2
      · obtain ⟨other, others, rfl, hnone⟩ := hpanicked h
        rw [valuesEqual_eq_none] at hnone
        cases next <;> simp [bothNested, isNested] at hnone hplain
    · next hequal => simp [hequal]

section Sources

variable {sources : List (SyncData F)}

theorem expectedValue_cases (fl : Floats F) (sources : List (SyncData F)) (modelName : Text)
    (field : Field) :
    (∀ expected, expectedValue fl none sources modelName field = .ok expected →
      Agree fl sources modelName field ∧
        (NestedMeet sources modelName field ↔
          ∃ value, expected = some value ∧ isNested value = true) ∧
        (NestedMeet sources modelName field → sources.length = 1)) ∧
    (expectedValue fl none sources modelName field = .error .skipped →
      ¬ Agree fl sources modelName field ∧ ¬ NestedMeet sources modelName field) ∧
    (expectedValue fl none sources modelName field = .error .panicked →
      NestedMeet sources modelName field) := by
  have hvalues : (sources.filterMap fun source => (source field).lookup modelName) =
      valuesOf sources modelName field := rfl
  simp only [expectedValue, hvalues, Agree, NestedMeet]
  rcases valuesOf sources modelName field with _ | ⟨value, rest⟩
  · simp
  obtain ⟨hok, hskipped, hpanicked⟩ := agreed_cases fl value rest
  rcases rest with _ | ⟨next, rest⟩
  · -- one source has the field
    by_cases hone : sources.length = 1
    · simp [agreed, Except.bind, hone]
    · simp [agreed, Except.bind, hone, Ne.symm hone]
  simp only [← valuesEqual_eq_none fl]
  rcases hagreed : agreed fl value (next :: rest) with stop | last
  · cases stop with
    | skipped =>
      have hsome : valuesEqual fl value next ≠ none := by
        intro hnone
        simp [agreed, hnone] at hagreed
      simp [Except.bind, hskipped hagreed, hsome]
    | panicked =>
      obtain ⟨_, _, heq, hnone⟩ := hpanicked hagreed
      cases heq
      simp [Except.bind, hnone]
  · obtain ⟨hchain, hnested⟩ := hok last hagreed
    have hplain : isNested last = false :=
      Bool.eq_false_iff.mpr fun h => List.cons_ne_nil _ _ (hnested h).1
    have hequal := (List.isChain_cons_cons.mp hchain).1
    by_cases hall : rest.length + 1 + 1 = sources.length
    · simp [Except.bind, hall, hchain, hplain, hequal]
    · simp [Except.bind, hall, hequal]

/-- With one source there is nothing to disagree about. -/
theorem expectedValue_single (hone : sources.length = 1) :
    ∃ expected, expectedValue fl none sources modelName field = .ok expected := by
  obtain ⟨source, rfl⟩ := List.length_eq_one_iff.mp hone
  rcases hvalue : (source field).lookup modelName with _ | value
  · exact ⟨none, by simp [expectedValue, hvalue]⟩
  · exact ⟨some value, by simp [expectedValue, hvalue, agreed, Except.bind]⟩

theorem fieldChanges_of_ok {expected : Option (Value F)} {first : List (Field × Change F)}
    (hexpected : expect field = .ok expected)
    (hfirst : fieldChange fl field expected (held field) = .ok first) :
    fieldChanges fl expect held (field :: fields) =
      (fieldChanges fl expect held fields).map fun others => first ++ others := by
  simp [fieldChanges, hexpected, hfirst, Except.bind]

theorem ComparableFields.not_panicked
    (h : ComparableFields fl sources modelName fields) (held : Field → Option (Value F)) :
    fieldChanges fl (expectedValue fl none sources modelName) held fields ≠ .error .panicked := by
  induction fields with
  | nil => simp [fieldChanges]
  | cons field fields ih =>
    obtain ⟨hmeet, hrest⟩ := h
    obtain ⟨hok, -, hpanicked⟩ := expectedValue_cases fl sources modelName field
    rcases hexpected : expectedValue fl none sources modelName field with stop | expected
    · cases stop with
      | skipped => simp [fieldChanges, hexpected, Except.bind]
      | panicked => exact absurd (hpanicked hexpected) hmeet
    obtain ⟨hagree, hiff, -⟩ := hok expected hexpected
    obtain ⟨first, hfirst⟩ := fieldChange_plain fl field (fun value heq =>
      Bool.eq_false_iff.mpr fun hnested => hmeet (hiff.mpr ⟨value, heq, hnested⟩)) (held field)
    rw [fieldChanges_of_ok hexpected hfirst]
    rcases hothers : fieldChanges fl (expectedValue fl none sources modelName) held fields with
      stop | others
    · rintro ⟨⟩
      exact ih (hrest hagree) hothers
    · rintro ⟨⟩

theorem ComparableFields.plain (h : ComparableFields fl sources modelName fields)
    (hok : ∀ field ∈ fields, ∃ expected,
      expectedValue fl none sources modelName field = .ok expected) :
    ∀ field ∈ fields, ∀ value,
      expectedValue fl none sources modelName field = .ok (some value) →
        isNested value = false := by
  induction fields with
  | nil => simp
  | cons field fields ih =>
    rw [List.forall_mem_cons] at hok ⊢
    obtain ⟨⟨expected, hexpected⟩, hothers⟩ := hok
    obtain ⟨hagree, -⟩ := (expectedValue_cases fl sources modelName field).1 _ hexpected
    refine ⟨fun value hvalue => Bool.eq_false_iff.mpr fun hnested => h.1 ?_,
      ih (h.2 hagree) hothers⟩
    exact ((expectedValue_cases fl sources modelName field).1 _ hvalue).2.1.mpr
      ⟨value, rfl, hnested⟩

/-- Where arrays or objects meet the call panics, or its only source holds one. -/
theorem not_comparableFields (h : ¬ ComparableFields fl sources modelName fields) :
    (∀ held, fieldChanges fl (expectedValue fl none sources modelName) held fields =
      .error .panicked) ∨
    sources.length = 1 ∧ ∃ field ∈ fields, ∃ value,
      expectedValue fl none sources modelName field = .ok (some value) ∧ isNested value = true := by
  induction fields with
  | nil => exact absurd trivial h
  | cons field fields ih =>
    obtain ⟨hok, hskipped, -⟩ := expectedValue_cases fl sources modelName field
    rcases hexpected : expectedValue fl none sources modelName field with stop | expected
    · cases stop with
      | skipped =>
        obtain ⟨hagree, hmeet⟩ := hskipped hexpected
        exact absurd ⟨hmeet, fun hagree' => absurd hagree' hagree⟩ h
      | panicked => exact .inl fun held => by simp [fieldChanges, hexpected, Except.bind]
    obtain ⟨-, hiff, hone⟩ := hok expected hexpected
    by_cases hmeet : NestedMeet sources modelName field
    · obtain ⟨value, rfl, hnested⟩ := hiff.mp hmeet
      exact .inr ⟨hone hmeet, field, List.mem_cons_self, value, hexpected, hnested⟩
    rcases ih fun hrest => h ⟨hmeet, fun _ => hrest⟩ with hpanicked | ⟨hone, other, hother, hvalue⟩
    · refine .inl fun held => ?_
      obtain ⟨first, hfirst⟩ := fieldChange_plain fl field (fun value heq =>
        Bool.eq_false_iff.mpr fun hnested => hmeet (hiff.mpr ⟨value, heq, hnested⟩)) (held field)
      rw [fieldChanges_of_ok hexpected hfirst, hpanicked]
      rfl
    · exact .inr ⟨hone, other, List.mem_cons_of_mem _ hother, hvalue⟩

theorem fieldChanges_expected (h : fieldChanges fl expect held fields = .ok changes) :
    ∀ field ∈ fields, ∃ expected first, expect field = .ok expected ∧
      fieldChange fl field expected (held field) = .ok first := by
  induction fields generalizing changes with
  | nil => simp
  | cons field fields ih =>
    obtain ⟨expected, first, others, hexpected, hfirst, hothers, -⟩ := fieldChanges_cons h
    exact List.forall_mem_cons.mpr ⟨⟨expected, first, hexpected, hfirst⟩, ih hothers⟩

theorem fieldChanges_plain (h : ∀ field, ∃ expected, expect field = .ok expected ∧
    ∀ value, expected = some value → isNested value = false) :
    ∃ changes, fieldChanges fl expect held fields = .ok changes := by
  induction fields with
  | nil => exact ⟨[], rfl⟩
  | cons field fields ih =>
    obtain ⟨expected, hexpected, hplain⟩ := h field
    obtain ⟨first, hfirst⟩ := fieldChange_plain fl field hplain (held field)
    obtain ⟨others, hothers⟩ := ih
    exact ⟨first ++ others, by rw [fieldChanges_of_ok hexpected hfirst, hothers]; rfl⟩

theorem comparableFields_nil (fl : Floats F) (modelName : Text) (fields : List Field) :
    ComparableFields fl [] modelName fields := by
  induction fields with
  | nil => trivial
  | cons field fields ih => exact ⟨fun h => h, fun _ => ih⟩

theorem fieldChange_not_skipped {expected current : Option (Value F)} :
    fieldChange fl field expected current ≠ .error .skipped := by
  unfold fieldChange
  split <;> try simp
  split <;> simp

theorem fieldChanges_not_skipped (h : ∀ field, ∃ expected, expect field = .ok expected) :
    fieldChanges fl expect held fields ≠ .error .skipped := by
  induction fields with
  | nil => simp [fieldChanges]
  | cons field fields ih =>
    obtain ⟨expected, hexpected⟩ := h field
    rcases hfirst : fieldChange fl field expected (held field) with stop | first
    · cases stop with
      | skipped => exact absurd hfirst fieldChange_not_skipped
      | panicked => simp [fieldChanges, hexpected, hfirst, Except.bind]
    rw [fieldChanges_of_ok hexpected hfirst]
    rcases hothers : fieldChanges fl expect held fields with stop | others
    · rintro ⟨⟩
      exact ih hothers
    · rintro ⟨⟩

end Sources

theorem mem_pricingSyncFields (field : Field) : field ∈ pricingSyncFields := by
  cases field <;> decide

theorem map_pricingCategory_filter (chosen : List (SyncData F)) (modelName : Text) :
    (chosen.filter fun source => (pricingCategory source modelName).isSome).map
        (pricingCategory · modelName) =
      (chosen.filterMap fun source => pricingCategory source modelName).map some := by
  induction chosen with
  | nil => rfl
  | cons source rest ih =>
    rcases hcategory : pricingCategory source modelName with _ | category
    · simpa [hcategory] using ih
    · simpa [hcategory] using ih

/-- Of two categories one is not `tiered`. -/
theorem exists_not_tiered {sources : List (SyncData F)} {modelName : Text} {category : Category}
    {categories : List Category}
    (hmap : sources.map (pricingCategory · modelName) = (category :: categories).map some)
    (hall : ¬ categories.all fun other => decide (other = category)) :
    ∃ source ∈ sources, pricingCategory source modelName ≠ some .tiered := by
  by_contra htiered
  push Not at htiered
  have hsome : ∀ other ∈ category :: categories, other = .tiered := by
    intro other hother
    have hmem : some other ∈ sources.map (pricingCategory · modelName) :=
      hmap ▸ List.mem_map_of_mem hother
    obtain ⟨source, hsource, heq⟩ := List.mem_map.mp hmem
    exact Option.some.inj (heq.symm.trans (htiered source hsource))
  refine hall (List.all_eq_true.mpr fun other hother => decide_eq_true ?_)
  rw [hsome other (List.mem_cons_of_mem _ hother), hsome category List.mem_cons_self]

/-- Which way a model takes does not depend on the local pricing. -/
theorem resolveModel_cases (fl : Floats F) (strategy : Strategy)
    (upstreams : List (ℤ × SyncData F)) (preferences : Preferences) (modelName : Text) :
    let sources := exposingSources upstreams preferences modelName
    ((∀ localPricing, resolveModel fl strategy localPricing upstreams preferences modelName =
        .error .skipped) ∧
      (sources = [] ∨ ∃ source ∈ sources, pricingCategory source modelName ≠ some .tiered)) ∨
    ∃ expect, (∀ localPricing,
        resolveModel fl strategy localPricing upstreams preferences modelName =
          fieldChanges fl expect (fun field => (localPricing field).lookup modelName)
            pricingSyncFields) ∧
      ∃ category, (∀ source ∈ sources, pricingCategory source modelName = some category) ∧
        sources ≠ [] ∧
        ((category = .tiered ∧ expect = expectedValue fl none sources modelName) ∨
          ∃ lanes, category ≠ .tiered ∧
            resolveComparableNumericPricing fl strategy sources modelName category = some lanes ∧
            expect = fun field => .ok ((lanes.lookup field).map .number)) := by
  intro sources
  have hsources : sources = ((modelUpstreams upstreams (preferences.get modelName)).getD
      []).filter fun upstream => (pricingCategory upstream modelName).isSome := rfl
  clear_value sources
  unfold resolveModel
  rcases hchosen : modelUpstreams upstreams (preferences.get modelName) with _ | chosen
  · exact .inl ⟨fun _ => rfl, .inl (by simp [hsources, hchosen])⟩
  simp only [hchosen, Option.getD_some] at hsources ⊢
  rw [← hsources]
  rcases hcategories : chosen.filterMap fun source => pricingCategory source modelName with
    _ | ⟨category, categories⟩
  · refine .inl ⟨fun _ => rfl, .inl ?_⟩
    rw [hsources, ← List.map_eq_nil_iff, map_pricingCategory_filter, hcategories, List.map_nil]
  have hmap : sources.map (pricingCategory · modelName) = (category :: categories).map some := by
    rw [hsources, map_pricingCategory_filter, hcategories]
  by_cases hall : categories.all fun other => decide (other = category)
  swap
  · exact .inl ⟨fun _ => if_neg hall, .inr (exists_not_tiered hmap hall)⟩
  have hunique : ∀ source ∈ sources, pricingCategory source modelName = some category := by
    intro source hsource
    have hmem : pricingCategory source modelName ∈ (category :: categories).map some :=
      hmap ▸ List.mem_map_of_mem hsource
    obtain ⟨other, hother, heq⟩ := List.mem_map.mp hmem
    rw [← heq, Option.some_inj]
    rcases List.mem_cons.mp hother with rfl | hmore
    · rfl
    · simpa using List.all_eq_true.mp hall other hmore
  have hfirst : some category ∈ sources.map (pricingCategory · modelName) := by
    rw [hmap]
    exact List.mem_map_of_mem List.mem_cons_self
  obtain ⟨source, hsource, -⟩ := List.mem_map.mp hfirst
  simp only [hall]
  by_cases htiered : category = .tiered
  · simp only [htiered]
    exact .inr ⟨_, fun _ => rfl, .tiered, htiered ▸ hunique, List.ne_nil_of_mem hsource,
      .inl ⟨rfl, rfl⟩⟩
  · simp only [if_neg htiered]
    rcases hlanes : resolveComparableNumericPricing fl strategy sources modelName category with
      _ | lanes
    · exact .inl ⟨fun _ => rfl, .inr ⟨source, hsource, by simp [hunique source hsource, htiered]⟩⟩
    · exact .inr ⟨_, fun _ => rfl, category, hunique, List.ne_nil_of_mem hsource,
        .inr ⟨lanes, htiered, hlanes, rfl⟩⟩

/-! ### All models -/

theorem foldlM_addModel_iff {names : List Text} {candidate : Candidate F} :
    (∃ last, names.foldlM (addModel fl strategy localPricing upstreams preferences) candidate =
      some last) ↔
    ∀ name ∈ names, resolveModel fl strategy localPricing upstreams preferences name ≠
      .error .panicked := by
  induction names generalizing candidate with
  | nil => simp
  | cons name names ih =>
    rw [List.forall_mem_cons, List.foldlM_cons, addModel]
    split <;> simp_all

theorem lookup_foldlM_addModel {names : List Text} {candidate last : Candidate F}
    (hnodup : names.Nodup) (hmem : modelName ∈ names)
    (hempty : ∀ key, verdict candidate.patches key modelName = none)
    (hchanges : resolveModel fl strategy localPricing upstreams preferences modelName =
      fieldChanges fl expect (fun field => (localPricing field).lookup modelName)
        pricingSyncFields)
    (hok : resolveModel fl strategy localPricing upstreams preferences modelName = .ok changes)
    (h : names.foldlM (addModel fl strategy localPricing upstreams preferences) candidate =
      some last) :
    ∃ expected, expect field = .ok expected ∧
      (verdict last.patches (optionKeyForPricingField field) modelName).getD
        ((localPricing field).lookup modelName) =
      settledValue fl expected ((localPricing field).lookup modelName) := by
  induction names generalizing candidate with
  | nil => cases hmem
  | cons name names ih =>
    rw [List.nodup_cons] at hnodup
    obtain ⟨next, hnext, hrest⟩ := Option.bind_eq_some_iff.mp h
    by_cases hname : name = modelName
    · subst hname
      obtain ⟨expected, hexpected, hsettled⟩ := verdict_fieldChanges (by decide)
        (mem_pricingSyncFields field) (hempty _) (hchanges ▸ hok)
      refine ⟨expected, hexpected, ?_⟩
      rw [verdict_foldlM_addModel (fun hmem => absurd hmem hnodup.1) hrest, ← hsettled]
      rw [addModel, hok] at hnext
      cases changes <;> cases hnext <;> rfl
    · refine ih hnodup.2 ((List.mem_cons.mp hmem).resolve_left (Ne.symm hname)) (fun key => ?_)
        hrest
      exact (verdict_addModel_of_ne hname hnext).trans (hempty key)

theorem mem_skipped_foldlM {names : List Text} {candidate last : Candidate F}
    (h : names.foldlM (addModel fl strategy localPricing upstreams preferences) candidate =
      some last) :
    modelName ∈ last.skipped ↔ modelName ∈ candidate.skipped ∨ modelName ∈ names ∧
      resolveModel fl strategy localPricing upstreams preferences modelName =
        .error .skipped := by
  induction names generalizing candidate with
  | nil => simp [Option.some.inj h]
  | cons name names ih =>
    obtain ⟨next, hnext, hrest⟩ := Option.bind_eq_some_iff.mp h
    rw [ih hrest]
    unfold addModel at hnext
    split at hnext <;> grind

theorem foldlM_addModel_unchanged {names : List Text} {candidate : Candidate F}
    (h : ∀ name ∈ names,
      resolveModel fl strategy localPricing upstreams preferences name = .error .skipped ∨
        resolveModel fl strategy localPricing upstreams preferences name = .ok []) :
    ∃ last, names.foldlM (addModel fl strategy localPricing upstreams preferences) candidate =
      some last ∧ last.patches = candidate.patches := by
  induction names generalizing candidate with
  | nil => exact ⟨candidate, rfl, rfl⟩
  | cons name names ih =>
    rw [List.forall_mem_cons] at h
    rw [List.foldlM_cons, addModel]
    rcases h.1 with hname | hname
    · rw [hname]
      exact ih h.2
    · rw [hname]
      exact ih h.2

end Entry

/-! ### Prices of lanes -/

def floatEpsilon : ℚ := 1 / 1000000000

def nearlyEqual (a b : ℚ) : Bool :=
  if b < a then decide (a - b < floatEpsilon) else decide (b - a < floatEpsilon)

/-- Exact arithmetic in the place of `float64`. -/
def exactFloats (format : ℚ → Text) : Floats ℚ where
  zero := 0
  ofNat := fun n => n
  add := fun a b => a + b
  mul := fun a b => a * b
  div := fun a b => a / b
  lt := fun a b => decide (a < b)
  isZero := fun a => decide (a = 0)
  nonNegativeFinite := fun a => decide (0 ≤ a)
  nearlyEqual := nearlyEqual
  format := format

def numberOf (modelName : Text) (data : SyncData F) (field : Field) : Option F :=
  ((data field).lookup modelName).bind asFloat64

def absolutePrice (value : Field → Option ℚ) : Field → Option ℚ
  | .modelRatio => value .modelRatio
  | .modelPrice => value .modelPrice
  | .audioCompletionRatio =>
    (value .modelRatio).bind fun base => (value .audioRatio).bind fun audio =>
      (value .audioCompletionRatio).map fun completion => base * audio * completion
  | field => (value .modelRatio).bind fun base => (value field).map fun ratio => base * ratio

/-- The greatest, the least or the mean of the prices. -/
def Strategy.Aggregates (strategy : Strategy) (prices : List ℚ) (price : ℚ) : Prop :=
  match strategy with
  | .highest => IsGreatest {x | x ∈ prices} price
  | .lowest => IsLeast {x | x ∈ prices} price
  | .average => prices ≠ [] ∧ price = prices.sum / prices.length

/-- A lane has a price if all sources have one for it, and none if no source has. -/
def AggregatePrice (strategy : Strategy) (prices : List (Option ℚ)) : Option ℚ → Prop
  | some price => ∃ values, prices = values.map some ∧ strategy.Aggregates values price
  | none => ∀ price ∈ prices, price = none

def fieldsOf (category : Category) : List Field :=
  if category = .ratio then ratioFields else [.modelPrice]

/-- The entry is the target, or it was less than `floatEpsilon` from it and stayed. -/
def Settled (target : Option ℚ) (before after : Option (Value ℚ)) : Prop :=
  after = target.map .number ∨ ∃ x y, target = some x ∧ nearlyEqual y x = true ∧
    before = some (.number y) ∧ after = before

section Lanes

variable {modelName : Text} {field : Field} {fields : List Field} {category : Category}
  {first lanes : Lanes F} {rest : List (Lanes F)} {strategy : Strategy}

theorem fieldChange_again (format : ℚ → Text) (field : Field) {expected : Option (Value ℚ)}
    (h : ∀ value, expected = some value → isNested value = false) (current : Option (Value ℚ)) :
    fieldChange (exactFloats format) field expected
      (settledValue (exactFloats format) expected current) = .ok [] := by
  rcases expected with _ | expected
  · rfl
  have hself : valuesEqual (exactFloats format) expected expected = some true := by
    have hplain := h expected rfl
    cases expected <;>
      simp_all [valuesEqual, exactFloats, nearlyEqual, floatEpsilon, isNested]
  rcases current with _ | current
  · simp [settledValue, fieldChange, hself]
  · simp only [settledValue]
    split_ifs with hequal
    · simp [fieldChange, hequal]
    · simp [fieldChange, hself]

theorem settledValue_settled (format : ℚ → Text) (target : Option ℚ)
    (current : Option (Value ℚ)) :
    Settled target current (settledValue (exactFloats format) (target.map .number) current) := by
  rcases target with _ | target
  · exact .inl rfl
  rcases current with _ | current
  · exact .inl rfl
  simp only [settledValue, Option.map_some]
  split_ifs with hequal
  · cases current with
    | number y => exact .inr ⟨target, y, rfl, Option.some.inj hequal, rfl, rfl⟩
    | _ => cases hequal
  · exact .inl rfl

theorem lookup_foldlM_insert (value : Field → Option F)
    {step : Lanes F → Field → Option (Lanes F)}
    (hstep : ∀ lanes field next, step lanes field = some next →
      next = (value field).elim lanes (lanes.insert field))
    (h : fields.foldlM step first = some lanes) :
    (field ∈ fields → lanes.lookup field = (value field).or (first.lookup field)) ∧
      (field ∉ fields → lanes.lookup field = first.lookup field) := by
  induction fields generalizing first with
  | nil => simp [Option.some.inj h]
  | cons other fields ih =>
    obtain ⟨next, hnext, hrest⟩ := Option.bind_eq_some_iff.mp h
    have hfirst := hstep _ _ _ hnext
    by_cases hother : field = other <;> rcases hvalue : value other with _ | number <;>
      grind [AList.lookup_insert, AList.lookup_insert_ne]

theorem lookup_numericContract {fl : Floats F} {upstream : SyncData F}
    (h : numericContract fl fields modelName upstream = some lanes) (hfield : field ∈ fields) :
    lanes.lookup field = numberOf modelName upstream field := by
  refine ((lookup_foldlM_insert (numberOf modelName upstream) (fun lanes field next hnext => ?_)
    h).1 hfield).trans ?_
  · unfold numberOf
    split at hnext
    · next hvalue => simp [hvalue, Option.some.inj hnext]
    rename_i value hvalue
    split at hnext
    · cases hnext
    · next parsed hparsed =>
      split at hnext
      · simp [hvalue, hparsed, Option.some.inj hnext]
      · cases hnext
  · simp

theorem numberOf_isSome {fl : Floats F} {upstream : SyncData F}
    (h : numericContract fl fields modelName upstream = some lanes) (hfield : field ∈ fields)
    (hvalue : ((upstream field).lookup modelName).isSome) :
    (numberOf modelName upstream field).isSome := by
  obtain ⟨value, hvalue⟩ := Option.isSome_iff_exists.mp hvalue
  unfold numericContract at h
  generalize (∅ : Lanes F) = start at h
  induction fields generalizing start with
  | nil => cases hfield
  | cons other fields ih =>
    obtain ⟨next, hnext, hrest⟩ := Option.bind_eq_some_iff.mp h
    rcases List.mem_cons.mp hfield with rfl | hfield
    · rcases hparsed : asFloat64 value with _ | parsed
      · simp [hvalue, hparsed] at hnext
      · simp [numberOf, hvalue, hparsed]
    · exact ih hfield next hrest

theorem sameLanes_isSome {contracts : List (Lanes F)}
    (h : sameLanes category fields contracts = true) (hfield : field ∈ fields)
    (hfirst : first ∈ contracts) (hlanes : lanes ∈ contracts) :
    (lanes.lookup field).isSome = (first.lookup field).isSome := by
  have hcount := (of_decide_eq_true (List.all_eq_true.mp h field hfield)).1
  rcases hcount with hnone | hall
  · rw [List.countP_eq_zero] at hnone
    rw [Bool.eq_false_iff.mpr (hnone _ hlanes), Bool.eq_false_iff.mpr (hnone _ hfirst)]
  · rw [List.countP_eq_length] at hall
    rw [hall _ hlanes, hall _ hfirst]

theorem sameLanes_required (h : sameLanes .ratio ratioFields (first :: rest) = true) :
    (first.lookup .modelRatio).isSome := by
  have hcount := (of_decide_eq_true (List.all_eq_true.mp h .modelRatio (by decide))).2
  simp only [true_and, true_or, Decidable.not_not] at hcount
  exact List.countP_eq_length.mp hcount first List.mem_cons_self

def laneFields : List Field :=
  [.completionRatio, .cacheRatio, .createCacheRatio, .imageRatio, .audioRatio]

def laneRatio (fl : Floats F) (strategy : Strategy) (base : F) (first : Lanes F)
    (rest : List (Lanes F)) (field : Field) : F :=
  let price := fun lanes => fl.mul (lane fl .modelRatio lanes) (lane fl field lanes)
  fl.div (aggregate fl strategy (price first) (rest.map price)) base

theorem lookup_resolveLanes {fl : Floats F} {base : F} (field : Field) :
    (field ∈ laneFields → (resolveLanes fl strategy base first rest).lookup field =
      ((first.lookup field).map fun _ => laneRatio fl strategy base first rest field).or
        (((∅ : Lanes F).insert .modelRatio base).lookup field)) ∧
    (field ∉ laneFields → (resolveLanes fl strategy base first rest).lookup field =
      ((∅ : Lanes F).insert .modelRatio base).lookup field) := by
  refine lookup_foldlM_insert (fun field => (first.lookup field).map fun _ =>
    laneRatio fl strategy base first rest field) (fun lanes field next hnext => ?_)
    (List.foldlM_pure : _ = some (resolveLanes fl strategy base first rest))
  rw [← Option.some.inj hnext]
  cases first.lookup field <;> rfl

end Lanes

section Exact

variable {format : ℚ → Text} {strategy : Strategy} {modelName : Text} {field : Field}
  {category : Category} {first lanes : Lanes ℚ} {rest : List (Lanes ℚ)}

theorem lookup_eq_lane {fl : Floats F} {lanes : Lanes F} (h : (lanes.lookup field).isSome) :
    lanes.lookup field = some (lane fl field lanes) := by
  obtain ⟨value, hvalue⟩ := Option.isSome_iff_exists.mp h
  simp [lane, hvalue]

theorem absolutePrice_congr {v w : Field → Option ℚ} (hfield : field ∈ fieldsOf category)
    (h : ∀ field ∈ fieldsOf category, v field = w field) :
    absolutePrice v field = absolutePrice w field := by
  cases category <;> cases field <;> simp_all [absolutePrice, fieldsOf, ratioFields]

theorem prices_eq {sources : List (SyncData ℚ)} {contracts : List (Lanes ℚ)} {fl : Floats ℚ}
    (h : sources.mapM (numericContract fl (fieldsOf category) modelName) = some contracts)
    (hfield : field ∈ fieldsOf category) :
    sources.map (fun source => absolutePrice (numberOf modelName source) field) =
        contracts.map (fun lanes => absolutePrice (fun field => lanes.lookup field) field) ∧
      ∀ source ∈ sources, ((source field).lookup modelName).isSome →
        (numberOf modelName source field).isSome := by
  induction sources generalizing contracts with
  | nil => cases h; simp
  | cons source sources ih =>
    rw [List.mapM_cons] at h
    obtain ⟨lanes, hlanes, h⟩ := Option.bind_eq_some_iff.mp h
    obtain ⟨others, hothers, h⟩ := Option.bind_eq_some_iff.mp h
    cases h
    rw [List.map_cons, (ih hothers).1, List.forall_mem_cons]
    refine ⟨?_, numberOf_isSome hlanes hfield, (ih hothers).2⟩
    congr 1
    exact absolutePrice_congr hfield fun field hfield =>
      (lookup_numericContract hlanes hfield).symm

theorem foldl_select {r : ℚ → ℚ → Prop} (hrefl : ∀ a, r a a)
    (htrans : ∀ a b c, r a b → r b c → r a c) {pick : ℚ → ℚ → ℚ}
    (hpick : ∀ a b, (pick a b = a ∨ pick a b = b) ∧ r a (pick a b) ∧ r b (pick a b))
    (first : ℚ) (rest : List ℚ) :
    rest.foldl pick first ∈ first :: rest ∧
      ∀ x ∈ first :: rest, r x (rest.foldl pick first) := by
  induction rest generalizing first with
  | nil => simp [hrefl]
  | cons next rest ih =>
    obtain ⟨hmem, hall⟩ := ih (pick first next)
    obtain ⟨heq, hfirst, hnext⟩ := hpick first next
    rw [List.forall_mem_cons] at hall
    rw [List.foldl_cons, List.forall_mem_cons, List.forall_mem_cons]
    refine ⟨?_, htrans _ _ _ hfirst hall.1, htrans _ _ _ hnext hall.1, hall.2⟩
    rcases List.mem_cons.mp hmem with h | h
    · rw [h]
      rcases heq with heq | heq <;> simp [heq]
    · exact List.mem_cons_of_mem _ (List.mem_cons_of_mem _ h)

theorem aggregate_aggregates (format : ℚ → Text) (strategy : Strategy) (first : ℚ)
    (rest : List ℚ) :
    strategy.Aggregates (first :: rest) (aggregate (exactFloats format) strategy first rest) := by
  cases strategy with
  | highest =>
    refine foldl_select (r := fun a b => a ≤ b) le_refl (fun _ _ _ => le_trans)
      (fun a b => ?_) first rest
    simp only [exactFloats, decide_eq_true_eq]
    split_ifs with h
    · exact ⟨.inr rfl, h.le, le_rfl⟩
    · exact ⟨.inl rfl, le_rfl, not_lt.mp h⟩
  | lowest =>
    refine foldl_select (r := fun a b => b ≤ a) le_refl (fun _ _ _ => ge_trans)
      (fun a b => ?_) first rest
    simp only [exactFloats, decide_eq_true_eq]
    split_ifs with h
    · exact ⟨.inr rfl, h.le, le_rfl⟩
    · exact ⟨.inl rfl, le_rfl, not_lt.mp h⟩
  | average =>
    refine ⟨List.cons_ne_nil _ _, ?_⟩
    simp only [aggregate, exactFloats, List.length_cons]
    rw [List.sum_eq_foldl]

theorem aggregatePrice_some (format : ℚ → Text) {v : Lanes ℚ → Option ℚ} {x : Option ℚ}
    (price : Lanes ℚ → ℚ)
    (h : ∀ lanes ∈ first :: rest, v lanes = some (price lanes))
    (hx : x = some (aggregate (exactFloats format) strategy (price first) (rest.map price))) :
    AggregatePrice strategy ((first :: rest).map v) x := by
  rw [hx]
  refine ⟨(first :: rest).map price, ?_, aggregate_aggregates format strategy _ _⟩
  rw [List.map_congr_left h, List.map_map]
  rfl

theorem aggregatePrice_none {v : Lanes ℚ → Option ℚ}
    (h : ∀ lanes ∈ first :: rest, v lanes = none) :
    AggregatePrice strategy ((first :: rest).map v) none := by
  intro price hprice
  obtain ⟨lanes, hlanes, rfl⟩ := List.mem_map.mp hprice
  exact h lanes hlanes

theorem resolveRatio_cases {fl : Floats F} {first lanes : Lanes F} {rest : List (Lanes F)}
    (h : resolveRatio fl strategy first rest = some lanes) :
    let base := aggregate fl strategy (lane fl .modelRatio first) (rest.map (lane fl .modelRatio))
    let price := fun lanes => fl.mul (fl.mul (lane fl .modelRatio lanes)
      (lane fl .audioRatio lanes)) (lane fl .audioCompletionRatio lanes)
    fl.isZero base = false ∧
    (∀ field ≠ .audioCompletionRatio,
      lanes.lookup field = (resolveLanes fl strategy base first rest).lookup field) ∧
    ((first.lookup .audioCompletionRatio = none ∧ lanes.lookup .audioCompletionRatio = none) ∨
      ∃ audio, (first.lookup .audioCompletionRatio).isSome ∧ fl.isZero audio = false ∧
        lanes.lookup .audioRatio = some audio ∧
        lanes.lookup .audioCompletionRatio = some (fl.div (fl.div
          (aggregate fl strategy (price first) (rest.map price)) base) audio)) := by
  dsimp only [resolveRatio] at h
  rw [ite_eq_iff] at h
  obtain ⟨-, h⟩ | ⟨hbase, h⟩ := h
  · cases h
  refine ⟨Bool.eq_false_iff.mpr hbase, ?_⟩
  split at h
  · next hfirst =>
    cases h
    refine ⟨fun _ _ => rfl, .inl ⟨hfirst, ?_⟩⟩
    rw [(lookup_resolveLanes .audioCompletionRatio).2 (by decide),
      AList.lookup_insert_ne (by decide), AList.lookup_empty]
  · next hfirst =>
    split at h
    · cases h
    rename_i audio haudio
    split_ifs at h with hzero
    cases h
    refine ⟨fun field hfield => AList.lookup_insert_ne hfield, .inr ⟨audio, by simp [hfirst],
      Bool.eq_false_iff.mpr hzero, ?_, AList.lookup_insert _⟩⟩
    rw [AList.lookup_insert_ne (by decide), haudio]

section Resolved

variable (hsame : ∀ lanes ∈ first :: rest, ∀ field ∈ ratioFields,
    (lanes.lookup field).isSome = (first.lookup field).isSome)
  (hrequired : (first.lookup .modelRatio).isSome)
  (h : resolveRatio (exactFloats format) strategy first rest = some lanes)

include hsame in
theorem lookup_present {source : Lanes ℚ} (hsource : source ∈ first :: rest)
    (hfield : field ∈ ratioFields) (hfirst : (first.lookup field).isSome) :
    source.lookup field = some (lane (exactFloats format) field source) :=
  lookup_eq_lane ((hsame source hsource field hfield).trans hfirst)

include hsame in
theorem lookup_missing {source : Lanes ℚ} (hsource : source ∈ first :: rest)
    (hfield : field ∈ ratioFields) (hfirst : first.lookup field = none) :
    source.lookup field = none := by
  have hnone := hsame source hsource field hfield
  rwa [hfirst, Option.isSome_none, Option.isSome_eq_false_iff, Option.isNone_iff_eq_none] at hnone

include h in
theorem lookup_modelRatio :
    lanes.lookup .modelRatio = some (aggregate (exactFloats format) strategy
      (lane (exactFloats format) .modelRatio first)
      (rest.map (lane (exactFloats format) .modelRatio))) := by
  obtain ⟨-, hlookup, -⟩ := resolveRatio_cases h
  rw [hlookup _ (by decide), (lookup_resolveLanes _).2 (by decide), AList.lookup_insert]

include hsame hrequired h in
theorem aggregatePrice_lane (hfield : field ∈ laneFields) :
    AggregatePrice strategy ((first :: rest).map fun lanes =>
      (lanes.lookup .modelRatio).bind fun base =>
        (lanes.lookup field).map fun ratio => base * ratio)
      ((lanes.lookup .modelRatio).bind fun base =>
        (lanes.lookup field).map fun ratio => base * ratio) := by
  obtain ⟨hbase, hlookup, -⟩ := resolveRatio_cases h
  have hne : field ≠ .audioCompletionRatio ∧ field ≠ .modelRatio ∧ field ∈ ratioFields := by
    revert field
    decide
  rw [hlookup field hne.1, (lookup_resolveLanes field).1 hfield,
    AList.lookup_insert_ne hne.2.1, AList.lookup_empty, Option.or_none, lookup_modelRatio h]
  rcases hfirst : first.lookup field with _ | value
  · exact aggregatePrice_none fun lanes hlanes => by
      simp [lookup_missing hsame hlanes hne.2.2 hfirst]
  refine aggregatePrice_some format (fun lanes => lane (exactFloats format) .modelRatio lanes *
    lane (exactFloats format) field lanes) (fun lanes hlanes => ?_) ?_
  · rw [lookup_present hsame hlanes (by decide) hrequired,
      lookup_present hsame hlanes hne.2.2 (by simp [hfirst])]
    rfl
  · simp only [Option.bind_some, Option.map_some]
    exact congrArg some (mul_div_cancel₀ _ (of_decide_eq_false hbase))

include hsame hrequired h in
theorem aggregatePrice_audioCompletion :
    AggregatePrice strategy ((first :: rest).map fun lanes =>
      absolutePrice (fun field => lanes.lookup field) .audioCompletionRatio)
      (absolutePrice (fun field => lanes.lookup field) .audioCompletionRatio) := by
  obtain ⟨hbase, hlookup, haudio⟩ := resolveRatio_cases h
  rcases haudio with ⟨hfirst, hnone⟩ | ⟨audio, hfirst, hnonzero, haudio, hcompletion⟩
  · have htarget : absolutePrice (fun field => lanes.lookup field) .audioCompletionRatio =
        none := by
      simp [absolutePrice, hnone]
    rw [htarget]
    exact aggregatePrice_none fun lanes hlanes => by
      simp [absolutePrice, lookup_missing hsame hlanes (by decide) hfirst]
  have hpresent : (first.lookup .audioRatio).isSome := by
    have hresolved := haudio
    rw [hlookup _ (by decide), (lookup_resolveLanes _).1 (by decide),
      AList.lookup_insert_ne (by decide), AList.lookup_empty, Option.or_none] at hresolved
    obtain ⟨value, hvalue, -⟩ := Option.map_eq_some_iff.mp hresolved
    simp [hvalue]
  refine aggregatePrice_some format (fun lanes => lane (exactFloats format) .modelRatio lanes *
    lane (exactFloats format) .audioRatio lanes *
      lane (exactFloats format) .audioCompletionRatio lanes) (fun lanes hlanes => ?_) ?_
  · rw [absolutePrice, lookup_present hsame hlanes (by decide) hrequired,
      lookup_present hsame hlanes (by decide) hpresent,
      lookup_present hsame hlanes (by decide) hfirst]
    rfl
  · simp only [absolutePrice, lookup_modelRatio h, haudio, hcompletion, Option.bind_some,
      Option.map_some]
    congr 1
    have hzero := of_decide_eq_false hbase
    have haudio : audio ≠ 0 := of_decide_eq_false hnonzero
    simp only [exactFloats] at hzero ⊢
    field_simp

include hsame hrequired h in
theorem absolutePrice_resolveRatio (hfield : field ∈ ratioFields) :
    AggregatePrice strategy
      ((first :: rest).map fun lanes => absolutePrice (fun field => lanes.lookup field) field)
      (absolutePrice (fun field => lanes.lookup field) field) := by
  cases field with
  | modelPrice | billingMode | billingExpr => exact absurd hfield (by decide)
  | modelRatio =>
    exact aggregatePrice_some format _
      (fun lanes hlanes => lookup_present hsame hlanes (by decide) hrequired) (lookup_modelRatio h)
  | completionRatio | cacheRatio | createCacheRatio | imageRatio | audioRatio =>
    exact aggregatePrice_lane hsame hrequired h (by decide)
  | audioCompletionRatio => exact aggregatePrice_audioCompletion hsame hrequired h

end Resolved

theorem absolutePrice_resolved {sources : List (SyncData ℚ)}
    (hcategory : ∀ source ∈ sources, pricingCategory source modelName = some category)
    (htiered : category ≠ .tiered)
    (h : resolveComparableNumericPricing (exactFloats format) strategy sources modelName
      category = some lanes) :
    (∀ field ∈ fieldsOf category, AggregatePrice strategy
      (sources.map fun source => absolutePrice (numberOf modelName source) field)
      (absolutePrice (fun field => lanes.lookup field) field)) ∧
    ∀ field ∉ fieldsOf category, lanes.lookup field = none := by
  dsimp only [resolveComparableNumericPricing] at h
  rw [List.filter_eq_self.mpr fun source hsource => decide_eq_true (hcategory source hsource)] at h
  split at h
  · cases h
  · cases h
  rename_i first rest hcontracts
  rw [ite_eq_iff] at h
  obtain ⟨hsame, h⟩ | ⟨-, h⟩ := h
  swap
  · cases h
  cases category with
  | tiered => exact absurd rfl htiered
  | price =>
    cases h
    refine ⟨fun field hfield => ?_, fun field hfield => ?_⟩
    · obtain ⟨hprices, hnumber⟩ := prices_eq hcontracts hfield
      cases List.mem_singleton.mp hfield
      rw [hprices]
      refine aggregatePrice_some format _ (fun lanes hlanes => lookup_eq_lane ?_)
        (AList.lookup_insert _)
      have hmem : lanes.lookup .modelPrice ∈ (first :: rest).map fun lanes =>
          absolutePrice (fun field => lanes.lookup field) .modelPrice :=
        List.mem_map_of_mem hlanes
      rw [← hprices] at hmem
      obtain ⟨source, hsource, heq⟩ := List.mem_map.mp hmem
      refine (congrArg Option.isSome heq).symm.trans (hnumber source hsource ?_)
      have hprice := hcategory source hsource
      grind [pricingCategory]
    · rw [AList.lookup_insert_ne fun heq => hfield (List.mem_singleton.mpr heq),
        AList.lookup_empty]
  | ratio =>
    have hsome : ∀ lanes ∈ first :: rest, ∀ field ∈ ratioFields,
        (lanes.lookup field).isSome = (first.lookup field).isSome :=
      fun lanes hlanes field hfield => sameLanes_isSome hsame hfield List.mem_cons_self hlanes
    refine ⟨fun field hfield => ?_, fun field hfield => ?_⟩
    · rw [(prices_eq hcontracts hfield).1]
      exact absolutePrice_resolveRatio hsome (sameLanes_required hsame) h hfield
    · obtain ⟨-, hlookup, -⟩ := resolveRatio_cases h
      have hne : field ≠ .audioCompletionRatio ∧ field ≠ .modelRatio ∧ field ∉ laneFields := by
        cases field <;> first | decide | exact absurd (by decide) hfield
      rw [hlookup field hne.1, (lookup_resolveLanes field).2 hne.2.2,
        AList.lookup_insert_ne hne.2.1, AList.lookup_empty]

end Exact

/-! ### The patched table -/

/-- No arrays or objects meet in a model that its sources price by expressions. -/
def Comparable (fl : Floats F) (upstreams : List (ℤ × SyncData F)) (preferences : Preferences) :
    Prop :=
  ∀ modelName ∈ exposedModels upstreams,
    (∀ source ∈ exposingSources upstreams preferences modelName,
      pricingCategory source modelName = some .tiered) →
    ComparableFields fl (exposingSources upstreams preferences modelName) modelName
      pricingSyncFields

section Patched

variable {fl : Floats F} {strategy : Strategy} {localPricing : SyncData F}
  {upstreams : List (ℤ × SyncData F)} {preferences : Preferences} {candidate : Candidate F}
  {modelName : Text} {expect : Field → Except Stop (Option (Value F))}
  {changes : List (Field × Change F)}

theorem mem_sortStrings : modelName ∈ sortStrings (exposedModels upstreams) ↔
    modelName ∈ exposedModels upstreams :=
  (List.perm_insertionSort (fun a b => textLe a b = true) _).mem_iff

theorem build_iff : (∃ candidate, buildUpstreamPricingSyncPatchesWithPreferences fl strategy
      localPricing upstreams preferences = some candidate) ↔
    ∀ name ∈ exposedModels upstreams,
      resolveModel fl strategy localPricing upstreams preferences name ≠ .error .panicked := by
  simp only [← mem_sortStrings]
  exact foldlM_addModel_iff

variable (hbuild : buildUpstreamPricingSyncPatchesWithPreferences fl strategy localPricing
  upstreams preferences = some candidate)
include hbuild

theorem mem_skipped : modelName ∈ candidate.skipped ↔ modelName ∈ exposedModels upstreams ∧
    resolveModel fl strategy localPricing upstreams preferences modelName = .error .skipped := by
  refine (mem_skipped_foldlM hbuild).trans ?_
  simp [mem_sortStrings]

theorem patched_skipped (h : modelName ∉ exposedModels upstreams ∨ modelName ∈ candidate.skipped)
    (field : Field) :
    (applyPatches candidate.patches localPricing field).lookup modelName =
      (localPricing field).lookup modelName := by
  have hverdict : verdict candidate.patches (optionKeyForPricingField field) modelName = none := by
    refine verdict_foldlM_addModel (fun hname => ?_) hbuild
    rcases h with hnot | hskip
    · exact absurd (mem_sortStrings.mp hname) hnot
    · exact ((mem_skipped hbuild).mp hskip).2
  rw [lookup_applyPatches, hverdict, Option.getD_none]

theorem patched_settled (hname : modelName ∈ exposedModels upstreams)
    (hchanges : resolveModel fl strategy localPricing upstreams preferences modelName =
      fieldChanges fl expect (fun field => (localPricing field).lookup modelName)
        pricingSyncFields)
    (hok : resolveModel fl strategy localPricing upstreams preferences modelName = .ok changes)
    (field : Field) :
    ∃ expected, expect field = .ok expected ∧
      (applyPatches candidate.patches localPricing field).lookup modelName =
        settledValue fl expected ((localPricing field).lookup modelName) := by
  have hperm := List.perm_insertionSort (fun a b => textLe a b = true) (exposedModels upstreams)
  rw [lookup_applyPatches]
  exact lookup_foldlM_addModel (hperm.nodup_iff.mpr (List.nodup_dedup _))
    (mem_sortStrings.mpr hname) (fun _ => rfl) hchanges hok hbuild

/-- An array or object in the patched table meets the value that it was copied from. -/
theorem not_again_of_nested {value : Value F} {field : Field}
    (hname : modelName ∈ exposedModels upstreams)
    (hchanges : ∀ localPricing,
      resolveModel fl strategy localPricing upstreams preferences modelName =
        fieldChanges fl expect (fun field => (localPricing field).lookup modelName)
          pricingSyncFields)
    (hexpect : ∀ field, ∃ expected, expect field = .ok expected)
    (hvalue : expect field = .ok (some value)) (hnested : isNested value = true) :
    buildUpstreamPricingSyncPatchesWithPreferences fl strategy
      (applyPatches candidate.patches localPricing) upstreams preferences = none := by
  have hok : ∀ table, resolveModel fl strategy table upstreams preferences modelName ≠
      .error .panicked →
        ∃ changes, resolveModel fl strategy table upstreams preferences modelName =
          .ok changes := by
    intro table hnot
    rcases hresolved : resolveModel fl strategy table upstreams preferences modelName with
      stop | changes
    · cases stop with
      | skipped =>
        rw [hchanges] at hresolved
        exact absurd hresolved (fieldChanges_not_skipped hexpect)
      | panicked => exact absurd hresolved hnot
    · exact ⟨changes, rfl⟩
  obtain ⟨changes, hfirst⟩ := hok localPricing (build_iff.mp ⟨candidate, hbuild⟩ modelName hname)
  obtain ⟨expected, hexpected, hpatched⟩ :=
    patched_settled hbuild hname (hchanges localPricing) hfirst field
  rw [hvalue] at hexpected
  cases hexpected
  rw [← Option.not_isSome_iff_eq_none, Option.isSome_iff_exists, build_iff]
  intro hall
  obtain ⟨others, hsecond⟩ := hok _ (hall modelName hname)
  rw [hchanges] at hsecond
  obtain ⟨expected, first, hexpected, hchange⟩ :=
    fieldChanges_expected hsecond field (mem_pricingSyncFields field)
  rw [hvalue] at hexpected
  cases hexpected
  have hself : settledValue fl (some value) ((localPricing field).lookup modelName) =
      some value := by
    rcases (localPricing field).lookup modelName with _ | current
    · rfl
    · exact if_neg (valuesEqual_nested hnested)
  rw [hpatched, hself] at hchange
  have hnone : valuesEqual fl value value = none := by
    cases value <;> first | rfl | cases hnested
  simp [fieldChange, hnone] at hchange

end Patched

section Exact

variable {format : ℚ → Text} {strategy : Strategy} {localPricing : SyncData ℚ}
  {upstreams : List (ℤ × SyncData ℚ)} {preferences : Preferences} {candidate : Candidate ℚ}
  {modelName : Text}

theorem Comparable.resolveModel {fl : Floats F} {upstreams : List (ℤ × SyncData F)}
    (h : Comparable fl upstreams preferences) (strategy : Strategy)
    (hname : modelName ∈ exposedModels upstreams) :
    (∀ localPricing, resolveModel fl strategy localPricing upstreams preferences modelName =
      .error .skipped) ∨
    ∃ expect, ∀ localPricing,
      resolveModel fl strategy localPricing upstreams preferences modelName =
        fieldChanges fl expect (fun field => (localPricing field).lookup modelName)
          pricingSyncFields ∧
      resolveModel fl strategy localPricing upstreams preferences modelName ≠
        .error .panicked ∧
      ∀ changes, resolveModel fl strategy localPricing upstreams preferences modelName =
        .ok changes → ∀ field, ∀ value, expect field = .ok (some value) →
          isNested value = false := by
  rcases resolveModel_cases fl strategy upstreams preferences modelName with
    ⟨hskipped, -⟩ | ⟨expect, hchanges, category, hcategory, -, hexpect⟩
  · exact .inl hskipped
  refine .inr ⟨expect, fun localPricing => ⟨hchanges localPricing, ?_⟩⟩
  rw [hchanges]
  rcases hexpect with ⟨rfl, rfl⟩ | ⟨lanes, -, -, rfl⟩
  · have hfields := h modelName hname hcategory
    refine ⟨hfields.not_panicked _, fun changes hok field value hvalue => ?_⟩
    refine hfields.plain (fun field hfield => ?_) field (mem_pricingSyncFields field) value hvalue
    obtain ⟨expected, -, hexpected, -⟩ := fieldChanges_expected hok field hfield
    exact ⟨expected, hexpected⟩
  · have hplain : ∀ field value, (lanes.lookup field).map Value.number = some value →
        isNested value = false := by
      intro field value hvalue
      obtain ⟨number, -, rfl⟩ := Option.map_eq_some_iff.mp hvalue
      rfl
    obtain ⟨changes, hok⟩ : ∃ changes, fieldChanges fl
        (fun field => .ok ((lanes.lookup field).map .number))
        (fun field => (localPricing field).lookup modelName) pricingSyncFields = .ok changes :=
      fieldChanges_plain fun field => ⟨_, rfl, hplain field⟩
    rw [hok]
    refine ⟨fun herror => ?_, fun _ _ field value hvalue => ?_⟩
    · cases herror
    · exact hplain field value (Except.ok.inj hvalue)

variable (hbuild : buildUpstreamPricingSyncPatchesWithPreferences (exactFloats format) strategy
  localPricing upstreams preferences = some candidate)
include hbuild

theorem patched_exact {category : Category} (hname : modelName ∈ exposedModels upstreams)
    (hkept : modelName ∉ candidate.skipped) (htiered : category ≠ .tiered)
    (hsource : ∃ source ∈ exposingSources upstreams preferences modelName,
      pricingCategory source modelName = some category) :
    ∃ target : Field → Option ℚ,
      (∀ field ∈ fieldsOf category, AggregatePrice strategy
        ((exposingSources upstreams preferences modelName).map fun source =>
          absolutePrice (numberOf modelName source) field)
        (absolutePrice target field)) ∧
      (∀ field ∉ fieldsOf category, target field = none) ∧
      ∀ field, Settled (target field) ((localPricing field).lookup modelName)
        ((applyPatches candidate.patches localPricing field).lookup modelName) := by
  rcases resolveModel_cases (exactFloats format) strategy upstreams preferences modelName with
    ⟨hskipped, -⟩ | ⟨expect, hchanges, other, hcategory, -, hexpect⟩
  · exact absurd ((mem_skipped hbuild).mpr ⟨hname, hskipped localPricing⟩) hkept
  obtain ⟨source, hsource, hother⟩ := hsource
  cases (hcategory source hsource).symm.trans hother
  rcases hexpect with ⟨heq, -⟩ | ⟨lanes, -, hlanes, rfl⟩
  · exact absurd heq htiered
  obtain ⟨changes, hok⟩ : ∃ changes, resolveModel (exactFloats format) strategy localPricing
      upstreams preferences modelName = .ok changes := by
    rcases hresolved : resolveModel (exactFloats format) strategy localPricing upstreams
      preferences modelName with stop | changes
    · cases stop with
      | skipped => exact absurd ((mem_skipped hbuild).mpr ⟨hname, hresolved⟩) hkept
      | panicked => exact absurd hresolved (build_iff.mp ⟨candidate, hbuild⟩ modelName hname)
    · exact ⟨changes, rfl⟩
  obtain ⟨hprices, hnone⟩ := absolutePrice_resolved hcategory htiered hlanes
  refine ⟨fun field => lanes.lookup field, hprices, hnone, fun field => ?_⟩
  obtain ⟨expected, hexpected, hpatched⟩ :=
    patched_settled hbuild hname (hchanges localPricing) hok field
  cases hexpected
  rw [hpatched]
  exact settledValue_settled _ _ _

theorem build_again (hcomparable : Comparable (exactFloats format) upstreams preferences) :
    ∃ again, buildUpstreamPricingSyncPatchesWithPreferences (exactFloats format) strategy
      (applyPatches candidate.patches localPricing) upstreams preferences = some again ∧
        again.patches = fun _ => none := by
  refine foldlM_addModel_unchanged fun name hsorted => ?_
  have hname := mem_sortStrings.mp hsorted
  rcases hcomparable.resolveModel strategy hname with hskipped | ⟨expect, hresolve⟩
  · exact .inl (hskipped _)
  obtain ⟨hchanges, hnot, hplain⟩ := hresolve localPricing
  rw [(hresolve (applyPatches candidate.patches localPricing)).1]
  rcases hlocal : resolveModel (exactFloats format) strategy localPricing upstreams preferences
    name with stop | changes
  · cases stop with
    | skipped =>
      have hsame : (fun field => (applyPatches candidate.patches localPricing field).lookup name) =
          fun field => (localPricing field).lookup name :=
        funext fun field =>
          patched_skipped hbuild (.inr ((mem_skipped hbuild).mpr ⟨hname, hlocal⟩)) field
      rw [hsame, ← hchanges]
      exact .inl hlocal
    | panicked => exact absurd hlocal hnot
  · refine .inr (fieldChanges_nil fun field _ => ?_)
    obtain ⟨expected, hexpected, hpatched⟩ := patched_settled hbuild hname hchanges hlocal field
    refine ⟨expected, hexpected, ?_⟩
    rw [hpatched]
    exact fieldChange_again format field
      (fun value heq => hplain changes hlocal field value (heq ▸ hexpected)) _

end Exact

theorem sync_patches_exact_iff (format : ℚ → Text) (strategy : Strategy)
    (localPricing : SyncData ℚ) (upstreams : List (ℤ × SyncData ℚ)) (preferences : Preferences) :
    (∃ candidate, buildUpstreamPricingSyncPatchesWithPreferences (exactFloats format) strategy
        localPricing upstreams preferences = some candidate ∧
      let patched := applyPatches candidate.patches localPricing
      (∀ modelName field, modelName ∉ exposedModels upstreams ∨ modelName ∈ candidate.skipped →
        (patched field).lookup modelName = (localPricing field).lookup modelName) ∧
      (∀ modelName ∈ exposedModels upstreams, modelName ∉ candidate.skipped →
        ∀ category ≠ .tiered, (∃ source ∈ exposingSources upstreams preferences modelName,
            pricingCategory source modelName = some category) →
          ∃ target : Field → Option ℚ,
            (∀ field ∈ fieldsOf category, AggregatePrice strategy
              ((exposingSources upstreams preferences modelName).map fun source =>
                absolutePrice (numberOf modelName source) field)
              (absolutePrice target field)) ∧
            (∀ field ∉ fieldsOf category, target field = none) ∧
            ∀ field, Settled (target field) ((localPricing field).lookup modelName)
              ((patched field).lookup modelName)) ∧
      ∃ again, buildUpstreamPricingSyncPatchesWithPreferences (exactFloats format) strategy
        patched upstreams preferences = some again ∧ again.patches = fun _ => none) ↔
    Comparable (exactFloats format) upstreams preferences := by
  constructor
  · rintro ⟨candidate, hbuild, -, -, again, hagain, -⟩ modelName hname htiered
    by_contra hnot
    rcases resolveModel_cases (exactFloats format) strategy upstreams preferences modelName with
      ⟨-, hnil | ⟨source, hsource, hne⟩⟩ | ⟨expect, hchanges, category, hcategory, hnil, hexpect⟩
    · rw [hnil] at hnot
      exact hnot (comparableFields_nil _ _ _)
    · exact hne (htiered source hsource)
    obtain ⟨source, hsource⟩ := List.exists_mem_of_ne_nil _ hnil
    have hcase := (hcategory source hsource).symm.trans (htiered source hsource)
    cases hcase
    rcases hexpect with ⟨-, rfl⟩ | ⟨_, hne, -⟩
    swap
    · exact hne rfl
    rcases not_comparableFields hnot with hpanicked | ⟨hone, field, -, value, hvalue, hnested⟩
    · refine build_iff.mp ⟨candidate, hbuild⟩ modelName hname ?_
      rw [hchanges, hpanicked]
    · rw [not_again_of_nested hbuild hname hchanges (fun _ => expectedValue_single hone) hvalue
        hnested] at hagain
      cases hagain
  · intro hcomparable
    obtain ⟨candidate, hbuild⟩ := build_iff.mpr fun name hname => by
      rcases hcomparable.resolveModel strategy hname with
        hskipped | ⟨expect, hresolve⟩
      · rw [hskipped localPricing]
        rintro ⟨⟩
      · exact (hresolve localPricing).2.1
    exact ⟨candidate, hbuild, fun name field h => patched_skipped hbuild h field,
      fun name hname hkept category htiered hsource =>
        patched_exact hbuild hname hkept htiered hsource, build_again hbuild hcomparable⟩

def pricedAt (ratio : ℚ) : SyncData ℚ
  | .modelRatio => (∅ : Object ℚ).insert "m".toList (.number ratio)
  | .completionRatio => (∅ : Object ℚ).insert "m".toList (.number 1)
  | _ => ∅

def tieredWith (value : Value ℚ) : SyncData ℚ
  | .billingMode => (∅ : Object ℚ).insert "m".toList (.string "tiered_expr".toList)
  | .billingExpr => (∅ : Object ℚ).insert "m".toList (.string "p * 2".toList)
  | .cacheRatio => (∅ : Object ℚ).insert "m".toList value
  | _ => ∅

/-- Two sources with an array in one place panic at once, a single one when its patch has been
applied. Where nothing panics, a local price near the aggregate stays. -/
theorem sync_panics_on_arrays :
    let patches := fun (table : SyncData ℚ) upstreams =>
      buildUpstreamPricingSyncPatchesWithPreferences (exactFloats fun _ => []) .highest table
        upstreams ⟨[], fun _ => none⟩
    let source := tieredWith (.array "[1]".toList)
    let near : ℚ := 1 + 1 / 10000000000
    (patches (fun _ => ∅) [(1, source), (2, source)]).isNone ∧
    (patches (fun _ => ∅) [(1, source)]).map Candidate.skipped = some [] ∧
    ((patches (fun _ => ∅) [(1, source)]).bind fun candidate =>
      patches (applyPatches candidate.patches fun _ => ∅) [(1, source)]).isNone ∧
    AggregatePrice .highest [absolutePrice (numberOf "m".toList (pricedAt near)) .modelRatio]
      (some near) ∧
    (patches (pricedAt 1) [(1, pricedAt near)]).map (fun candidate => (candidate.skipped,
      (applyPatches candidate.patches (pricedAt 1) .modelRatio).lookup "m".toList)) =
        some ([], some (.number 1)) := by
  refine ⟨by decide +kernel, by decide +kernel, by decide +kernel, ⟨[_], rfl, ?_⟩,
    by decide +kernel⟩
  simp [Strategy.Aggregates]

end NewApi.Controller.PricingSync
