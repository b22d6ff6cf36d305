import NewApi.Model.PricingSyncHolds

/-!
# What the calls have in memory

At each statement a call relies on what it has read before.
-/

namespace NewApi.Model.PricingSync

variable {F : Type}

def StartedFrom (s : Store F) (v : ℤ) : Prop :=
  0 ≤ v ∧ ∃ c, s.version.committed = some c ∧ v ≤ c

def SyncUpdate.Concerns (u : SyncUpdate F) (name : Text) : Prop :=
  (∃ key, u.patches.Touches key name) ∨ ∃ state ∈ u.states, state.modelName = name

def Spares (s : Store F) (u : SyncUpdate F) : Prop :=
  ∀ name, u.Concerns name → s.version.committed = some u.expectedVersion →
    ¬ IsManual (s.states.find name)

def Guarded (i : ℕ) (s : Store F) (u : SyncUpdate F) : Prop :=
  s.version.committed = some u.expectedVersion ∧ s.version.own i ≠ none

def Unowned (i : ℕ) (s : Store F) (u : ConfigurationUpdate) : Prop :=
  s.version.own i ≠ none ∧ ∀ name ∈ u.owned, ¬ IsManual (s.states.find name)

def Base (s : Store F) : Update F → Prop
  | .sync u => StartedFrom s u.expectedVersion ∧ Spares s u
  | _ => True

def Checked (i : ℕ) (s : Store F) : Update F → Prop
  | .sync u => Guarded i s u
  | _ => True

def Alone (u : Update F) (values : List (PricingOption × Object F)) : Prop :=
  ∀ m, u = .manual m → values = [(m.key, m.value)]

def Computed (i : ℕ) (s : Store F) (u : Update F)
    (values : List (PricingOption × Object F)) : Prop :=
  ∀ p ∈ values, (s.options p.1).own i ≠ none ∧
    ∀ name, ¬ u.Touches p.1 name → p.2.lookup name = entry (s.options p.1).committed name

def SavedDocument (i : ℕ) (s : Store F) (u : Update F) : Prop :=
  ∀ m, u = .manual m → (s.options m.key).own i = some (some (.object m.value))

def Marked (i : ℕ) (s : Store F) (u : ManualUpdate F) (todo : List Text) : Prop :=
  ∀ name ∈ u.changed, name ∈ todo ∨
    ∃ state, (s.states.row name).own i = some state ∧ IsManual state

def First (u : Update F) (key : PricingOption) (todo : List PricingOption)
    (values : List (PricingOption × Object F)) : Prop :=
  ∀ m, u = .manual m → key = m.key ∧ todo = [] ∧ values = []

def Memory (i : ℕ) (s : Store F) : UpdatePc F → Prop
  | .insertOption u key todo values => Base s u ∧ Computed i s u values ∧ First u key todo values
  | .lockOption u key todo values => Base s u ∧ Computed i s u values ∧ First u key todo values
  | .saveOption u key value todo =>
    Base s u ∧ Computed i s u ((key, value) :: todo) ∧ Alone u ((key, value) :: todo)
  | .insertVersion u => Base s u ∧ SavedDocument i s u
  | .lockVersion u => Base s u ∧ SavedDocument i s u
  | .bumpInsert u => Base s u ∧ SavedDocument i s u ∧ Checked i s u
  | .bumpLock u => Base s u ∧ SavedDocument i s u ∧ Checked i s u
  | .bumpSave u currentVersion =>
    Base s u ∧ SavedDocument i s u ∧ Checked i s u ∧
      s.version.own i = some (some currentVersion)
  | .markManual u name todo =>
    SavedDocument i s (.manual u) ∧ Bumped i s ∧ Marked i s u (name :: todo)
  | .upsertState u state todo =>
    Base s (.sync u) ∧ Guarded i s u ∧ Bumped i s ∧ ∀ x ∈ state :: todo, x ∈ u.states
  | .readApplied _ => Bumped i s
  | .lockNamed _ => Bumped i s
  | .readSource _ _ _ _ => Bumped i s
  | .upsertPreference u _ preference todo =>
    Bumped i s ∧ ∀ x ∈ preference :: todo, x ∈ u.preferences
  | .readSources _ => Bumped i s
  | .readChannels _ => Bumped i s
  | .lockStates _ => Bumped i s
  | .deleteSources u => Bumped i s ∧ Unowned i s u
  | .createSources u => Bumped i s ∧ Unowned i s u
  | .deleteQuotes u => Bumped i s ∧ Unowned i s u
  | .deleteStates u => Bumped i s ∧ Unowned i s u
  | .commit (.manual u) => SavedDocument i s (.manual u) ∧ Marked i s u []
  | .commit (.sync u) => Base s (.sync u) ∧ Guarded i s u
  | .commit (.preferences _) => True
  | .commit (.configuration u) => Unowned i s u
  | .readExisting _ => True
  | .readOwned _ => True
  | .finished _ => True

def UpdatePc.update : UpdatePc F → Option (Update F)
  | .readExisting _ => none
  | .readOwned _ => none
  | .insertOption u _ _ _ => some u
  | .lockOption u _ _ _ => some u
  | .saveOption u _ _ _ => some u
  | .insertVersion u => some u
  | .lockVersion u => some u
  | .bumpInsert u => some u
  | .bumpLock u => some u
  | .bumpSave u _ => some u
  | .markManual u _ _ => some (.manual u)
  | .upsertState u _ _ => some (.sync u)
  | .readApplied u => some (.preferences u)
  | .lockNamed u => some (.preferences u)
  | .readSource u _ _ _ => some (.preferences u)
  | .upsertPreference u _ _ _ => some (.preferences u)
  | .readSources u => some (.configuration u)
  | .readChannels u => some (.configuration u)
  | .lockStates u => some (.configuration u)
  | .deleteSources u => some (.configuration u)
  | .createSources u => some (.configuration u)
  | .deleteQuotes u => some (.configuration u)
  | .deleteStates u => some (.configuration u)
  | .commit u => some u
  | .finished _ => none

/-! ### Steps of the others -/

section Kept

variable {i j : ℕ} {s s' : Store F}

theorem StartedFrom.kept {v : ℤ} (h : StartedFrom s v) (ha : Advances j s s') :
    StartedFrom s' v := by
  obtain ⟨h0, c, hc, hle⟩ := h
  obtain ⟨c', hc', hle'⟩ := ha.grows c hc
  exact ⟨h0, c', hc', le_trans hle hle'⟩

theorem manual_kept {v : ℤ} {name : Text} (h : StartedFrom s v) (ha : Advances j s s')
    (hv : s'.version.committed = some v) (hm : IsManual (s'.states.find name)) :
    s.version.committed = some v ∧ IsManual (s.states.find name) := by
  obtain ⟨_, c, hc, hle⟩ := h
  obtain ⟨c', hc', hle'⟩ := ha.grows c hc
  rw [hv] at hc'
  cases hc'
  have hcv : c = v := le_antisymm hle' hle
  subst hcv
  refine ⟨hc, ?_⟩
  rcases ha.manual name hm with hbefore | ⟨_, hgrows⟩
  · exact hbefore
  · obtain ⟨c', hc', hlt⟩ := hgrows c hc
    rw [hv] at hc'
    cases hc'
    exact absurd hlt (lt_irrefl c)

theorem Base.kept {u : Update F} (h : Base s u) (ha : Advances j s s') : Base s' u := by
  cases u with
  | sync u =>
    obtain ⟨hstart, hspare⟩ := h
    refine ⟨hstart.kept ha, fun name hname hv hm => ?_⟩
    obtain ⟨hv', hm'⟩ := manual_kept hstart ha hv hm
    exact hspare name hname hv' hm'
  | manual u | preferences u | configuration u => trivial

theorem Guarded.kept {u : SyncUpdate F} (h : Guarded j s u) (ha : Advances j s s') :
    Guarded j s' u := by
  obtain ⟨hv, hown⟩ := h
  obtain ⟨r, hr⟩ := Option.ne_none_iff_exists'.mp hown
  refine ⟨(ha.version.committed r hr).trans hv, ?_⟩
  rw [ha.version.own]
  exact hown

theorem Checked.kept {u : Update F} (h : Checked j s u) (ha : Advances j s s') :
    Checked j s' u := by
  cases u with
  | sync u => exact Guarded.kept h ha
  | manual u | preferences u | configuration u => trivial

theorem Unowned.kept {u : ConfigurationUpdate} (h : Unowned j s u) (ha : Advances j s s') :
    Unowned j s' u := by
  obtain ⟨hown, hnot⟩ := h
  refine ⟨?_, fun name hname hm => ?_⟩
  · rw [ha.version.own]
    exact hown
  · rcases ha.manual name hm with hbefore | ⟨hnone, _⟩
    · exact hnot name hname hbefore
    · exact hown hnone

theorem Computed.kept {u : Update F} {values : List (PricingOption × Object F)}
    (h : Computed j s u values) (ha : Advances j s s') : Computed j s' u values := by
  intro p hp
  obtain ⟨hown, hentry⟩ := h p hp
  obtain ⟨row, hrow⟩ := Option.ne_none_iff_exists'.mp hown
  rw [(ha.options p.1).own, (ha.options p.1).committed row hrow]
  exact ⟨hown, hentry⟩

theorem SavedDocument.kept {u : Update F} (h : SavedDocument j s u) (ha : Advances j s s') :
    SavedDocument j s' u := by
  intro m hm
  rw [(ha.options m.key).own]
  exact h m hm

theorem Marked.kept {u : ManualUpdate F} {todo : List Text} (h : Marked j s u todo)
    (ha : Advances j s s') : Marked j s' u todo := by
  intro name hname
  rw [(ha.states name).own]
  exact h name hname

theorem Memory.kept {pc : UpdatePc F} (h : Memory j s pc) (ha : Advances j s s') :
    Memory j s' pc := by
  cases pc with
  | insertOption u key todo values | lockOption u key todo values | saveOption u key value todo =>
    exact ⟨h.1.kept ha, h.2.1.kept ha, h.2.2⟩
  | insertVersion u | lockVersion u => exact ⟨h.1.kept ha, h.2.kept ha⟩
  | bumpInsert u | bumpLock u => exact ⟨h.1.kept ha, h.2.1.kept ha, h.2.2.kept ha⟩
  | bumpSave u v =>
    exact ⟨h.1.kept ha, h.2.1.kept ha, h.2.2.1.kept ha, ha.version.own.trans h.2.2.2⟩
  | markManual u name todo => exact ⟨h.1.kept ha, h.2.1.kept ha.version, h.2.2.kept ha⟩
  | upsertState u state todo =>
    exact ⟨h.1.kept ha, h.2.1.kept ha, h.2.2.1.kept ha.version, h.2.2.2⟩
  | readApplied u | lockNamed u | readSource u current id todo | readSources u | readChannels u
  | lockStates u => exact Bumped.kept h ha.version
  | upsertPreference u current preference todo => exact ⟨h.1.kept ha.version, h.2⟩
  | deleteSources u | createSources u | deleteQuotes u | deleteStates u =>
    exact ⟨h.1.kept ha.version, h.2.kept ha⟩
  | commit u =>
    cases u with
    | manual u | sync u => exact ⟨h.1.kept ha, h.2.kept ha⟩
    | preferences u => trivial
    | configuration u => exact Unowned.kept h ha
  | readExisting u | readOwned u | finished result => trivial

end Kept

/-! ### Steps of the call itself -/

section Own

variable {i : ℕ} {s s' : Store F} {u : Update F} {pc pc' : UpdatePc F}

theorem Base.same (h : Base s u) (hv : s'.version.committed = s.version.committed)
    (hs : ∀ name, s'.states.find name = s.states.find name) : Base s' u := by
  cases u with
  | sync u =>
    obtain ⟨⟨h0, hstart⟩, hspare⟩ := h
    refine ⟨⟨h0, ?_⟩, fun name hname hv' => ?_⟩
    · rw [hv]
      exact hstart
    · rw [hv] at hv'
      rw [hs]
      exact hspare name hname hv'
  | manual u | preferences u | configuration u => trivial

variable {values : List (PricingOption × Object F)} {current : Text → Option ModelState}
  {x : PreferenceUpdate F} {fl : Floats F} {key : PricingOption} {m : ManualUpdate F}
  {todo : List PricingOption} {state : Option ModelState} {name : Text}

theorem update_markNext {todo : List Text} : (markNext m todo).update = some (.manual m) := by
  cases todo <;> rfl

theorem update_upsertNext {x : SyncUpdate F} {todo : List ModelState} :
    (upsertNext x todo).update = some (.sync x) := by
  cases todo <;> rfl

theorem update_preferenceNext {todo : List Preference} :
    (preferenceNext x current todo).update = some (.preferences x) := by
  cases todo <;> rfl

theorem update_sourceNext {todo : List ℤ} :
    (sourceNext x current todo).update = some (.preferences x) := by
  cases todo with
  | nil => exact update_preferenceNext
  | cons id todo => rfl

theorem update_afterBump : (afterBump u).update = some u := by
  cases u with
  | manual m => exact update_markNext
  | sync x => exact update_upsertNext
  | preferences x | configuration x => rfl

theorem update_afterGuard : (afterGuard u).update = some u := by
  cases u with
  | sync x =>
    simp only [afterGuard]
    split
    · rfl
    · exact update_upsertNext
  | manual m | preferences x | configuration x => rfl

theorem update_afterSaves : (afterSaves u).update = some u := by
  cases u with
  | manual m =>
    simp only [afterSaves]
    split <;> rfl
  | configuration x | sync x | preferences x =>
    simp only [afterSaves]
    split
    · rfl
    · exact update_afterGuard

theorem update_saveNext : (saveNext u values).update = some u := by
  cases values with
  | nil => exact update_afterSaves
  | cons p todo => rfl

theorem update_lockNext : (lockNext u values todo).update = some u := by
  cases todo with
  | nil => exact update_saveNext
  | cons key todo => rfl

theorem memory_markNext {todo : List Text} (hs : SavedDocument i s (.manual m)) (hb : Bumped i s)
    (hm : Marked i s m todo) : Memory i s (markNext m todo) := by
  cases todo with
  | nil => exact ⟨hs, hm⟩
  | cons name todo => exact ⟨hs, hb, hm⟩

theorem memory_upsertNext {x : SyncUpdate F} {todo : List ModelState}
    (hbase : Base s (.sync x)) (hg : Guarded i s x) (hb : todo ≠ [] → Bumped i s)
    (hsub : ∀ state ∈ todo, state ∈ x.states) : Memory i s (upsertNext x todo) := by
  cases todo with
  | nil => exact ⟨hbase, hg⟩
  | cons state todo => exact ⟨hbase, hg, hb (List.cons_ne_nil _ _), hsub⟩

theorem memory_preferenceNext {todo : List Preference} (hb : Bumped i s)
    (hsub : ∀ preference ∈ todo, preference ∈ x.preferences) :
    Memory i s (preferenceNext x current todo) := by
  cases todo with
  | nil => trivial
  | cons preference todo => exact ⟨hb, hsub⟩

theorem memory_sourceNext {todo : List ℤ} (hb : Bumped i s) :
    Memory i s (sourceNext x current todo) := by
  cases todo with
  | nil => exact memory_preferenceNext hb fun _ h => h
  | cons id todo => exact hb

theorem memory_afterBump (hbase : Base s u) (hs : SavedDocument i s u) (hc : Checked i s u)
    (hb : Bumped i s) : Memory i s (afterBump u) := by
  cases u with
  | manual m => exact memory_markNext hs hb fun _ hname => .inl hname
  | sync x =>
    exact memory_upsertNext hbase hc (fun _ => hb) fun _ h => (List.mem_filter.mp h).1
  | preferences x | configuration x => exact hb

theorem memory_afterGuard (hbase : Base s u) (hs : SavedDocument i s u) (hc : Checked i s u) :
    Memory i s (afterGuard u) := by
  cases u with
  | sync x =>
    simp only [afterGuard]
    split
    · exact ⟨hbase, hs, hc⟩
    · exact memory_upsertNext hbase hc (fun h => absurd rfl h) fun _ h => absurd h List.not_mem_nil
  | manual m | preferences x | configuration x => exact ⟨hbase, hs, hc⟩

theorem memory_afterSaves (hbase : Base s u) (hs : SavedDocument i s u) :
    Memory i s (afterSaves u) := by
  cases u with
  | manual m =>
    simp only [afterSaves]
    split
    · next hnone =>
      refine ⟨hs, fun name hname => ?_⟩
      rw [hnone] at hname
      exact absurd hname List.not_mem_nil
    · exact ⟨hbase, hs, trivial⟩
  | sync x =>
    have h0 : 0 ≤ x.expectedVersion := hbase.1.1
    simp only [afterSaves]
    split
    · exact ⟨hbase, hs⟩
    · next hneg => exact absurd h0 hneg
  | preferences x | configuration x =>
    simp only [afterSaves]
    split
    · exact ⟨hbase, hs⟩
    · exact memory_afterGuard hbase hs trivial

theorem memory_saveNext (hbase : Base s u) (hc : Computed i s u values)
    (hs : values = [] ∧ SavedDocument i s u ∨ values ≠ [] ∧ Alone u values ∨ ∀ m, u ≠ .manual m) :
    Memory i s (saveNext u values) := by
  cases values with
  | nil =>
    refine memory_afterSaves hbase ?_
    rcases hs with ⟨_, hs⟩ | ⟨hne, _⟩ | hnot
    · exact hs
    · exact absurd rfl hne
    · exact fun m hm => absurd hm (hnot m)
  | cons p todo =>
    refine ⟨hbase, hc, ?_⟩
    rcases hs with ⟨hnil, _⟩ | ⟨_, halone⟩ | hnot
    · cases hnil
    · exact halone
    · exact fun m hm => absurd hm (hnot m)

theorem memory_lockNext (hbase : Base s u) (hc : Computed i s u values)
    (hs : ∀ m, u = .manual m →
      values = [] ∧ todo = [m.key] ∨ values = [(m.key, m.value)] ∧ todo = []) :
    Memory i s (lockNext u values todo) := by
  cases todo with
  | nil =>
    refine memory_saveNext hbase hc ?_
    cases u with
    | manual m =>
      rcases hs m rfl with ⟨_, hnil⟩ | ⟨hvalues, _⟩
      · cases hnil
      · rw [hvalues]
        refine .inr (.inl ⟨List.cons_ne_nil _ _, fun m' hm => ?_⟩)
        cases hm
        rfl
    | sync x | preferences x | configuration x => exact .inr (.inr fun m hm => by cases hm)
  | cons key todo =>
    refine ⟨hbase, hc, fun m hm => ?_⟩
    rcases hs m hm with ⟨hvalues, hkeys⟩ | ⟨_, hnil⟩
    · cases hkeys
      exact ⟨rfl, rfl, hvalues⟩
    · cases hnil

theorem memory_beginUpdate (hbase : Base s u) : Memory i s (beginUpdate u) := by
  refine memory_lockNext hbase (fun p hp => absurd hp List.not_mem_nil) fun m hm => ?_
  subst hm
  exact .inl ⟨rfl, rfl⟩

def Proceeds (i : ℕ) (s s' : Store F) (pc' : UpdatePc F) : Prop :=
  Silent i s s' pc'.update ∧ Memory i s' pc'

theorem rollback_proceeds (hn : NonNegative s) (hr : rollback i s = some (s', pc')) :
    Proceeds i s s' pc' := by
  cases hr
  exact ⟨abort_sound hn, trivial⟩

theorem quiet_proceeds (hn : NonNegative s) (h : Holding i s pc'.update)
    (hm : Memory i s' pc') (ho : s'.options = s.options) (hv : s'.version = s.version)
    (hs : s'.states = s.states) : Proceeds i s s' pc' :=
  ⟨quiet_sound hn h ho hv hs, hm⟩

theorem own_writeOption {key k : PricingOption} {value : Option (Stored F)}
    (h : (s.options k).own i ≠ none) : ((s.writeOption i key value).options k).own i ≠ none := by
  by_cases hk : k = key
  · subst hk
    rw [options_writeOption_self, Row.own_write_self]
    exact Option.some_ne_none _
  · rw [options_writeOption_of_ne hk]
    exact h

theorem insertOption_sound {w : Option (Update F)} (hn : NonNegative s) (h : Holding i s w)
    (hr : insertOption i key s = some s') :
    Silent i s s' w ∧ (∀ k, (s.options k).own i ≠ none → (s'.options k).own i ≠ none) ∧
      s'.version = s.version ∧ s'.states = s.states ∧
      ∀ k, (s'.options k).committed = (s.options k).committed := by
  unfold insertOption at hr
  split at hr
  · cases hr
    exact ⟨quiet_sound hn h rfl rfl rfl, fun _ hk => hk, rfl, rfl, fun _ => rfl⟩
  · next hnone =>
    obtain ⟨hf, hr⟩ := Option.ite_none_right_eq_some.mp hr
    cases hr
    rw [Bool.not_eq_true, Option.isSome_eq_false_iff, Option.isNone_iff_eq_none] at hnone
    refine ⟨writeOption_sound hn h hf fun name hname => ?_, fun _ => own_writeOption, rfl, rfl,
      fun k => committed_writeOption⟩
    have hselect := h.select_entry hname
    rw [hnone] at hselect
    rw [← hselect]
    exact AList.lookup_empty name

theorem insertVersion_sound {w : Option (Update F)} (hn : NonNegative s) (h : Holding i s w)
    (hr : insertVersion i s = some s') :
    Silent i s s' w ∧ (s.version.own i ≠ none → s'.version.own i ≠ none) ∧
      s'.version.committed = s.version.committed ∧ s'.states = s.states ∧
      s'.options = s.options := by
  unfold insertVersion at hr
  split at hr
  · cases hr
    exact ⟨quiet_sound hn h rfl rfl rfl, fun hk => hk, rfl, rfl, rfl⟩
  · next hnone =>
    obtain ⟨hf, hr⟩ := Option.ite_none_right_eq_some.mp hr
    cases hr
    rw [Bool.not_eq_true, Option.isSome_eq_false_iff, Option.isNone_iff_eq_none] at hnone
    -- a version that the transaction holds is a number, so it holds none here
    have hown : s.version.own i = none := by
      rcases hown : s.version.own i with _ | r
      · rfl
      · obtain ⟨n, rfl, _⟩ := h.version r hown
        rw [Row.select_of_own hown] at hnone
        cases hnone
    rw [Row.select_of_none hown] at hnone
    refine ⟨writeVersion_sound hn h hf (le_refl 0) (fun c hc => ?_) (fun m hm => ?_),
      fun hk => absurd hown hk, rfl, rfl, rfl⟩
    · rw [hnone] at hc
      cases hc
    · rw [hown] at hm
      cases hm

theorem Computed.same (h : Computed i s u values)
    (hown : ∀ k, (s.options k).own i ≠ none → (s'.options k).own i ≠ none)
    (hcommitted : ∀ k, (s'.options k).committed = (s.options k).committed) :
    Computed i s' u values := by
  intro p hp
  obtain ⟨hp1, hp2⟩ := h p hp
  rw [hcommitted]
  exact ⟨hown p.1 hp1, hp2⟩

theorem touches_compare {current : Object F} :
    (u.compare fl current).Touches key name ↔ u.Touches key name := by
  cases u <;> exact Iff.rfl

theorem rewrites_compare {current : Object F} :
    (u.compare fl current).Rewrites name state ↔ u.Rewrites name state := by
  cases u <;> exact Iff.rfl

theorem base_compare {current : Object F} (h : Base s u) : Base s (u.compare fl current) := by
  cases u with
  | manual m | preferences x | configuration x => trivial
  | sync x => exact h

theorem compare_eq_manual {current : Object F} (h : u.compare fl current = .manual m) :
    ∃ m', u = .manual m' ∧ m.key = m'.key ∧ m.value = m'.value := by
  cases u with
  | manual m' =>
    cases h
    exact ⟨m', rfl, rfl, rfl⟩
  | sync x | preferences x | configuration x => cases h

theorem lockOption_proceeds {current : Object F} (hn : NonNegative s) (h : Holding i s (some u))
    (hm : Memory i s (.lockOption u key todo values)) (hf : (s.options key).free i = true)
    (hsel : (s.options key).select i = some (.object current)) :
    Proceeds i s (s.writeOption i key (some (.object current)))
      (lockNext (u.compare fl current) (values ++ [(key, u.newValue key current)]) todo) := by
  obtain ⟨hbase, hcomputed, hfirst⟩ := hm
  have hentry : ∀ name, ¬ u.Touches key name →
      current.lookup name = entry (s.options key).committed name := by
    intro name hname
    have hnot : ¬ MayTouch (some u) key name := by
      rintro ⟨x, hx, htouch⟩
      cases hx
      exact hname htouch
    have hselect := h.select_entry hnot
    rw [hsel] at hselect
    exact hselect
  refine ⟨?_, ?_⟩
  · rw [update_lockNext]
    have hwrite : Silent i s (s.writeOption i key (some (.object current))) (some u) := by
      refine writeOption_sound hn h hf fun name hname => ?_
      exact hentry name fun htouch => hname ⟨u, rfl, htouch⟩
    refine ⟨⟨hwrite.nonNegative, hwrite.holding.mono ?_ ?_, hwrite.advances⟩, hwrite.options,
      hwrite.stays⟩
    · rintro k name ⟨x, hx, htouch⟩
      cases hx
      exact ⟨_, rfl, touches_compare.mpr htouch⟩
    · rintro name state ⟨x, hx, hrewrite⟩
      cases hx
      exact ⟨_, rfl, rewrites_compare.mpr hrewrite⟩
  · refine memory_lockNext (base_compare (hbase.same rfl fun _ => rfl)) ?_ ?_
    · intro p hp
      rw [committed_writeOption]
      rcases List.mem_append.mp hp with hp | hp
      · obtain ⟨hown, hvalue⟩ := hcomputed p hp
        exact ⟨own_writeOption hown, fun name hname =>
          hvalue name fun htouch => hname (touches_compare.mpr htouch)⟩
      · cases List.mem_singleton.mp hp
        refine ⟨?_, fun name hname => ?_⟩
        · rw [options_writeOption_self, Row.own_write_self]
          exact Option.some_ne_none _
        · have htouch : ¬ u.Touches key name := fun ht => hname (touches_compare.mpr ht)
          rw [lookup_newValue htouch fun m hmanual => (hfirst m hmanual).1]
          exact hentry name htouch
    · intro m hmanual
      obtain ⟨m', rfl, hkey, hvalue⟩ := compare_eq_manual hmanual
      obtain ⟨rfl, htodo, hvalues⟩ := hfirst m' rfl
      refine .inr ⟨?_, htodo⟩
      rw [hvalues, hkey, hvalue]
      rfl

theorem saveOption_proceeds {value : Object F} {todo : List (PricingOption × Object F)}
    (hn : NonNegative s) (h : Holding i s (some u)) (hm : Memory i s (.saveOption u key value todo))
    (hf : (s.options key).free i = true) :
    Proceeds i s (s.writeOption i key (some (.object value))) (saveNext u todo) := by
  obtain ⟨hbase, hcomputed, halone⟩ := hm
  obtain ⟨_, hvalue⟩ := hcomputed (key, value) List.mem_cons_self
  refine ⟨?_, ?_⟩
  · rw [update_saveNext]
    refine writeOption_sound hn h hf fun name hname => ?_
    exact hvalue name fun htouch => hname ⟨u, rfl, htouch⟩
  · refine memory_saveNext (hbase.same rfl fun _ => rfl) ?_ ?_
    · refine Computed.same (fun p hp => hcomputed p (List.mem_cons_of_mem _ hp))
        (fun k hk => own_writeOption hk) fun k => committed_writeOption
    · cases u with
      | manual m =>
        have hvalues := halone m rfl
        cases hvalues
        refine .inl ⟨rfl, fun m' hm' => ?_⟩
        cases hm'
        rw [options_writeOption_self, Row.own_write_self]
      | sync x | preferences x | configuration x => exact .inr (.inr fun m hm => by cases hm)

theorem own_writeVersion_ne_none {v : Option ℤ} : (s.writeVersion i v).version.own i ≠ none := by
  simp [Store.writeVersion]

theorem lockVersion_proceeds (hn : NonNegative s) (h : Holding i s (some u))
    (hm : Memory i s (.lockVersion u)) (hf : s.version.free i = true)
    (hsel : s.version.select i = some u.expectedVersion) :
    Proceeds i s (s.writeVersion i (some u.expectedVersion)) (afterGuard u) := by
  obtain ⟨hbase, hsaved⟩ := hm
  refine ⟨?_, memory_afterGuard (hbase.same rfl fun _ => rfl) hsaved ?_⟩
  · rw [update_afterGuard]
    exact lockVersion_sound hn h hf hsel
  · cases u with
    | sync x =>
      obtain ⟨⟨_, c, hc, hstart⟩, _⟩ := hbase
      have hcv : c = x.expectedVersion :=
        le_antisymm ((h.select_version hn hsel).2 c hc) hstart
      exact ⟨hc.trans (congrArg some hcv), own_writeVersion_ne_none⟩
    | manual m | preferences x | configuration x => trivial

theorem Checked.same (h : Checked i s u) (hv : s'.version.committed = s.version.committed)
    (hown : s.version.own i ≠ none → s'.version.own i ≠ none) : Checked i s' u := by
  cases u with
  | sync x => exact ⟨hv.trans h.1, hown h.2⟩
  | manual m | preferences x | configuration x => trivial

theorem bumpLock_proceeds {v : ℤ} (hn : NonNegative s) (h : Holding i s (some u))
    (hm : Memory i s (.bumpLock u)) (hf : s.version.free i = true)
    (hsel : s.version.select i = some v) :
    Proceeds i s (s.writeVersion i (some v)) (.bumpSave u v) := by
  obtain ⟨hbase, hsaved, hchecked⟩ := hm
  exact ⟨lockVersion_sound hn h hf hsel, hbase.same rfl fun _ => rfl, hsaved,
    hchecked.same rfl fun _ => own_writeVersion_ne_none, Row.own_write_self⟩

theorem bumpSave_proceeds {v : ℤ} (hn : NonNegative s) (h : Holding i s (some u))
    (hm : Memory i s (.bumpSave u v)) (hf : s.version.free i = true) :
    Proceeds i s (s.writeVersion i (some (v + 1))) (afterBump u) := by
  obtain ⟨hbase, hsaved, hchecked, hown⟩ := hm
  obtain ⟨n, hv, h0, hle⟩ := h.version _ hown
  cases hv
  refine ⟨?_, memory_afterBump (hbase.same rfl fun _ => rfl) hsaved
    (hchecked.same rfl fun _ => own_writeVersion_ne_none) ⟨v + 1, Row.own_write_self, ?_⟩⟩
  · rw [update_afterBump]
    refine writeVersion_sound hn h hf (by omega) (fun c hc => ?_) (fun m hm => ?_)
    · have hcv := hle c hc
      omega
    · rw [hown] at hm
      cases hm
      omega
  · intro c hc
    have hcv := hle c hc
    omega

theorem isManual_manualState : IsManual (some (manualState name state)) := by
  cases state <;> rfl

theorem markManual_proceeds {todo : List Text} (hn : NonNegative s)
    (h : Holding i s (some (.manual m))) (hm : Memory i s (.markManual m name todo))
    (hf : (s.states.row name).free i = true) (hstate : IsManual state) :
    Proceeds i s (s.writeState i name state) (markNext m todo) := by
  obtain ⟨hsaved, hbump, hmarked⟩ := hm
  refine ⟨?_, memory_markNext hsaved hbump fun other hother => ?_⟩
  · rw [update_markNext]
    exact writeState_sound hn h hf ⟨_, rfl, hstate⟩ hbump
  · simp only [Store.writeState]
    by_cases heq : other = name
    · subst heq
      rw [RowTable.row_write_self, Row.own_write_self]
      exact .inr ⟨state, rfl, hstate⟩
    · rw [RowTable.row_write_of_ne heq]
      rcases hmarked other hother with hmem | hwritten
      · rcases List.mem_cons.mp hmem with hname | hmem
        · exact absurd hname heq
        · exact .inl hmem
      · exact .inr hwritten

theorem upsertState_proceeds {x : SyncUpdate F} {state : ModelState} {todo : List ModelState}
    (hn : NonNegative s) (h : Holding i s (some (.sync x)))
    (hm : Memory i s (.upsertState x state todo))
    (hf : (s.states.row state.modelName).free i = true) :
    Proceeds i s (s.writeState i state.modelName (some state)) (upsertNext x todo) := by
  obtain ⟨hbase, hguard, hbump, hsub⟩ := hm
  refine ⟨?_, memory_upsertNext (hbase.same rfl fun name => RowTable.committed_write name) hguard
    (fun _ => hbump) fun y hy => hsub y (List.mem_cons_of_mem _ hy)⟩
  rw [update_upsertNext]
  exact writeState_sound hn h hf ⟨_, rfl, state, hsub state List.mem_cons_self, rfl⟩ hbump

theorem preferenceState_spec {preference : Preference} {state : ModelState}
    (h : preferenceState current preference = some state) :
    state.modelName = trimSpace preference.modelName ∧ state.mode = preference.mode := by
  simp only [preferenceState] at h
  split at h
  · next hmode =>
    cases h
    exact ⟨rfl, hmode.symm⟩
  · next hmode =>
    cases h
    exact ⟨rfl, hmode.symm⟩
  · next hmode =>
    cases h
    exact ⟨rfl, hmode.symm⟩
  · cases h

theorem upsertPreference_proceeds {preference : Preference} {todo : List Preference}
    {state : ModelState} (hn : NonNegative s) (h : Holding i s (some (.preferences x)))
    (hm : Memory i s (.upsertPreference x current preference todo))
    (hstate : preferenceState current preference = some state)
    (hf : (s.states.row state.modelName).free i = true) :
    Proceeds i s (s.writeState i state.modelName (some state))
      (preferenceNext x current todo) := by
  obtain ⟨hbump, hsub⟩ := hm
  obtain ⟨hname, hmode⟩ := preferenceState_spec hstate
  refine ⟨?_, memory_preferenceNext hbump fun y hy => hsub y (List.mem_cons_of_mem _ hy)⟩
  rw [update_preferenceNext]
  refine writeState_sound hn h hf ⟨_, rfl, preference, hsub preference List.mem_cons_self,
    hname.symm, ?_⟩ hbump
  rw [Option.map_some, hmode]

theorem mem_sortStrings {names : List Text} : name ∈ sortStrings names ↔ name ∈ names :=
  (List.perm_insertionSort (fun a b => textLe a b = true) names).mem_iff

theorem lockStates_proceeds {x : ConfigurationUpdate} {names : List Text} (hn : NonNegative s)
    (h : Holding i s (some (.configuration x))) (hbump : Bumped i s)
    (hf : s.states.freeEach i names = true)
    (hsame : sortStrings (ownedNames x s.states.keys fun name => (s.states.row name).select i) =
      sortStrings x.owned) :
    Proceeds i s (s.writeStates i names id) (.deleteSources x) := by
  refine ⟨lockStates_sound hn h hf, hbump, hbump.own_ne_none, fun name hname hmanual => ?_⟩
  rw [find_writeStates, RowTable.find] at hmanual
  rw [← mem_sortStrings, ← hsame, mem_sortStrings] at hname
  obtain ⟨state, hstate, hp⟩ := of_mem_namesWhere hname
  rw [Bool.and_eq_true] at hp
  have hmode := of_decide_eq_true hp.1
  have hcommitted : (s.states.row name).committed = some state := by
    rcases hown : (s.states.row name).own i with _ | held
    · rw [← hstate, Row.select_of_none hown]
    rw [Row.select_of_own hown] at hstate
    rcases h.states name held hown with heq | ⟨⟨y, hy, hrewrite⟩, _⟩
    · rw [← heq, hstate]
    · cases hy
      rw [hrewrite.2] at hstate
      cases hstate
  rw [hcommitted] at hmanual
  exact hmode (Option.some.inj hmanual)

theorem update_beginUpdate : (beginUpdate u).update = some u := update_lockNext

theorem updateStatement_proceeds {channels : List ℤ} (hn : NonNegative s)
    (h : Holding i s pc.update) (hm : Memory i s pc) (hnot : ∀ u, pc ≠ .commit u)
    (hr : updateStatement fl channels i s pc = some (s', pc')) : Proceeds i s s' pc' := by
  cases pc with
  | readExisting x =>
    cases hr
    exact quiet_proceeds hn h trivial rfl rfl rfl
  | readOwned x =>
    cases hr
    refine quiet_proceeds hn ?_ (memory_beginUpdate trivial) rfl rfl rfl
    exact h.mono (fun _ _ ⟨y, hy, _⟩ => by cases hy) fun _ _ ⟨y, hy, _⟩ => by cases hy
  | insertOption u key todo values =>
    obtain ⟨t, ht, heq⟩ := Option.map_eq_some_iff.mp hr
    cases heq
    obtain ⟨hsound, hown, hv, hst, hcommitted⟩ := insertOption_sound hn h ht
    refine ⟨hsound, hm.1.same (congrArg Row.committed hv) fun name => ?_,
      hm.2.1.same hown hcommitted, hm.2.2⟩
    rw [hst]
  | lockOption u key todo values =>
    obtain ⟨hf, hr⟩ := Option.ite_none_right_eq_some.mp hr
    split at hr
    · next current hsel =>
      cases hr
      exact lockOption_proceeds hn h hm hf hsel
    · exact rollback_proceeds hn hr
  | saveOption u key value todo =>
    obtain ⟨hf, hr⟩ := Option.ite_none_right_eq_some.mp hr
    cases hr
    exact saveOption_proceeds hn h hm hf
  | insertVersion u =>
    obtain ⟨t, ht, heq⟩ := Option.map_eq_some_iff.mp hr
    cases heq
    obtain ⟨hsound, _, hv, hst, ho⟩ := insertVersion_sound hn h ht
    refine ⟨hsound, hm.1.same hv fun name => ?_, fun m hmanual => ?_⟩
    · rw [hst]
    · rw [ho]
      exact hm.2 m hmanual
  | lockVersion u =>
    obtain ⟨hf, hr⟩ := Option.ite_none_right_eq_some.mp hr
    split at hr
    · next value hsel =>
      split at hr
      · next hvalue =>
        subst hvalue
        cases hr
        exact lockVersion_proceeds hn h hm hf hsel
      · exact rollback_proceeds hn hr
    · exact rollback_proceeds hn hr
  | bumpInsert u =>
    obtain ⟨t, ht, heq⟩ := Option.map_eq_some_iff.mp hr
    cases heq
    obtain ⟨hsound, hown, hv, hst, ho⟩ := insertVersion_sound hn h ht
    refine ⟨hsound, hm.1.same hv fun name => ?_, fun m hmanual => ?_, hm.2.2.same hv hown⟩
    · rw [hst]
    · rw [ho]
      exact hm.2.1 m hmanual
  | bumpLock u =>
    obtain ⟨hf, hr⟩ := Option.ite_none_right_eq_some.mp hr
    split at hr
    · next value hsel =>
      cases hr
      exact bumpLock_proceeds hn h hm hf hsel
    · exact rollback_proceeds hn hr
  | bumpSave u currentVersion =>
    obtain ⟨hf, hr⟩ := Option.ite_none_right_eq_some.mp hr
    cases hr
    exact bumpSave_proceeds hn h hm hf
  | markManual u name todo =>
    obtain ⟨hf, hr⟩ := Option.ite_none_right_eq_some.mp hr
    cases hr
    exact markManual_proceeds hn h hm hf isManual_manualState
  | upsertState u state todo =>
    obtain ⟨hf, hr⟩ := Option.ite_none_right_eq_some.mp hr
    cases hr
    exact upsertState_proceeds hn h hm hf
  | readApplied u =>
    simp only [updateStatement] at hr
    split at hr
    · cases hr
      exact quiet_proceeds hn h trivial rfl rfl rfl
    · split at hr
      · cases hr
        exact quiet_proceeds hn h hm rfl rfl rfl
      · exact rollback_proceeds hn hr
  | lockNamed u =>
    obtain ⟨hf, hr⟩ := Option.ite_none_right_eq_some.mp hr
    cases hr
    refine ⟨?_, memory_sourceNext hm⟩
    rw [update_sourceNext]
    exact lockStates_sound hn h hf
  | readSource u current id todo =>
    simp only [updateStatement] at hr
    split at hr
    · split at hr
      · cases hr
        refine quiet_proceeds hn ?_ (memory_sourceNext hm) rfl rfl rfl
        rw [update_sourceNext]
        exact h
      · exact rollback_proceeds hn hr
    · exact rollback_proceeds hn hr
  | upsertPreference u current preference todo =>
    simp only [updateStatement] at hr
    split at hr
    · exact rollback_proceeds hn hr
    rename_i state hstate
    split at hr
    · next hf =>
      cases hr
      exact upsertPreference_proceeds hn h hm hstate hf
    · cases hr
  | readSources u =>
    simp only [updateStatement] at hr
    split at hr
    · cases hr
      refine quiet_proceeds hn (h.mono ?_ ?_) hm rfl rfl rfl
      · rintro key name ⟨y, hy, htouch⟩
        cases hy
        exact ⟨_, rfl, htouch⟩
      · rintro name state ⟨y, hy, hrewrite⟩
        cases hy
        exact ⟨_, rfl, hrewrite⟩
    · exact rollback_proceeds hn hr
  | readChannels u =>
    simp only [updateStatement] at hr
    split at hr
    · cases hr
      exact quiet_proceeds hn h hm rfl rfl rfl
    · exact rollback_proceeds hn hr
  | lockStates u =>
    obtain ⟨hf, hr⟩ := Option.ite_none_right_eq_some.mp hr
    split at hr
    · next hsame =>
      cases hr
      exact lockStates_proceeds hn h hm hf hsame
    · exact rollback_proceeds hn hr
  | deleteSources u | createSources u | deleteQuotes u =>
    obtain ⟨-, hr⟩ := Option.ite_none_right_eq_some.mp hr
    cases hr
    exact quiet_proceeds hn h hm rfl rfl rfl
  | deleteStates u =>
    obtain ⟨hf, hr⟩ := Option.ite_none_right_eq_some.mp hr
    cases hr
    obtain ⟨hbump, hown, hnot⟩ := hm
    refine ⟨writeStates_sound hn h hf fun name hname => ?_, hown, fun name hname => ?_⟩
    · exact .inr ⟨⟨_, rfl, hname, rfl⟩, hbump⟩
    · rw [find_writeStates]
      exact hnot name hname
  | commit u => exact absurd rfl (hnot u)
  | finished result => cases hr

theorem updateStatement_sync {channels : List ℤ} {x : SyncUpdate F}
    (hr : updateStatement fl channels i s pc = some (s', pc'))
    (hx : pc'.update = some (.sync x)) : pc.update = some (.sync x) := by
  have hrollback : rollback i s ≠ some (s', pc') := by
    intro hr
    cases hr
    cases hx
  cases pc with
  | readExisting u | commit u =>
    cases hr
    cases hx
  | readOwned u =>
    cases hr
    rw [update_beginUpdate] at hx
    cases hx
  | insertOption u key todo values | insertVersion u | bumpInsert u =>
    obtain ⟨t, -, heq⟩ := Option.map_eq_some_iff.mp hr
    cases heq
    exact hx
  | lockOption u key todo values =>
    obtain ⟨-, hr⟩ := Option.ite_none_right_eq_some.mp hr
    split at hr
    · cases hr
      rw [update_lockNext] at hx
      cases u with
      | manual m => cases hx
      | sync y | preferences y | configuration y => exact hx
    · exact absurd hr hrollback
  | saveOption u key value todo =>
    obtain ⟨-, hr⟩ := Option.ite_none_right_eq_some.mp hr
    cases hr
    rwa [update_saveNext] at hx
  | lockVersion u =>
    obtain ⟨-, hr⟩ := Option.ite_none_right_eq_some.mp hr
    split at hr
    · split at hr
      · cases hr
        rwa [update_afterGuard] at hx
      · exact absurd hr hrollback
    · exact absurd hr hrollback
  | bumpLock u =>
    obtain ⟨-, hr⟩ := Option.ite_none_right_eq_some.mp hr
    split at hr
    · cases hr
      exact hx
    · exact absurd hr hrollback
  | bumpSave u currentVersion =>
    obtain ⟨-, hr⟩ := Option.ite_none_right_eq_some.mp hr
    cases hr
    rwa [update_afterBump] at hx
  | markManual u name todo =>
    obtain ⟨-, hr⟩ := Option.ite_none_right_eq_some.mp hr
    cases hr
    rwa [update_markNext] at hx
  | upsertState u state todo =>
    obtain ⟨-, hr⟩ := Option.ite_none_right_eq_some.mp hr
    cases hr
    rwa [update_upsertNext] at hx
  | readApplied u =>
    simp only [updateStatement] at hr
    split at hr
    · cases hr
      cases hx
    · split at hr
      · cases hr
        cases hx
      · exact absurd hr hrollback
  | lockNamed u =>
    obtain ⟨-, hr⟩ := Option.ite_none_right_eq_some.mp hr
    cases hr
    rwa [update_sourceNext] at hx
  | readSource u current id todo =>
    simp only [updateStatement] at hr
    split at hr
    · split at hr
      · cases hr
        rwa [update_sourceNext] at hx
      · exact absurd hr hrollback
    · exact absurd hr hrollback
  | upsertPreference u current preference todo =>
    simp only [updateStatement] at hr
    split at hr
    · exact absurd hr hrollback
    · obtain ⟨-, hr⟩ := Option.ite_none_right_eq_some.mp hr
      cases hr
      rwa [update_preferenceNext] at hx
  | readSources u | readChannels u =>
    simp only [updateStatement] at hr
    split at hr
    · cases hr
      cases hx
    · exact absurd hr hrollback
  | lockStates u =>
    obtain ⟨-, hr⟩ := Option.ite_none_right_eq_some.mp hr
    split at hr
    · cases hr
      cases hx
    · exact absurd hr hrollback
  | deleteSources u | createSources u | deleteQuotes u | deleteStates u =>
    obtain ⟨-, hr⟩ := Option.ite_none_right_eq_some.mp hr
    cases hr
    cases hx
  | finished result => cases hr

end Own

end NewApi.Model.PricingSync
