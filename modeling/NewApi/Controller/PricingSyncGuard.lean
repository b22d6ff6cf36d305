import NewApi.Controller.PricingSyncTask
import NewApi.Model.PricingSyncCalls

/-!
# A scheduled pass leaves manual models alone

A pass commits only while the version is the one that it started from.
-/

namespace NewApi.Controller.PricingSync

open Model.PricingSync Transition

variable {F : Type}

/-! ### What a pass relies on while it reads -/

def Fresh (s : Store F) (v : ℤ) (preferences : Preferences) : Prop :=
  ∀ name, s.version.committed = some v → IsManual (s.states.find name) →
    IsManual (preferences.get name)

/-- The version that a pass has read has the property. -/
def TaskPc.Holds (P : ℤ → Prop) : TaskPc F → Prop
  | .insertVersion _ => True
  | .readVersion _ => True
  | .readSources _ version => P version
  | .readChannels _ version _ => P version
  | .lockVersion p _ _ _ => P p.configVersion
  | .lockSource p _ _ _ => P p.configVersion
  | .readQuotes p _ _ _ _ => P p.configVersion
  | .saveQuote p _ _ _ _ _ => P p.configVersion
  | .updateSource p _ _ _ => P p.configVersion
  | .commitSource p _ _ _ => P p.configVersion
  | .readStale p => P p.configVersion
  | .markStale p _ => P p.configVersion
  | .readConfirmed p _ _ _ => P p.configVersion
  | .readPreferences p _ => P p.configVersion
  | .readMissing p _ _ => P p.configVersion

def TaskMemory (s : Store F) : TaskPc F → Prop
  | .readMissing p _ preferences =>
    StartedFrom s p.configVersion ∧ Fresh s p.configVersion preferences
  | pc => pc.Holds (StartedFrom s)

def PcMemory (i : ℕ) (s : Store F) : Pc F → Prop
  | .task pc => TaskMemory s pc
  | .update pc => Memory i s pc

def Pc.open : Pc F → Option (Update F)
  | .task _ => none
  | .update pc => pc.update

def CallInv (i : ℕ) (s : Store F) (pc : Pc F) : Prop := Holding i s pc.open ∧ PcMemory i s pc

def Pc.Holds (P : ℤ → Prop) : Pc F → Prop
  | .task pc => pc.Holds P
  | .update pc => ∀ x, pc.update = some (.sync x) → P x.expectedVersion

/-- Where a pass that has read such a version goes while it proposes nothing. -/
def Reading (P : ℤ → Prop) : Pc F → Prop
  | .task (.readMissing _ _ _) => False
  | .task pc => pc.Holds P
  | .update pc => pc = .finished none

variable {i j : ℕ} {s s' : Store F} {pc : Pc F} {env : Env F}

theorem TaskMemory.kept {pc : TaskPc F} (h : TaskMemory s pc) (ha : Advances j s s') :
    TaskMemory s' pc := by
  cases pc with
  | insertVersion _ | readVersion _ => trivial
  | readMissing p upstreams preferences =>
    obtain ⟨hstart, hfresh⟩ := h
    refine ⟨hstart.kept ha, fun name hv hm => ?_⟩
    obtain ⟨hv', hm'⟩ := manual_kept hstart ha hv hm
    exact hfresh name hv' hm'
  | _ => exact StartedFrom.kept h ha

theorem CallInv.kept (h : CallInv j s pc) (ha : Advances j s s') : CallInv j s' pc := by
  refine ⟨h.1.kept ha, ?_⟩
  cases pc with
  | task pc => exact TaskMemory.kept h.2 ha
  | update pc => exact Memory.kept h.2 ha

variable {pc' : Pc F} {p : Pass} {a : Action F} {u : Update F} {P : ℤ → Prop}

theorem Reading.open_eq_none (h : Reading P pc) : pc.open = none := by
  cases pc with
  | task pc => rfl
  | update pc =>
    cases h
    rfl

theorem Reading.memory (h : Reading (StartedFrom s) pc) : PcMemory i s pc := by
  cases pc with
  | task pc => cases pc <;> first | exact h | exact absurd h id
  | update pc =>
    cases h
    trivial

theorem Reading.holds (h : Reading P pc) : pc.Holds P := by
  cases pc with
  | task pc => cases pc <;> first | exact h | exact absurd h id
  | update pc =>
    cases h
    intro x hx
    cases hx

theorem reading_returned : Reading P (returned : Pc F) := rfl

section

variable (h : P p.configVersion)
include h

theorem reading_confirmedNext {upstreams : List (ℤ × SyncData F)} (sources : List Source) :
    Reading P (confirmedNext p upstreams sources : Pc F) := by
  induction sources with
  | nil => exact h
  | cons source rest ih =>
    unfold confirmedNext
    split
    · exact ih
    · exact h

theorem reading_afterStale : Reading P (afterStale p : Pc F) := by
  unfold afterStale
  split
  · exact reading_returned
  · exact reading_confirmedNext h _

theorem reading_sourceNext (sources : List Source) : Reading P (sourceNext p sources : Pc F) := by
  -- the variables of the pass change along the list, the version does not
  induction sources generalizing p with
  | nil =>
    simp only [sourceNext, afterSources]
    split
    · exact reading_afterStale h
    · exact h
  | cons source rest ih =>
    simp only [sourceNext]
    split
    · exact ih h
    split
    · exact ih h
    · split
      · exact ih h
      · exact h

theorem reading_afterCommit (answer : Fetch F) (source : Source) (rest : List Source)
    (w : SourceWrite F) : Reading P (afterCommit answer p source rest w : Pc F) := by
  cases w with
  | attempt =>
    cases answer with
    | failed message | fetched data unsupported => exact h
  | error message => exact reading_sourceNext h rest
  | confirm data unsupported => exact reading_sourceNext (p := { p with
      staleSources := p.staleSources.filter fun id => decide (id ≠ source.channelID) }) h rest

theorem reading_saveNext {source : Source} {rest : List Source} {w : SourceWrite F}
    {todo : List (Quote F)} : Reading P (.task (saveNext p source rest w todo) : Pc F) := by
  cases todo with
  | nil | cons quote todo => exact h

end

/-! ### The statements of a pass -/

theorem advances_trans {t : Store F} (h : Advances j s t) (h' : Advances j t s') :
    Advances j s s' := by
  refine ⟨h.version.trans h'.version, fun key => (h.options key).trans (h'.options key),
    fun name => (h.states name).trans (h'.states name), fun c hc => ?_, fun name hm => ?_⟩
  · obtain ⟨c', hc', hle⟩ := h.grows c hc
    obtain ⟨c'', hc'', hle'⟩ := h'.grows c' hc'
    exact ⟨c'', hc'', le_trans hle hle'⟩
  · rcases h'.manual name hm with hmid | ⟨hnone, hgrows⟩
    · rcases h.manual name hmid with hfirst | ⟨hnone, hgrows⟩
      · exact .inl hfirst
      · refine .inr ⟨hnone, fun c hc => ?_⟩
        obtain ⟨c', hc', hlt⟩ := hgrows c hc
        obtain ⟨c'', hc'', hle⟩ := h'.grows c' hc'
        exact ⟨c'', hc'', lt_of_lt_of_le hlt hle⟩
    · refine .inr ⟨h.version.own.symm.trans hnone, fun c hc => ?_⟩
      obtain ⟨c', hc', hle⟩ := h.grows c hc
      obtain ⟨c'', hc'', hlt⟩ := hgrows c' hc'
      exact ⟨c'', hc'', lt_of_le_of_lt hle hlt⟩

theorem not_mayRewrite_none {name : Text} {state : Option ModelState} :
    ¬ MayRewrite (none : Option (Update F)) name state := by
  rintro ⟨x, hx, _⟩
  cases hx

theorem select_state (h : Holding i s none) (name : Text) :
    (s.states.row name).select i = (s.states.row name).committed := by
  rcases hown : (s.states.row name).own i with _ | state
  · exact Row.select_of_none hown
  · rw [Row.select_of_own hown]
    rcases h.states name state hown with heq | ⟨hmay, _⟩
    · exact heq
    · exact absurd hmay not_mayRewrite_none

theorem commitVersion_sound (hn : NonNegative s) (h : Holding i s none) :
    Silent i s { s with version := s.version.commit i } none := by
  have hcommit : ∀ c, s.version.committed = some c →
      ∃ c', (s.version.commit i).committed = some c' ∧ c ≤ c' := by
    intro c hc
    rw [Row.commit_committed]
    rcases hown : s.version.own i with _ | r
    · exact ⟨c, hc, le_refl c⟩
    · obtain ⟨n, rfl, _, hle⟩ := h.version r hown
      exact ⟨n, rfl, hle c hc⟩
  refine ⟨⟨fun c hc => ?_, ⟨fun r hr => ?_, h.options, fun name state hstate => ?_⟩,
    fun j hne => ⟨Row.keptFor_commit hne, fun _ => .rfl, fun _ => .rfl, hcommit,
      fun name hm => .inl hm⟩⟩, fun _ => rfl, fun _ hm => hm⟩
  · simp only [Row.commit_committed] at hc
    rcases hown : s.version.own i with _ | r
    · rw [hown] at hc
      exact hn c hc
    · obtain ⟨n, rfl, h0, _⟩ := h.version r hown
      rw [hown] at hc
      cases hc
      exact h0
  · simp only [Row.own_commit_self] at hr
    cases hr
  · rcases h.states name state hstate with heq | ⟨hmay, _⟩
    · exact .inl heq
    · exact absurd hmay not_mayRewrite_none

theorem isManual_stale {state : Option ModelState} :
    IsManual (state.map fun state => { state with status := .stale }) ↔ IsManual state := by
  cases state <;> exact Iff.rfl

theorem markStale_sound {names : List Text} (hn : NonNegative s) (h : Holding i s none)
    (hf : s.states.freeEach i names = true) :
    Silent i s { s with states := (s.states.writeEach i names
      (Option.map fun state => { state with status := .stale })).commit i } none := by
  have hmode : ∀ name, IsManual (((s.states.writeEach i names
      (Option.map fun state => { state with status := .stale })).commit i).find name) ↔
        IsManual (s.states.find name) := by
    intro name
    simp only [RowTable.find, RowTable.commit, Row.commit_committed]
    by_cases hname : name ∈ names
    · rw [RowTable.row_writeEach_mem hname, Row.own_write_self, Option.getD_some,
        isManual_stale, select_state h]
    · rw [RowTable.row_writeEach_notMem hname]
      have hselect := select_state h name
      rw [Row.select] at hselect
      rw [hselect]
  refine ⟨⟨hn, ⟨h.version, h.options, fun name state hstate => ?_⟩,
    fun j hne => ⟨.rfl, fun _ => .rfl, fun name => ?_, fun c hc => ⟨c, hc, le_refl c⟩,
      fun name hm => .inl ((hmode name).mp hm)⟩⟩, fun _ => rfl, fun name => (hmode name).mpr⟩
  · simp only [RowTable.commit, Row.own_commit_self] at hstate
    cases hstate
  · exact (RowTable.keptFor_writeEach hf hne name).trans (Row.keptFor_commit hne)

def CallProceeds (i : ℕ) (s s' : Store F) (pc' : Pc F) : Prop :=
  Silent i s s' pc'.open ∧ PcMemory i s' pc'

theorem Reading.proceeds (h : Reading (StartedFrom s') pc') (hs : Silent i s s' none) :
    CallProceeds i s s' pc' := by
  refine ⟨?_, h.memory⟩
  rw [h.open_eq_none]
  exact hs

theorem StartedFrom.same {v : ℤ} (h : StartedFrom s v)
    (hv : s'.version.committed = s.version.committed) : StartedFrom s' v := by
  obtain ⟨h0, c, hc, hle⟩ := h
  exact ⟨h0, c, hv.trans hc, hle⟩

theorem Holding.open_update (h : Holding i s none) : Holding i s (some u) := by
  refine h.mono ?_ ?_
  · rintro key name ⟨x, hx, _⟩
    cases hx
  · rintro name state ⟨x, hx, _⟩
    cases hx

theorem propose_proceeds {upstreams : List (ℤ × SyncData F)} {preferences : Preferences}
    {strategy : Strategy} {localPricing : SyncData F} {quotes : List (Quote F)} (hn : NonNegative s)
    (h : Holding i s none) (hstart : StartedFrom s p.configVersion)
    (hfresh : Fresh s p.configVersion preferences) :
    CallProceeds i s s (((proposal env strategy localPricing upstreams quotes p.staleSources
      preferences p.now).map (propose env p upstreams)).getD returned) := by
  have hquiet : ∀ u : Option (Update F), Holding i s u → Silent i s s u :=
    fun u hu => quiet_sound hn hu rfl rfl rfl
  rcases hproposed : proposal env strategy localPricing upstreams quotes p.staleSources
    preferences p.now with _ | proposed
  · exact Reading.proceeds reading_returned (hquiet none h)
  simp only [Option.map_some, Option.getD_some, propose]
  split
  · exact Reading.proceeds reading_returned (hquiet none h)
  split
  · exact Reading.proceeds reading_returned (hquiet none h)
  refine ⟨?_, ?_⟩
  · simp only [Pc.open, update_beginUpdate]
    exact hquiet _ (Holding.open_update h)
  · refine memory_beginUpdate ⟨hstart, fun name hname hv hm => ?_⟩
    exact proposal_not_manual hproposed hname (hfresh name hv hm)

def Commits : Pc F → Prop
  | .task (.commitSource _ _ _ _) => True
  | .update (.commit _) => True
  | _ => False

theorem taskStatement_proceeds {input : Input F} {pc : TaskPc F} (hn : NonNegative s)
    (h : Holding i s none) (hm : TaskMemory s pc) (hnot : ¬ Commits (.task pc))
    (hr : taskStatement env input i s pc = some (s', pc')) : CallProceeds i s s' pc' := by
  have hquiet : ∀ t : Store F, t.options = s.options → t.version = s.version →
      t.states = s.states → Silent i s t (none : Option (Update F)) :=
    fun t ho hv hs => quiet_sound hn h ho hv hs
  have habort : CallProceeds i s (s.abort i) (returned : Pc F) :=
    Reading.proceeds reading_returned (abort_sound hn)
  cases pc with
  | insertVersion hash =>
    obtain ⟨t, ht, heq⟩ := Option.map_eq_some_iff.mp hr
    cases heq
    obtain ⟨hfirst, _⟩ := insertVersion_sound hn h ht
    have hsecond := commitVersion_sound hfirst.nonNegative hfirst.holding
    refine ⟨⟨⟨hsecond.nonNegative, hsecond.holding, fun j hne =>
      advances_trans (hfirst.advances j hne) (hsecond.advances j hne)⟩, fun key => ?_,
      fun name hm => hsecond.stays name (hfirst.stays name hm)⟩, trivial⟩
    exact (hsecond.options key).trans (hfirst.options key)
  | readVersion hash =>
    simp only [taskStatement] at hr
    split at hr
    · next version hversion =>
      cases hr
      exact ⟨hquiet s rfl rfl rfl, hn version hversion, version, hversion, le_refl version⟩
    · cases hr
      exact Reading.proceeds reading_returned (hquiet s rfl rfl rfl)
  | readSources hash version =>
    cases hr
    exact ⟨hquiet s rfl rfl rfl, hm⟩
  | readChannels hash version syncSources =>
    cases hr
    exact Reading.proceeds (reading_sourceNext hm syncSources) (hquiet s rfl rfl rfl)
  | lockVersion p source rest w =>
    obtain ⟨hf, hr⟩ := Option.ite_none_right_eq_some.mp hr
    split at hr
    · next hsel =>
      cases hr
      rw [hsel]
      exact ⟨lockVersion_sound hn h hf hsel, hm⟩
    · cases hr
      exact habort
  | lockSource p source rest w =>
    obtain ⟨-, hr⟩ := Option.ite_none_right_eq_some.mp hr
    split at hr
    · cases hr
      exact habort
    · split at hr
      · cases hr
        cases w with
        | attempt | error message | confirm data unsupported => exact ⟨hquiet _ rfl rfl rfl, hm⟩
      · cases hr
        exact habort
  | readQuotes p source rest data unsupported =>
    cases hr
    exact Reading.proceeds (reading_saveNext hm) (hquiet s rfl rfl rfl)
  | saveQuote p source rest w quote todo =>
    obtain ⟨-, hr⟩ := Option.ite_none_right_eq_some.mp hr
    cases hr
    refine Reading.proceeds (reading_saveNext ?_) (hquiet _ rfl rfl rfl)
    exact StartedFrom.same hm rfl
  | updateSource p source rest w =>
    simp only [taskStatement] at hr
    split at hr
    · cases hr
      exact ⟨hquiet _ rfl rfl rfl, hm⟩
    · cases hr
  | commitSource p source rest w => exact absurd trivial hnot
  | readStale p =>
    simp only [taskStatement] at hr
    split at hr
    · cases hr
      exact Reading.proceeds (reading_afterStale hm) (hquiet s rfl rfl rfl)
    · cases hr
      exact ⟨hquiet s rfl rfl rfl, hm⟩
  | markStale p names =>
    obtain ⟨hf, hr⟩ := Option.ite_none_right_eq_some.mp hr
    cases hr
    refine Reading.proceeds (reading_afterStale ?_) (markStale_sound hn h hf)
    exact StartedFrom.same hm rfl
  | readConfirmed p source rest upstreams =>
    simp only [taskStatement] at hr
    split at hr
    · cases hr
      exact Reading.proceeds reading_returned (hquiet s rfl rfl rfl)
    · split at hr
      all_goals
        cases hr
        exact Reading.proceeds (reading_confirmedNext hm rest) (hquiet s rfl rfl rfl)
  | readPreferences p upstreams =>
    cases hr
    exact ⟨hquiet s rfl rfl rfl, hm, fun _ _ hmanual => hmanual⟩
  | readMissing p upstreams preferences =>
    cases hr
    exact propose_proceeds hn h hm.1 hm.2

theorem step_proceeds (hn : NonNegative s) (h : CallInv i s pc) (hnot : ¬ Commits pc)
    (hr : step env i s pc a = some (s', pc')) : CallProceeds i s s' pc' := by
  have hfail : CallProceeds i s (s.abort i) (returned : Pc F) :=
    Reading.proceeds reading_returned (abort_sound hn)
  cases pc with
  | task pc =>
    cases a with
    | run input => exact taskStatement_proceeds hn h.1 h.2 hnot hr
    | fail =>
      cases hr
      exact hfail
  | update pc =>
    cases a with
    | run input =>
      have hmap : (updateStatement env.floats input.channels i s pc).map
          (fun r => (r.1, Pc.update r.2)) = some (s', pc') := by
        cases pc <;> exact hr
      obtain ⟨⟨t, next⟩, hstatement, heq⟩ := Option.map_eq_some_iff.mp hmap
      cases heq
      refine updateStatement_proceeds hn h.1 h.2 ?_ hstatement
      rintro u rfl
      exact hnot trivial
    | fail =>
      cases pc with
      | finished result => cases hr
      | _ =>
        cases hr
        exact hfail

theorem step_commits (hn : NonNegative s) (h : CallInv i s pc) (hcommits : Commits pc)
    (hr : step env i s pc a = some (s', pc')) : a = .fail ∧ CallProceeds i s s' pc' ∨
      a ≠ .fail ∧ s' = s.commit i ∧ Sound i s s' pc'.open ∧ PcMemory i s' pc' := by
  cases pc with
  | task pc =>
    cases pc with
    | commitSource p source rest w =>
      cases a with
      | run input =>
        cases hr
        have hsound := commit_sound hn h.1
        -- the version grows for this call as it does for any other one
        have hstart := StartedFrom.kept h.2 (hsound.advances (i + 1) (Nat.succ_ne_self i))
        have hreading := reading_afterCommit (P := StartedFrom (s.commit i)) hstart input.answer
          source rest w
        refine .inr ⟨fun hfail => (by cases hfail), rfl, ?_, hreading.memory⟩
        rw [hreading.open_eq_none]
        exact hsound
      | fail =>
        cases hr
        exact .inl ⟨rfl, Reading.proceeds reading_returned (abort_sound hn)⟩
    | _ => exact absurd hcommits id
  | update pc =>
    cases pc with
    | commit u =>
      cases a with
      | run input =>
        cases hr
        exact .inr ⟨fun hfail => (by cases hfail), rfl, commit_sound hn h.1, trivial⟩
      | fail =>
        cases hr
        exact .inl ⟨rfl, Reading.proceeds reading_returned (abort_sound hn)⟩
    | _ => exact absurd hcommits id

/-! ### Runs -/

structure Started (s : State F) : Prop where
  calls : ∀ i, Call (s.point i)
  options : ∀ key, (s.store.options key).pending = none
  version : s.store.version.pending = none
  states : ∀ name, (s.store.states.row name).pending = none
  nonNegative : NonNegative s.store

theorem call_reading {pc : Pc F} (h : Call pc) :
    PcMemory i s pc := by
  cases h with
  | scheduled hash | configuration u => trivial
  | manual key value => exact memory_beginUpdate (u := .manual ⟨key, value, []⟩) trivial
  | preferences u => exact memory_beginUpdate (u := .preferences u) trivial

theorem Started.interleaved {s : State F} (h : Started s) :
    Interleaved NonNegative CallInv s := by
  refine ⟨h.nonNegative, fun i => ⟨⟨fun r hr => ?_, fun key row hrow => ?_,
    fun name state hstate => ?_⟩, call_reading (h.calls i)⟩⟩
  · rw [Row.own_of_pending h.version] at hr
    cases hr
  · rw [Row.own_of_pending (h.options key)] at hrow
    cases hrow
  · rw [Row.own_of_pending (h.states name)] at hstate
    cases hstate

theorem step_keepsAll (hn : NonNegative s) (h : CallInv i s pc)
    (hr : step env i s pc a = some (s', pc')) : KeepsAll NonNegative CallInv i s s' pc' := by
  have hboth : Sound i s s' pc'.open ∧ PcMemory i s' pc' := by
    by_cases hcommits : Commits pc
    · rcases step_commits hn h hcommits hr with ⟨_, hsilent, hmem⟩ | ⟨_, _, hsound, hmem⟩
      · exact ⟨hsilent.toSound, hmem⟩
      · exact ⟨hsound, hmem⟩
    · obtain ⟨hsilent, hmem⟩ := step_proceeds hn h hcommits hr
      exact ⟨hsilent.toSound, hmem⟩
  obtain ⟨hsound, hmem⟩ := hboth
  exact ⟨hsound.nonNegative, ⟨hsound.holding, hmem⟩,
    fun j q hne hq => hq.kept (hsound.advances j hne)⟩

theorem Reach.callInv {ok : State F → ℕ × Action F → Prop} {s t : State F}
    (h0 : Interleaved NonNegative CallInv s) (h : Reach (interleave (step env)) ok s t) :
    Interleaved NonNegative CallInv t := by
  refine h.interleaved_at h0 fun t i _ _ _ hI _ hr => ?_
  obtain ⟨hn, hi, hothers⟩ := step_keepsAll hI.store (hI.procs i) hr
  exact ⟨hn, hi, fun j hj => hothers j _ hj (hI.procs j)⟩

theorem sync_commit {x : SyncUpdate F} (h : CallInv i s (.update (.commit (.sync x)))) :
    s.version.committed = some x.expectedVersion ∧
      ∀ name, IsManual (s.states.find name) → ¬ x.Concerns name := by
  obtain ⟨_, ⟨_, hspare⟩, hv, _⟩ := h
  exact ⟨hv, fun name hm hname => hspare name hname hv hm⟩

/-! ### What the version tells -/

/-- The version does not go back, and while it stays no model becomes manual. -/
def Since (s s' : Store F) : Prop :=
  ∀ c, s.version.committed = some c → ∃ c', s'.version.committed = some c' ∧ c ≤ c' ∧
    (c = c' → ∀ name, IsManual (s'.states.find name) → IsManual (s.states.find name))

theorem step_since (hn : NonNegative s) (h : CallInv i s pc)
    (hr : step env i s pc a = some (s', pc')) : Since s s' := by
  have hsound : Sound i s s' pc'.open := by
    by_cases hcommits : Commits pc
    · rcases step_commits hn h hcommits hr with ⟨_, hsilent, _⟩ | ⟨_, _, hsound, _⟩
      · exact hsilent.toSound
      · exact hsound
    · exact (step_proceeds hn h hcommits hr).1.toSound
  intro c hc
  have hadvances := hsound.advances (i + 1) (Nat.succ_ne_self i)
  obtain ⟨c', hc', hle⟩ := hadvances.grows c hc
  refine ⟨c', hc', hle, fun hsame name hm => ?_⟩
  rcases hadvances.manual name hm with hbefore | ⟨_, hmoved⟩
  · exact hbefore
  · obtain ⟨d, hd, hlt⟩ := hmoved c hc
    rw [hc'] at hd
    cases hd
    omega

theorem Reach.since {t u : State F} (ht : Interleaved NonNegative CallInv t)
    (hu : Reach (interleave (step env)) Any t u) : Since t.store u.store := by
  suffices hboth : Interleaved NonNegative CallInv u ∧ Since t.store u.store from hboth.2
  refine hu.invariant (I := fun u => Interleaved NonNegative CallInv u ∧ Since t.store u.store)
    ⟨ht, fun c hc => ⟨c, hc, le_refl c, fun _ _ hm => hm⟩⟩ ?_
  rintro u ⟨i, a⟩ w ⟨hI, hsince⟩ _ hn
  refine ⟨Reach.callInv hI (.step (i, a) .refl trivial hn : Reach _ Any _ _), fun c hc => ?_⟩
  obtain ⟨⟨store, pc⟩, hs, rfl⟩ := Option.map_eq_some_iff.mp hn
  obtain ⟨d, hd, hcd, hsame⟩ := hsince c hc
  obtain ⟨e, he, hde, hsame'⟩ := step_since hI.store (hI.procs i) hs d hd
  refine ⟨e, he, hcd.trans hde, fun hce name hm => hsame (by omega) name (hsame' (by omega) name hm)⟩

theorem Reach.version_between {t u w : State F} {v : ℤ} (ht : Interleaved NonNegative CallInv t)
    (htw : Reach (interleave (step env)) Any t w) (hwu : Reach (interleave (step env)) Any w u)
    (hv : t.store.version.committed = some v) (hv' : u.store.version.committed = some v) :
    w.store.version.committed = some v := by
  obtain ⟨c, hc, hle, -⟩ := Reach.since ht htw v hv
  obtain ⟨d, hd, hcd, -⟩ := Reach.since (Reach.callInv ht htw) hwu c hc
  rw [hv'] at hd
  cases hd
  rw [hc, le_antisymm hcd hle]

/-! ### The version that a pass has read -/

theorem propose_holds {upstreams : List (ℤ × SyncData F)} (h : P p.configVersion)
    (proposed : Option (Proposal F)) :
    ((proposed.map (propose env p upstreams)).getD returned).Holds P := by
  have hreturned : (returned : Pc F).Holds P := Reading.holds reading_returned
  rcases proposed with _ | proposed
  · exact hreturned
  simp only [Option.map_some, Option.getD_some, propose]
  split
  · exact hreturned
  split
  · exact hreturned
  · intro x hx
    rw [update_beginUpdate] at hx
    cases hx
    exact h

theorem taskStatement_holds {input : Input F} {pc : TaskPc F} (h : pc.Holds P)
    (hread : ∀ hash v, pc = .readVersion hash → s.version.committed = some v → P v)
    (hr : taskStatement env input i s pc = some (s', pc')) : pc'.Holds P := by
  have hreturned : (returned : Pc F).Holds P := Reading.holds reading_returned
  cases pc with
  | insertVersion hash =>
    obtain ⟨t, -, heq⟩ := Option.map_eq_some_iff.mp hr
    cases heq
    trivial
  | readVersion hash =>
    simp only [taskStatement] at hr
    split at hr
    · next version hversion =>
      cases hr
      exact hread hash version rfl hversion
    · cases hr
      exact hreturned
  | readSources hash version | readPreferences p upstreams =>
    cases hr
    exact h
  | readChannels hash version syncSources =>
    cases hr
    exact (reading_sourceNext h syncSources).holds
  | lockVersion p source rest w =>
    obtain ⟨-, hr⟩ := Option.ite_none_right_eq_some.mp hr
    split at hr
    · cases hr
      exact h
    · cases hr
      exact hreturned
  | lockSource p source rest w =>
    obtain ⟨-, hr⟩ := Option.ite_none_right_eq_some.mp hr
    split at hr
    · cases hr
      exact hreturned
    · split at hr
      · cases hr
        cases w with
        | attempt | error message | confirm data unsupported => exact h
      · cases hr
        exact hreturned
  | readQuotes p source rest data unsupported =>
    cases hr
    exact (reading_saveNext h).holds
  | saveQuote p source rest w quote todo =>
    obtain ⟨-, hr⟩ := Option.ite_none_right_eq_some.mp hr
    cases hr
    exact (reading_saveNext h).holds
  | updateSource p source rest w =>
    simp only [taskStatement] at hr
    split at hr
    · cases hr
      exact h
    · cases hr
  | commitSource p source rest w =>
    cases hr
    exact (reading_afterCommit h input.answer source rest w).holds
  | readStale p =>
    simp only [taskStatement] at hr
    split at hr
    · cases hr
      exact (reading_afterStale h).holds
    · cases hr
      exact h
  | markStale p names =>
    obtain ⟨-, hr⟩ := Option.ite_none_right_eq_some.mp hr
    cases hr
    exact (reading_afterStale h).holds
  | readConfirmed p source rest upstreams =>
    simp only [taskStatement] at hr
    split at hr
    · cases hr
      exact hreturned
    · split at hr
      all_goals
        cases hr
        exact (reading_confirmedNext h rest).holds
  | readMissing p upstreams preferences =>
    cases hr
    exact propose_holds h _

theorem step_holds (h : pc.Holds P)
    (hread : ∀ hash input v, pc = .task (.readVersion hash) → a = .run input →
      s.version.committed = some v → P v)
    (hr : step env i s pc a = some (s', pc')) : pc'.Holds P := by
  have hreturned : (returned : Pc F).Holds P := Reading.holds reading_returned
  cases a with
  | fail =>
    cases pc with
    | task pc =>
      cases hr
      exact hreturned
    | update pc =>
      cases pc with
      | finished result => cases hr
      | _ =>
        cases hr
        exact hreturned
  | run input =>
    cases pc with
    | task pc =>
      refine taskStatement_holds h (fun hash v hpc hv => ?_) hr
      exact hread hash input v (congrArg Pc.task hpc) rfl hv
    | update pc =>
      have hmap : (updateStatement env.floats input.channels i s pc).map
          (fun r => (r.1, Pc.update r.2)) = some (s', pc') := by
        cases pc <;> exact hr
      obtain ⟨⟨t, next⟩, hstatement, heq⟩ := Option.map_eq_some_iff.mp hmap
      cases heq
      exact fun x hx => h x (updateStatement_sync hstatement hx)

/-- In a run from `s`, call `i` reads the version `v` in state `r`, which brings it to `u`. -/
structure ReadAt (env : Env F) (s : State F) (i : ℕ) (v : ℤ) (r u : State F) : Prop where
  reach : Reach (interleave (step env)) Any s r
  point : ∃ hash, r.point i = .task (.readVersion hash)
  version : r.store.version.committed = some v
  step : ∃ input, interleave (step env) r (i, .run input) = some u

/-- Once the call has read the version, this stays so. -/
def HasRead (env : Env F) (s : State F) (i : ℕ) (t : State F) (v : ℤ) : Prop :=
  ∃ r u, ReadAt env s i v r u ∧ Reach (interleave (step env)) Any u t

theorem Pc.Holds.mono {Q : ℤ → Prop} (h : pc.Holds P) (hpq : ∀ v, P v → Q v) : pc.Holds Q := by
  cases pc with
  | task pc =>
    cases pc with
    | insertVersion hash | readVersion hash => trivial
    | _ => exact hpq _ h
  | update pc => exact fun x hx => hpq _ (h x hx)

theorem call_holds (h : Call pc) : pc.Holds P := by
  cases h with
  | scheduled hash => trivial
  | configuration u =>
    intro x hx
    cases hx
  | manual key value | preferences u =>
    intro x hx
    rw [update_beginUpdate] at hx
    cases hx

theorem Reach.hasRead {s t : State F} (h0 : ∀ i, Call (s.point i))
    (h : Reach (interleave (step env)) Any s t) (i : ℕ) :
    (t.point i).Holds (HasRead env s i t) := by
  induction h with
  | refl => exact call_holds (h0 i)
  | @step t w e hreach _ hn ih =>
    have hkept : (t.point i).Holds (HasRead env s i w) :=
      ih.mono fun v ⟨r, u, hread, hu⟩ => ⟨r, u, hread, .step e hu trivial hn⟩
    obtain ⟨j, a⟩ := e
    obtain ⟨⟨store, pc⟩, hs, rfl⟩ := Option.map_eq_some_iff.mp hn
    by_cases hij : i = j
    · subst hij
      simp only [Function.update_self]
      refine step_holds hkept (fun hash input v hpoint ha hv => ?_) hs
      subst ha
      exact ⟨t, _, ⟨hreach, ⟨hash, hpoint⟩, hv, input, hn⟩, .refl⟩
    · simp only [Function.update_of_ne hij]
      exact hkept

/-! ### A manual edit stays -/

/-- The step does not replace the entry of a model: no manual document that has another one, and
no update that patches it or takes the model out of manual mode. -/
def Respects (key : PricingOption) (name : Text) (value : Option (Value F)) (_ : ℕ)
    (_ : Store F) : Pc F → Action F → Prop
  | .update (.commit (.manual m)), .run _ => m.key = key → m.value.lookup name = value
  | .update (.commit (.preferences u)), .run _ =>
    ¬ u.patches.Touches key name ∧
      ∀ preference ∈ u.preferences, trimSpace preference.modelName = name →
        preference.mode = .manual
  | _, _ => True

structure Edited (key : PricingOption) (name : Text) (value : Option (Value F))
    (s : Store F) : Prop where
  value : entry (s.options key).committed name = value
  manual : IsManual (s.states.find name)

variable {key : PricingOption} {name : Text} {value : Option (Value F)}

section

variable (h : Edited key name value s)
include h

theorem Edited.commit (hh : Holding i s (some u)) (hdoc : ¬ u.Touches key name ∨
      ∃ document, (s.options key).own i = some (some (.object document)) ∧
        document.lookup name = value) (hstate : ∀ state, u.Rewrites name state → IsManual state) :
    Edited key name value (s.commit i) := by
  refine ⟨?_, ?_⟩
  · simp only [Store.commit, Row.commit_committed]
    rcases hdoc with hnot | ⟨document, hown, hlookup⟩
    · rcases hown : (s.options key).own i with _ | row
      · exact h.value
      rw [Option.getD_some, hh.options key row hown name ?_]
      · exact h.value
      · rintro ⟨x, hx, htouch⟩
        cases hx
        exact hnot htouch
    · rw [hown]
      exact hlookup
  · simp only [Store.commit, RowTable.commit, RowTable.find, Row.commit_committed]
    rcases hown : (s.states.row name).own i with _ | state
    · exact h.manual
    rcases hh.states name state hown with heq | ⟨⟨x, hx, hrewrite⟩, _⟩
    · rw [heq]
      exact h.manual
    · cases hx
      exact hstate state hrewrite

theorem Edited.silent {u : Option (Update F)} (hs : Silent i s s' u) :
    Edited key name value s' := by
  refine ⟨?_, hs.stays name h.manual⟩
  rw [hs.options]
  exact h.value

theorem Edited.updateCommit {input : Input F} (hc : CallInv i s (.update (.commit u)))
    (hok : Respects key name value i s (.update (.commit u)) (.run input)) :
    Edited key name value (s.commit i) := by
  have hh : Holding i s (some u) := hc.1
  cases u with
  | manual m =>
    refine h.commit hh ?_ fun state hstate => hstate
    by_cases hkey : m.key = key
    · subst hkey
      exact .inr ⟨m.value, hc.2.1 m rfl, hok rfl⟩
    · exact .inl fun htouch => hkey htouch.symm
  | sync x =>
    have hnot : ¬ x.Concerns name := (sync_commit hc).2 name h.manual
    refine h.commit hh (.inl fun htouch => hnot (.inl ⟨key, htouch⟩)) fun state hstate => ?_
    exact absurd (.inr hstate) hnot
  | preferences x =>
    refine h.commit hh (.inl hok.1) fun state hstate => ?_
    obtain ⟨preference, hmem, hname, hmode⟩ := hstate
    rw [hok.2 preference hmem hname] at hmode
    exact hmode
  | configuration x =>
    have hnot : name ∉ x.owned := fun hname => hc.2.2 name hname h.manual
    refine h.commit hh (.inl ?_) fun state hstate => absurd hstate.1 hnot
    rintro ⟨patch, hpatch, htouch⟩
    simp only [Update.patches] at hpatch
    split at hpatch
    · cases hpatch
    · cases hpatch
      rcases htouch with hset | hdelete
      · exact absurd hset (AList.notMem_empty name)
      · exact hnot hdelete

theorem Edited.sourceCommit (hh : Holding i s none) : Edited key name value (s.commit i) := by
  refine ⟨?_, ?_⟩
  · simp only [Store.commit, Row.commit_committed]
    rcases hown : (s.options key).own i with _ | row
    · exact h.value
    · rw [Option.getD_some, hh.options key row hown name ?_]
      · exact h.value
      · rintro ⟨x, hx, _⟩
        cases hx
  · have hselect := select_state hh name
    simp only [Store.commit, RowTable.commit, RowTable.find, Row.commit_committed]
    rw [Row.select] at hselect
    rw [hselect]
    exact h.manual

theorem Edited.step (hn : NonNegative s) (hc : CallInv i s pc)
    (hok : Respects key name value i s pc a) (hr : PricingSync.step env i s pc a = some (s', pc')) :
    Edited key name value s' := by
  by_cases hcommits : Commits pc
  · rcases step_commits hn hc hcommits hr with ⟨_, hsilent, _⟩ | ⟨hrun, rfl, _⟩
    · exact h.silent hsilent
    cases a with
    | fail => exact absurd rfl hrun
    | run input =>
      cases pc with
      | task pc => exact h.sourceCommit hc.1
      | update pc =>
        cases pc with
        | commit u => exact h.updateCommit hc hok
        | _ => exact absurd hcommits id
  · exact h.silent (step_proceeds hn hc hcommits hr).1

end

theorem edited_of_manual {m : ManualUpdate F} (hc : CallInv i s (.update (.commit (.manual m))))
    (hname : name ∈ m.changed) : Edited m.key name (m.value.lookup name) (s.commit i) := by
  obtain ⟨_, hsaved, hmarked⟩ := hc
  refine ⟨?_, ?_⟩
  · simp only [Store.commit, Row.commit_committed, hsaved m rfl]
    rfl
  · rcases hmarked name hname with hnil | ⟨state, hown, hmanual⟩
    · cases hnil
    · simp only [Store.commit, RowTable.commit, RowTable.find, Row.commit_committed, hown]
      exact hmanual

theorem Edited.reach {t w : State F} (h : Edited key name value t.store)
    (hc : Interleaved NonNegative CallInv t)
    (hreach : Reach (interleave (PricingSync.step env)) (Locally (Respects key name value)) t w) :
    Edited key name value w.store := by
  have hboth : Interleaved NonNegative CallInv w ∧ Edited key name value w.store := by
    refine hreach.invariant (I := fun w => Interleaved NonNegative CallInv w ∧
      Edited key name value w.store) ⟨hc, h⟩ ?_
    rintro t ⟨i, a⟩ u ⟨hinv, hedited⟩ hok hn
    refine ⟨Reach.callInv hinv (.step (i, a) .refl trivial hn : Reach _ Any _ _), ?_⟩
    obtain ⟨⟨store, pc⟩, hs, rfl⟩ := Option.map_eq_some_iff.mp hn
    exact hedited.step hinv.store (hinv.procs i) hok hs
  exact hboth.2

theorem scheduled_sync_guarded (env : Env F) (s t : State F) (h0 : Started s)
    (h : Reach (interleave (step env)) Any s t) (i : ℕ) :
    (∀ x, t.point i = .update (.commit (.sync x)) →
      (∃ r u, ReadAt env s i x.expectedVersion r u ∧ Reach (interleave (step env)) Any u t ∧
        ∀ w, Reach (interleave (step env)) Any u w → Reach (interleave (step env)) Any w t →
          w.store.version.committed = some x.expectedVersion) ∧
      ∀ name, IsManual (t.store.states.find name) → ∀ key, ¬ x.patches.Touches key name) ∧
    ∀ m input u, t.point i = .update (.commit (.manual m)) →
      interleave (step env) t (i, .run input) = some u → ∀ name ∈ m.changed, ∀ w,
        Reach (interleave (step env)) (Locally (Respects m.key name (m.value.lookup name))) u w →
          entry (w.store.options m.key).committed name = m.value.lookup name := by
  have hinv := Reach.callInv h0.interleaved h
  refine ⟨fun x hpoint => ?_, fun m input u hpoint hstep name hname w hw => ?_⟩
  · have hcall := hinv.procs i
    have hheld := Reach.hasRead h0.calls h i
    rw [hpoint] at hcall hheld
    obtain ⟨hv, hnot⟩ := sync_commit hcall
    obtain ⟨r, u, hread, hut⟩ := hheld x rfl
    refine ⟨⟨r, u, hread, hut, fun w huw hwt => ?_⟩,
      fun name hm key htouch => hnot name hm (.inl ⟨key, htouch⟩)⟩
    obtain ⟨input, hstep⟩ := hread.step
    have hrw : Reach (interleave (step env)) Any r w :=
      Reach.trans (.step (i, .run input) .refl trivial hstep) huw
    exact Reach.version_between (Reach.callInv h0.interleaved hread.reach) hrw hwt hread.version hv
  · have hcall := hinv.procs i
    rw [hpoint] at hcall
    have hnext := Reach.callInv hinv (.step (i, .run input) .refl trivial hstep : Reach _ Any _ _)
    have hedited : Edited m.key name (m.value.lookup name) u.store := by
      simp only [interleave, hpoint] at hstep
      cases hstep
      exact edited_of_manual hcall hname
    exact (hedited.reach hnext hw).value

/-! ### Three calls on one option -/

def countFloats : Floats ℕ where
  zero := 0
  ofNat := id
  add := Nat.add
  mul := Nat.mul
  div := Nat.div
  lt := fun a b => decide (a < b)
  isZero := fun a => decide (a = 0)
  nonNegativeFinite := fun _ => true
  nearlyEqual := fun a b => decide (a = b)
  format := fun a => List.replicate a 'x'

def countEnv : Env ℕ where
  floats := countFloats
  marshal := fun _ => []
  sha256Hex := id
  candidateHash := fun _ _ => "h".toList
  smokeTestExpr := fun _ => true

def pricesOf (entries : List (Text × ℕ)) : Object ℕ :=
  entries.foldl (fun object e => object.insert e.1 (.number e.2)) ∅

def quoteB : Quote ℕ :=
  ⟨1, "b".toList, some ((∅ : Contract ℕ).insert .modelPrice (.number 3)), [], 2, 0, 0⟩

def emptyInput : Input ℕ := ⟨110, [1], [1], .failed [], fun _ => ∅, .highest⟩

/-- Call 0 edits model `a`, call 1 is a pass, and call 2 sends a document that has only `c`. -/
def threeCalls : State ℕ where
  store := ⟨fun _ => .stored none, .stored none, .stored [],
    .stored [(1, ⟨1, true, "x".toList, 60, 100, 0, []⟩)], .stored [((1, "b".toList), quoteB)]⟩
  point := fun i =>
    if i = 0 then .update (beginUpdate (.manual ⟨.modelPrice, pricesOf [("a".toList, 5)], []⟩))
    else if i = 1 then .task (.insertVersion "h".toList)
    else .update (beginUpdate (.manual ⟨.modelPrice, pricesOf [("c".toList, 7)], []⟩))

theorem threeCalls_started : Started threeCalls where
  calls := by
    intro i
    simp only [threeCalls]
    split
    · exact .manual _ _
    · split
      · exact .scheduled _
      · exact .manual _ _
  options := fun _ => rfl
  version := rfl
  states := fun _ => rfl
  nonNegative := by
    intro c hc
    cases hc

def statements (i n : ℕ) : List (ℕ × Action ℕ) := List.replicate n (i, .run emptyInput)

instance [DecidableEq F] (key : PricingOption) (name : Text) (value : Option (Value F)) (i : ℕ)
    (s : Store F) (pc : Pc F) (a : Action F) :
    Decidable (Respects key name value i s pc a) := by
  unfold Respects
  split <;> infer_instance

def committing : Pc F → Option (ManualUpdate F)
  | .update (.commit (.manual m)) => some m
  | _ => none

theorem committing_eq_some {pc : Pc F} {m : ManualUpdate F} (h : committing pc = some m) :
    pc = .update (.commit (.manual m)) := by
  unfold committing at h
  split at h
  · cases h
    rfl
  · cases h

def synced : Pc F → Bool
  | .update (.finished (some (.sync _))) => true
  | _ => false

theorem exists_edit_run {ok : State ℕ → ℕ × Action ℕ → Prop} [∀ s e, Decidable (ok s e)]
    {events : List (ℕ × Action ℕ)} {p : ManualUpdate ℕ → State ℕ → Bool}
    (h : ((execute (interleave (step countEnv)) Any (statements 0 7) threeCalls).bind fun t =>
      (committing (t.point 0)).bind fun m =>
        (interleave (step countEnv) t (0, .run emptyInput)).bind fun u =>
          (execute (interleave (step countEnv)) ok events u).map (p m)) = some true) :
    ∃ t m u w, Reach (interleave (step countEnv)) Any threeCalls t ∧
      t.point 0 = .update (.commit (.manual m)) ∧
      interleave (step countEnv) t (0, .run emptyInput) = some u ∧
      Reach (interleave (step countEnv)) ok u w ∧ p m w = true := by
  obtain ⟨t, ht, h⟩ := Option.bind_eq_some_iff.mp h
  obtain ⟨m, hm, h⟩ := Option.bind_eq_some_iff.mp h
  obtain ⟨u, hu, h⟩ := Option.bind_eq_some_iff.mp h
  obtain ⟨w, hw, hp⟩ := exists_reach_of_execute h
  exact ⟨t, m, u, w, reach_of_execute ht, committing_eq_some hm, hu, hw, hp⟩

theorem scheduled_sync_guarded_edit : ∃ w : State ℕ, synced (w.point 1) = true ∧
    entry (w.store.options .modelPrice).committed "a".toList = some (.number 5) := by
  have hrun : ((execute (interleave (step countEnv)) Any (statements 0 7) threeCalls).bind fun t =>
      (committing (t.point 0)).bind fun m =>
        (interleave (step countEnv) t (0, .run emptyInput)).bind fun u =>
          (execute (interleave (step countEnv))
            (Locally (Respects .modelPrice "a".toList (some (.number 5)))) (statements 1 17) u).map
            fun w => decide (m.key = .modelPrice ∧ m.value.lookup "a".toList = some (.number 5) ∧
              "a".toList ∈ m.changed ∧ synced (w.point 1) = true)) = some true := by
    decide +kernel
  obtain ⟨t, m, u, w, ht, hpoint, hu, hw, hp⟩ := exists_edit_run hrun
  obtain ⟨hkey, hvalue, hchanged, hsync⟩ := of_decide_eq_true hp
  obtain ⟨_, hedit⟩ := scheduled_sync_guarded countEnv threeCalls t threeCalls_started ht 0
  rw [← hkey, ← hvalue] at hw
  refine ⟨w, hsync, ?_⟩
  rw [← hkey, ← hvalue]
  exact hedit m emptyInput u hpoint hu _ hchanged w hw

/-- The document of call 2 was made without the edit of call 0 and replaces it. -/
theorem manual_edit_replaced : Started threeCalls ∧
    ∃ t m u w, Reach (interleave (step countEnv)) Any threeCalls t ∧
      t.point 0 = .update (.commit (.manual m)) ∧
      interleave (step countEnv) t (0, .run emptyInput) = some u ∧
      Reach (interleave (step countEnv)) Any u w ∧ synced (w.point 1) = true ∧
      "a".toList ∈ m.changed ∧ m.value.lookup "a".toList = some (.number 5) ∧
      entry (w.store.options m.key).committed "a".toList = none := by
  have hrun : ((execute (interleave (step countEnv)) Any (statements 0 7) threeCalls).bind fun t =>
      (committing (t.point 0)).bind fun m =>
        (interleave (step countEnv) t (0, .run emptyInput)).bind fun u =>
          (execute (interleave (step countEnv)) Any (statements 1 17 ++ statements 2 10) u).map
            fun w => decide (synced (w.point 1) = true ∧ "a".toList ∈ m.changed ∧
              m.value.lookup "a".toList = some (.number 5) ∧
              entry (w.store.options m.key).committed "a".toList = none)) = some true := by
    decide +kernel
  obtain ⟨t, m, u, w, ht, hpoint, hu, hw, hp⟩ := exists_edit_run hrun
  exact ⟨threeCalls_started, t, m, u, w, ht, hpoint, hu, hw, of_decide_eq_true hp⟩

/-- In every run the configuration version only grows, and as long as it is the same no model has
become manual: comparing it at the commit detects every such change. -/
theorem version_detects_manual (env : Env F) (s t u : State F) (h0 : Started s)
    (ht : Reach (interleave (step env)) Any s t) (hu : Reach (interleave (step env)) Any t u)
    (v : ℤ) (hv : t.store.version.committed = some v) :
    ∃ v', u.store.version.committed = some v' ∧ v ≤ v' ∧
      (v = v' → ∀ name, IsManual (u.store.states.find name) → IsManual (t.store.states.find name)) := by
  exact Reach.since (Reach.callInv h0.interleaved ht) hu v hv

theorem version_detects_manual_open : ∃ t u : State ℕ, t.store.version.committed = some 1 ∧
    u.store.version.committed = some 1 ∧
    ∀ name, IsManual (u.store.states.find name) → IsManual (t.store.states.find name) := by
  have hrun : ((execute (interleave (step countEnv)) Any (statements 0 8) threeCalls).bind fun t =>
      (execute (interleave (step countEnv)) Any (statements 2 8) t).map fun u =>
        decide (t.store.version.committed = some 1 ∧ u.store.version.committed = some 1)) =
      some true := by decide +kernel
  obtain ⟨t, u, ht, hu, hp⟩ := exists_reach_of_execute_twice hrun
  obtain ⟨hv, hv'⟩ := of_decide_eq_true hp
  obtain ⟨v, hsome, -, hmanual⟩ :=
    version_detects_manual countEnv threeCalls t u threeCalls_started ht hu 1 hv
  rw [hv'] at hsome
  exact ⟨t, u, hv, hv', hmanual (Option.some.inj hsome)⟩

end NewApi.Controller.PricingSync
