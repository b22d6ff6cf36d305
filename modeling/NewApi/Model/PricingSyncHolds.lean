import NewApi.Model.PricingSyncStatements

/-!
# What a transaction on the pricing options holds

It changes only what its update touches, and no row of a model before it has moved the version.
-/

namespace NewApi.Model.PricingSync

variable {F : Type}

def Update.Touches : Update F → PricingOption → Text → Prop
  | .manual u, key, _ => key = u.key
  | u, key, name => u.patches.Touches key name

def Update.Rewrites : Update F → Text → Option ModelState → Prop
  | .manual _, _, state => IsManual state
  | .sync u, name, _ => ∃ state ∈ u.states, state.modelName = name
  | .preferences u, name, state =>
    ∃ preference ∈ u.preferences, trimSpace preference.modelName = name ∧
      state.map ModelState.mode = some preference.mode
  | .configuration u, name, state => name ∈ u.owned ∧ state = none

def MayTouch (u : Option (Update F)) (key : PricingOption) (name : Text) : Prop :=
  ∃ x, u = some x ∧ x.Touches key name

def MayRewrite (u : Option (Update F)) (name : Text) (state : Option ModelState) : Prop :=
  ∃ x, u = some x ∧ x.Rewrites name state

variable {value : Option (Stored F)} {key : PricingOption} {name : Text} {names : List Text}

theorem Patches.lookup_apply {patches : Patches F} {current : Object F}
    (h : ¬ patches.Touches key name) :
    (patches.apply key current).lookup name = current.lookup name := by
  unfold Patches.apply
  split
  · rfl
  · next patch heq => exact JSONObjectPatch.lookup_apply fun ht => h ⟨patch, heq, ht⟩

theorem lookup_newValue {u : Update F} {current : Object F} (h : ¬ u.Touches key name)
    (hkey : ∀ m, u = .manual m → key = m.key) :
    (u.newValue key current).lookup name = current.lookup name := by
  cases u with
  | manual m => exact absurd (hkey m rfl) h
  | sync u | preferences u | configuration u => exact Patches.lookup_apply h

def Bumped (i : ℕ) (s : Store F) : Prop :=
  ∃ n, s.version.own i = some (some n) ∧ ∀ c, s.version.committed = some c → c < n

structure Holding (i : ℕ) (s : Store F) (u : Option (Update F)) : Prop where
  version : ∀ r, s.version.own i = some r →
    ∃ n, r = some n ∧ 0 ≤ n ∧ ∀ c, s.version.committed = some c → c ≤ n
  options : ∀ key row, (s.options key).own i = some row →
    ∀ name, ¬ MayTouch u key name → entry row name = entry (s.options key).committed name
  states : ∀ name state, (s.states.row name).own i = some state →
    state = (s.states.row name).committed ∨ MayRewrite u name state ∧ Bumped i s

def NonNegative (s : Store F) : Prop := ∀ c, s.version.committed = some c → 0 ≤ c

/-- What a step of another transaction keeps for transaction `j`. A model becomes manual only
when the version moves, and not while `j` holds the version. -/
structure Advances (j : ℕ) (s s' : Store F) : Prop where
  version : s.version.KeptFor j s'.version
  options : ∀ key, (s.options key).KeptFor j (s'.options key)
  states : ∀ name, (s.states.row name).KeptFor j (s'.states.row name)
  grows : ∀ c, s.version.committed = some c → ∃ c', s'.version.committed = some c' ∧ c ≤ c'
  manual : ∀ name, IsManual (s'.states.find name) → IsManual (s.states.find name) ∨
    s.version.own j = none ∧
      ∀ c, s.version.committed = some c → ∃ c', s'.version.committed = some c' ∧ c < c'

structure Sound (i : ℕ) (s s' : Store F) (u : Option (Update F)) : Prop where
  nonNegative : NonNegative s'
  holding : Holding i s' u
  advances : ∀ j, j ≠ i → Advances j s s'

structure Silent (i : ℕ) (s s' : Store F) (u : Option (Update F)) : Prop extends
    Sound i s s' u where
  options : ∀ key, (s'.options key).committed = (s.options key).committed
  stays : ∀ name, IsManual (s.states.find name) → IsManual (s'.states.find name)

variable {i j : ℕ} {s s' : Store F} {u u' : Option (Update F)}

theorem Bumped.kept (h : Bumped j s) (hk : s.version.KeptFor j s'.version) : Bumped j s' := by
  obtain ⟨n, hown, hlt⟩ := h
  refine ⟨n, hk.own.trans hown, fun c hc => ?_⟩
  rw [hk.committed _ hown] at hc
  exact hlt c hc

theorem Bumped.own_ne_none (h : Bumped i s) : s.version.own i ≠ none := by
  obtain ⟨n, hown, _⟩ := h
  rw [hown]
  exact Option.some_ne_none _

theorem Holding.kept (h : Holding j s u) (ha : Advances j s s') : Holding j s' u := by
  refine ⟨fun r hr => ?_, fun key row hrow name hname => ?_, fun name state hstate => ?_⟩
  · rw [ha.version.own] at hr
    rw [ha.version.committed r hr]
    exact h.version r hr
  · rw [(ha.options key).own] at hrow
    rw [(ha.options key).committed row hrow]
    exact h.options key row hrow name hname
  · rw [(ha.states name).own] at hstate
    rw [(ha.states name).committed state hstate]
    rcases h.states name state hstate with heq | ⟨hmay, hbump⟩
    · exact .inl heq
    · exact .inr ⟨hmay, hbump.kept ha.version⟩

theorem Holding.mono (h : Holding i s u) (htouch : ∀ key name, MayTouch u key name →
      MayTouch u' key name)
    (hrewrite : ∀ name state, MayRewrite u name state → MayRewrite u' name state) :
    Holding i s u' := by
  refine ⟨h.version, fun key row hrow name hname => ?_, fun name state hstate => ?_⟩
  · exact h.options key row hrow name fun ht => hname (htouch key name ht)
  · rcases h.states name state hstate with heq | ⟨hmay, hbump⟩
    · exact .inl heq
    · exact .inr ⟨hrewrite name state hmay, hbump⟩

theorem Holding.select_version {n : ℤ} (h : Holding i s u)
    (hn : NonNegative s) (hsel : s.version.select i = some n) :
    0 ≤ n ∧ ∀ c, s.version.committed = some c → c ≤ n := by
  rcases hown : s.version.own i with _ | r
  · rw [Row.select_of_none hown] at hsel
    refine ⟨hn n hsel, fun c hc => ?_⟩
    rw [hsel] at hc
    cases hc
    exact le_refl n
  · obtain ⟨m, rfl, h0, hle⟩ := h.version r hown
    rw [Row.select_of_own hown] at hsel
    cases hsel
    exact ⟨h0, hle⟩

theorem Holding.select_entry (h : Holding i s u) (hname : ¬ MayTouch u key name) :
    entry ((s.options key).select i) name = entry (s.options key).committed name := by
  rcases hown : (s.options key).own i with _ | row
  · rw [Row.select_of_none hown]
  · rw [Row.select_of_own hown]
    exact h.options key row hown name hname

theorem Advances.of_committed (hv : s.version.KeptFor j s'.version)
    (ho : ∀ key, (s.options key).KeptFor j (s'.options key))
    (hs : ∀ name, (s.states.row name).KeptFor j (s'.states.row name))
    (hcv : s'.version.committed = s.version.committed)
    (hcs : ∀ name, s'.states.find name = s.states.find name) : Advances j s s' := by
  refine ⟨hv, ho, hs, fun c hc => ⟨c, hcv.trans hc, le_refl c⟩, fun name hname => .inl ?_⟩
  rw [hcs] at hname
  exact hname

theorem quiet_sound (hn : NonNegative s) (h : Holding i s u) (ho : s'.options = s.options)
    (hv : s'.version = s.version) (hs : s'.states = s.states) : Silent i s s' u := by
  obtain ⟨options, version, states, sources, quotes⟩ := s'
  cases ho
  cases hv
  cases hs
  exact ⟨⟨hn, ⟨h.version, h.options, h.states⟩,
    fun j _ => .of_committed .rfl (fun _ => .rfl) (fun _ => .rfl) rfl fun _ => rfl⟩,
    fun _ => rfl, fun _ hm => hm⟩

theorem options_writeOption_self :
    (s.writeOption i key value).options key = (s.options key).write i value := by
  simp [Store.writeOption]

theorem options_writeOption_of_ne {key k : PricingOption} (h : k ≠ key) :
    (s.writeOption i key value).options k = s.options k := by
  simp [Store.writeOption, Function.update_of_ne h]

theorem committed_writeOption {key k : PricingOption} :
    ((s.writeOption i key value).options k).committed = (s.options k).committed := by
  by_cases hk : k = key
  · subst hk
    rw [options_writeOption_self, Row.write_committed]
  · rw [options_writeOption_of_ne hk]

theorem writeOption_sound (hn : NonNegative s) (h : Holding i s u)
    (hf : (s.options key).free i = true)
    (hvalue : ∀ name, ¬ MayTouch u key name →
      entry value name = entry (s.options key).committed name) :
    Silent i s (s.writeOption i key value) u := by
  refine ⟨⟨hn, ⟨h.version, fun k row hrow name hname => ?_, h.states⟩, fun j hne => ?_⟩,
    fun _ => committed_writeOption, fun _ hm => hm⟩
  · rw [committed_writeOption]
    by_cases hk : k = key
    · subst hk
      rw [options_writeOption_self, Row.own_write_self] at hrow
      cases hrow
      exact hvalue name hname
    · rw [options_writeOption_of_ne hk] at hrow
      exact h.options k row hrow name hname
  · refine .of_committed .rfl (fun k => ?_) (fun _ => .rfl) rfl fun _ => rfl
    by_cases hk : k = key
    · subst hk
      rw [options_writeOption_self]
      exact Row.keptFor_write hf hne
    · rw [options_writeOption_of_ne hk]
      exact .rfl

theorem writeVersion_sound {n : ℤ} (hn : NonNegative s) (h : Holding i s u)
    (hf : s.version.free i = true) (h0 : 0 ≤ n)
    (hcommitted : ∀ c, s.version.committed = some c → c ≤ n)
    (hown : ∀ m, s.version.own i = some (some m) → m ≤ n) :
    Silent i s (s.writeVersion i (some n)) u := by
  refine ⟨⟨hn, ⟨fun r hr => ?_, h.options, fun name state hstate => ?_⟩, fun j hne => ?_⟩,
    fun _ => rfl, fun _ hm => hm⟩
  · simp only [Store.writeVersion, Row.own_write_self, Option.some.injEq] at hr
    exact ⟨n, hr.symm, h0, hcommitted⟩
  · rcases h.states name state hstate with heq | ⟨hmay, m, hm, hlt⟩
    · exact .inl heq
    · refine .inr ⟨hmay, n, Row.own_write_self, fun c hc => ?_⟩
      exact lt_of_lt_of_le (hlt c hc) (hown m hm)
  · exact .of_committed (Row.keptFor_write hf hne) (fun _ => .rfl) (fun _ => .rfl) rfl
      fun _ => rfl

theorem lockVersion_sound {n : ℤ} (hn : NonNegative s) (h : Holding i s u)
    (hf : s.version.free i = true) (hsel : s.version.select i = some n) :
    Silent i s (s.writeVersion i (some n)) u := by
  obtain ⟨h0, hle⟩ := h.select_version hn hsel
  refine writeVersion_sound hn h hf h0 hle fun m hm => ?_
  rw [Row.select_of_own hm] at hsel
  cases hsel
  exact le_refl _

theorem find_writeState {name m : Text} {value : Option ModelState} :
    (s.writeState i name value).states.find m = s.states.find m :=
  RowTable.committed_write m

theorem writeState_sound {value : Option ModelState} (hn : NonNegative s) (h : Holding i s u)
    (hf : (s.states.row name).free i = true) (hmay : MayRewrite u name value) (hbump : Bumped i s) :
    Silent i s (s.writeState i name value) u := by
  refine ⟨⟨hn, ⟨h.version, h.options, fun m state hstate => ?_⟩, fun j hne => ?_⟩,
    fun _ => rfl, fun _ hm => find_writeState.symm ▸ hm⟩
  · simp only [Store.writeState] at hstate ⊢
    rw [RowTable.committed_write]
    by_cases hm : m = name
    · subst hm
      rw [RowTable.row_write_self, Row.own_write_self] at hstate
      cases hstate
      exact .inr ⟨hmay, hbump⟩
    · rw [RowTable.row_write_of_ne hm] at hstate
      exact h.states m state hstate
  · exact .of_committed .rfl (fun _ => .rfl) (RowTable.keptFor_write hf hne) rfl
      fun _ => find_writeState

theorem find_writeStates {f : Option ModelState → Option ModelState} :
    (s.writeStates i names f).states.find name = s.states.find name :=
  RowTable.committed_writeEach name

theorem writeStates_sound {f : Option ModelState → Option ModelState} (hn : NonNegative s)
    (h : Holding i s u) (hf : s.states.freeEach i names = true)
    (hstates : ∀ name ∈ names,
      f ((s.states.row name).select i) = (s.states.row name).committed ∨
        MayRewrite u name (f ((s.states.row name).select i)) ∧ Bumped i s) :
    Silent i s (s.writeStates i names f) u := by
  refine ⟨⟨hn, ⟨h.version, h.options, fun m state hstate => ?_⟩, fun j hne => ?_⟩,
    fun _ => rfl, fun _ hm => find_writeStates.symm ▸ hm⟩
  · simp only [Store.writeStates] at hstate ⊢
    rw [RowTable.committed_writeEach]
    by_cases hm : m ∈ names
    · rw [RowTable.row_writeEach_mem hm, Row.own_write_self] at hstate
      cases hstate
      exact hstates m hm
    · rw [RowTable.row_writeEach_notMem hm] at hstate
      exact h.states m state hstate
  · exact .of_committed .rfl (fun _ => .rfl) (RowTable.keptFor_writeEach hf hne) rfl
      fun _ => find_writeStates

theorem lockStates_sound (hn : NonNegative s) (h : Holding i s u)
    (hf : s.states.freeEach i names = true) : Silent i s (s.writeStates i names id) u := by
  refine writeStates_sound hn h hf fun name _ => ?_
  rcases hown : (s.states.row name).own i with _ | state
  · exact .inl (Row.select_of_none hown)
  · rw [Row.select_of_own hown]
    exact h.states name state hown

theorem abort_sound (hn : NonNegative s) : Silent i s (s.abort i) u := by
  have hfind : ∀ name, (s.abort i).states.find name = s.states.find name :=
    fun _ => Row.abort_committed
  refine ⟨⟨?_, ⟨fun r hr => ?_, fun key row hrow => ?_, fun name state hstate => ?_⟩,
    fun j hne => ?_⟩, fun _ => Row.abort_committed, fun name hm => (hfind name).symm ▸ hm⟩
  · intro c hc
    simp only [Store.abort, Row.abort_committed] at hc
    exact hn c hc
  · simp only [Store.abort, Row.own_abort_self] at hr
    cases hr
  · simp only [Store.abort, Row.own_abort_self] at hrow
    cases hrow
  · simp only [Store.abort, RowTable.abort, Row.own_abort_self] at hstate
    cases hstate
  · exact .of_committed (Row.keptFor_abort hne) (fun _ => Row.keptFor_abort hne)
      (fun _ => Row.keptFor_abort hne) Row.abort_committed hfind

theorem commit_sound (hn : NonNegative s) (h : Holding i s u) :
    Sound i s (s.commit i) (none : Option (Update F)) := by
  have hversion : ∀ r, s.version.own i = some r →
      ∃ n, (s.commit i).version.committed = some n ∧ 0 ≤ n ∧
        ∀ c, s.version.committed = some c → c ≤ n := by
    intro r hr
    obtain ⟨n, rfl, h0, hle⟩ := h.version r hr
    refine ⟨n, ?_, h0, hle⟩
    simp [Store.commit, Row.commit_committed, hr]
  refine ⟨?_, ⟨fun r hr => ?_, fun key row hrow => ?_, fun name state hstate => ?_⟩,
    fun j hne => ⟨Row.keptFor_commit hne, fun _ => Row.keptFor_commit hne,
      fun _ => Row.keptFor_commit hne, ?_, ?_⟩⟩
  · intro c hc
    rcases hown : s.version.own i with _ | r
    · simp only [Store.commit, Row.commit_committed, hown] at hc
      exact hn c hc
    · obtain ⟨n, hcommit, h0, _⟩ := hversion r hown
      rw [hcommit] at hc
      cases hc
      exact h0
  · simp only [Store.commit, Row.own_commit_self] at hr
    cases hr
  · simp only [Store.commit, Row.own_commit_self] at hrow
    cases hrow
  · simp only [Store.commit, RowTable.commit, Row.own_commit_self] at hstate
    cases hstate
  · intro c hc
    rcases hown : s.version.own i with _ | r
    · refine ⟨c, ?_, le_refl c⟩
      simp only [Store.commit, Row.commit_committed, hown]
      exact hc
    · obtain ⟨n, hcommit, _, hle⟩ := hversion r hown
      exact ⟨n, hcommit, hle c hc⟩
  · intro name hname
    simp only [Store.commit, RowTable.commit, RowTable.find, Row.commit_committed] at hname
    rcases hown : (s.states.row name).own i with _ | state
    · rw [hown] at hname
      exact .inl hname
    · rw [hown] at hname
      rcases h.states name state hown with heq | ⟨_, n, hbump, hlt⟩
      · rw [heq] at hname
        exact .inl hname
      · refine .inr ⟨Row.own_of_ne hbump hne, fun c hc => ⟨n, ?_, hlt c hc⟩⟩
        simp [Store.commit, Row.commit_committed, hbump]

end NewApi.Model.PricingSync
