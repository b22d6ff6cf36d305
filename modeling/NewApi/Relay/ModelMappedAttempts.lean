import NewApi.Relay.ModelMapped

/-!
# Every attempt sends and bills the reserved model

Outside compact mode an attempt leaves the origin model alone, and every attempt follows the same
composed mapping.
-/

namespace NewApi.Relay.ModelMapped

open Chase

/-- Where a mapping sends a name; it stops at names it does not hold, at empty targets and at names
that it sends to themselves. -/
def nextModel (t : Table) (name : Text) : Option Text :=
  match t.lookup name with
  | none => none
  | some mapped => if mapped = [] ∨ mapped = name then none else some mapped

theorem nextModel_ne_nil {t : Table} {x y : Text} (h : nextModel t x = some y) : y ≠ [] := by
  unfold nextModel at h
  split at h
  · cases h
  split at h
  · cases h
  · next hne =>
    cases h
    intro hnil
    exact hne (.inl hnil)

theorem nextModel_mem {t : Table} (x y : Text) (h : nextModel t x = some y) :
    y ∈ t.entries.map Sigma.snd := by
  unfold nextModel at h
  split at h
  · cases h
  rename_i mapped hmapped
  split at h
  · cases h
  · cases h
    exact List.mem_map_of_mem (AList.mem_lookup_iff.mp hmapped)

def mappingError : Failure → MappingError
  | .cycle => .containsCycle
  | .outOfFuel => .outOfFuel

def resolved (modelName : Text) :
    Except Failure (Text × List Text) → Except MappingError (Text × Bool)
  | .error e => .error (mappingError e)
  | .ok (e, _) => .ok (e, decide (e ≠ modelName))

theorem resolveLoop_eq (t : Table) (modelName : Text) (fuel : ℕ) :
    ∀ {visited : List Text} {current : Text}, seen visited current = true →
      resolveLoop t modelName fuel visited current =
        resolved modelName (chase (nextModel t) fuel visited current) := by
  induction fuel with
  | zero =>
    intro visited current _
    rfl
  | succ fuel ih =>
    intro visited current hcur
    rw [resolveLoop, chase]
    cases hlook : t.lookup current with
    | none =>
      have hnext : nextModel t current = none := by rw [nextModel, hlook]
      rw [hnext]
      rfl
    | some mapped =>
      dsimp only
      by_cases hnil : mapped = []
      · have hnext : nextModel t current = none := by
          rw [nextModel, hlook]
          exact if_pos (.inl hnil)
        rw [if_pos hnil, hnext]
        rfl
      · rw [if_neg hnil]
        by_cases hself : mapped = current
        · have hnext : nextModel t current = none := by
            rw [nextModel, hlook]
            exact if_pos (.inr hself)
          rw [hnext, hself, if_pos hcur]
          by_cases hsame : current = modelName
          · rw [if_neg (fun h => h.2 hsame), hsame]
            simp [resolved]
          · simp [resolved, hsame]
        · have hnext : nextModel t current = some mapped := by
            rw [nextModel, hlook]
            exact if_neg (fun h => h.elim hnil hself)
          rw [hnext]
          dsimp only
          by_cases hseen : seen visited mapped = true
          · have hother : ¬ (mapped = modelName ∧ current = modelName) :=
              fun h => hself (h.1.trans h.2.symm)
            rw [if_pos hseen, if_pos hseen, if_neg (fun h => hself h.1), if_neg hother]
            rfl
          · rw [if_neg hseen, if_neg hseen]
            apply ih
            rw [seen_cons, decide_eq_true rfl, Bool.true_or]

section Follow

variable {unmarshal : Text → Option Table}

def Leads (unmarshal : Text → Option Table) (mapping x e : Text) : Prop :=
  ∃ t n, tableOf unmarshal mapping = some t ∧ Ends (nextModel t) n x e

theorem Leads.unique {mapping x e f : Text} (h : Leads unmarshal mapping x e)
    (h' : Leads unmarshal mapping x f) : e = f := by
  obtain ⟨t, n, ht, hn⟩ := h
  obtain ⟨t', m, ht', hm⟩ := h'
  rw [ht] at ht'
  cases ht'
  exact (hn.unique hm).2

variable {mode : RelayMode} {mapping x e : Text} {info : RelayInfo} {b : Bool}

theorem Leads.ne_nil (h : Leads unmarshal mapping x e) (hne : e ≠ x) : e ≠ [] := by
  obtain ⟨t, n, _, hn⟩ := h
  have hend : ∀ {n : ℕ} {x e : Text}, Ends (nextModel t) n x e → e = x ∨ e ≠ [] := by
    intro n x e h
    induction h with
    | stop _ => exact .inl rfl
    | step hx _ ih =>
      rcases ih with rfl | hne
      · exact .inr (nextModel_ne_nil hx)
      · exact .inr hne
  exact (hend hn).resolve_left hne

theorem resolveModelMapping_leads (h : resolveModelMapping unmarshal mapping x = .ok (e, b)) :
    Leads unmarshal mapping x e ∧ b = decide (e ≠ x) := by
  unfold resolveModelMapping at h
  split at h
  · cases h
  rename_i t ht
  rw [resolveLoop_eq t x _ (by simp [seen])] at h
  cases hc : chase (nextModel t) (fuelOf t) [x] x with
  | error f =>
    rw [hc] at h
    cases h
  | ok r =>
    rw [hc] at h
    cases h
    obtain ⟨n, hn⟩ := ends_of_chase _ hc
    exact ⟨⟨t, n, ht, hn⟩, rfl⟩

theorem resolveModelMapping_of_leads (h : Leads unmarshal mapping x e) :
    resolveModelMapping unmarshal mapping x = .ok (e, decide (e ≠ x)) := by
  obtain ⟨t, n, ht, hn⟩ := h
  obtain ⟨visited, hc⟩ := chase_ok nextModel_mem hn
  unfold resolveModelMapping
  rw [ht]
  dsimp only
  rw [resolveLoop_eq t x _ (by simp [seen]), fuelOf, hc]
  rfl

theorem withCompactModelSuffix_ne_nil {x : Text} : withCompactModelSuffix x ≠ [] := by
  unfold withCompactModelSuffix
  split
  · next hs =>
    intro hnil
    rw [hnil] at hs
    cases hs
  · intro h
    have := (List.append_eq_nil_iff.mp h).2
    cases this

theorem validate_of_mem {keyMapping model : Text} {l : Text} (mappings : List Text) :
    validateModelMappingCandidates unmarshal keyMapping model mode mappings = .ok () →
    l ∈ mappings → validateModelMappingComposition unmarshal keyMapping l model mode = .ok () := by
  induction mappings with
  | nil =>
    intro _ hl
    cases hl
  | cons m mappings ih =>
    intro h hl
    rw [validateModelMappingCandidates] at h
    split at h
    · cases h
    · next hm =>
      rcases List.mem_cons.mp hl with rfl | hl
      · exact hm
      · exact ih h hl

def targetOf (mode : RelayMode) (origin e : Text) : Text :=
  if e = mappingModelName mode origin then origin
  else
    match mode with
    | .responsesCompact => withCompactModelSuffix e
    | .other => e

theorem targetOf_unmapped {origin e : Text} (h : e = mappingModelName mode origin) :
    targetOf mode origin e = origin := by
  cases mode with
  | responsesCompact | other => exact if_pos h

theorem targetOf_compact {origin e : Text} (h : e ≠ trimCompactSuffix origin) :
    targetOf .responsesCompact origin e = withCompactModelSuffix e := if_neg h

theorem targetOf_other (origin e : Text) : targetOf .other origin e = e := by
  by_cases h : e = origin
  · rw [targetOf_unmapped h, h]
  · exact if_neg h

theorem resolveRelayModelMapping_spec {mapping origin target : Text}
    (h : resolveRelayModelMapping unmarshal mapping origin mode = .ok (target, b)) :
    ∃ e, Leads unmarshal mapping (mappingModelName mode origin) e ∧
      (if b then target else origin) = targetOf mode origin e := by
  unfold resolveRelayModelMapping at h
  split at h
  · cases h
  · next e he =>
    cases h
    obtain ⟨hl, hb⟩ := resolveModelMapping_leads he
    refine ⟨target, hl, ?_⟩
    have hsame : ¬ target ≠ mappingModelName mode origin := of_decide_eq_false hb.symm
    rw [targetOf_unmapped (not_not.mp hsame)]
    rfl
  · next e he =>
    obtain ⟨hl, hb⟩ := resolveModelMapping_leads he
    refine ⟨e, hl, ?_⟩
    have hdiff : e ≠ mappingModelName mode origin := of_decide_eq_true hb.symm
    cases mode with
    | responsesCompact =>
      cases h
      exact (targetOf_compact hdiff).symm
    | other =>
      cases h
      exact (targetOf_other _ _).symm

theorem candidateTargets_mem {origin : Text} (mappings : List Text) :
    ∀ {targets : List Text}, candidateTargets unmarshal origin mode mappings = .ok targets →
      ∀ l ∈ mappings, ∃ e, Leads unmarshal l (mappingModelName mode origin) e ∧
        targetOf mode origin e ∈ targets := by
  induction mappings with
  | nil =>
    intro targets _ l hl
    cases hl
  | cons m mappings ih =>
    intro targets h l hl
    rw [candidateTargets] at h
    split at h
    · cases h
    rename_i target isMapped hm
    split at h
    · cases h
    rename_i rest hrest
    cases h
    rcases List.mem_cons.mp hl with rfl | hl
    · obtain ⟨e, he, ht⟩ := resolveRelayModelMapping_spec hm
      exact ⟨e, he, ht ▸ List.mem_cons_self⟩
    · obtain ⟨e, he, ht⟩ := ih hrest l hl
      exact ⟨e, he, List.mem_cons_of_mem _ ht⟩

theorem resolveCandidateModelMapping_spec {origin billing : Text} {mappings : List Text}
    (h : resolveCandidateModelMapping unmarshal mappings origin mode = .ok (billing, b)) :
    b = decide (billing ≠ origin) ∧ ∀ l ∈ mappings, ∃ e,
      Leads unmarshal l (mappingModelName mode origin) e ∧ targetOf mode origin e = billing := by
  unfold resolveCandidateModelMapping at h
  split at h
  · cases h
  · next hnil =>
    cases h
    refine ⟨by simp, ?_⟩
    intro l hl
    obtain ⟨e, _, he⟩ := candidateTargets_mem mappings hnil l hl
    cases he
  · next target targets hts =>
    split at h
    · next hall =>
      cases h
      refine ⟨rfl, ?_⟩
      intro l hl
      obtain ⟨e, hle, he⟩ := candidateTargets_mem mappings hts l hl
      refine ⟨e, hle, ?_⟩
      rcases List.mem_cons.mp he with he | he
      · exact he
      · exact of_decide_eq_true (List.all_eq_true.mp hall _ he)
    · cases h

structure Reserved (unmarshal : Text → Option Table) (keyMapping model : Text) (mode : RelayMode)
    (mappings : List Text) (info : RelayInfo) : Prop where
  relayMode : info.relayMode = mode
  origin : originModel unmarshal keyMapping model mode = .ok info.originModelName
  valid : ∀ l ∈ mappings, validateModelMappingComposition unmarshal keyMapping l
    (requestedModel mode model) mode = .ok ()
  billing : ∀ l ∈ mappings, ∃ e,
    Leads unmarshal l (mappingModelName mode info.originModelName) e ∧
      getBillingModelName info = targetOf mode info.originModelName e

theorem reserve_spec {keyMapping model : Text} {mappings : List Text}
    (h : reserve unmarshal keyMapping model mode mappings = .ok info) :
    Reserved unmarshal keyMapping model mode mappings info := by
  unfold reserve at h
  split at h
  · cases h
  rename_i origin horigin
  split at h
  · cases h
  rename_i hvalid
  split at h
  · cases h
  rename_i billing isMapped hres
  cases h
  obtain ⟨hb, hall⟩ := resolveCandidateModelMapping_spec hres
  refine ⟨rfl, horigin, fun l hl => validate_of_mem mappings hvalid hl, ?_⟩
  intro l hl
  obtain ⟨e, hle, he⟩ := hall l hl
  refine ⟨e, hle, ?_⟩
  rw [he, hb]
  by_cases hsame : billing = origin
  · simp [getBillingModelName, hsame]
  by_cases hnil : billing = []
  · -- an empty model is never a target, so the origin is empty too
    exfalso
    subst hnil
    by_cases hown : e = mappingModelName mode origin
    · rw [targetOf_unmapped hown] at he
      exact hsame he.symm
    · have hne := hle.ne_nil hown
      cases mode with
      | responsesCompact =>
        rw [targetOf_compact hown] at he
        exact withCompactModelSuffix_ne_nil he
      | other =>
        rw [targetOf_other] at he
        exact hne he
  · simp [getBillingModelName, hsame, hnil]

theorem attempt_other {keyMapping requested l e : Text} (hmode : info.relayMode = .other)
    (hvalid : validateModelMappingComposition unmarshal keyMapping l requested .other = .ok ())
    (h : Leads unmarshal l info.originModelName e) :
    ∃ info', attempt unmarshal keyMapping requested l info = .ok info' ∧
      info'.relayMode = .other ∧ info'.originModelName = info.originModelName ∧
      info'.upstreamModelName = e ∧ getBillingModelName info' = e := by
  have hres := resolveModelMapping_of_leads h
  unfold attempt modelMappedHelper initChannelMeta
  rw [hmode, hvalid]
  dsimp only [mappingModelName]
  rw [hres]
  refine ⟨_, rfl, rfl, rfl, ?_, ?_⟩
  · by_cases hsame : e = info.originModelName
    · simp [hsame]
    · simp [hsame]
  · by_cases hsame : e = info.originModelName
    · simp [getBillingModelName, hsame]
    · simp [getBillingModelName, hsame, h.ne_nil hsame]

theorem attempt_compact {keyMapping requested l e : Text}
    (hmode : info.relayMode = .responsesCompact)
    (hvalid : validateModelMappingComposition unmarshal keyMapping l requested
      .responsesCompact = .ok ())
    (h : Leads unmarshal l (trimCompactSuffix info.originModelName) e) :
    ∃ info', attempt unmarshal keyMapping requested l info = .ok info' ∧
      info'.relayMode = .responsesCompact ∧ info'.originModelName = withCompactModelSuffix e ∧
      info'.upstreamModelName = e ∧ getBillingModelName info' = withCompactModelSuffix e := by
  have hres := resolveModelMapping_of_leads h
  unfold attempt modelMappedHelper initChannelMeta
  rw [hmode, hvalid]
  dsimp only [mappingModelName]
  rw [hres]
  by_cases hsame : e = trimCompactSuffix info.originModelName
  · refine ⟨_, rfl, rfl, ?_, ?_, ?_⟩
    · simp [hsame]
    · simp [hsame]
    · simp [getBillingModelName, hsame]
  · have hne := h.ne_nil hsame
    refine ⟨_, rfl, rfl, ?_, ?_, ?_⟩
    · simp [hsame, hne]
    · simp [hsame, hne]
    · simp [getBillingModelName, hsame, withCompactModelSuffix_ne_nil]

theorem leads_of_attempt_compact {keyMapping requested l : Text} {info info' : RelayInfo}
    (hmode : info.relayMode = .responsesCompact)
    (h : attempt unmarshal keyMapping requested l info = .ok info') :
    Leads unmarshal l (trimCompactSuffix info.originModelName) info'.upstreamModelName := by
  have hcopy := h
  unfold attempt modelMappedHelper initChannelMeta at h
  rw [hmode] at h
  dsimp only [mappingModelName] at h
  split at h
  · cases h
  rename_i hvalid
  split at h
  · cases h
  rename_i target isMapped hres
  obtain ⟨hl, _⟩ := resolveModelMapping_leads hres
  obtain ⟨info'', hatt, _, _, hup, _⟩ := attempt_compact hmode hvalid hl
  rw [hcopy] at hatt
  cases hatt
  rw [hup]
  exact hl

def ComposedEnd (unmarshal : Text → Option Table) (keyMapping l name e : Text) : Prop :=
  ∃ k, Leads unmarshal keyMapping name k ∧ Leads unmarshal l k e

theorem ComposedEnd.unique {keyMapping l name e f : Text}
    (h : ComposedEnd unmarshal keyMapping l name e)
    (h' : ComposedEnd unmarshal keyMapping l name f) : e = f := by
  obtain ⟨k, hk, he⟩ := h
  obtain ⟨k', hk', hf⟩ := h'
  rw [hk'.unique hk] at hf
  exact he.unique hf

def ServesReserved (unmarshal : Text → Option Table) (keyMapping model : Text) (mode : RelayMode)
    (mappings : List Text) (info : RelayInfo) : Prop :=
  ∀ before l, (∀ m ∈ before, m ∈ mappings) → l ∈ mappings → ∃ info₁ info₂,
    attempts unmarshal keyMapping (requestedModel mode model) before info = .ok info₁ ∧
    attempt unmarshal keyMapping (requestedModel mode model) l info₁ = .ok info₂ ∧
    ComposedEnd unmarshal keyMapping l (mappingModelName mode (requestedModel mode model))
      info₂.upstreamModelName ∧
    getBillingModelName info₂ = getBillingModelName info

/-- The names that compact attempts start from lead every channel to the end of its composed
mapping: the origin model at first, later the end that any channel left, with the suffix put on and
taken off again. Where a channel leaves the origin model as it is, that carries the suffix once. -/
structure CompactStable (unmarshal : Text → Option Table) (keyMapping name origin : Text)
    (mappings : List Text) : Prop where
  first : ∀ l ∈ mappings, ∃ e, ComposedEnd unmarshal keyMapping l name e ∧
    Leads unmarshal l (trimCompactSuffix origin) e
  later : ∀ l ∈ mappings, ∀ e, ComposedEnd unmarshal keyMapping l name e → ∀ l' ∈ mappings, ∃ e',
    ComposedEnd unmarshal keyMapping l' name e' ∧
      Leads unmarshal l' (trimCompactSuffix (withCompactModelSuffix e)) e'
  suffix : ∀ l ∈ mappings, Leads unmarshal l (trimCompactSuffix origin) (trimCompactSuffix origin) →
    withCompactModelSuffix (trimCompactSuffix origin) = origin

section Sequences

variable {keyMapping model : Text} {mappings : List Text} {info : RelayInfo}

theorem attempts_keep {requested : Text} {P : RelayInfo → Prop}
    (hstep : ∀ i, P i → ∀ l ∈ mappings, ∃ i', attempt unmarshal keyMapping requested l i = .ok i' ∧
      P i') (before : List Text) : ∀ i, P i → (∀ m ∈ before, m ∈ mappings) →
      ∃ i', attempts unmarshal keyMapping requested before i = .ok i' ∧ P i' := by
  induction before with
  | nil =>
    intro i hi _
    exact ⟨i, rfl, hi⟩
  | cons m before ih =>
    intro i hi hmem
    obtain ⟨i', hatt, hi'⟩ := hstep i hi m (hmem m List.mem_cons_self)
    rw [attempts, hatt]
    exact ih i' hi' fun x hx => hmem x (List.mem_cons_of_mem _ hx)

theorem servesReserved_of_step {P : RelayInfo → Prop} (hinfo : P info)
    (hstep : ∀ i, P i → ∀ l ∈ mappings, ∃ i',
      attempt unmarshal keyMapping (requestedModel mode model) l i = .ok i' ∧ P i' ∧
      ComposedEnd unmarshal keyMapping l (mappingModelName mode (requestedModel mode model))
        i'.upstreamModelName ∧ getBillingModelName i' = getBillingModelName info) :
    ServesReserved unmarshal keyMapping model mode mappings info := by
  intro before l hmem hl
  obtain ⟨i, hi, hinv⟩ := attempts_keep
    (fun i hi l hl => (hstep i hi l hl).imp fun _ h => ⟨h.1, h.2.1⟩) before info hinfo hmem
  obtain ⟨i', hatt, _, hend, hbill⟩ := hstep i hinv l hl
  exact ⟨i, i', hi, hatt, hend, hbill⟩

theorem origin_other (h : originModel unmarshal keyMapping model .other = .ok info.originModelName) :
    Leads unmarshal keyMapping model info.originModelName := by
  unfold originModel at h
  split at h
  · cases h
  rename_i target isMapped hr
  obtain ⟨e, he, ht⟩ := resolveRelayModelMapping_spec hr
  rw [targetOf_other] at ht
  have horigin : info.originModelName = e := (Except.ok.inj h).symm.trans ht
  rw [horigin]
  exact he

theorem servesReserved_other
    (hr : Reserved unmarshal keyMapping model .other mappings info) :
    ServesReserved unmarshal keyMapping model .other mappings info := by
  have hkey := origin_other hr.origin
  refine servesReserved_of_step
    (P := fun i => i.relayMode = .other ∧ i.originModelName = info.originModelName)
    ⟨hr.relayMode, rfl⟩ ?_
  intro i ⟨hmode, ho⟩ l hl
  obtain ⟨e, he, hbill⟩ := hr.billing l hl
  have he' : Leads unmarshal l i.originModelName e := by
    rw [ho]
    exact he
  obtain ⟨i', hatt, hmode', ho', hup, hb⟩ := attempt_other hmode (hr.valid l hl) he'
  refine ⟨i', hatt, ⟨hmode', ho'.trans ho⟩, ⟨_, hkey, hup ▸ he⟩, ?_⟩
  rw [hb, hbill, targetOf_other]

def CompactName (unmarshal : Text → Option Table) (keyMapping name origin : Text)
    (mappings : List Text) (current : Text) : Prop :=
  current = origin ∨ ∃ l ∈ mappings, ∃ e, ComposedEnd unmarshal keyMapping l name e ∧
    current = withCompactModelSuffix e

theorem servesReserved_compact
    (hr : Reserved unmarshal keyMapping model .responsesCompact mappings info)
    (hs : CompactStable unmarshal keyMapping
      (trimCompactSuffix (requestedModel .responsesCompact model)) info.originModelName mappings) :
    ServesReserved unmarshal keyMapping model .responsesCompact mappings info := by
  set name := trimCompactSuffix (requestedModel .responsesCompact model) with hname
  -- from every name an attempt can start from, every channel leads to its own end
  have hlead : ∀ current, CompactName unmarshal keyMapping name info.originModelName mappings
      current → ∀ l ∈ mappings, ∃ e, ComposedEnd unmarshal keyMapping l name e ∧
        Leads unmarshal l (trimCompactSuffix current) e := by
    intro current hc l hl
    rcases hc with rfl | ⟨m, hm, e, he, rfl⟩
    · exact hs.first l hl
    · exact hs.later m hm e he l hl
  have hbilled : ∀ l ∈ mappings, ∀ e, ComposedEnd unmarshal keyMapping l name e →
      withCompactModelSuffix e = getBillingModelName info := by
    intro l hl e he
    obtain ⟨e', he', hlead'⟩ := hs.first l hl
    rw [he.unique he']
    obtain ⟨f, hf, hbill⟩ := hr.billing l hl
    have hef : e' = f := hlead'.unique hf
    subst hef
    rw [hbill]
    by_cases hown : e' = trimCompactSuffix info.originModelName
    · rw [targetOf_unmapped hown, hown]
      rw [hown] at hf
      exact hs.suffix l hl hf
    · exact (targetOf_compact hown).symm
  refine servesReserved_of_step (P := fun i => i.relayMode = .responsesCompact ∧
    CompactName unmarshal keyMapping name info.originModelName mappings i.originModelName)
    ⟨hr.relayMode, .inl rfl⟩ ?_
  intro i ⟨hmode, hc⟩ l hl
  obtain ⟨e, he, hle⟩ := hlead _ hc l hl
  obtain ⟨i', hatt, hmode', ho', hup, hb⟩ := attempt_compact hmode (hr.valid l hl) hle
  refine ⟨i', hatt, ⟨hmode', .inr ⟨l, hl, e, he, ho'⟩⟩, hup ▸ he, ?_⟩
  rw [hb, hbilled l hl e he]

theorem compactStable_of_serves
    (hr : Reserved unmarshal keyMapping model .responsesCompact mappings info)
    (h : ServesReserved unmarshal keyMapping model .responsesCompact mappings info) :
    CompactStable unmarshal keyMapping
      (trimCompactSuffix (requestedModel .responsesCompact model)) info.originModelName mappings := by
  have hfirst : ∀ l ∈ mappings, ∃ e, ComposedEnd unmarshal keyMapping l
      (trimCompactSuffix (requestedModel .responsesCompact model)) e ∧
      Leads unmarshal l (trimCompactSuffix info.originModelName) e := by
    intro l hl
    obtain ⟨i₁, i₂, hi, hatt, hend, _⟩ := h [] l (fun _ hm => by cases hm) hl
    cases hi
    exact ⟨_, hend, leads_of_attempt_compact hr.relayMode hatt⟩
  refine ⟨hfirst, ?_, ?_⟩
  · intro l hl e he l' hl'
    obtain ⟨e₀, he₀, hlead⟩ := hfirst l hl
    have hee : e = e₀ := he.unique he₀
    subst hee
    obtain ⟨i, hi, hmode, ho, _, _⟩ := attempt_compact hr.relayMode (hr.valid l hl) hlead
    obtain ⟨i₁, i₂, hi₁, hatt, hend, _⟩ := h [l] l'
      (fun m hm => by rw [List.mem_singleton.mp hm]; exact hl) hl'
    rw [attempts, hi] at hi₁
    cases hi₁
    have hl₂ := leads_of_attempt_compact hmode hatt
    rw [ho] at hl₂
    exact ⟨_, hend, hl₂⟩
  · intro l hl hown
    obtain ⟨i, hi, _, _, _, hb⟩ := attempt_compact hr.relayMode (hr.valid l hl) hown
    obtain ⟨i₁, i₂, hi₁, hatt, _, hbill⟩ := h [] l (fun _ hm => by cases hm) hl
    cases hi₁
    rw [hi] at hatt
    cases hatt
    obtain ⟨f, hf, hres⟩ := hr.billing l hl
    have hf' : f = trimCompactSuffix info.originModelName := hf.unique hown
    rw [hb, hres, targetOf_unmapped hf'] at hbill
    exact hbill

end Sequences

/-- After a successful reserve every attempt over the channels, after any attempts before it,
succeeds, sends the end of its channel's composed mapping and bills the reserved model, exactly if
in compact mode the suffix that attempts put on and take off does not change the names. -/
theorem attempts_bill_reserved_iff (unmarshal : Text → Option Table) (keyMapping model : Text)
    (mode : RelayMode) (mappings : List Text) {info : RelayInfo}
    (h : reserve unmarshal keyMapping model mode mappings = .ok info) :
    ServesReserved unmarshal keyMapping model mode mappings info ↔
      (mode = .responsesCompact → CompactStable unmarshal keyMapping
        (trimCompactSuffix (requestedModel mode model)) info.originModelName mappings) := by
  have hr := reserve_spec h
  cases mode with
  | responsesCompact =>
    constructor
    · intro hserves _
      exact compactStable_of_serves hr hserves
    · intro hstable
      exact servesReserved_compact hr (hstable rfl)
  | other =>
    constructor
    · intro _ hmode
      cases hmode
    · intro _
      exact servesReserved_other hr

end Follow

section Runs

def keyText : Text := "\x7b\"my-model\":\"gpt-5\"\x7d".toList

def directText : Text := "\x7b\"gpt-5\":\"gpt-5-codex\"\x7d".toList

def aliasText : Text := "\x7b\"gpt-5\":\"codex\",\"codex\":\"gpt-5-codex\"\x7d".toList

def suffixText : Text :=
  "\x7b\"gpt-5\":\"gpt-5-codex-openai-compact\",\"gpt-5-codex\":\"gpt-5.1-codex\"\x7d".toList

/-- The JSON decoder at these texts. -/
def decodeTexts (mapping : Text) : Option Table :=
  if mapping = keyText then some (AList.insert "my-model".toList "gpt-5".toList ∅)
  else if mapping = directText then some (AList.insert "gpt-5".toList "gpt-5-codex".toList ∅)
  else if mapping = aliasText then
    some ((AList.insert "gpt-5".toList "codex".toList ∅).insert "codex".toList "gpt-5-codex".toList)
  else if mapping = suffixText then
    some ((AList.insert "gpt-5".toList "gpt-5-codex-openai-compact".toList ∅).insert
      "gpt-5-codex".toList "gpt-5.1-codex".toList)
  else none

/-- The second attempt over one channel sends and bills another model than the reserved one. -/
theorem second_attempt_bills_other :
    let info := (reserve decodeTexts [] "gpt-5".toList .responsesCompact [suffixText]).toOption
    let after := fun before => info.bind fun i => (attempts decodeTexts []
      "gpt-5-openai-compact".toList before i).toOption
    info.map getBillingModelName = some "gpt-5-codex-openai-compact".toList ∧
      (after [suffixText]).map RelayInfo.upstreamModelName =
        some "gpt-5-codex-openai-compact".toList ∧
      (after [suffixText, suffixText]).map RelayInfo.upstreamModelName =
        some "gpt-5.1-codex".toList ∧
      (after [suffixText, suffixText]).map getBillingModelName =
        some "gpt-5.1-codex-openai-compact".toList := by
  decide +kernel

/-- A key mapping followed by either of two channel mappings, in compact mode. -/
theorem attempts_bill_reserved_mapped :
    ∃ info, reserve decodeTexts keyText "my-model".toList .responsesCompact
        [directText, aliasText] = .ok info ∧
      getBillingModelName info = "gpt-5-codex-openai-compact".toList ∧
      ServesReserved decodeTexts keyText "my-model".toList .responsesCompact
        [directText, aliasText] info := by
  have hread : ∀ mapping x e, resolveModelMapping decodeTexts mapping x =
      .ok (e, decide (e ≠ x)) → Leads decodeTexts mapping x e :=
    fun _ _ _ h => (resolveModelMapping_leads h).1
  have hkey : Leads decodeTexts keyText "my-model".toList "gpt-5".toList :=
    hread _ _ _ (by decide +kernel)
  have hleads : ∀ l ∈ [directText, aliasText],
      Leads decodeTexts l "gpt-5".toList "gpt-5-codex".toList ∧
        Leads decodeTexts l "gpt-5-codex".toList "gpt-5-codex".toList := by
    intro l hl
    rcases List.mem_pair.mp hl with rfl | rfl
    · exact ⟨hread _ _ _ (by decide +kernel), hread _ _ _ (by decide +kernel)⟩
    · exact ⟨hread _ _ _ (by decide +kernel), hread _ _ _ (by decide +kernel)⟩
  have hend : ∀ l ∈ [directText, aliasText],
      ComposedEnd decodeTexts keyText l "my-model".toList "gpt-5-codex".toList :=
    fun l hl => ⟨_, hkey, (hleads l hl).1⟩
  refine ⟨⟨.responsesCompact, "gpt-5-openai-compact".toList, "gpt-5-codex-openai-compact".toList,
    false, [], "gpt-5-openai-compact".toList, false⟩, by decide +kernel, by decide +kernel, ?_⟩
  apply (attempts_bill_reserved_iff decodeTexts keyText "my-model".toList .responsesCompact
    [directText, aliasText] (by decide +kernel)).mpr
  intro _
  have hname : trimCompactSuffix (requestedModel .responsesCompact "my-model".toList) =
      "my-model".toList := by decide +kernel
  have horigin : trimCompactSuffix "gpt-5-openai-compact".toList = "gpt-5".toList := by
    decide +kernel
  rw [hname]
  refine ⟨fun l hl => ?_, fun l hl e he l' hl' => ?_, fun l hl hown => ?_⟩
  · rw [horigin]
    exact ⟨_, hend l hl, (hleads l hl).1⟩
  · have hsame : e = "gpt-5-codex".toList := he.unique (hend l hl)
    have hback : trimCompactSuffix (withCompactModelSuffix "gpt-5-codex".toList) =
        "gpt-5-codex".toList := by decide +kernel
    rw [hsame, hback]
    exact ⟨_, hend l' hl', (hleads l' hl').2⟩
  · rw [horigin] at hown
    have hother : "gpt-5".toList = "gpt-5-codex".toList := hown.unique (hleads l hl).1
    exact absurd hother (by decide)

end Runs

end NewApi.Relay.ModelMapped
