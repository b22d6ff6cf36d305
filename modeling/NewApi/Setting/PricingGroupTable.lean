import NewApi.Setting.PricingGroup

/-!
# Normalized tables of pricing groups

When `normalizePricingGroups` succeeds, everything but the sign of the ids is as it should be.
-/

namespace NewApi.Setting.Ratio

open Fresh

theorem forall₂_exists_left {α β : Type} {R : α → β → Prop} {as : List α} {bs : List β}
    (h : List.Forall₂ R as bs) {b : β} (hb : b ∈ bs) : ∃ a ∈ as, R a b := by
  induction h with
  | nil => exact absurd hb List.not_mem_nil
  | cons hab _ ih =>
    rcases List.mem_cons.mp hb with rfl | hb
    · exact ⟨_, List.mem_cons_self, hab⟩
    · obtain ⟨a, ha, hab⟩ := ih hb
      exact ⟨a, List.mem_cons_of_mem _ ha, hab⟩

theorem forall₂_map_eq {α β γ : Type} {R : α → β → Prop} {f : α → γ} {g : β → γ}
    (hR : ∀ a b, R a b → g b = f a) {as : List α} {bs : List β} (h : List.Forall₂ R as bs) :
    bs.map g = as.map f := by
  induction h with
  | nil => rfl
  | cons hab _ ih => rw [List.map_cons, List.map_cons, hR _ _ hab, ih]

theorem forceDefault_name (g : PricingGroup) : (forceDefault g).name = g.name := by
  unfold forceDefault
  split <;> rfl

theorem forceDefault_of_given {g : PricingGroup} (h : g.id ≠ zeroId) : forceDefault g = g := by
  have hold : isNewDefault g = false := decide_eq_false fun hnew => h hnew.2
  simp [forceDefault, hold]

def Comes (g out : PricingGroup) : Prop := Assigned (forceDefault g) out

theorem Comes.keeps {group out : PricingGroup} (h : Comes (cleanGroup group) out) :
    Keeps group out := by
  obtain ⟨hout, hid⟩ := h
  rw [hout]
  have hforce : ∀ {γ : Type} (f : PricingGroup → γ), (∀ g id, f { g with id := id } = f g) →
      f (forceDefault (cleanGroup group)) = f (cleanGroup group) := by
    intro γ f hf
    unfold forceDefault
    split
    · exact hf _ _
    · rfl
  refine ⟨?_, ?_, ?_, ?_, ?_, ?_, ?_⟩
  · exact hforce PricingGroup.name fun _ _ => rfl
  · exact hforce PricingGroup.ratio fun _ _ => rfl
  · exact hforce PricingGroup.selectable fun _ _ => rfl
  · exact hforce PricingGroup.description fun _ _ => rfl
  · exact hforce PricingGroup.note fun _ _ => rfl
  · exact hforce PricingGroup.tag fun _ _ => rfl
  · intro hpos
    have hgiven : (cleanGroup group).id ≠ zeroId := by
      intro hzero
      have hval : group.id.val = 0 := congrArg Word.val hzero
      omega
    rw [forceDefault_of_given hgiven] at hid
    exact hid hgiven

theorem sort_idLess_sorted (sliceStable : SliceStable) (groups : List PricingGroup) :
    (sliceStable.sort idLess groups).Pairwise fun a b => a.id.val ≤ b.id.val := by
  have h := sliceStable.sorted idLess groups
    (fun a => decide_eq_false (lt_irrefl _))
    (fun a b c hab hbc => by
      simp only [idLess, decide_eq_true_eq] at *
      omega)
    (fun a b c hab hbc => by
      simp only [idLess, decide_eq_false_iff_not] at *
      omega)
  refine h.imp fun {a b} hab => ?_
  simp only [idLess, decide_eq_false_iff_not] at hab
  omega

structure Stages (sliceStable : SliceStable) (groups : List (Option PricingGroup))
    (table : List PricingGroup) where
  scan : Scan
  sorted : List PricingGroup
  kept : List PricingGroup
  ids : Ids
  scanned : Scanned (named groups) scan
  nonempty : scan.cleaned ≠ []
  perm : sorted.Perm scan.cleaned
  kept_eq : kept = sorted.map forceDefault
  default_root : ∀ g ∈ kept, g.name = "default".toList → g.id = defaultId
  ids_eq : sorted.any isNewDefault = true ∧ defaultId ∉ scan.seenIDs ∧
      ids = ⟨scan.seenIDs ++ [defaultId], liftNext scan.nextID⟩ ∨
    sorted.any isNewDefault = false ∧ ids = ⟨scan.seenIDs, scan.nextID⟩
  root : ∃ g ∈ kept, g.id = defaultId
  table_eq : table = sliceStable.sort idLess (assignIDs kept ids false).1

theorem normalizePricingGroups_ok {sliceStable : SliceStable} {groups : List (Option PricingGroup)}
    {table : List PricingGroup} (h : normalizePricingGroups sliceStable groups = .ok table) :
    Nonempty (Stages sliceStable groups table) := by
  obtain ⟨s, hscan, h⟩ := bind_eq_ok h
  split at h
  · cases h
  rename_i hne
  obtain ⟨r, hkeep, h⟩ := bind_eq_ok h
  obtain ⟨hkept, hroot, hids⟩ := keepDefault_ok hkeep
  simp only at h
  split at h
  · rename_i hflag
    cases h
    have hdefault := (assignIDs_hasDefault r.1 r.2 false).mp hflag
    have hempty : Scanned [] emptyScan :=
      ⟨rfl, rfl, fun _ hg => absurd hg List.not_mem_nil, List.nodup_nil, rfl, List.nodup_nil, rfl⟩
    refine ⟨⟨s, _, r.1, r.2, hempty.run hscan, hne, sliceStable.perm _ _, hkept, hroot,
      hids, ?_, rfl⟩⟩
    rcases hdefault with hfalse | hdefault
    · cases hfalse
    · exact hdefault
  · cases h

section Stage

variable {sliceStable : SliceStable} {groups : List (Option PricingGroup)}
  {table : List PricingGroup} (st : Stages sliceStable groups table)
include st

theorem Stages.table_perm : table.Perm (assignIDs st.kept st.ids false).1 := by
  have h := sliceStable.perm idLess (assignIDs st.kept st.ids false).1
  rw [← st.table_eq] at h
  exact h

theorem Stages.comes : List.Forall₂ Comes st.sorted (assignIDs st.kept st.ids false).1 := by
  have h := assignIDs_assigned st.kept st.ids false
  rw [st.kept_eq, List.forall₂_map_left_iff] at h
  rw [st.kept_eq]
  exact h

theorem Stages.names : (assignIDs st.kept st.ids false).1.map PricingGroup.name =
    st.sorted.map PricingGroup.name := by
  refine forall₂_map_eq (fun g out h => ?_) st.comes
  rw [h.1]
  exact forceDefault_name g

theorem Stages.names_perm :
    (table.map PricingGroup.name).Perm (st.scan.cleaned.map PricingGroup.name) := by
  have h := st.table_perm.map PricingGroup.name
  rw [st.names] at h
  exact h.trans (st.perm.map _)

theorem Stages.names_good : ∀ g ∈ table, GoodName g.name := by
  intro g hg
  have hmem := st.names_perm.mem_iff.mp (List.mem_map_of_mem hg)
  obtain ⟨g', hg', heq⟩ := List.mem_map.mp hmem
  rw [← heq]
  exact st.scanned.names_good g' hg'

theorem Stages.names_nodup : (table.map PricingGroup.name).Nodup := by
  rw [st.names_perm.nodup_iff, ← st.scanned.names]
  exact st.scanned.names_nodup

theorem Stages.entries : ∃ out, List.Forall₂ Keeps (named groups) out ∧ table.Perm out := by
  obtain ⟨out, hcomes, hperm⟩ := List.perm_comp_forall₂ st.perm.symm st.comes
  rw [st.scanned.cleaned, List.forall₂_map_left_iff] at hcomes
  exact ⟨out, hcomes.imp fun _ _ h => h.keeps, st.table_perm.trans hperm.symm⟩

theorem Stages.table_root : ∃ g ∈ table, g.id = defaultId := by
  obtain ⟨g, hg, hid⟩ := st.root
  obtain ⟨out, hout, -, hkeep⟩ := 
    forall₂_exists_left (assignIDs_assigned st.kept st.ids false).flip hg
  have hne : g.id ≠ zeroId := by
    rw [hid]
    decide
  exact ⟨out, st.table_perm.mem_iff.mpr hout, (hkeep hne).trans hid⟩

theorem Stages.table_default : ∀ g ∈ table, g.name = "default".toList → g.id = defaultId := by
  intro out hout hname
  obtain ⟨g, hg, heq, hkeep⟩ := forall₂_exists_left (assignIDs_assigned st.kept st.ids false)
    (st.table_perm.mem_iff.mp hout)
  have hgname : g.name = "default".toList := by
    rw [heq] at hname
    exact hname
  have hid := st.default_root g hg hgname
  have hne : g.id ≠ zeroId := by
    rw [hid]
    decide
  exact (hkeep hne).trans hid

theorem Stages.table_sorted : table.Pairwise fun a b => a.id.val ≤ b.id.val := by
  have h := sort_idLess_sorted sliceStable (assignIDs st.kept st.ids false).1
  rw [← st.table_eq] at h
  exact h

theorem Stages.table_clean : ∀ g ∈ table, cleanGroup g = g := by
  intro g hg
  obtain ⟨out, hkeeps, hperm⟩ := st.entries
  obtain ⟨group, -, hk⟩ := forall₂_exists_left hkeeps (hperm.mem_iff.mp hg)
  have hname : trimSpace g.name = g.name := by rw [hk.name, trimSpace_trimSpace]
  have hdescription : trimSpace g.description = g.description := by
    rw [hk.description, trimSpace_trimSpace]
  have hnote : trimSpace g.note = g.note := by rw [hk.note, trimSpace_trimSpace]
  have htag : trimSpace g.tag = g.tag := by rw [hk.tag, trimSpace_trimSpace]
  simp [cleanGroup, hname, hdescription, hnote, htag]

theorem Stages.table_ne_nil : table ≠ [] := by
  intro hnil
  obtain ⟨g, hg, -⟩ := st.table_root
  rw [hnil] at hg
  exact absurd hg List.not_mem_nil

theorem Stages.again (hpos : ∀ g ∈ table, 0 < g.id.val)
    (hnodup : (table.map PricingGroup.id).Nodup) :
    normalizePricingGroups sliceStable (table.map some) = .ok table := by
  obtain ⟨s, hscan, hcleaned⟩ := scanGroups_clean table emptyScan st.table_clean st.names_good hpos
    st.names_nodup hnodup
  have hcleaned' : s.cleaned = table := hcleaned
  have hperm := sliceStable.perm preferredLess table
  have hkeep := keepDefault_of_root (sliceStable.sort preferredLess table) ⟨s.seenIDs, s.nextID⟩
    fun g hg => st.table_default g (hperm.mem_iff.mp hg)
  have hassign := assignIDs_of_numbered (sliceStable.sort preferredLess table)
    ⟨s.seenIDs, s.nextID⟩ false fun g hg => hpos g (hperm.mem_iff.mp hg)
  have hflag : (assignIDs (sliceStable.sort preferredLess table) ⟨s.seenIDs, s.nextID⟩
      false).2 = true := by
    rw [assignIDs_hasDefault]
    obtain ⟨g, hg, hid⟩ := st.table_root
    exact Or.inr ⟨g, hperm.mem_iff.mpr hg, hid⟩
  -- the last sort puts the permuted table back in order
  have hsorted := sort_idLess_sorted sliceStable (sliceStable.sort preferredLess table)
  have hback : sliceStable.sort idLess (sliceStable.sort preferredLess table) = table := by
    refine List.Perm.eq_of_pairwise ?_ hsorted st.table_sorted
      ((sliceStable.perm _ _).trans hperm)
    intro a b ha hb hab hba
    have hid : a.id = b.id := Word.ext (le_antisymm hab hba)
    exact List.inj_on_of_nodup_map hnodup (hperm.mem_iff.mp ((sliceStable.perm _ _).mem_iff.mp ha))
      hb hid
  rw [normalizePricingGroups, hscan]
  simp only [Except.bind, hcleaned', if_neg st.table_ne_nil, hkeep, hassign, hflag, if_true, hback]

end Stage

def unnumbered (entries : List PricingGroup) : ℕ :=
  entries.countP fun g => decide (g.id = zeroId ∧ g.name ≠ "default".toList)

def lastGiven (entries : List PricingGroup) : ℤ :=
  max 1 (largest (afterMax (givenIDs entries)))

/-- No entry has a negative id, and there are enough ids for the new entries between the last
given one and the largest `int`. The largest `int` may be given only if another id comes after it
or `default` comes without an id, since the counter starts again from there. -/
def Numberable (entries : List PricingGroup) : Prop :=
  (∀ g ∈ entries, 0 ≤ g.id.val) ∧
    (unnumbered entries = 0 ∨
      (entries.any isNewDefault = true ∨ afterMax (givenIDs entries) ≠ []) ∧
        (unnumbered entries : ℤ) +
            ((givenIDs entries).filter fun id => decide (lastGiven entries < id.val)).length ≤
          9223372036854775807 - lastGiven entries)

instance (entries : List PricingGroup) : Decidable (Numberable entries) :=
  inferInstanceAs (Decidable ((∀ g ∈ entries, 0 ≤ g.id.val) ∧ _))

theorem missing_forceDefault (groups : List PricingGroup) :
    missing (groups.map forceDefault) = unnumbered groups := by
  rw [missing, List.countP_map]
  apply List.countP_congr
  intro g _
  rw [Function.comp_apply, decide_eq_true_eq, decide_eq_true_eq]
  by_cases hid : g.id = zeroId
  · by_cases hname : g.name = "default".toList
    · have hnew : isNewDefault g = true := decide_eq_true ⟨hname, hid⟩
      have hne : defaultId ≠ zeroId := by decide
      rw [forceDefault, if_pos hnew]
      exact ⟨fun h => absurd h hne, fun h => absurd hname h.2⟩
    · have hold : isNewDefault g = false := decide_eq_false fun hnew => hname hnew.1
      have hsame : forceDefault g = g := by simp [forceDefault, hold]
      rw [hsame]
      exact ⟨fun _ => ⟨hid, hname⟩, fun _ => hid⟩
  · rw [forceDefault_of_given hid]
    exact ⟨fun h => absurd h hid, fun h => absurd h.1 hid⟩

theorem map_forceDefault {groups : List PricingGroup} (h : groups.any isNewDefault = false) :
    groups.map forceDefault = groups := by
  conv_rhs => rw [← List.map_id groups]
  apply List.map_congr_left
  intro g hg
  have hold := List.any_eq_false.mp h g hg
  simp [forceDefault, hold]

theorem mem_givenIDs_forceDefault {groups : List PricingGroup} {id : Word}
    (h : id ∈ givenIDs (groups.map forceDefault)) : id ∈ givenIDs groups ∨ id = defaultId := by
  obtain ⟨⟨g, hg, hid⟩, hpos⟩ := mem_givenIDs.mp h
  obtain ⟨g', hg', rfl⟩ := List.mem_map.mp hg
  unfold forceDefault at hid
  split at hid
  · exact Or.inr hid.symm
  · exact Or.inl (mem_givenIDs.mpr ⟨⟨g', hg', hid⟩, hpos⟩)

theorem givenIDs_forceDefault_nodup {groups : List PricingGroup}
    (hnames : (groups.map PricingGroup.name).Nodup) (hids : (givenIDs groups).Nodup)
    (hunused : defaultId ∉ givenIDs groups) : (givenIDs (groups.map forceDefault)).Nodup := by
  induction groups with
  | nil => exact List.nodup_nil
  | cons g groups ih =>
    rw [List.map_cons, List.nodup_cons] at hnames
    rw [givenIDs_cons] at hids hunused
    rw [List.map_cons, givenIDs_cons]
    by_cases hnew : isNewDefault g = true
    · have hg := of_decide_eq_true hnew
      have hzero : ¬ 0 < g.id.val := by
        rw [hg.2]
        decide
      have hrest : groups.any isNewDefault = false := by
        rw [List.any_eq_false]
        intro g' hg' hnew'
        have hname := (of_decide_eq_true hnew').1
        exact hnames.1 (List.mem_map.mpr ⟨g', hg', hname.trans hg.1.symm⟩)
      have hone : 0 < defaultId.val := by decide
      rw [if_neg hzero] at hids hunused
      rw [map_forceDefault hrest, forceDefault, if_pos hnew]
      simp only [if_pos hone, List.nodup_cons]
      exact ⟨hunused, hids⟩
    · have hsame : forceDefault g = g := if_neg hnew
      rw [hsame]
      by_cases hpos : 0 < g.id.val
      · rw [if_pos hpos, List.nodup_cons] at hids
        rw [if_pos hpos, List.mem_cons, not_or] at hunused
        rw [if_pos hpos, List.nodup_cons]
        refine ⟨?_, ih hnames.2 hids.2 hunused.2⟩
        intro hmem
        rcases mem_givenIDs_forceDefault hmem with h | h
        · exact hids.1 h
        · exact hunused.1 h.symm
      · rw [if_neg hpos] at hids hunused ⊢
        exact ih hnames.2 hids hunused

theorem roomFor_iff {used given : List Word} {next : Word} {last : ℤ} (hnodup : used.Nodup)
    (hlast : 1 ≤ last) (hnext : next.val = last + 1)
    (hahead : ahead used next = (given.filter fun id => decide (last < id.val)).length) (k : ℕ) :
    RoomFor k used next ↔ k = 0 ∨
      (k : ℤ) + (given.filter fun id => decide (last < id.val)).length ≤
        9223372036854775807 - last := by
  have hcard := card_free hnodup next
  constructor
  · rintro (h | ⟨-, h⟩)
    · exact Or.inl h
    · exact Or.inr (by omega)
  · rintro (h | h)
    · exact Or.inl h
    · exact Or.inr ⟨by omega, by omega⟩

theorem ahead_eq {given : List Word} {next : Word} {last : ℤ} (hnext : next.val = last + 1) :
    ahead given next = (given.filter fun id => decide (last < id.val)).length := by
  rw [ahead]
  congr 2
  funext id
  rw [decide_eq_decide]
  omega

theorem liftNext_val (next : Word) : (liftNext next).val = max 2 next.val := by
  unfold liftNext
  split
  · have htwo : defaultId.succ.val = 2 := rfl
    omega
  · omega

section Stage

variable {sliceStable : SliceStable} {groups : List (Option PricingGroup)}
  {table : List PricingGroup} (st : Stages sliceStable groups table)
include st

theorem Stages.given_pos : ∀ id ∈ st.scan.seenIDs, 0 < id.val := by
  intro id hid
  rw [st.scanned.ids] at hid
  exact (mem_givenIDs.mp hid).2

theorem Stages.seen_pos : ∀ id ∈ st.ids.seenIDs, 0 < id.val := by
  rcases st.ids_eq with ⟨-, -, h⟩ | ⟨-, h⟩
  · intro id hid
    rw [h] at hid
    rcases List.mem_append.mp hid with hid | hid
    · exact st.given_pos id hid
    · rw [List.mem_singleton.mp hid]
      decide
  · rw [h]
    exact st.given_pos

theorem Stages.missing_eq : missing st.kept = unnumbered st.scan.cleaned := by
  rw [st.kept_eq, missing_forceDefault]
  exact st.perm.countP_eq _

theorem Stages.any_eq : st.sorted.any isNewDefault = st.scan.cleaned.any isNewDefault := by
  rw [Bool.eq_iff_iff]
  simp [st.perm.mem_iff]

theorem Stages.given_root (hold : st.sorted.any isNewDefault = false) :
    defaultId ∈ st.scan.seenIDs := by
  obtain ⟨g, hg, hid⟩ := st.root
  rw [st.kept_eq] at hg
  obtain ⟨g', hg', rfl⟩ := List.mem_map.mp hg
  have hsame : forceDefault g' = g' := by
    have h := (List.any_eq_false.mp hold) g' hg'
    simp [forceDefault, h]
  rw [hsame] at hid
  rw [st.scanned.ids, mem_givenIDs]
  exact ⟨⟨g', st.perm.mem_iff.mp hg', hid⟩, by decide⟩

theorem Stages.room_iff :
    RoomFor (missing st.kept) st.ids.seenIDs st.ids.nextID ↔
      (unnumbered st.scan.cleaned = 0 ∨
        (st.scan.cleaned.any isNewDefault = true ∨ afterMax (givenIDs st.scan.cleaned) ≠ []) ∧
          (unnumbered st.scan.cleaned : ℤ) + ((givenIDs st.scan.cleaned).filter
              fun id => decide (lastGiven st.scan.cleaned < id.val)).length ≤
            9223372036854775807 - lastGiven st.scan.cleaned) := by
  have hcounter := foldl_raise st.scan.seenIDs st.given_pos
  rw [← st.scanned.next] at hcounter
  rw [st.missing_eq, ← st.any_eq, lastGiven, ← st.scanned.ids]
  rcases st.ids_eq with ⟨hnew, hunused, hids⟩ | ⟨hold, hids⟩
  · -- `default` takes id 1, and the counter starts at 2 or above
    have hnext : (liftNext st.scan.nextID).val =
        max 1 (largest (afterMax st.scan.seenIDs)) + 1 := by
      rw [liftNext_val]
      rcases hcounter with ⟨hnil, hle, -⟩ | ⟨-, heq⟩
      · have hzero : largest [] = 0 := rfl
        rw [hnil]
        omega
      · omega
    have hahead : ahead (st.scan.seenIDs ++ [defaultId]) (liftNext st.scan.nextID) =
        (st.scan.seenIDs.filter fun id =>
          decide (max 1 (largest (afterMax st.scan.seenIDs)) < id.val)).length := by
      have hsmall : ¬ (liftNext st.scan.nextID).val ≤ defaultId.val := by
        have hone : defaultId.val = 1 := rfl
        omega
      rw [← ahead_eq hnext, ahead, ahead]
      simp [hsmall]
    rw [hids]
    simp only
    rw [roomFor_iff (List.concat_eq_append ▸ st.scanned.ids_nodup.concat hunused) (le_max_left 1 _) hnext hahead]
    simp [hnew]
  · rw [hids, hold]
    simp only [Bool.false_eq_true, false_or]
    rcases hcounter with ⟨hnil, -, hle⟩ | ⟨hne, heq⟩
    · -- the counter ran over the top and no id came after that
      have hneg := hle (List.ne_nil_of_mem (st.given_root hold))
      constructor
      · rintro (h | ⟨hpos, -⟩)
        · exact Or.inl h
        · omega
      · rintro (h | ⟨h, -⟩)
        · exact Or.inl h
        · exact absurd hnil h
    · have hpos := largest_pos hne fun id hid => st.given_pos id (mem_of_mem_afterMax hid)
      have hnext : st.scan.nextID.val = max 1 (largest (afterMax st.scan.seenIDs)) + 1 := by
        omega
      rw [roomFor_iff st.scanned.ids_nodup (le_max_left 1 _) hnext (ahead_eq hnext)]
      simp [hne]

theorem Stages.nonneg_iff :
    (∀ g ∈ st.kept, 0 ≤ g.id.val) ↔ ∀ g ∈ st.scan.cleaned, 0 ≤ g.id.val := by
  rw [st.kept_eq]
  have hforce : ∀ g : PricingGroup, 0 ≤ (forceDefault g).id.val ↔ 0 ≤ g.id.val := by
    intro g
    by_cases hid : g.id = zeroId
    · have hval : g.id.val = 0 := congrArg Word.val hid
      unfold forceDefault
      split
      · have hone : defaultId.val = 1 := rfl
        simp only
        omega
      · rfl
    · rw [forceDefault_of_given hid]
  simp [hforce, st.perm.mem_iff]

theorem Stages.ids_pos_iff :
    (∀ g ∈ table, 0 < g.id.val) ↔ Numberable ((named groups).map cleanGroup) := by
  have hpos := assignIDs_pos_iff st.kept st.ids false st.seen_pos
  rw [st.nonneg_iff, st.room_iff] at hpos
  rw [← st.scanned.cleaned, Numberable, ← hpos]
  simp [st.table_perm.mem_iff]

theorem Stages.ids_nodup (hpos : ∀ g ∈ table, 0 < g.id.val) :
    (table.map PricingGroup.id).Nodup := by
  have hperm := givenIDs_perm st.perm
  have hsorted : (givenIDs st.sorted).Nodup := by
    rw [hperm.nodup_iff, ← st.scanned.ids]
    exact st.scanned.ids_nodup
  have hnames : (st.sorted.map PricingGroup.name).Nodup := by
    rw [(st.perm.map _).nodup_iff, ← st.scanned.names]
    exact st.scanned.names_nodup
  have hmem : ∀ id, id ∈ givenIDs st.sorted → id ∈ st.scan.seenIDs := by
    intro id hid
    rw [st.scanned.ids]
    exact hperm.mem_iff.mp hid
  have hkept : (givenIDs st.kept).Nodup ∧ ∀ id ∈ givenIDs st.kept, id ∈ st.ids.seenIDs := by
    rw [st.kept_eq]
    rcases st.ids_eq with ⟨-, hunused, hids⟩ | ⟨hold, hids⟩
    · refine ⟨givenIDs_forceDefault_nodup hnames hsorted fun h => hunused (hmem _ h), ?_⟩
      intro id hid
      rw [hids]
      rcases mem_givenIDs_forceDefault hid with h | h
      · exact List.mem_append_left _ (hmem id h)
      · exact List.mem_append_right _ (List.mem_singleton.mpr h)
    · rw [map_forceDefault hold, hids]
      exact ⟨hsorted, hmem⟩
  rw [(st.table_perm.map _).nodup_iff]
  exact (assignIDs_nodup st.kept st.ids false st.seen_pos hkept.2 hkept.1
    fun out hout => hpos out (st.table_perm.mem_iff.mpr hout)).1

theorem Stages.normalized (hpos : ∀ g ∈ table, 0 < g.id.val) :
    Normalized sliceStable groups table where
  ids_pos := hpos
  ids_nodup := st.ids_nodup hpos
  names_good := st.names_good
  names_nodup := st.names_nodup
  entries := st.entries
  root := st.table_root
  default_root := st.table_default
  sorted := st.table_sorted
  again := st.again hpos (st.ids_nodup hpos)

end Stage

def insertionStable : SliceStable where
  sort less groups := groups.insertionSort fun a b => less b a = false
  perm less groups := List.perm_insertionSort _ groups
  sorted less groups hirr htrans hneg := by
    have htotal : ∀ a b, less b a = false ∨ less a b = false := by
      intro a b
      by_contra h
      rw [not_or, Bool.not_eq_false, Bool.not_eq_false] at h
      have haa := htrans a b a h.2 h.1
      rw [hirr a] at haa
      cases haa
    have : Std.Total fun a b : PricingGroup => less b a = false := ⟨htotal⟩
    have : IsTrans PricingGroup fun a b => less b a = false :=
      ⟨fun a b c hab hbc => hneg c b a hbc hab⟩
    exact List.pairwise_insertionSort _ groups

def plainGroup (name : String) (id : Word) : PricingGroup := ⟨id, name.toList, 1, true, [], [], []⟩

def idFive : Word := ⟨5, by decide, by decide⟩

def idMinusFive : Word := ⟨-5, by decide, by decide⟩

/-- A table that `normalizePricingGroups` returns is well formed exactly when the entries of the
list can be numbered. -/
theorem normalized_iff_numberable (sliceStable : SliceStable)
    (groups : List (Option PricingGroup)) (table : List PricingGroup)
    (h : normalizePricingGroups sliceStable groups = .ok table) :
    Normalized sliceStable groups table ↔ Numberable ((named groups).map cleanGroup) := by
  obtain ⟨st⟩ := normalizePricingGroups_ok h
  rw [← st.ids_pos_iff]
  exact ⟨fun hn => hn.ids_pos, st.normalized⟩

theorem normalized_iff_numberable_newGroup :
    normalizePricingGroups insertionStable
        [some (plainGroup "new" zeroId), some (plainGroup "gold" idFive),
          some (plainGroup " default " zeroId)] =
      .ok [plainGroup "default" defaultId, plainGroup "gold" idFive,
        plainGroup "new" idFive.succ] ∧
    Normalized insertionStable
      [some (plainGroup "new" zeroId), some (plainGroup "gold" idFive),
        some (plainGroup " default " zeroId)]
      [plainGroup "default" defaultId, plainGroup "gold" idFive, plainGroup "new" idFive.succ] :=
  ⟨by decide, (normalized_iff_numberable insertionStable _ _ (by decide)).mpr (by decide)⟩

/-- Two groups share the id -5; and a new group gets the least `int` after the largest one. -/
theorem normalize_accepts_negative_ids :
    (normalizePricingGroups insertionStable
        [some (plainGroup "default" defaultId), some (plainGroup "gold" idMinusFive),
          some (plainGroup "silver" idMinusFive)] =
      .ok [plainGroup "gold" idMinusFive, plainGroup "silver" idMinusFive,
        plainGroup "default" defaultId] ∧
    ¬ Normalized insertionStable
      [some (plainGroup "default" defaultId), some (plainGroup "gold" idMinusFive),
        some (plainGroup "silver" idMinusFive)]
      [plainGroup "gold" idMinusFive, plainGroup "silver" idMinusFive,
        plainGroup "default" defaultId]) ∧
    normalizePricingGroups insertionStable
        [some (plainGroup "default" defaultId), some (plainGroup "top" Word.max),
          some (plainGroup "new" zeroId)] =
      .ok [plainGroup "new" Word.min, plainGroup "default" defaultId,
        plainGroup "top" Word.max] ∧
    ¬ Normalized insertionStable
      [some (plainGroup "default" defaultId), some (plainGroup "top" Word.max),
        some (plainGroup "new" zeroId)]
      [plainGroup "new" Word.min, plainGroup "default" defaultId, plainGroup "top" Word.max] := by
  refine ⟨⟨by decide, ?_⟩, by decide, ?_⟩
  · intro hn
    have hpos := hn.ids_pos (plainGroup "gold" idMinusFive) List.mem_cons_self
    exact absurd hpos (by decide)
  · intro hn
    have hpos := hn.ids_pos (plainGroup "new" Word.min) List.mem_cons_self
    exact absurd hpos (by decide)

end NewApi.Setting.Ratio
