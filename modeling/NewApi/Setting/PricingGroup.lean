import Mathlib.Data.List.Perm.Basic
import Mathlib.Data.List.Sort
import Mathlib.Data.Rat.Defs
import NewApi.Common.Text
import NewApi.Lib.Fresh

/-!
# Pricing groups (setting/ratio_setting/pricing_group.go)

`normalizePricingGroups` checks a list, gives ids to the groups without one and sorts.
-/

namespace NewApi.Setting.Ratio

open Fresh

structure PricingGroup where
  id : Word
  name : Text
  ratio : ℚ
  selectable : Bool
  description : Text
  note : Text
  tag : Text
  deriving DecidableEq

def zeroId : Word := ⟨0, by decide, by decide⟩

def defaultId : Word := ⟨1, by decide, by decide⟩

def preferredPricingGroupOrder (name : Text) : ℕ :=
  let name := trimSpace name
  if name = "default".toList then 0
  else if name = "vip".toList then 1
  else if name = "svip".toList then 2
  else 3

def preferredLess (a b : PricingGroup) : Bool :=
  let ai := preferredPricingGroupOrder a.name
  let aj := preferredPricingGroupOrder b.name
  if ai ≠ aj then decide (ai < aj)
  else if 0 < a.id.val ∧ 0 < b.id.val then decide (a.id.val < b.id.val)
  else decide (a.name < b.name)

def idLess (a b : PricingGroup) : Bool := decide (a.id.val < b.id.val)

/-- What `sort.SliceStable` promises: it only moves the elements, and they come out in order when
the comparison is a strict weak order. -/
structure SliceStable where
  sort : (PricingGroup → PricingGroup → Bool) → List PricingGroup → List PricingGroup
  perm : ∀ less groups, (sort less groups).Perm groups
  sorted : ∀ less groups, (∀ a, less a a = false) →
    (∀ a b c, less a b = true → less b c = true → less a c = true) →
    (∀ a b c, less a b = false → less b c = false → less a c = false) →
    (sort less groups).Pairwise fun a b => less b a = false

structure Scan where
  cleaned : List PricingGroup
  seenIDs : List Word
  seenNames : List Text
  nextID : Word

def emptyScan : Scan := ⟨[], [], [], defaultId⟩

def cleanGroup (group : PricingGroup) : PricingGroup where
  id := group.id
  name := trimSpace group.name
  ratio := group.ratio
  selectable := group.selectable
  description := trimSpace group.description
  note := trimSpace group.note
  tag := trimSpace group.tag

def raise (nextID id : Word) : Word := if nextID.val ≤ id.val then id.succ else nextID

def scanGroup (s : Scan) : Option PricingGroup → Except Text Scan
  | none => .ok s
  | some group =>
    let name := trimSpace group.name
    if name = [] then .ok s
    else if name = "auto".toList then
      .error ("pricing group name is reserved: ".toList ++ name)
    else if (atoi name).isSome then
      .error ("pricing group name must not be numeric: ".toList ++ name)
    else if s.seenNames.any (fun seen => decide (seen = name)) then
      .error ("pricing group name must be unique: ".toList ++ name)
    else
      let item := cleanGroup group
      if 0 < item.id.val then
        if s.seenIDs.any (fun seen => decide (seen = item.id)) then
          .error ("pricing group id must be unique: ".toList ++ fmtInt item.id.val)
        else
          .ok ⟨s.cleaned ++ [item], s.seenIDs ++ [item.id], s.seenNames ++ [name],
            raise s.nextID item.id⟩
      else .ok ⟨s.cleaned ++ [item], s.seenIDs, s.seenNames ++ [name], s.nextID⟩

def scanGroups : List (Option PricingGroup) → Scan → Except Text Scan
  | [], s => .ok s
  | group :: groups, s => (scanGroup s group).bind (scanGroups groups)

structure Ids where
  seenIDs : List Word
  nextID : Word

/-- `assignID`: the number of rounds is bounded, since every round that does not return meets
another id in use (`first_notMem`). -/
def assignID (ids : Ids) : Word × Ids :=
  let id := first ids.seenIDs (ids.seenIDs.length + 1) ids.nextID
  (id, ⟨id :: ids.seenIDs, id.succ⟩)

def liftNext (nextID : Word) : Word := if nextID.val ≤ 1 then defaultId.succ else nextID

def keepDefault : List PricingGroup → Ids → Except Text (List PricingGroup × Ids)
  | [], ids => .ok ([], ids)
  | group :: groups, ids =>
    if group.name = "default".toList then
      if group.id ≠ zeroId ∧ group.id ≠ defaultId then
        .error "default pricing group must keep id 1".toList
      else if ids.seenIDs.any (fun seen => decide (seen = defaultId)) ∧ group.id ≠ defaultId then
        .error "default pricing group id 1 is already used".toList
      else if group.id = zeroId then
        (keepDefault groups ⟨ids.seenIDs ++ [defaultId], liftNext ids.nextID⟩).map
            fun r => ({ group with id := defaultId } :: r.1, r.2)
      else (keepDefault groups ids).map fun r => (group :: r.1, r.2)
    else (keepDefault groups ids).map fun r => (group :: r.1, r.2)

/-- The loop that assigns the missing ids; the flag is `hasDefault`. -/
def assignIDs : List PricingGroup → Ids → Bool → List PricingGroup × Bool
  | [], _, hasDefault => ([], hasDefault)
  | group :: groups, ids, hasDefault =>
    let hasDefault := if group.id = defaultId then true else hasDefault
    if group.id = zeroId then
      let r := assignID ids
      let rest := assignIDs groups r.2 hasDefault
      ({ group with id := r.1 } :: rest.1, rest.2)
    else
      let rest := assignIDs groups ids hasDefault
      (group :: rest.1, rest.2)

def normalizePricingGroups (sliceStable : SliceStable) (groups : List (Option PricingGroup)) :
    Except Text (List PricingGroup) :=
  (scanGroups groups emptyScan).bind fun s =>
    if s.cleaned = [] then .error "pricing groups cannot be empty".toList
    else
      (keepDefault (sliceStable.sort preferredLess s.cleaned) ⟨s.seenIDs, s.nextID⟩).bind fun r =>
        let assigned := assignIDs r.1 r.2 false
        if assigned.2 then .ok (sliceStable.sort idLess assigned.1)
        else .error "default pricing group cannot be deleted".toList

/-! ## What a normalized table is -/

def named (groups : List (Option PricingGroup)) : List PricingGroup :=
  groups.filterMap fun group => group.filter fun g => decide (trimSpace g.name ≠ [])

structure Keeps (group out : PricingGroup) : Prop where
  name : out.name = trimSpace group.name
  ratio : out.ratio = group.ratio
  selectable : out.selectable = group.selectable
  description : out.description = trimSpace group.description
  note : out.note = trimSpace group.note
  tag : out.tag = trimSpace group.tag
  id : 0 < group.id.val → out.id = group.id

def GoodName (name : Text) : Prop :=
  name ≠ [] ∧ trimSpace name = name ∧ atoi name = none ∧ name ≠ "auto".toList

/-- A table that the rest of the code may index by id and by name, with the entries of the input in
the order of their ids, and normalized again it is itself. -/
structure Normalized (sliceStable : SliceStable) (groups : List (Option PricingGroup))
    (table : List PricingGroup) : Prop where
  ids_pos : ∀ group ∈ table, 0 < group.id.val
  ids_nodup : (table.map PricingGroup.id).Nodup
  names_good : ∀ group ∈ table, GoodName group.name
  names_nodup : (table.map PricingGroup.name).Nodup
  entries : ∃ out, List.Forall₂ Keeps (named groups) out ∧ table.Perm out
  root : ∃ group ∈ table, group.id = defaultId
  default_root : ∀ group ∈ table, group.name = "default".toList → group.id = defaultId
  sorted : table.Pairwise fun a b => a.id.val ≤ b.id.val
  again : normalizePricingGroups sliceStable (table.map some) = .ok table

/-! ## The first loop -/

def givenIDs (groups : List PricingGroup) : List Word :=
  (groups.map PricingGroup.id).filter fun id => decide (0 < id.val)

theorem givenIDs_append (a b : List PricingGroup) :
    givenIDs (a ++ b) = givenIDs a ++ givenIDs b := by
  rw [givenIDs, List.map_append, List.filter_append]
  rfl

theorem givenIDs_cons (g : PricingGroup) (groups : List PricingGroup) :
    givenIDs (g :: groups) = if 0 < g.id.val then g.id :: givenIDs groups else givenIDs groups := by
  by_cases h : 0 < g.id.val <;> simp [givenIDs, h]

variable {groups : List PricingGroup} {g : PricingGroup} {s s' : Scan}

theorem mem_givenIDs {id : Word} :
    id ∈ givenIDs groups ↔ (∃ g ∈ groups, g.id = id) ∧ 0 < id.val := by
  simp [givenIDs]

theorem givenIDs_perm {a b : List PricingGroup} (h : a.Perm b) :
    (givenIDs a).Perm (givenIDs b) :=
  (h.map _).filter _

structure Scanned (done : List PricingGroup) (s : Scan) : Prop where
  cleaned : s.cleaned = done.map cleanGroup
  names : s.seenNames = s.cleaned.map PricingGroup.name
  names_good : ∀ g ∈ s.cleaned, GoodName g.name
  names_nodup : s.seenNames.Nodup
  ids : s.seenIDs = givenIDs s.cleaned
  ids_nodup : s.seenIDs.Nodup
  next : s.nextID = s.seenIDs.foldl raise defaultId

theorem scanGroup_some {group : PricingGroup} (hne : trimSpace group.name ≠ [])
    (h : scanGroup s (some group) = .ok s') :
    GoodName (trimSpace group.name) ∧ trimSpace group.name ∉ s.seenNames ∧
      s'.cleaned = s.cleaned ++ [cleanGroup group] ∧
      s'.seenNames = s.seenNames ++ [trimSpace group.name] ∧
      (0 < group.id.val ∧ group.id ∉ s.seenIDs ∧ s'.seenIDs = s.seenIDs ++ [group.id] ∧
          s'.nextID = raise s.nextID group.id ∨
        ¬ 0 < group.id.val ∧ s'.seenIDs = s.seenIDs ∧ s'.nextID = s.nextID) := by
  simp only [scanGroup, if_neg hne] at h
  split at h
  · cases h
  rename_i hauto
  split at h
  · cases h
  rename_i hnum
  split at h
  · cases h
  rename_i hname
  have hnone : atoi (trimSpace group.name) = none := Option.not_isSome_iff_eq_none.mp hnum
  have hgood : GoodName (trimSpace group.name) :=
    ⟨hne, trimSpace_trimSpace _, hnone, hauto⟩
  have hfresh : trimSpace group.name ∉ s.seenNames := fun hmem =>
    hname (List.any_eq_true.mpr ⟨_, hmem, decide_eq_true rfl⟩)
  have hid : (cleanGroup group).id = group.id := rfl
  split at h
  · rename_i hpos
    split at h
    · cases h
    rename_i hseen
    have hnew : group.id ∉ s.seenIDs := fun hmem =>
      hseen (List.any_eq_true.mpr ⟨_, hmem, decide_eq_true rfl⟩)
    cases h
    exact ⟨hgood, hfresh, rfl, rfl, Or.inl ⟨hpos, hnew, rfl, rfl⟩⟩
  · rename_i hpos
    cases h
    exact ⟨hgood, hfresh, rfl, rfl, Or.inr ⟨hpos, rfl, rfl⟩⟩

theorem Scanned.step {done : List PricingGroup} (hs : Scanned done s) {group : Option PricingGroup}
    (h : scanGroup s group = .ok s') : Scanned (done ++ named [group]) s' := by
  rcases group with _ | group
  · cases h
    simpa [named] using hs
  · by_cases hne : trimSpace group.name = []
    · simp only [scanGroup, if_pos hne] at h
      cases h
      simpa [named, Option.filter, hne] using hs
    · obtain ⟨hgood, hfresh, hcleaned, hnames, hids⟩ := scanGroup_some hne h
      have hnamed : named [some group] = [group] := by simp [named, Option.filter, hne]
      refine ⟨?_, ?_, ?_, ?_, ?_, ?_, ?_⟩
      · rw [hcleaned, hs.cleaned, hnamed, List.map_append]
        rfl
      · rw [hnames, hcleaned, hs.names, List.map_append]
        rfl
      · rw [hcleaned]
        intro g hg
        rcases List.mem_append.mp hg with hg | hg
        · exact hs.names_good g hg
        · rw [List.mem_singleton.mp hg]
          exact hgood
      · rw [hnames]
        exact List.concat_eq_append ▸ hs.names_nodup.concat hfresh
      · rw [hcleaned, givenIDs_append, ← hs.ids]
        rcases hids with ⟨hpos, _, hseen, _⟩ | ⟨hpos, hseen, _⟩
        · rw [hseen, givenIDs_cons, if_pos (show 0 < (cleanGroup group).id.val from hpos)]
          rfl
        · rw [hseen, givenIDs_cons, if_neg (show ¬ 0 < (cleanGroup group).id.val from hpos)]
          exact (List.append_nil _).symm
      · rcases hids with ⟨_, hnew, hseen, _⟩ | ⟨_, hseen, _⟩
        · rw [hseen]
          exact List.concat_eq_append ▸ hs.ids_nodup.concat hnew
        · rw [hseen]
          exact hs.ids_nodup
      · rcases hids with ⟨_, _, hseen, hnext⟩ | ⟨_, hseen, hnext⟩
        · rw [hnext, hseen, List.foldl_append, ← hs.next]
          rfl
        · rw [hnext, hseen]
          exact hs.next

theorem bind_eq_ok {ε α β : Type} {x : Except ε α} {f : α → Except ε β} {b : β}
    (h : x.bind f = .ok b) : ∃ a, x = .ok a ∧ f a = .ok b := by
  cases x with
  | error e => cases h
  | ok a => exact ⟨a, rfl, h⟩

theorem Scanned.run {groups : List (Option PricingGroup)} {done : List PricingGroup}
    (hs : Scanned done s) (h : scanGroups groups s = .ok s') :
    Scanned (done ++ named groups) s' := by
  induction groups generalizing done s with
  | nil =>
    cases h
    simpa [named] using hs
  | cons group groups ih =>
    obtain ⟨s₁, h₁, hrest⟩ := bind_eq_ok h
    have hnamed : named (group :: groups) = named [group] ++ named groups := by
      rw [named, named, named, ← List.filterMap_append]
      rfl
    rw [hnamed, ← List.append_assoc]
    exact ih (hs.step h₁) hrest

/-! A clean table passes the loop again. -/

theorem scanGroup_clean {s : Scan} (hclean : cleanGroup g = g) (hgood : GoodName g.name)
    (hname : g.name ∉ s.seenNames) (hpos : 0 < g.id.val) (hid : g.id ∉ s.seenIDs) :
    scanGroup s (some g) = .ok ⟨s.cleaned ++ [g], s.seenIDs ++ [g.id], s.seenNames ++ [g.name],
      raise s.nextID g.id⟩ := by
  obtain ⟨hne, htrim, hnum, hauto⟩ := hgood
  have hnames : ¬ s.seenNames.any (fun seen => decide (seen = g.name)) = true := by
    simpa using hname
  have hids : ¬ s.seenIDs.any (fun seen => decide (seen = g.id)) = true := by
    simpa using hid
  have hnum' : ¬ (atoi g.name).isSome = true := by simp [hnum]
  simp only [scanGroup, htrim, hclean]
  rw [if_neg hne, if_neg hauto, if_neg hnum', if_neg hnames, if_pos hpos, if_neg hids]

theorem scanGroups_clean (table : List PricingGroup) (s : Scan)
    (hclean : ∀ g ∈ table, cleanGroup g = g) (hgood : ∀ g ∈ table, GoodName g.name)
    (hpos : ∀ g ∈ table, 0 < g.id.val)
    (hnames : (s.seenNames ++ table.map PricingGroup.name).Nodup)
    (hids : (s.seenIDs ++ table.map PricingGroup.id).Nodup) :
    ∃ s', scanGroups (table.map some) s = .ok s' ∧ s'.cleaned = s.cleaned ++ table := by
  induction table generalizing s with
  | nil => exact ⟨s, rfl, (List.append_nil _).symm⟩
  | cons g table ih =>
    rw [List.map_cons, List.append_cons] at hnames hids
    have hname : g.name ∉ s.seenNames := by
      intro hmem
      have hd := (List.nodup_append.mp (List.nodup_append.mp hnames).1).2.2
      exact hd _ hmem _ (List.mem_singleton_self _) rfl
    have hid : g.id ∉ s.seenIDs := by
      intro hmem
      have hd := (List.nodup_append.mp (List.nodup_append.mp hids).1).2.2
      exact hd _ hmem _ (List.mem_singleton_self _) rfl
    have hstep := scanGroup_clean (hclean g List.mem_cons_self) (hgood g List.mem_cons_self) hname
      (hpos g List.mem_cons_self) hid
    obtain ⟨s', hrun, hcleaned⟩ := ih
      ⟨s.cleaned ++ [g], s.seenIDs ++ [g.id], s.seenNames ++ [g.name], raise s.nextID g.id⟩
      (fun g hg => hclean g (List.mem_cons_of_mem _ hg))
      (fun g hg => hgood g (List.mem_cons_of_mem _ hg))
      (fun g hg => hpos g (List.mem_cons_of_mem _ hg)) hnames hids
    refine ⟨s', ?_, ?_⟩
    · rw [List.map_cons, scanGroups, hstep]
      exact hrun
    · rw [hcleaned]
      exact (List.append_cons _ _ _).symm

/-! ## The counter -/

/-- The ids that came after the largest id there is, or all of them when it was not given. -/
def afterMax (ids : List Word) : List Word :=
  ids.reverse.takeWhile fun id => decide (id ≠ Word.max)

def largest (ids : List Word) : ℤ := ids.foldr (fun id m => max id.val m) 0

theorem afterMax_concat (ids : List Word) (id : Word) :
    afterMax (ids ++ [id]) = if id = Word.max then [] else id :: afterMax ids := by
  by_cases h : id = Word.max <;> simp [afterMax, h]

theorem foldl_raise (ids : List Word) (hpos : ∀ id ∈ ids, 0 < id.val) :
    afterMax ids = [] ∧ (ids.foldl raise defaultId).val ≤ 1 ∧
        (ids ≠ [] → (ids.foldl raise defaultId).val ≤ 0) ∨
      afterMax ids ≠ [] ∧ (ids.foldl raise defaultId).val = largest (afterMax ids) + 1 := by
  induction ids using List.reverseRecOn with
  | nil => exact Or.inl ⟨rfl, le_rfl, fun h => absurd rfl h⟩
  | append_singleton ids id ih =>
    have hid := hpos id (List.mem_append_right _ List.mem_cons_self)
    have hih := ih fun x hx => hpos x (List.mem_append_left _ hx)
    have hhigh := id.high
    rw [List.foldl_append, afterMax_concat]
    simp only [List.foldl_cons, List.foldl_nil]
    generalize ids.foldl raise defaultId = next at hih
    by_cases hmax : id = Word.max
    · -- the largest id: the counter wraps
      have hval : id.val = 9223372036854775807 := by rw [hmax]; rfl
      have hnext : next.val ≤ id.val := by
        have := next.high
        omega
      rw [if_pos hmax, raise, if_pos hnext, Word.succ_of_top (by omega)]
      exact Or.inl ⟨rfl, by decide, fun _ => by decide⟩
    · have hlt : id.val < 9223372036854775807 := by
        have hne := Word.val_ne hmax
        simp only [Word.max] at hne
        omega
      rw [if_neg hmax]
      refine Or.inr ⟨List.cons_ne_nil _ _, ?_⟩
      have hlargest : largest (id :: afterMax ids) = max id.val (largest (afterMax ids)) := rfl
      rw [hlargest, raise]
      rcases hih with ⟨hnil, hle, -⟩ | ⟨-, heq⟩
      · rw [if_pos (by omega), Word.succ_val hlt, hnil]
        have hzero : largest [] = 0 := rfl
        omega
      · by_cases hnext : next.val ≤ id.val
        · rw [if_pos hnext, Word.succ_val hlt]
          omega
        · rw [if_neg hnext]
          omega

theorem largest_pos {ids : List Word} (hne : ids ≠ []) (hpos : ∀ id ∈ ids, 0 < id.val) :
    0 < largest ids := by
  cases ids with
  | nil => exact absurd rfl hne
  | cons id ids =>
    have hid := hpos id List.mem_cons_self
    have hcons : largest (id :: ids) = max id.val (largest ids) := rfl
    omega

theorem mem_of_mem_afterMax {ids : List Word} {id : Word} (h : id ∈ afterMax ids) : id ∈ ids :=
  List.mem_reverse.mp ((List.takeWhile_sublist _).subset h)

/-! ## The group `default` -/

def isNewDefault (g : PricingGroup) : Bool := decide (g.name = "default".toList ∧ g.id = zeroId)

def forceDefault (g : PricingGroup) : PricingGroup :=
  if isNewDefault g then { g with id := defaultId } else g

theorem map_eq_ok {ε α β : Type} {x : Except ε α} {f : α → β} {b : β}
    (h : x.map f = .ok b) : ∃ a, x = .ok a ∧ b = f a := by
  cases x with
  | error e => cases h
  | ok a =>
    cases h
    exact ⟨a, rfl, rfl⟩

theorem keepDefault_cons {ids : Ids} {r : List PricingGroup × Ids}
    (h : keepDefault (g :: groups) ids = .ok r) : isNewDefault g = true ∧ defaultId ∉ ids.seenIDs ∧
        (∃ rest, keepDefault groups ⟨ids.seenIDs ++ [defaultId], liftNext ids.nextID⟩ = .ok rest ∧
          r = ({ g with id := defaultId } :: rest.1, rest.2)) ∨
      isNewDefault g = false ∧ (g.name = "default".toList → g.id = defaultId) ∧
        ∃ rest, keepDefault groups ids = .ok rest ∧ r = (g :: rest.1, rest.2) := by
  rw [keepDefault] at h
  by_cases hname : g.name = "default".toList
  · rw [if_pos hname] at h
    by_cases hother : g.id ≠ zeroId ∧ g.id ≠ defaultId
    · rw [if_pos hother] at h
      cases h
    · rw [if_neg hother] at h
      by_cases hused : ids.seenIDs.any (fun seen => decide (seen = defaultId)) ∧ g.id ≠ defaultId
      · rw [if_pos hused] at h
        cases h
      · rw [if_neg hused] at h
        by_cases hzero : g.id = zeroId
        · rw [if_pos hzero] at h
          have hne : g.id ≠ defaultId := by
            rw [hzero]
            decide
          have hunused : defaultId ∉ ids.seenIDs := fun hmem => hused ⟨any_eq_iff.mpr hmem, hne⟩
          exact Or.inl ⟨decide_eq_true ⟨hname, hzero⟩, hunused, map_eq_ok h⟩
        · rw [if_neg hzero] at h
          have hid : g.id = defaultId := by
            by_contra hne
            exact hother ⟨hzero, hne⟩
          exact Or.inr ⟨decide_eq_false fun hnew => hzero hnew.2, fun _ => hid, map_eq_ok h⟩
  · rw [if_neg hname] at h
    exact Or.inr ⟨decide_eq_false fun hnew => hname hnew.1, fun hn => absurd hn hname, map_eq_ok h⟩

theorem keepDefault_ok {ids : Ids} {r : List PricingGroup × Ids}
    (h : keepDefault groups ids = .ok r) : r.1 = groups.map forceDefault ∧
      (∀ g ∈ r.1, g.name = "default".toList → g.id = defaultId) ∧
      (groups.any isNewDefault = true ∧ defaultId ∉ ids.seenIDs ∧
          r.2 = ⟨ids.seenIDs ++ [defaultId], liftNext ids.nextID⟩ ∨
        groups.any isNewDefault = false ∧ r.2 = ids) := by
  induction groups generalizing ids r with
  | nil =>
    cases h
    exact ⟨rfl, fun g hg => absurd hg List.not_mem_nil, Or.inr ⟨rfl, rfl⟩⟩
  | cons g groups ih =>
    rw [List.map_cons, List.any_cons]
    rcases keepDefault_cons h with ⟨hnew, hunused, rest, hrest, rfl⟩ | ⟨hold, hid, rest, hrest, rfl⟩
    · obtain ⟨hmap, hdef, hcase⟩ := ih hrest
      refine ⟨?_, List.forall_mem_cons.mpr ⟨fun _ => rfl, hdef⟩, Or.inl ⟨?_, hunused, ?_⟩⟩
      · rw [hmap, forceDefault, if_pos hnew]
      · rw [hnew, Bool.true_or]
      · rcases hcase with ⟨_, hmem, _⟩ | ⟨_, hids⟩
        · exact absurd (List.mem_append_right _ List.mem_cons_self) hmem
        · exact hids
    · obtain ⟨hmap, hdef, hcase⟩ := ih hrest
      refine ⟨?_, List.forall_mem_cons.mpr ⟨hid, hdef⟩, ?_⟩
      · have hsame : forceDefault g = g := by simp [forceDefault, hold]
        rw [hmap, hsame]
      · rw [hold]
        exact hcase

theorem keepDefault_of_root (groups : List PricingGroup) (ids : Ids)
    (hroot : ∀ g ∈ groups, g.name = "default".toList → g.id = defaultId) :
    keepDefault groups ids = .ok (groups, ids) := by
  induction groups with
  | nil => rfl
  | cons g groups ih =>
    have hrest := ih fun g' hg' => hroot g' (List.mem_cons_of_mem _ hg')
    rw [keepDefault]
    by_cases hname : g.name = "default".toList
    · have hid := hroot g List.mem_cons_self hname
      have hzero : g.id ≠ zeroId := by
        rw [hid]
        decide
      rw [if_pos hname, if_neg (fun h => h.2 hid), if_neg (fun h => h.2 hid), if_neg hzero, hrest]
      rfl
    · rw [if_neg hname, hrest]
      rfl

/-! ## The missing ids -/

def missing (groups : List PricingGroup) : ℕ := groups.countP fun g => decide (g.id = zeroId)

def Assigned (g out : PricingGroup) : Prop :=
  out = { g with id := out.id } ∧ (g.id ≠ zeroId → out.id = g.id)

theorem assignIDs_zero (hg : g.id = zeroId) (groups : List PricingGroup) (ids : Ids) (flag : Bool) :
    assignIDs (g :: groups) ids flag =
      ({ g with id := (assignID ids).1 } :: (assignIDs groups (assignID ids).2 flag).1,
        (assignIDs groups (assignID ids).2 flag).2) := by
  have hne : g.id ≠ defaultId := by
    rw [hg]
    decide
  simp [assignIDs, if_neg hne, if_pos hg]

theorem assignIDs_kept (hg : g.id ≠ zeroId) (groups : List PricingGroup) (ids : Ids) (flag : Bool) :
    assignIDs (g :: groups) ids flag =
      (g :: (assignIDs groups ids (if g.id = defaultId then true else flag)).1,
        (assignIDs groups ids (if g.id = defaultId then true else flag)).2) := by
  simp [assignIDs, if_neg hg]

theorem assignIDs_assigned (groups : List PricingGroup) (ids : Ids) (flag : Bool) :
    List.Forall₂ Assigned groups (assignIDs groups ids flag).1 := by
  induction groups generalizing ids flag with
  | nil => exact List.Forall₂.nil
  | cons g groups ih =>
    by_cases hg : g.id = zeroId
    · rw [assignIDs_zero hg]
      exact List.Forall₂.cons ⟨rfl, fun hne => absurd hg hne⟩ (ih _ _)
    · rw [assignIDs_kept hg]
      exact List.Forall₂.cons ⟨rfl, fun _ => rfl⟩ (ih _ _)

theorem assignIDs_hasDefault (groups : List PricingGroup) (ids : Ids) (flag : Bool) :
    (assignIDs groups ids flag).2 = true ↔ flag = true ∨ ∃ g ∈ groups, g.id = defaultId := by
  induction groups generalizing ids flag with
  | nil => simp [assignIDs]
  | cons g groups ih =>
    by_cases hg : g.id = zeroId
    · have hne : g.id ≠ defaultId := by
        rw [hg]
        decide
      rw [assignIDs_zero hg, ih]
      simp [hne]
    · rw [assignIDs_kept hg, ih]
      by_cases hd : g.id = defaultId <;> simp [hd]

theorem assignIDs_of_numbered (groups : List PricingGroup) (ids : Ids) (flag : Bool)
    (h : ∀ g ∈ groups, 0 < g.id.val) : (assignIDs groups ids flag).1 = groups := by
  induction groups generalizing flag with
  | nil => rfl
  | cons g groups ih =>
    have hpos := h g List.mem_cons_self
    have hg : g.id ≠ zeroId := by
      intro heq
      rw [heq] at hpos
      exact absurd hpos (by decide)
    rw [assignIDs_kept hg, ih _ fun g' hg' => h g' (List.mem_cons_of_mem _ hg')]

theorem assignIDs_pos_iff (groups : List PricingGroup) (ids : Ids) (flag : Bool)
    (hseen : ∀ id ∈ ids.seenIDs, 0 < id.val) :
    (∀ out ∈ (assignIDs groups ids flag).1, 0 < out.id.val) ↔
      (∀ g ∈ groups, 0 ≤ g.id.val) ∧ RoomFor (missing groups) ids.seenIDs ids.nextID := by
  induction groups generalizing ids flag with
  | nil => simp [assignIDs, missing, RoomFor]
  | cons g groups ih =>
    by_cases hg : g.id = zeroId
    · have hmissing : missing (g :: groups) = missing groups + 1 := by simp [missing, hg]
      have hval : g.id.val = 0 := by
        rw [hg]
        rfl
      rw [assignIDs_zero hg, hmissing, roomFor_succ_iff hseen (r := (assignID ids).1) rfl,
        List.forall_mem_cons, List.forall_mem_cons]
      have hrest : 0 < (assignID ids).1.val →
          ((∀ out ∈ (assignIDs groups (assignID ids).2 flag).1, 0 < out.id.val) ↔
            (∀ g ∈ groups, 0 ≤ g.id.val) ∧
              RoomFor (missing groups) (assignID ids).2.seenIDs (assignID ids).2.nextID) := by
        intro hr
        refine ih (assignID ids).2 flag fun id hid => ?_
        rcases List.mem_cons.mp hid with rfl | hid
        · exact hr
        · exact hseen id hid
      constructor
      · rintro ⟨hr, hout⟩
        obtain ⟨hnonneg, hroom⟩ := (hrest hr).mp hout
        exact ⟨⟨hval.ge, hnonneg⟩, hr, hroom⟩
      · rintro ⟨⟨-, hnonneg⟩, hr, hroom⟩
        exact ⟨hr, (hrest hr).mpr ⟨hnonneg, hroom⟩⟩
    · have hmissing : missing (g :: groups) = missing groups := by simp [missing, hg]
      have hne : g.id.val ≠ 0 := Word.val_ne hg
      rw [assignIDs_kept hg, hmissing, List.forall_mem_cons, List.forall_mem_cons, ih _ _ hseen]
      constructor
      · rintro ⟨hpos, hnonneg, hroom⟩
        exact ⟨⟨hpos.le, hnonneg⟩, hroom⟩
      · rintro ⟨⟨hpos, hnonneg⟩, hroom⟩
        exact ⟨by omega, hnonneg, hroom⟩

theorem assignIDs_nodup (groups : List PricingGroup) (ids : Ids) (flag : Bool)
    (hseen : ∀ id ∈ ids.seenIDs, 0 < id.val) (hgiven : ∀ id ∈ givenIDs groups, id ∈ ids.seenIDs)
    (hnodup : (givenIDs groups).Nodup)
    (hpos : ∀ out ∈ (assignIDs groups ids flag).1, 0 < out.id.val) :
    ((assignIDs groups ids flag).1.map PricingGroup.id).Nodup ∧
      ∀ out ∈ (assignIDs groups ids flag).1, out.id ∈ givenIDs groups ∨ out.id ∉ ids.seenIDs := by
  induction groups generalizing ids flag with
  | nil => exact ⟨List.nodup_nil, fun out hout => absurd hout List.not_mem_nil⟩
  | cons g groups ih =>
    by_cases hg : g.id = zeroId
    · have hzero : ¬ 0 < g.id.val := by
        rw [hg]
        decide
      rw [givenIDs_cons, if_neg hzero] at hgiven hnodup ⊢
      rw [assignIDs_zero hg] at hpos ⊢
      obtain ⟨hr, hrest⟩ := List.forall_mem_cons.mp hpos
      have hfuel : ahead ids.seenIDs ids.nextID < ids.seenIDs.length + 1 :=
        Nat.lt_succ_of_le (List.length_filter_le _ _)
      have hfresh : (assignID ids).1 ∉ ids.seenIDs := first_notMem hseen _ _ hfuel
      obtain ⟨hnd, hnew⟩ := ih (assignID ids).2 flag
        (fun id hid => by
          rcases List.mem_cons.mp hid with rfl | hid
          · exact hr
          · exact hseen id hid)
        (fun id hid => List.mem_cons_of_mem _ (hgiven id hid)) hnodup hrest
      refine ⟨?_, ?_⟩
      · rw [List.map_cons, List.nodup_cons]
        refine ⟨?_, hnd⟩
        intro hmem
        obtain ⟨out, hout, heq⟩ := List.mem_map.mp hmem
        have hsame : out.id = (assignID ids).1 := heq
        rcases hnew out hout with h | h
        · exact hfresh (hsame ▸ hgiven _ h)
        · exact h (hsame ▸ List.mem_cons_self)
      · intro out hout
        rcases List.mem_cons.mp hout with rfl | hout
        · exact Or.inr hfresh
        · rcases hnew out hout with h | h
          · exact Or.inl h
          · exact Or.inr fun hmem => h (List.mem_cons_of_mem _ hmem)
    · rw [assignIDs_kept hg] at hpos ⊢
      obtain ⟨hgpos, hrest⟩ := List.forall_mem_cons.mp hpos
      rw [givenIDs_cons, if_pos hgpos] at hgiven hnodup ⊢
      obtain ⟨hgnew, hnd'⟩ := List.nodup_cons.mp hnodup
      have hgseen := hgiven g.id List.mem_cons_self
      obtain ⟨hnd, hnew⟩ := ih ids _ hseen
        (fun id hid => hgiven id (List.mem_cons_of_mem _ hid)) hnd' hrest
      refine ⟨?_, ?_⟩
      · rw [List.map_cons, List.nodup_cons]
        refine ⟨?_, hnd⟩
        intro hmem
        obtain ⟨out, hout, heq⟩ := List.mem_map.mp hmem
        rcases hnew out hout with h | h
        · exact hgnew (heq ▸ h)
        · exact h (heq ▸ hgseen)
      · intro out hout
        rcases List.mem_cons.mp hout with rfl | hout
        · exact Or.inl List.mem_cons_self
        · rcases hnew out hout with h | h
          · exact Or.inl (List.mem_cons_of_mem _ h)
          · exact Or.inr h

end NewApi.Setting.Ratio
