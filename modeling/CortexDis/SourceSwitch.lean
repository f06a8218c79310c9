import CortexDis.ConnectorWizard

/-!
Switching the source in the wizard, in two runs.

Two states are switched alike and then run alike. The switch leaves nothing apart but the
locations, and locations are told apart exactly by what their gate reads of them.
-/

namespace CortexDis.SourceSwitch

open CortexDis.PyDict CortexDis.ConnectorWizard

def runWizard (s : ConnectorWizardState) (actions : List ConnectorWizardAction) :
    ConnectorWizardState := actions.foldl connectorWizardReducer s

def Reachable (s : ConnectorWizardState) : Prop :=
  ∃ actions, runWizard initialConnectorWizardState actions = s

/-- The choice of a source. -/
inductive IsSwitch : ConnectorWizardAction → Prop
  | connector (key : ConnectorKey) : IsSwitch (.selectConnector key)
  | csv : IsSwitch .selectCsv

/-- The states agree on what belongs to no source. -/
structure SameBasics (s₁ s₂ : ConnectorWizardState) : Prop where
  sourceName : s₁.sourceName = s₂.sourceName
  authMethod : s₁.authMethod = s₂.authMethod
  dataTypes : s₁.dataTypes = s₂.dataTypes
  cadence : s₁.cadence = s₂.cadence

/-- After the switch no run tells the states apart, by its gates or by the columns it would
create. -/
def NoLeak (s₁ s₂ : ConnectorWizardState) (switch : ConnectorWizardAction) : Prop :=
  ∀ actions mappingFields,
    let t₁ := runWizard (connectorWizardReducer s₁ switch) actions
    let t₂ := runWizard (connectorWizardReducer s₂ switch) actions
    canAdvance t₁ mappingFields = canAdvance t₂ mappingFields ∧
      ∀ datatypeByKey,
        createdColumns t₁ mappingFields datatypeByKey =
          createdColumns t₂ mappingFields datatypeByKey ∧
        ∀ locale, assembleConnectorColumns t₁ mappingFields datatypeByKey locale =
          assembleConnectorColumns t₂ mappingFields datatypeByKey locale

/-- What the gate of the locations reads of one. -/
def seen (l : LocationMapping) : Bool × Bool := (l.checked, 0 < l.storeId.length)

/-- The same locations are known, with the same ones checked and the same ones mapped. -/
def SameLocations (l₁ l₂ : Dict String LocationMapping) : Prop :=
  ∀ id, (l₁.get? id).map seen = (l₂.get? id).map seen

/-! ### What an action does to the locations -/

/-- The locations after an action, from the locations alone. -/
def locationsAfter (locations : Dict String LocationMapping) :
    ConnectorWizardAction → Dict String LocationMapping
  | .setLocationChecked locationId checked =>
    locations.set locationId
      ⟨checked, ((locations.get? locationId).map (·.storeId)).getD ""⟩
  | .setLocationStore locationId storeId =>
    locations.set locationId
      ⟨((locations.get? locationId).map (·.checked)).getD true, storeId⟩
  | _ => locations

lemma reducer_withLocations (s : ConnectorWizardState) (locations : Dict String LocationMapping)
    (a : ConnectorWizardAction) :
    connectorWizardReducer { s with locations := locations } a =
      { connectorWizardReducer s a with locations := locationsAfter locations a } := by
  cases a <;> rfl

lemma run_withLocations (actions : List ConnectorWizardAction) (s : ConnectorWizardState)
    (locations : Dict String LocationMapping) :
    runWizard { s with locations := locations } actions =
      { runWizard s actions with locations := actions.foldl locationsAfter locations } := by
  induction actions generalizing s locations with
  | nil => rfl
  | cons a actions ih =>
    show runWizard (connectorWizardReducer { s with locations := locations } a) actions = _
    rw [reducer_withLocations, ih]
    rfl

lemma run_locations (actions : List ConnectorWizardAction) (s : ConnectorWizardState) :
    (runWizard s actions).locations = actions.foldl locationsAfter s.locations := by
  have h := run_withLocations actions s s.locations
  exact congrArg ConnectorWizardState.locations h

lemma switch_locations {switch : ConnectorWizardAction} (h : IsSwitch switch)
    (s : ConnectorWizardState) : (connectorWizardReducer s switch).locations = s.locations := by
  cases h <;> rfl

lemma switch_eq {s₁ s₂ : ConnectorWizardState} {switch : ConnectorWizardAction}
    (h : SameBasics s₁ s₂) (hswitch : IsSwitch switch) :
    connectorWizardReducer s₂ switch =
      { connectorWizardReducer s₁ switch with locations := s₂.locations } := by
  cases hswitch with
  | connector key =>
    simp only [connectorWizardReducer, resetForSourceChange, h.sourceName, h.authMethod,
      h.dataTypes, h.cadence]
  | csv =>
    simp only [connectorWizardReducer, resetForSourceChange, h.sourceName, h.authMethod,
      h.dataTypes, h.cadence]

/-! ### The gate of the locations -/

lemma locationsReady_iff (locations : Dict String LocationMapping) :
    locationsReady locations = true ↔
      (∃ id l, locations.get? id = some l ∧ l.checked = true) ∧
      ∀ id l, locations.get? id = some l → l.checked = true → 0 < l.storeId.length := by
  simp only [← Dict.mem_entries]
  rw [locationsReady, Dict.values, Bool.and_eq_true, decide_eq_true_eq,
    List.length_filter_pos_iff, List.all_eq_true]
  constructor
  · rintro ⟨⟨l, hl, hchecked⟩, hall⟩
    obtain ⟨⟨id, l⟩, he, rfl⟩ := List.mem_map.mp hl
    refine ⟨⟨id, l, he, hchecked⟩, fun id l he hchecked => ?_⟩
    have hmem : l ∈ (locations.entries.map Prod.snd).filter (·.checked) :=
      List.mem_filter.mpr ⟨List.mem_map.mpr ⟨(id, l), he, rfl⟩, hchecked⟩
    simpa using hall l hmem
  · rintro ⟨⟨id, l, he, hchecked⟩, hall⟩
    refine ⟨⟨l, List.mem_map.mpr ⟨(id, l), he, rfl⟩, hchecked⟩, fun l hl => ?_⟩
    obtain ⟨hl, hchecked⟩ := List.mem_filter.mp hl
    obtain ⟨⟨id, l⟩, he, rfl⟩ := List.mem_map.mp hl
    simpa using hall id l he hchecked

lemma canAdvance_withLocations (s : ConnectorWizardState)
    (locations : Dict String LocationMapping) (mappingFields : List ConnectorMappingField) :
    canAdvance { s with locations := locations } mappingFields =
      if currentStepKey s = some .locations then locationsReady locations
      else canAdvance s mappingFields := by
  have hstep : currentStepKey { s with locations := locations } = currentStepKey s := rfl
  unfold canAdvance
  rw [hstep]
  cases currentStepKey s with
  | none => rfl
  | some step => cases step <;> rfl

namespace SameLocations

variable {l₁ l₂ : Dict String LocationMapping}

lemma symm (h : SameLocations l₁ l₂) : SameLocations l₂ l₁ := fun id => (h id).symm

lemma exists_seen (h : SameLocations l₁ l₂) {id : String} {l : LocationMapping}
    (hl : l₁.get? id = some l) : ∃ l', l₂.get? id = some l' ∧ seen l' = seen l := by
  have hid := h id
  rw [hl] at hid
  exact Option.map_eq_some_iff.mp hid.symm

lemma after (h : SameLocations l₁ l₂) (a : ConnectorWizardAction) :
    SameLocations (locationsAfter l₁ a) (locationsAfter l₂ a) := by
  cases a with
  | setLocationChecked locationId checked =>
    intro id
    simp only [locationsAfter, Dict.get?_set]
    by_cases hid : locationId = id
    · have hstore := h locationId
      rw [if_pos hid, if_pos hid]
      cases h₁ : l₁.get? locationId <;> cases h₂ : l₂.get? locationId <;>
        simp_all [seen]
    · rw [if_neg hid, if_neg hid]
      exact h id
  | setLocationStore locationId storeId =>
    intro id
    simp only [locationsAfter, Dict.get?_set]
    by_cases hid : locationId = id
    · have hchecked := h locationId
      rw [if_pos hid, if_pos hid]
      cases h₁ : l₁.get? locationId <;> cases h₂ : l₂.get? locationId <;>
        simp_all [seen]
    · rw [if_neg hid, if_neg hid]
      exact h id
  | _ => exact h

lemma foldl (h : SameLocations l₁ l₂) (actions : List ConnectorWizardAction) :
    SameLocations (actions.foldl locationsAfter l₁) (actions.foldl locationsAfter l₂) := by
  induction actions generalizing l₁ l₂ with
  | nil => exact h
  | cons a actions ih => exact ih (h.after a)

lemma ready_of (h : SameLocations l₁ l₂) (hready : locationsReady l₁ = true) :
    locationsReady l₂ = true := by
  obtain ⟨⟨id, l, hl, hchecked⟩, hall⟩ := (locationsReady_iff l₁).mp hready
  refine (locationsReady_iff l₂).mpr ⟨?_, fun id' l' hl' hchecked' => ?_⟩
  · obtain ⟨l', hl', hseen⟩ := h.exists_seen hl
    exact ⟨id, l', hl', (congrArg Prod.fst hseen).trans hchecked⟩
  · obtain ⟨l, hl, hseen⟩ := h.symm.exists_seen hl'
    have hpos := hall id' l hl ((congrArg Prod.fst hseen).trans hchecked')
    simpa [seen, hpos] using (congrArg Prod.snd hseen).symm

lemma ready_eq (h : SameLocations l₁ l₂) : locationsReady l₁ = locationsReady l₂ :=
  Bool.eq_iff_iff.mpr ⟨h.ready_of, h.symm.ready_of⟩

end SameLocations

/-! ### Telling locations apart -/

/-- An action on one location. -/
inductive OnLocation : ConnectorWizardAction → Prop
  | checked (locationId : String) (checked : Bool) :
    OnLocation (.setLocationChecked locationId checked)
  | store (locationId storeId : String) : OnLocation (.setLocationStore locationId storeId)

/-- From any state, the actions that lead to the locations step. -/
def toLocations : List ConnectorWizardAction :=
  [.selectConnector .shopify, .next, .next, .next]

lemma step_onLocation {actions : List ConnectorWizardAction} (h : ∀ a ∈ actions, OnLocation a)
    (s : ConnectorWizardState) : currentStepKey (runWizard s actions) = currentStepKey s := by
  induction actions generalizing s with
  | nil => rfl
  | cons a actions ih =>
    have hrest := ih (fun b hb => h b (List.mem_cons_of_mem _ hb)) (connectorWizardReducer s a)
    refine hrest.trans ?_
    cases h a List.mem_cons_self <;> rfl

lemma NoLeak.ready_eq {s₁ s₂ : ConnectorWizardState} {switch : ConnectorWizardAction}
    (h : NoLeak s₁ s₂ switch) (hswitch : IsSwitch switch)
    {actions : List ConnectorWizardAction} (hactions : ∀ a ∈ actions, OnLocation a) :
    locationsReady (actions.foldl locationsAfter s₁.locations) =
      locationsReady (actions.foldl locationsAfter s₂.locations) := by
  have hgate : ∀ s : ConnectorWizardState,
      canAdvance (runWizard (connectorWizardReducer s switch) (toLocations ++ actions)) [] =
        locationsReady (actions.foldl locationsAfter s.locations) := by
    intro s
    have hrun : runWizard (connectorWizardReducer s switch) (toLocations ++ actions) =
        runWizard (runWizard (connectorWizardReducer s switch) toLocations) actions :=
      List.foldl_append
    have hlocations :=
      run_locations actions (runWizard (connectorWizardReducer s switch) toLocations)
    rw [run_locations toLocations, switch_locations hswitch] at hlocations
    have hstep : currentStepKey (runWizard (connectorWizardReducer s switch)
        (toLocations ++ actions)) = some .locations := by
      rw [hrun, step_onLocation hactions]
      rfl
    unfold canAdvance
    rw [hstep, hrun]
    exact congrArg locationsReady hlocations
  rw [← hgate, ← hgate]
  exact (h (toLocations ++ actions) []).1

/-- Only one location can be checked. -/
def Alone (id : String) (locations : Dict String LocationMapping) : Prop :=
  ∀ k l, locations.get? k = some l → k ≠ id → l.checked = false

def uncheck (ids : List String) : List ConnectorWizardAction :=
  ids.map fun id => .setLocationChecked id false

lemma get?_uncheck (ids : List String) (locations : Dict String LocationMapping) (k : String) :
    ((uncheck ids).foldl locationsAfter locations).get? k =
      if k ∈ ids then some ⟨false, ((locations.get? k).map (·.storeId)).getD ""⟩
      else locations.get? k := by
  induction ids generalizing locations with
  | nil => simp [uncheck]
  | cons id ids ih =>
    have hstep : (uncheck (id :: ids)).foldl locationsAfter locations =
        (uncheck ids).foldl locationsAfter
          (locationsAfter locations (.setLocationChecked id false)) := rfl
    rw [hstep, ih, locationsAfter, Dict.get?_set]
    by_cases hid : id = k
    · simp [hid]
    · have hid' : k ≠ id := fun h => hid h.symm
      simp [hid, hid']

lemma alone_uncheck (locations : Dict String LocationMapping) {ids : List String} {id : String}
    (hkeys : ∀ k ∈ locations.keys, k ≠ id → k ∈ ids) (hid : id ∉ ids) :
    Alone id ((uncheck ids).foldl locationsAfter locations) ∧
      ((uncheck ids).foldl locationsAfter locations).get? id = locations.get? id := by
  refine ⟨fun k l hl hne => ?_, by rw [get?_uncheck, if_neg hid]⟩
  rw [get?_uncheck] at hl
  by_cases hk : k ∈ ids
  · rw [if_pos hk] at hl
    cases hl
    rfl
  · rw [if_neg hk] at hl
    have hmem : k ∈ locations.keys := by
      by_contra hnot
      rw [(locations.get?_eq_none k).mpr hnot] at hl
      cases hl
    exact absurd (hkeys k hmem hne) hk

lemma Alone.set {id : String} {locations : Dict String LocationMapping}
    (h : Alone id locations) (l : LocationMapping) : Alone id (locations.set id l) := by
  intro k l' hl' hne
  rw [Dict.get?_set, if_neg (fun heq => hne heq.symm)] at hl'
  exact h k l' hl' hne

lemma Alone.ready {id : String} {locations : Dict String LocationMapping} {l : LocationMapping}
    (h : Alone id locations) (hl : locations.get? id = some l) :
    locationsReady locations = true ↔ l.checked = true ∧ 0 < l.storeId.length := by
  rw [locationsReady_iff]
  constructor
  · rintro ⟨⟨k, l', hl', hchecked⟩, hall⟩
    have hk : k = id := by
      by_contra hne
      rw [h k l' hl' hne] at hchecked
      cases hchecked
    subst hk
    rw [hl] at hl'
    cases hl'
    exact ⟨hchecked, hall k l hl hchecked⟩
  · rintro ⟨hchecked, hstore⟩
    refine ⟨⟨id, l, hl, hchecked⟩, fun k l' hl' hchecked' => ?_⟩
    by_cases hk : k = id
    · subst hk
      rw [hl] at hl'
      cases hl'
      exact hstore
    · rw [h k l' hl' hk] at hchecked'
      cases hchecked'

lemma Alone.after_checked {id : String} {locations : Dict String LocationMapping}
    (h : Alone id locations) :
    locationsReady (locationsAfter locations (.setLocationChecked id true)) = true ↔
      0 < (((locations.get? id).map (·.storeId)).getD "").length := by
  have hset := h.set ⟨true, ((locations.get? id).map (·.storeId)).getD ""⟩
  exact (hset.ready (Dict.get?_set_self ..)).trans (and_iff_right rfl)

lemma Alone.after_store {id : String} {locations : Dict String LocationMapping}
    (h : Alone id locations) :
    locationsReady (locationsAfter locations (.setLocationStore id "x")) = true ↔
      ((locations.get? id).map (·.checked)).getD true = true := by
  have hset := h.set ⟨((locations.get? id).map (·.checked)).getD true, "x"⟩
  have hlength : 0 < "x".length := by decide
  exact (hset.ready (Dict.get?_set_self ..)).trans (and_iff_left hlength)

lemma Alone.after_other {id other : String} {locations : Dict String LocationMapping}
    (h : Alone id locations) (hne : other ≠ id) :
    locationsReady (locationsAfter (locationsAfter locations (.setLocationStore other "x"))
        (.setLocationChecked other true)) = true ↔
      ∀ l, locations.get? id = some l → l.checked = true → 0 < l.storeId.length := by
  have hafter : ∀ k, (locationsAfter (locationsAfter locations (.setLocationStore other "x"))
      (.setLocationChecked other true)).get? k =
        if other = k then some ⟨true, "x"⟩ else locations.get? k := by
    intro k
    rw [locationsAfter, locationsAfter, Dict.get?_set_self, Dict.get?_set, Dict.get?_set]
    split <;> rfl
  simp only [locationsReady_iff, hafter]
  constructor
  · rintro ⟨-, hall⟩ l hl
    exact hall id l (by rw [if_neg hne]; exact hl)
  · intro hid
    refine ⟨⟨other, ⟨true, "x"⟩, if_pos rfl, rfl⟩, fun k l hl hchecked => ?_⟩
    by_cases hk : other = k
    · rw [if_pos hk] at hl
      cases hl
      decide
    · rw [if_neg hk] at hl
      by_cases hkid : k = id
      · subst hkid
        exact hid l hl hchecked
      · rw [h k l hl hkid] at hchecked
        cases hchecked

lemma seen_eq_of_shown {o₁ o₂ : Option LocationMapping}
    (hstore : 0 < ((o₁.map (·.storeId)).getD "").length ↔
      0 < ((o₂.map (·.storeId)).getD "").length)
    (hchecked : (o₁.map (·.checked)).getD true = true ↔ (o₂.map (·.checked)).getD true = true)
    (hother : (∀ l, o₁ = some l → l.checked = true → 0 < l.storeId.length) ↔
      ∀ l, o₂ = some l → l.checked = true → 0 < l.storeId.length) :
    o₁.map seen = o₂.map seen := by
  cases o₁ with
  | none =>
    cases o₂ with
    | none => rfl
    | some l =>
      -- a checked location without a store is in the way of the others, an unknown one is not
      have hfree := hother.mp fun l' hl' => by cases hl'
      have hpos := hfree l rfl (hchecked.mp rfl)
      exact absurd (hstore.mpr hpos) (by decide)
  | some l =>
    cases o₂ with
    | none =>
      have hfree := hother.mpr fun l' hl' => by cases hl'
      have hpos := hfree l rfl (hchecked.mpr rfl)
      exact absurd (hstore.mp hpos) (by decide)
    | some l' =>
      have hc : l.checked = l'.checked := Bool.eq_iff_iff.mpr hchecked
      have hs : decide (0 < l.storeId.length) = decide (0 < l'.storeId.length) :=
        decide_eq_decide.mpr hstore
      rw [Option.map_some, Option.map_some, seen, seen, hc, hs]

lemma sameLocations_of_ready {l₁ l₂ : Dict String LocationMapping}
    (h : ∀ actions : List ConnectorWizardAction, (∀ a ∈ actions, OnLocation a) →
      locationsReady (actions.foldl locationsAfter l₁) =
        locationsReady (actions.foldl locationsAfter l₂)) : SameLocations l₁ l₂ := by
  intro id
  set ids := (l₁.keys ++ l₂.keys).filter (· ≠ id) with hids
  have hmem : ∀ k, k ∈ ids ↔ k ∈ l₁.keys ++ l₂.keys ∧ k ≠ id := by
    intro k
    rw [hids, List.mem_filter, decide_eq_true_eq]
  have hid : id ∉ ids := fun hin => ((hmem id).mp hin).2 rfl
  obtain ⟨halone₁, hget₁⟩ := alone_uncheck l₁
    (fun k hk hne => (hmem k).mpr ⟨List.mem_append_left _ hk, hne⟩) hid
  obtain ⟨halone₂, hget₂⟩ := alone_uncheck l₂
    (fun k hk hne => (hmem k).mpr ⟨List.mem_append_right _ hk, hne⟩) hid
  have hne : id ++ "x" ≠ id := by
    intro heq
    have hlength := congrArg String.length heq
    rw [String.length_append] at hlength
    have hx : "x".length = 1 := rfl
    omega
  have hready : ∀ actions : List ConnectorWizardAction, (∀ a ∈ actions, OnLocation a) →
      (locationsReady (actions.foldl locationsAfter ((uncheck ids).foldl locationsAfter l₁)) =
        true ↔
      locationsReady (actions.foldl locationsAfter ((uncheck ids).foldl locationsAfter l₂)) =
        true) := by
    intro actions hactions
    rw [← List.foldl_append, ← List.foldl_append]
    refine Bool.eq_iff_iff.mp (h _ fun a ha => ?_)
    rcases List.mem_append.mp ha with ha | ha
    · obtain ⟨k, -, rfl⟩ := List.mem_map.mp ha
      exact .checked k false
    · exact hactions a ha
  -- with the others unchecked, the gate shows the checked flag and the store of this one
  rw [← hget₁, ← hget₂]
  refine seen_eq_of_shown ?_ ?_ ?_
  · rw [← halone₁.after_checked, ← halone₂.after_checked]
    exact hready [.setLocationChecked id true] (by simpa using OnLocation.checked id true)
  · rw [← halone₁.after_store, ← halone₂.after_store]
    exact hready [.setLocationStore id "x"] (by simpa using OnLocation.store id "x")
  · rw [← halone₁.after_other hne, ← halone₂.after_other hne]
    exact hready [.setLocationStore (id ++ "x") "x", .setLocationChecked (id ++ "x") true]
      (by simpa using ⟨OnLocation.store (id ++ "x") "x", OnLocation.checked (id ++ "x") true⟩)

/-! ### The switch -/

/-- **A switch of the source leaks nothing** exactly when the two states know the same
locations, checked and mapped alike: the locations are what a switch does not reset. -/
theorem source_switch_iff {s₁ s₂ : ConnectorWizardState} {switch : ConnectorWizardAction}
    (hbasics : SameBasics s₁ s₂) (hswitch : IsSwitch switch) :
    NoLeak s₁ s₂ switch ↔ SameLocations s₁.locations s₂.locations := by
  constructor
  · exact fun h => sameLocations_of_ready fun actions hactions => h.ready_eq hswitch hactions
  · intro hsame actions mappingFields
    have hrun : runWizard (connectorWizardReducer s₂ switch) actions =
        { runWizard (connectorWizardReducer s₁ switch) actions with
          locations := actions.foldl locationsAfter s₂.locations } := by
      rw [switch_eq hbasics hswitch, run_withLocations]
    have hready : locationsReady (runWizard (connectorWizardReducer s₁ switch) actions).locations =
        locationsReady (actions.foldl locationsAfter s₂.locations) := by
      rw [run_locations, switch_locations hswitch]
      exact (hsame.foldl actions).ready_eq
    refine ⟨?_, fun datatypeByKey => ?_⟩
    swap
    · rw [hrun]
      exact ⟨rfl, fun locale => rfl⟩
    rw [hrun]
    refine Eq.trans ?_ (canAdvance_withLocations _ _ mappingFields).symm
    rw [← hready]
    -- the first state with its own locations
    exact canAdvance_withLocations (runWizard (connectorWizardReducer s₁ switch) actions)
      (runWizard (connectorWizardReducer s₁ switch) actions).locations mappingFields

/-- A location mapped under one source, and the same state without it. -/
def mappedActions : List ConnectorWizardAction :=
  [.selectConnector .shopify, .setSourceName "Shop", .setLocationChecked "loc_001" true,
    .setLocationStore "loc_001" "store-1"]

/-- Other decisions under one source. -/
def unmappedActions : List ConnectorWizardAction :=
  [.selectConnector .shopify, .setTokenField "token" "t", .setSourceName "Shop",
    .setMappingTarget "gateway" "payment_method", .toggleIgnore "order_id",
    .setTemplateType "sales"]

theorem switch_without_locations :
    NoLeak (runWizard initialConnectorWizardState unmappedActions)
      (runWizard initialConnectorWizardState [.setSourceName "Shop"]) (.selectConnector .square) :=
  (source_switch_iff ⟨rfl, rfl, rfl, rfl⟩ (.connector .square)).mpr fun _ => rfl

/-- The location mapped for Shopify opens the gate of the locations step of Square. -/
theorem mapped_location_leaks :
    ∃ s₁ s₂, Reachable s₁ ∧ Reachable s₂ ∧ SameBasics s₁ s₂ ∧
      ¬ NoLeak s₁ s₂ (.selectConnector .square) := by
  refine ⟨_, _, ⟨mappedActions, rfl⟩, ⟨unmappedActions, rfl⟩, ⟨rfl, rfl, rfl, rfl⟩, fun h => ?_⟩
  have hgate := (h [.next, .next, .next] []).1
  revert hgate
  decide +kernel

end CortexDis.SourceSwitch
