import CortexDis.Totality

/-!
What the construction checks promise the engine.

The checks work out the data types of a mapping's columns from its declarations. They are
sound where every operation meets a column of the type it works on, every cast has a type
polars can build, every selected name is that of one column, and the engine fails for an
unknown time zone only.
-/

namespace CortexDis.EngineTyping

open CortexDis.PyDict CortexDis.Values CortexDis.Errors CortexDis.Frames CortexDis.MappingRules
open CortexDis.Normalize CortexDis.ApplyMapping CortexDis.Runs CortexDis.Accounting
open CortexDis.Totality

/-- The digits a decimal of polars has at most. -/
def maxPrecision : ℕ := 38

/-- Polars raises on columns and data types only: it takes every format and every constant, and
refuses a data type for its precision. -/
structure RaisesOnTypes (P : Polars) : Prop where
  dateFormat : ∀ format, P.dateFormatError format = none
  datetimeFormat : ∀ format, P.datetimeFormatError format = none
  inferred : ∀ texts, ∃ format, P.inferDatetime texts = .ok format
  constant : ∀ n, ∃ dtype, P.intDtype n = .ok dtype
  dtype : ∀ d, P.dtypeError d = none ↔
    ∀ precision scale, d = .decimal precision scale → precision ≤ maxPrecision
  selectNone : ∀ n, P.selectNone n = 0

/-! ### The stages -/

section Stages

variable (P : Polars) (m : Rules) (chunk : Frame)

/-- The engine's work after the rename. -/
def afterRename : Except Exn Work := do
  let frame ← runRename P chunk m.rename
  return (frame, [])

/-- The engine's work after the normalize stage. -/
def afterNormalize : Except Exn Work := do
  runNormalize P m.normalize (renameInverse m) (← afterRename P m chunk)

/-- The engine's work after the cast stage. -/
def afterCast : Except Exn Work := do
  runCast P m.cast (renameInverse m) (← afterNormalize P m chunk)

/-- The engine's work after the derive stage. -/
def afterDerive : Except Exn Work := do runDerive P m.derive (← afterCast P m chunk)

lemma applyMapping_eq : applyMapping P m chunk = (do
    let (frame, failures) ← afterDerive P m chunk
    let selected ← frame.select P m.targetColumns
    let contribution ← selected.gather (keep frame.height failures)
    return ⟨contribution, keep frame.height failures, failures⟩) := by
  simp only [applyMapping, afterDerive, afterCast, afterNormalize, afterRename, bind_assoc,
    pure_bind]

end Stages

/-! ### Soundness -/

/-- The column exists and has the data type. -/
def HasDtype (f : Frame) (c : String) (d : DType) : Prop := ∃ s, f.getColumn c = .ok s ∧ s.dtype = d

/-- The name selects one column, its own. -/
def SelectsOwn (P : Polars) (f : Frame) (c : String) : Prop :=
  ∃ g, f.select P [c] = .ok g ∧ g.columns.keys = [c]

/-- The failure says that polars does not know the zone of an operation in the mapping. -/
def UnknownZone (P : Polars) (m : Rules) (e : Exn) : Prop :=
  ∃ column ops format zone, NormalizeOp.parseDatetime format (some zone) ∈ ops ∧
    ((column, ops) ∈ m.normalize.entries ∨ ∃ g, (column, ⟨g, ops⟩) ∈ m.derive.entries) ∧
    P.knowsZone zone = false ∧ e = .mappingConfig (some column)

/-- The engine meets the data types that the checks worked out. -/
structure Sound (P : Polars) (m : Rules) (chunk : Frame) : Prop where
  /-- a list of operations starts on a text column, and each of its steps returns one -/
  normalized : ∀ w e w', afterRename P m chunk = .ok w →
    Reaches (normalizeColumn P (renameInverse m)) m.normalize.entries w e w' →
      HasDtype w'.1 e.1 .string
  buildable : ∀ e ∈ m.cast.entries, P.dtypeError (targetDtype e.2) = none
  /-- operations after a generator start on a text column -/
  generated : ∀ w e w' s, afterCast P m chunk = .ok w →
    Reaches (deriveColumn P) m.derive.entries w e w' → e.2.rest ≠ [] →
      generate P w'.1 e.2.generator = .ok s → s.dtype = .string
  dated : ∀ w e w' source, afterCast P m chunk = .ok w →
    Reaches (deriveColumn P) m.derive.entries w e w' →
      e.2.generator = .dateFromDatetime source → HasDtype w'.1 source .datetimeUtc
  /-- every column of either selection exists once, and none is selected twice -/
  selected : (∀ c ∈ m.rename.keys, SelectsOwn P chunk c) ∧ m.targetColumns.Nodup ∧
    (∀ f : Frame, f.columns.keys = m.targetColumns → ∀ c ∈ m.targetColumns, SelectsOwn P f c) ∧
    ∀ w, afterDerive P m chunk = .ok w → w.1.columns.keys = m.targetColumns
  raises : ∀ e, applyMapping P m chunk = .error e → UnknownZone P m e

/-- No decimal is declared with more digits than polars has. -/
def NarrowDecimals (m : Rules) : Prop :=
  ∀ e ∈ m.cast.entries, ∀ precision scale, e.2 = .decimal precision scale → precision ≤ maxPrecision

/-- Polars reads the sources as columns of a chunk that has these, and the target columns as
columns of a frame that has them. -/
structure NamesRead (P : Polars) (m : Rules) (columns : List String) : Prop where
  sources : P.Reads columns m.rename.keys
  targets : P.Reads m.targetColumns m.targetColumns

variable {P : Polars} {upper : String → String} {v : SourceMapping upper} {chunk : Frame}
  {w w' : Work}

lemma selectsOwn_iff {f : Frame} {c : String} :
    SelectsOwn P f c ↔ P.expand f.columns.keys c = .ok [c] := by
  constructor
  · rintro ⟨g, hg, hkeys⟩
    obtain ⟨picked, hpicked, -, hpickedKeys, -⟩ := select_ok P hg
    rw [← expandAll_singleton, hpicked, ← hpickedKeys, hkeys]
  · intro h
    rw [← expandAll_singleton] at h
    obtain ⟨g, hg⟩ := (exists_select_iff P).mpr ⟨[c], h, List.nodup_singleton c⟩
    obtain ⟨picked, hpicked, -, hkeys, -⟩ := select_ok P hg
    obtain rfl := Except.ok.inj (h.symm.trans hpicked)
    exact ⟨g, hg, hkeys⟩

lemma namesRead_of_plain {columns : List String} (hsub : v.rename.keys ⊆ columns)
    (hsources : ∀ c ∈ v.rename.keys, isPattern c = false)
    (htargets : ∀ c ∈ v.targetColumns, isPattern c = false) :
    NamesRead P v.toRules columns :=
  ⟨reads_of_plain hsources hsub, reads_of_plain htargets (List.Subset.refl _)⟩

lemma NamesRead.ownError {columns : List String} (h : NamesRead P v.toRules columns) {c : String}
    (hc : c ∈ v.targetColumns) : P.ownError c = none :=
  ownError_of_expand (h.targets c hc)

lemma NamesRead.renames {columns : List String} (h : NamesRead P v.toRules columns) :
    Renames P v.toRules columns := by
  refine ⟨v.rename.keys, h.sources.expandAll, v.rename.nodup, List.Subset.refl _, ?_⟩
  rw [map_renamed_keys]
  exact v.renameTargets_nodup

lemma dtypeError_targetDtype (hP : RaisesOnTypes P) (type : CastType) :
    P.dtypeError (targetDtype type) = none ↔
      ∀ precision scale, type = .decimal precision scale → precision ≤ maxPrecision := by
  rw [hP.dtype]
  cases type <;> simp [targetDtype]

/-! ### Errors -/

lemma of_raised (hP : RaisesOnTypes P) {column : String} (hown : P.ownError column = none)
    {op : NormalizeOp} {e : Exn} (h : raised P column op = some e) :
    ∃ format zone, op = .parseDatetime format (some zone) ∧ P.knowsZone zone = false ∧
      e = .mappingConfig (some column) := by
  cases op with
  | parseDate format => simp [raised, hP.dateFormat] at h
  | parseDatetime format timezone =>
    cases timezone with
    | none => simp [raised, hP.datetimeFormat] at h
    | some zone =>
      simp only [raised, hP.datetimeFormat, ite_eq_iff, Bool.or_eq_true, not_or] at h
      obtain ⟨-, h⟩ | ⟨hzone, h⟩ := h
      · cases h
      · exact ⟨format, zone, rfl, by simpa using hzone.2, (Option.some.inj h).symm⟩
  | parseBoolean ts fs => simp [raised, hown] at h
  | _ => simp [raised] at h

lemma applyTransformList_error {column : String} {sourceColumn : Option String}
    {stage : FailureStage} {k : ℕ} {specs : List NormalizeOp} {cells : List (Option String)}
    {e : Exn} (h : applyTransformList P column sourceColumn stage k specs cells = .error e) :
    ∃ op ∈ specs, raised P column op = some e := by
  induction specs generalizing k cells with
  | nil => cases h
  | cons op specs ih =>
    rw [applyTransformList] at h
    cases hop : raised P column op with
    | some e' =>
      simp only [hop, Except.error.injEq] at h
      exact ⟨op, List.mem_cons_self, h ▸ hop⟩
    | none =>
      simp only [hop] at h
      rcases of_bind_eq_error h with h | ⟨rest, -, h⟩
      · obtain ⟨op', hmem, hop'⟩ := ih h
        exact ⟨op', List.mem_cons_of_mem _ hmem, hop'⟩
      · cases h

lemma normalizeColumn_error {inverse : Dict String String} {n : ℕ}
    {e : String × List NormalizeOp} {rules : List (String × List NormalizeOp)} {x : Exn}
    (h : Normalizing v n (e :: rules) w) (hrun : normalizeColumn P inverse w e = .error x) :
    ∃ op ∈ e.2, raised P e.1 op = some x := by
  obtain ⟨T, hkeeps, htext⟩ := h.texts
  have hseries := hkeeps.getColumn (h.targets e List.mem_cons_self)
  have hdtype : ((T e.1).series n).dtype = .string := htext e.1
  simp only [normalizeColumn, hseries, ok_bind, hdtype, if_true] at hrun
  rcases of_bind_eq_error hrun with hrun | ⟨out, -, hrun⟩
  · exact applyTransformList_error hrun
  · cases hrun

lemma generates (hP : RaisesOnTypes P) (g : Generator) : Generates P g := by
  cases g with
  | constant value =>
    cases value with
    | int n => exact hP.constant n
    | _ => exact ⟨_, rfl⟩
  | _ => trivial

lemma deriveColumn_error (hP : RaisesOnTypes P) {e : String × DeriveSpec}
    {rules : List (String × DeriveSpec)} {T : String → Track} {x : Exn}
    (h : Deriving P v chunk (e :: rules) w T) (hrun : deriveColumn P w e = .error x) :
    ∃ op ∈ e.2.rest, raised P e.1 op = some x := by
  have he := h.rules_sub e List.mem_cons_self
  obtain ⟨s, hs⟩ := (generate_isOk_iff P h.keeps fun source hg => sourceOf_mem he hg).mpr
    (generates hP e.2.generator)
  simp only [deriveColumn, hs, ok_bind] at hrun
  split_ifs at hrun with hrest htext
  · cases hrun
  · rcases of_bind_eq_error hrun with hrun | ⟨out, -, hrun⟩
    · exact applyTransformList_error hrun
    · cases hrun
  · exact absurd (h.generated_dtype hrest hs) htext

/-! ### The run of a chunk -/

section Fits

variable (hfits : Fits v.toRules chunk)
  (hp : v.rename.keys = [] → P.selectNone chunk.height = chunk.height)
include hfits hp

lemma keeps_of_afterRename (h : afterRename P v.toRules chunk = .ok w) :
    Keeps chunk.height v.renameTargets w (renamedTracks v.toRules chunk) := by
  obtain ⟨frame, hrun, h⟩ := of_bind_eq_ok h
  cases h
  exact keeps_of_runRename hfits hp hrun

lemma keeps_of_afterNormalize (h : afterNormalize P v.toRules chunk = .ok w) :
    Keeps chunk.height v.renameTargets w (normalizedTracks P v.toRules chunk) := by
  obtain ⟨renamed, hrenamed, hrun⟩ := of_bind_eq_ok h
  exact runNormalize_keeps (keeps_of_afterRename hfits hp hrenamed) hrun

lemma keeps_of_afterCast (h : afterCast P v.toRules chunk = .ok w) :
    Keeps chunk.height v.renameTargets w (castTracks P v.toRules chunk) := by
  obtain ⟨normalized, hnormalized, hrun⟩ := of_bind_eq_ok h
  exact runCast_keeps (keeps_of_afterNormalize hfits hp hnormalized) hrun

lemma deriving_of_afterDerive (h : afterDerive P v.toRules chunk = .ok w) :
    Deriving P v chunk [] w (derivedTracks P v.toRules chunk) := by
  obtain ⟨cast, hcast, hrun⟩ := of_bind_eq_ok h
  exact runDerive_keeps (keeps_of_afterCast hfits hp hcast) hrun

lemma normalizing_of_reaches {inverse : Dict String String} {e : String × List NormalizeOp}
    (h : afterRename P v.toRules chunk = .ok w)
    (hreach : Reaches (normalizeColumn P inverse) v.normalize.entries w e w') :
    ∃ rules, Normalizing v chunk.height (e :: rules) w' :=
  hreach.invariant (fun _ _ _ _ h hrun => h.step hrun)
    (normalizing_renamed (keeps_of_afterRename hfits hp h))

lemma deriving_of_reaches {e : String × DeriveSpec} (h : afterCast P v.toRules chunk = .ok w)
    (hreach : Reaches (deriveColumn P) v.derive.entries w e w') :
    ∃ rules T, Deriving P v chunk (e :: rules) w' T :=
  hreach.invariant (I := fun rules w => ∃ T, Deriving P v chunk rules w T)
    (fun _ _ _ _ ⟨_, hT⟩ hrun => ⟨_, hT.step hrun⟩)
    ⟨_, deriving_cast (keeps_of_afterCast hfits hp h)⟩

/-! ### The failures of a run -/

variable (hread : NamesRead P v.toRules chunk.columns.keys)
include hread

omit hfits hp in
lemma columns_of_afterDerive (h : afterDerive P v.toRules chunk = .ok w) :
    w.1.columns.keys = v.targetColumns := by
  obtain ⟨cast, hcast, h₄⟩ := of_bind_eq_ok h
  obtain ⟨normalized, hnormalized, h₃⟩ := of_bind_eq_ok hcast
  obtain ⟨start, hrenamed, h₂⟩ := of_bind_eq_ok hnormalized
  obtain ⟨frame, h₁, hstart⟩ := of_bind_eq_ok hrenamed
  cases hstart
  obtain ⟨picked, hpicked, -, -, hkeys, -⟩ := runRename_ok P h₁
  obtain rfl := Except.ok.inj (hread.sources.expandAll.symm.trans hpicked)
  rw [stages_columns h₂ h₃ h₄, hkeys]
  exact derivedColumns_keys v

omit hp in
lemma exists_afterRename : ∃ w, afterRename P v.toRules chunk = .ok w := by
  obtain ⟨frame, hrun⟩ := exists_runRename hfits hread.renames
  exact ⟨(frame, []), by rw [afterRename, hrun]; rfl⟩

lemma unknownZone_of_afterNormalize (hP : RaisesOnTypes P) {x : Exn}
    (h : afterNormalize P v.toRules chunk = .error x) : UnknownZone P v.toRules x := by
  obtain ⟨renamed, hrenamed⟩ := exists_afterRename hfits hread
  rw [afterNormalize, hrenamed] at h
  obtain ⟨e, w', hreach, hstep⟩ := exists_reaches_of_error h
  obtain ⟨rules, hnormalizing⟩ := normalizing_of_reaches hfits hp hrenamed hreach
  obtain ⟨op, hop, hraised⟩ := normalizeColumn_error hnormalizing hstep
  have hown := hread.ownError
    (List.mem_append_left _ (hnormalizing.targets e List.mem_cons_self))
  obtain ⟨format, zone, rfl, hzone, hx⟩ := of_raised hP hown hraised
  exact ⟨e.1, e.2, format, zone, hop, Or.inl hreach.mem, hzone, hx⟩

lemma exists_afterCast (hP : RaisesOnTypes P) (hnarrow : NarrowDecimals v.toRules)
    (h : afterNormalize P v.toRules chunk = .ok w) :
    ∃ w', afterCast P v.toRules chunk = .ok w' := by
  rw [afterCast, h]
  refine (runCast_isOk_iff (keeps_of_afterNormalize hfits hp h)).mpr fun e he => ⟨⟨?_, ?_⟩, ?_⟩
  · exact (dtypeError_targetDtype hP e.2).mpr (hnarrow e he)
  · rw [castNameError, ite_eq_right_iff]
    intro _
    exact hread.ownError
      (List.mem_append_left _ (v.cast_keys e.1 (List.mem_map_of_mem he)))
  · rw [castFormat]
    split_ifs
    · exact hP.inferred _
    · exact ⟨none, rfl⟩

lemma unknownZone_of_afterDerive (hP : RaisesOnTypes P) (hnarrow : NarrowDecimals v.toRules)
    {x : Exn} (h : afterDerive P v.toRules chunk = .error x) : UnknownZone P v.toRules x := by
  cases hnormalized : afterNormalize P v.toRules chunk with
  | error x' =>
    rw [afterDerive, afterCast, hnormalized] at h
    cases h
    exact unknownZone_of_afterNormalize hfits hp hread hP hnormalized
  | ok normalized =>
    obtain ⟨cast, hcast⟩ := exists_afterCast hfits hp hread hP hnarrow hnormalized
    rw [afterDerive, hcast] at h
    obtain ⟨e, w', hreach, hstep⟩ := exists_reaches_of_error h
    obtain ⟨rules, T, hderiving⟩ := deriving_of_reaches hfits hp hcast hreach
    obtain ⟨op, hop, hraised⟩ := deriveColumn_error hP hderiving hstep
    have hown := hread.ownError (List.mem_append_right _ (List.mem_map_of_mem hreach.mem))
    obtain ⟨format, zone, rfl, hzone, hx⟩ := of_raised hP hown hraised
    exact ⟨e.1, e.2.rest, format, zone, hop, Or.inr ⟨e.2.generator, hreach.mem⟩, hzone, hx⟩

lemma unknownZone_of_applyMapping (hP : RaisesOnTypes P) (hnarrow : NarrowDecimals v.toRules)
    {x : Exn} (h : applyMapping P v.toRules chunk = .error x) : UnknownZone P v.toRules x := by
  rw [applyMapping_eq] at h
  rcases of_bind_eq_error h with h | ⟨⟨last, failures⟩, hderived, h⟩
  · exact unknownZone_of_afterDerive hfits hp hread hP hnarrow h
  · -- what is left of the engine does not fail
    have hcolumns : last.columns.keys = v.targetColumns := columns_of_afterDerive hread hderived
    have htargets := hread.targets.expandAll
    obtain ⟨selected, contribution, hselected, hgather⟩ :=
      (deriving_of_afterDerive hfits hp hderived).exists_contribution (hcolumns ▸ htargets)
        v.targetColumns_nodup fun hnone i hi _ => by
          have hrename := (List.append_eq_nil_iff.mp hnone).1
          rw [Dict.values, List.map_eq_nil_iff] at hrename
          rwa [hp (by simp [Dict.keys, hrename])]
    simp only [hselected, hgather, ok_bind] at h
    cases h

end Fits

/-! ### Soundness of the checks -/

lemma dated_of_deriving {e : String × DeriveSpec} {rules : List (String × DeriveSpec)}
    {T : String → Track} (h : Deriving P v chunk (e :: rules) w T) {source : String}
    (hg : e.2.generator = .dateFromDatetime source) : HasDtype w.1 source .datetimeUtc := by
  have he := h.rules_sub e List.mem_cons_self
  have hmem : source ∈ v.renameTargets := sourceOf_mem he (by rw [hg]; rfl)
  have hvalid := v.validDerive e.2 (List.mem_map_of_mem (f := Prod.snd) he)
  simp only [Rules.validDerive, hg, Bool.and_eq_true, decide_eq_true_eq] at hvalid
  refine ⟨_, h.keeps.getColumn hmem, ?_⟩
  have hnew : source ∉ v.derive.keys := fun hk => v.derive_keys source hk hmem
  rw [Track.series, h.sources source (Or.inr hnew), castTracks_dtype, hvalid.1.1.2]
  rfl

lemma sound_of_narrow (hP : RaisesOnTypes P) (hfits : Fits v.toRules chunk)
    (hp : v.rename.keys = [] → P.selectNone chunk.height = chunk.height)
    (hnarrow : NarrowDecimals v.toRules) (hread : NamesRead P v.toRules chunk.columns.keys) :
    Sound P v.toRules chunk where
  normalized w e w' hw hreach := by
    obtain ⟨rules, h⟩ := normalizing_of_reaches hfits hp hw hreach
    obtain ⟨T, hkeeps, htext⟩ := h.texts
    exact ⟨_, hkeeps.getColumn (h.targets e List.mem_cons_self), htext e.1⟩
  buildable e he := (dtypeError_targetDtype hP e.2).mpr (hnarrow e he)
  generated w e w' s hw hreach hrest hs := by
    obtain ⟨rules, T, h⟩ := deriving_of_reaches hfits hp hw hreach
    exact h.generated_dtype hrest hs
  dated w e w' source hw hreach hg := by
    obtain ⟨rules, T, h⟩ := deriving_of_reaches hfits hp hw hreach
    exact dated_of_deriving h hg
  selected := by
    refine ⟨fun c hc => selectsOwn_iff.mpr (hread.sources c hc), v.targetColumns_nodup,
      fun f hf c hc => selectsOwn_iff.mpr ?_, fun w hw => columns_of_afterDerive hread hw⟩
    rw [hf]
    exact hread.targets c hc
  raises x hx := unknownZone_of_applyMapping hfits hp hread hP hnarrow hx

lemma Sound.namesRead (h : Sound P v.toRules chunk) :
    NamesRead P v.toRules chunk.columns.keys := by
  obtain ⟨hsources, hnodup, htargets, -⟩ := h.selected
  refine ⟨fun c hc => selectsOwn_iff.mp (hsources c hc), fun c hc => ?_⟩
  -- a frame of the target columns
  have hentries : (v.targetColumns.map fun c => (c, Series.ofTexts [])).map Prod.fst =
      v.targetColumns := by
    rw [List.map_map]
    exact List.map_id _
  have hkeys : (Dict.ofList (v.targetColumns.map fun c => (c, Series.ofTexts []))).keys =
      v.targetColumns := by
    rw [Dict.keys, Dict.entries_ofList (by rwa [hentries]), hentries]
  have hown := selectsOwn_iff.mp (htargets ⟨0, Dict.ofList _⟩ hkeys c hc)
  rwa [hkeys] at hown

lemma Sound.unnamed (hP : RaisesOnTypes P) (hnone : v.rename.keys = [])
    (h : Sound P v.toRules ⟨0, Dict.empty⟩) : Sound P v.toRules chunk := by
  have hrename : afterRename P v.toRules chunk = afterRename P v.toRules ⟨0, Dict.empty⟩ := by
    rw [afterRename, afterRename, runRename_unnamed hP.selectNone hnone]
  have hnormalize : afterNormalize P v.toRules chunk =
      afterNormalize P v.toRules ⟨0, Dict.empty⟩ := by
    rw [afterNormalize, afterNormalize, hrename]
  have hcast : afterCast P v.toRules chunk = afterCast P v.toRules ⟨0, Dict.empty⟩ := by
    rw [afterCast, afterCast, hnormalize]
  have hderive : afterDerive P v.toRules chunk = afterDerive P v.toRules ⟨0, Dict.empty⟩ := by
    rw [afterDerive, afterDerive, hcast]
  exact {
    normalized := hrename ▸ h.normalized
    buildable := h.buildable
    generated := hcast ▸ h.generated
    dated := hcast ▸ h.dated
    selected := ⟨by simp [hnone], h.selected.2.1, hderive ▸ h.selected.2.2⟩
    raises := applyMapping_unnamed v hP.selectNone hnone chunk ▸ h.raises }

/-- **When the construction checks are sound**: when no decimal is declared with more than 38
digits and polars reads the selected names as column names; the checks let others through. -/
theorem typing_sound_iff {P : Polars} (hP : RaisesOnTypes P) (v : SourceMapping P.upper)
    (chunk : Frame) (hfits : Fits v.toRules chunk) :
    Sound P v.toRules chunk ↔
      NarrowDecimals v.toRules ∧ NamesRead P v.toRules chunk.columns.keys := by
  constructor
  · exact fun h =>
      ⟨fun e he => (dtypeError_targetDtype hP e.2).mp (h.buildable e he), h.namesRead⟩
  · rintro ⟨hnarrow, hread⟩
    by_cases hnone : v.rename.keys = []
    · have hempty : Fits v.toRules ⟨0, Dict.empty⟩ :=
        ⟨fun c s hs => (by cases hs), fun c s hs => (by cases hs), by simp [hnone]⟩
      have hread₀ : NamesRead P v.toRules [] :=
        ⟨fun c hc => absurd (hnone ▸ hc) List.not_mem_nil, hread.targets⟩
      exact (sound_of_narrow hP hempty (fun _ => hP.selectNone 0) hnarrow hread₀).unnamed hP hnone
    · exact sound_of_narrow hP hfits (fun h => absurd h hnone) hnarrow hread

/-- A mapping with a wider decimal maps no chunk. -/
theorem exists_error_of_wide {P : Polars} (hP : RaisesOnTypes P) (v : SourceMapping P.upper)
    (chunk : Frame) (hfits : Fits v.toRules chunk) (hwide : ¬ NarrowDecimals v.toRules) :
    ∃ x, applyMapping P v.toRules chunk = .error x := by
  have hnamed : v.rename.keys ≠ [] := by
    -- a mapping that names no column casts none
    intro hnone
    refine hwide fun e he => ?_
    have hmem := v.cast_keys e.1 (List.mem_map_of_mem he)
    simp [Rules.renameTargets, Dict.values, List.map_eq_nil_iff.mp hnone] at hmem
  cases hrun : applyMapping P v.toRules chunk with
  | error x => exact ⟨x, rfl⟩
  | ok res =>
    obtain ⟨hsupported, -⟩ := supported_of_ok hfits (fun h => absurd h hnamed) hrun
    have hnarrow : NarrowDecimals v.toRules := fun e he =>
      (dtypeError_targetDtype hP e.2).mp (hsupported.cast e he).1
    exact absurd hnarrow hwide

/-! ### A wide decimal -/

/-- Polars on ASCII text, refusing a decimal of more than 38 digits. -/
def widthPolars : Polars :=
  { asciiPolars with
    dtypeError
      | .decimal precision _ =>
        if precision ≤ maxPrecision then none else some (.other "InvalidOperationError")
      | _ => none }

lemma raisesOnTypes_widthPolars : RaisesOnTypes widthPolars where
  dateFormat _ := rfl
  datetimeFormat _ := rfl
  inferred _ := ⟨none, rfl⟩
  constant _ := ⟨.int32, rfl⟩
  dtype d := by cases d <;> simp [widthPolars]
  selectNone _ := rfl

/-- One price, cast to a decimal of the given precision. -/
def pricedRules (precision : ℕ) : Rules where
  version := 1
  rename := Dict.ofList [("Preis", "unit_price")]
  normalize := Dict.empty
  cast := Dict.ofList [("unit_price", .decimal precision 2)]
  derive := Dict.empty

def wideMapping : SourceMapping widthPolars.upper := ⟨pricedRules 39, by decide⟩
def narrowMapping : SourceMapping widthPolars.upper := ⟨pricedRules 38, by decide⟩

def onePrice : Frame where
  height := 1
  columns := Dict.ofList [("Preis", Series.ofTexts [some "1.5"])]

lemma fits_onePrice (precision : ℕ) : Fits (pricedRules precision) onePrice := by
  have hcolumn : ∀ c s, onePrice.columns.get? c = some s →
      c = "Preis" ∧ s = Series.ofTexts [some "1.5"] := by
    intro c s hs
    rw [onePrice, ← Dict.mem_entries, Dict.entries_ofList (by simp)] at hs
    simpa using hs
  refine ⟨fun c s hs => ?_, fun c s hs => ?_, ?_⟩
  · rw [(hcolumn c s hs).2]
    rfl
  · exact ⟨_, (hcolumn c s hs).2⟩
  · exact fun source hs => hs

/-- A mapping from a column whose name polars reads as a pattern. -/
def patternRules : Rules where
  version := 1
  rename := Dict.ofList [("^a$", "sku_id")]
  normalize := Dict.empty
  cast := Dict.empty
  derive := Dict.empty

def patternMapping : SourceMapping widthPolars.upper := ⟨patternRules, by decide⟩

def oneSku : Frame where
  height := 1
  columns := Dict.ofList [("^a$", Series.ofTexts [some "A1"])]

lemma fits_oneSku : Fits patternRules oneSku := by
  have hcolumn : ∀ c s, oneSku.columns.get? c = some s → s = Series.ofTexts [some "A1"] := by
    intro c s hs
    rw [oneSku, ← Dict.mem_entries, Dict.entries_ofList (by simp)] at hs
    simpa using (Prod.mk.inj (List.mem_singleton.mp hs)).2
  refine ⟨fun c s hs => ?_, fun c s hs => ?_, fun source hs => hs⟩
  · rw [hcolumn c s hs]
    rfl
  · exact ⟨_, hcolumn c s hs⟩

/-- A decimal of 39 digits passes construction, and so does a source that is a pattern, which
selects nothing here; the engine raises on both. -/
theorem wide_decimal_raises :
    RaisesOnTypes widthPolars ∧
      (Fits wideMapping.toRules onePrice ∧
        applyMapping widthPolars wideMapping.toRules onePrice =
          .error (.other "InvalidOperationError") ∧
        ¬ Sound widthPolars wideMapping.toRules onePrice) ∧
      Fits patternMapping.toRules oneSku ∧
        applyMapping widthPolars patternMapping.toRules oneSku =
          .error (.other "ColumnNotFoundError") ∧
        ¬ Sound widthPolars patternMapping.toRules oneSku := by
  have hother : ∀ {m : Rules} {chunk : Frame} {name : String},
      applyMapping widthPolars m chunk = .error (.other name) → ¬ Sound widthPolars m chunk := by
    intro m chunk name hraises hsound
    obtain ⟨column, ops, format, zone, -, -, -, he⟩ := hsound.raises _ hraises
    cases he
  have hwide : applyMapping widthPolars wideMapping.toRules onePrice =
      .error (.other "InvalidOperationError") := by rfl
  have hpattern : applyMapping widthPolars patternMapping.toRules oneSku =
      .error (.other "ColumnNotFoundError") := by rfl
  exact ⟨raisesOnTypes_widthPolars, ⟨fits_onePrice 39, hwide, hother hwide⟩, fits_oneSku, hpattern,
    hother hpattern⟩

lemma narrowDecimals_narrowMapping : NarrowDecimals narrowMapping.toRules := by
  intro e he precision scale hdecimal
  have hentries : narrowMapping.cast.entries = [("unit_price", .decimal 38 2)] := rfl
  rw [hentries, List.mem_singleton] at he
  rw [he] at hdecimal
  cases hdecimal
  exact le_rfl

/-- A decimal of 38 digits under plain names is sound. -/
theorem narrow_decimal_sound : Sound widthPolars narrowMapping.toRules onePrice :=
  (typing_sound_iff raisesOnTypes_widthPolars narrowMapping onePrice (fits_onePrice 38)).mpr
    ⟨narrowDecimals_narrowMapping, namesRead_of_plain (by decide) (by decide) (by decide)⟩

end CortexDis.EngineTyping
