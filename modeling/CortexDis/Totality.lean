import CortexDis.Accounting

/-!
When the engine returns.

Over a chunk of text with the declared columns an operation, a data type or a constant is
refused whatever the cells hold. The one thing that depends on them is the datetime format
of a column, which polars infers or does not.
-/

namespace CortexDis.Totality

open CortexDis.PyDict CortexDis.Values CortexDis.Errors CortexDis.Frames CortexDis.MappingRules
open CortexDis.Masked CortexDis.Normalize CortexDis.ApplyMapping CortexDis.Runs
open CortexDis.Accounting

variable (P : Polars)

/-- No operation of the list raises on the column. -/
def Accepts (column : String) (specs : List NormalizeOp) : Prop :=
  ∀ op ∈ specs, raised P column op = none

/-- Polars has a data type for the generated column. -/
def Generates : Generator → Prop
  | .constant value => ∃ dtype, scalarDtype P value = .ok dtype
  | _ => True

/-- The rename finds columns in a chunk with these, the sources among them, and leaves no two of
one name. -/
def Renames (m : Rules) (columns : List String) : Prop :=
  ∃ picked, P.expandAll columns m.rename.keys = .ok picked ∧ picked.Nodup ∧
    m.rename.keys ⊆ picked ∧ (picked.map (renamed m.rename)).Nodup

/-- Polars has the data type, and casts a text column of this name to it. -/
def Casts (column : String) (type : CastType) : Prop :=
  P.dtypeError (targetDtype type) = none ∧ castNameError P column type = none

/-- Polars takes the declarations of the mapping, over a chunk with these columns. -/
structure Supported (m : Rules) (columns : List String) : Prop where
  rename : Renames P m columns
  normalize : ∀ e ∈ m.normalize.entries, Accepts P e.1 e.2
  cast : ∀ e ∈ m.cast.entries, Casts P e.1 e.2
  derive : ∀ e ∈ m.derive.entries, Generates P e.2.generator ∧ Accepts P e.1 e.2.rest
  select : ∃ shown, contributed P m columns = .ok shown ∧ shown.Nodup

/-- A chunk of text that has the columns the mapping declares. -/
structure Fits (m : Rules) (chunk : Frame) : Prop where
  rect : chunk.Rect
  text : chunk.AllText
  declared : ∀ source ∈ m.rename.keys, source ∈ chunk.columns.keys

lemma applyTransformList_isOk_iff (column : String) (sourceColumn : Option String)
    (stage : FailureStage) (k : ℕ) (specs : List NormalizeOp) (cells : List (Option String)) :
    (∃ out, applyTransformList P column sourceColumn stage k specs cells = .ok out) ↔
      Accepts P column specs := by
  induction specs generalizing k cells with
  | nil => exact iff_of_true ⟨_, rfl⟩ (by simp [Accepts])
  | cons op specs ih =>
    rw [applyTransformList]
    cases hop : raised P column op with
    | some e => simp [Accepts, hop]
    | none =>
      have hcons : Accepts P column (op :: specs) ↔ Accepts P column specs := by
        simp [Accepts, hop]
      rw [hcons, ← ih (k + 1) ((opStep P column sourceColumn stage k op).column cells)]
      constructor
      · rintro ⟨out, hout⟩
        obtain ⟨rest, hr, -⟩ := of_bind_eq_ok hout
        exact ⟨rest, hr⟩
      · rintro ⟨rest, hr⟩
        refine ⟨(rest.1, (opStep P column sourceColumn stage k op).log cells ++ rest.2), ?_⟩
        simp only [hr]
        rfl

/-! ### The stages -/

variable {inverse : Dict String String} {n : ℕ} {w w' : Work} {T : String → Track}

/-- The frame has the columns, with the cells of their tracks. -/
structure Keeps (n : ℕ) (columns : List String) (w : Work) (T : String → Track) : Prop where
  tracks : Tracks n w T
  present : ∀ c ∈ columns, c ∈ w.1.columns.keys

lemma Keeps.getColumn {columns : List String} (h : Keeps n columns w T) {c : String}
    (hc : c ∈ columns) : w.1.getColumn c = .ok ((T c).series n) := by
  obtain ⟨s, hs⟩ := getColumn_of_mem (h.present c hc)
  rw [hs, h.tracks.getColumn hs]

lemma mem_addColumn {columns : List String} {c c' : String} :
    c' ∈ addColumn columns c ↔ c' ∈ columns ∨ c' = c := by
  unfold addColumn
  split_ifs with hc
  · exact ⟨Or.inl, fun h => h.elim id fun heq => heq ▸ hc⟩
  · simp

section Steps

variable {columns : List String} (h : Keeps n columns w T)
include h

lemma normalizeColumn_isOk_iff {rule : String × List NormalizeOp} (hc : rule.1 ∈ columns)
    (htext : (T rule.1).dtype = .string) :
    (∃ w', normalizeColumn P inverse w rule = .ok w') ↔ Accepts P rule.1 rule.2 := by
  rw [← applyTransformList_isOk_iff P rule.1 (inverse.get? rule.1) .normalize 0 rule.2
    ((T rule.1).series n).texts]
  simp only [normalizeColumn, h.getColumn hc, Track.series, htext, bind, Except.bind, if_true]
  constructor
  · rintro ⟨w', hw⟩
    split at hw
    · cases hw
    · exact ⟨_, ‹_›⟩
  · rintro ⟨out, hout⟩
    exact ⟨_, by rw [hout]; rfl⟩

lemma normalizeColumn_keeps {rule : String × List NormalizeOp}
    (hrun : normalizeColumn P inverse w rule = .ok w') :
    Keeps n columns w' (Function.update T rule.1 (normalizeTrack P inverse rule.1 rule.2 T)) := by
  refine ⟨normalizeColumn_tracks P h.tracks hrun, fun c hc => ?_⟩
  rw [normalizeColumn_columns hrun]
  exact h.present c hc

lemma castColumn_isOk_iff {rule : String × CastType} (hc : rule.1 ∈ columns)
    (htext : (T rule.1).dtype = .string) :
    (∃ w', castColumn P inverse w rule = .ok w') ↔ Casts P rule.1 rule.2 ∧
      ∃ format, castFormat P rule.2 ((T rule.1).series n).texts = .ok format := by
  simp only [castColumn, h.getColumn hc, bind, Except.bind, Casts]
  cases hd : P.dtypeError (targetDtype rule.2) with
  | some e => simp
  | none =>
    have hdtype : ((T rule.1).series n).dtype = .string := htext
    by_cases hsame : ((T rule.1).series n).dtype = targetDtype rule.2
    · -- a cast to text leaves the column as it is
      have hstring := targetDtype_eq_string (hdtype.symm.trans hsame)
      simp [hsame, castFormat, castNameError, hstring, pure, Except.pure]
    · simp only [if_neg hsame, if_pos hdtype, true_and]
      cases castNameError P rule.1 rule.2 with
      | some e => simp
      | none =>
        cases castFormat P rule.2 ((T rule.1).series n).texts <;> simp [pure, Except.pure]

lemma castColumn_keeps {rule : String × CastType} (hrun : castColumn P inverse w rule = .ok w') :
    Keeps n columns w' (Function.update T rule.1 (castTrack P inverse n rule.1 rule.2 T)) := by
  refine ⟨castColumn_tracks P h.tracks hrun, fun c hc => ?_⟩
  rw [castColumn_columns hrun]
  exact h.present c hc

lemma generate_isOk_iff {g : Generator} (hsource : ∀ source, sourceOf g = some source →
    source ∈ columns) : (∃ s, generate P w.1 g = .ok s) ↔ Generates P g := by
  cases g with
  | copy source => exact iff_of_true ⟨_, h.getColumn (hsource source rfl)⟩ trivial
  | constant value =>
    simp only [generate, Generates]
    cases scalarDtype P value <;> simp [bind, Except.bind, pure, Except.pure]
  | dateFromDatetime source =>
    refine iff_of_true ⟨⟨.date, ((T source).series n).cells.map dateOf⟩, ?_⟩ trivial
    simp [generate, h.getColumn (hsource source rfl), bind, Except.bind, pure, Except.pure]

lemma deriveColumn_isOk_iff {rule : String × DeriveSpec}
    (hsource : ∀ source, sourceOf rule.2.generator = some source → source ∈ columns)
    (htext : rule.2.rest ≠ [] → Generates P rule.2.generator →
      (generatedTrack P T rule.2.generator).dtype = .string) :
    (∃ w', deriveColumn P w rule = .ok w') ↔
      Generates P rule.2.generator ∧ Accepts P rule.1 rule.2.rest := by
  rw [← generate_isOk_iff P h hsource]
  cases hg : generate P w.1 rule.2.generator with
  | error e => simp [deriveColumn, hg, bind, Except.bind]
  | ok s =>
    obtain rfl := generate_ok P h.tracks hg
    have hgen := (generate_isOk_iff P h hsource).mp ⟨_, hg⟩
    simp only [deriveColumn, hg, bind, Except.bind]
    by_cases hrest : rule.2.rest = []
    · simp [hrest, Accepts, pure, Except.pure]
    · have hdtype : ((generatedTrack P T rule.2.generator).series n).dtype = .string :=
        htext hrest hgen
      rw [if_neg hrest, if_pos hdtype,
        ← applyTransformList_isOk_iff P rule.1 (sourceOf rule.2.generator) .derive 1 rule.2.rest
          ((generatedTrack P T rule.2.generator).series n).texts]
      cases applyTransformList P rule.1 (sourceOf rule.2.generator) .derive 1 rule.2.rest
        ((generatedTrack P T rule.2.generator).series n).texts <;> simp [pure, Except.pure]

lemma deriveColumn_keeps {rule : String × DeriveSpec}
    (hnew : ∀ i, faults ((T rule.1).outcome i) = []) (hrun : deriveColumn P w rule = .ok w') :
    Keeps n (rule.1 :: columns) w' (Function.update T rule.1 (deriveTrack P rule.1 rule.2 T)) := by
  refine ⟨deriveColumn_tracks P h.tracks hnew hrun, fun c hc => ?_⟩
  rw [deriveColumn_columns hrun, mem_addColumn]
  exact (List.mem_cons.mp hc).symm.imp_left (h.present c)

end Steps

/-! ### The run -/

section Run

variable {P} {upper : String → String} {v : SourceMapping upper} {chunk : Frame}

/-- The normalized texts of a column. -/
def normalizedTexts (P : Polars) (m : Rules) (chunk : Frame) (c : String) :
    List (Option String) :=
  (List.range chunk.height).map fun i => valueOf (normalizedCell P m i (rowOf chunk i) c)

lemma texts_normalizedTracks (c : String) :
    ((normalizedTracks P v.toRules chunk c).series chunk.height).texts =
      normalizedTexts P v.toRules chunk c := by
  simp [normalizedTracks_eq, Track.series, Series.texts, valueOf_map_ofText, normalizedTexts]

lemma castTracks_dtype (c : String) :
    (castTracks P v.toRules chunk c).dtype = (v.cast.get? c).elim .string targetDtype := by
  rw [castTracks, Dict.foldl_update v.cast (castTrack P (renameInverse v.toRules) chunk.height)]
  · cases h : v.cast.get? c with
    | none => simp [normalizedTracks_eq]
    | some type =>
      simp only [Option.elim_some, castTrack, normalizedTracks_eq, Track.series]
      split_ifs with hs
      · exact hs
      · rfl
  · intro e _ T T' hT
    simp [castTrack, hT e.1 (Or.inl rfl)]

lemma renames_of_runRename {frame : Frame} (h : runRename P chunk v.rename = .ok frame) :
    Renames P v.toRules chunk.columns.keys := by
  obtain ⟨picked, hpicked, hsub, -, hkeys, -⟩ := runRename_ok P h
  have hnodup : (picked.map (renamed v.rename)).Nodup := hkeys ▸ frame.columns.nodup
  exact ⟨picked, hpicked, hnodup.of_map, hsub, hnodup⟩

lemma keeps_of_runRename {frame : Frame} (hfits : Fits v.toRules chunk)
    (hp : v.rename.keys = [] → P.selectNone chunk.height = chunk.height)
    (h : runRename P chunk v.rename = .ok frame) :
    Keeps chunk.height v.renameTargets (frame, []) (renamedTracks v.toRules chunk) := by
  refine ⟨runRename_tracks P v.toRules v.renameTargets_nodup hfits.rect hfits.text hp h,
    fun c hc => ?_⟩
  obtain ⟨picked, -, hsub, -, hkeys, -⟩ := runRename_ok P h
  rw [Rules.renameTargets, ← map_renamed_keys] at hc
  rw [hkeys]
  exact List.map_subset _ hsub hc

lemma exists_runRename (hfits : Fits v.toRules chunk)
    (h : Renames P v.toRules chunk.columns.keys) :
    ∃ frame, runRename P chunk v.rename = .ok frame := by
  have hfound : v.rename.keys.find? (fun source => source ∉ chunk.columns.keys) = none := by
    simpa using hfits.declared
  obtain ⟨picked, hpicked, hnodup, hsub, hrenamed⟩ := h
  obtain ⟨selected, hselected⟩ := (exists_select_iff P).mpr ⟨picked, hpicked, hnodup⟩
  obtain ⟨picked', hpicked', -, hkeys, -⟩ := select_ok P hselected
  obtain rfl := Except.ok.inj (hpicked.symm.trans hpicked')
  rw [← hkeys] at hsub hrenamed
  obtain ⟨frame, hframe⟩ := exists_rename_iff.mpr ⟨hsub, hrenamed⟩
  refine ⟨frame, ?_⟩
  simp only [runRename, hfound, hselected, ok_bind]
  exact hframe

section Stages

variable {normalized cast w w' : Work}

/-- What the normalize stage keeps while the rules `rules` are still to come: text columns. -/
structure Normalizing (v : SourceMapping upper) (n : ℕ) (rules : List (String × List NormalizeOp))
    (w : Work) : Prop where
  targets : ∀ e ∈ rules, e.1 ∈ v.renameTargets
  texts : ∃ T, Keeps n v.renameTargets w T ∧ ∀ c, (T c).dtype = .string

lemma normalizing_renamed (h : Keeps n v.renameTargets w (renamedTracks v.toRules chunk)) :
    Normalizing v n v.normalize.entries w :=
  ⟨fun e he => v.normalize_keys e.1 (List.mem_map_of_mem he), _, h, fun _ => rfl⟩

lemma Normalizing.step {e : String × List NormalizeOp} {rules : List (String × List NormalizeOp)}
    (h : Normalizing v n (e :: rules) w) (hrun : normalizeColumn P inverse w e = .ok w') :
    Normalizing v n rules w' := by
  obtain ⟨T, hkeeps, htext⟩ := h.texts
  refine ⟨fun e' he' => h.targets e' (List.mem_cons_of_mem _ he'), _,
    normalizeColumn_keeps P hkeeps hrun, fun c => ?_⟩
  by_cases hc : c = e.1
  · subst hc
    simp [normalizeTrack]
  · rw [Function.update_of_ne hc]
    exact htext c

lemma runNormalize_isOk_iff (h : Keeps n v.renameTargets w (renamedTracks v.toRules chunk)) :
    (∃ w', runNormalize P v.normalize inverse w = .ok w') ↔
      ∀ e ∈ v.normalize.entries, Accepts P e.1 e.2 := by
  refine foldlM_isOk_iff (I := Normalizing v n) ?_ (fun _ _ _ _ h hrun => h.step hrun)
    (normalizing_renamed h)
  intro e rules w h
  obtain ⟨T, hkeeps, htext⟩ := h.texts
  exact normalizeColumn_isOk_iff P hkeeps (h.targets e List.mem_cons_self) (htext e.1)

lemma runNormalize_keeps (h : Keeps n v.renameTargets w (renamedTracks v.toRules chunk))
    (hrun : runNormalize P v.normalize (renameInverse v.toRules) w = .ok w') :
    Keeps n v.renameTargets w' (normalizedTracks P v.toRules chunk) := by
  unfold normalizedTracks
  refine foldlM_relates (R := fun _ w T => Keeps n v.renameTargets w T) ?_ h hrun
  exact fun e _ w w' T h hrun => normalizeColumn_keeps P h hrun

/-- What the cast stage keeps while the rules `rules` are still to come: their columns are the
normalized ones. -/
structure Casting (P : Polars) (v : SourceMapping upper) (chunk : Frame)
    (rules : List (String × CastType)) (w : Work) : Prop where
  nodup : (rules.map Prod.fst).Nodup
  targets : ∀ e ∈ rules, e.1 ∈ v.renameTargets
  sources : ∃ T, Keeps chunk.height v.renameTargets w T ∧
    ∀ c ∈ rules.map Prod.fst, T c = normalizedTracks P v.toRules chunk c

lemma casting_normalized
    (h : Keeps chunk.height v.renameTargets w (normalizedTracks P v.toRules chunk)) :
    Casting P v chunk v.cast.entries w :=
  ⟨v.cast.nodup, fun e he => v.cast_keys e.1 (List.mem_map_of_mem he), _, h, fun _ _ => rfl⟩

section Cast

variable {rules : List (String × CastType)} {e : String × CastType}
  (h : Casting P v chunk (e :: rules) w)
include h

lemma Casting.isOk_iff : (∃ w', castColumn P inverse w e = .ok w') ↔ Casts P e.1 e.2 ∧
    ∃ format, castFormat P e.2 (normalizedTexts P v.toRules chunk e.1) = .ok format := by
  obtain ⟨T, hkeeps, hT⟩ := h.sources
  have hTe := hT e.1 List.mem_cons_self
  have htext : (T e.1).dtype = .string := by rw [hTe, normalizedTracks_eq]
  rw [castColumn_isOk_iff P hkeeps (h.targets e List.mem_cons_self) htext, hTe,
    texts_normalizedTracks]

lemma Casting.step (hrun : castColumn P inverse w e = .ok w') : Casting P v chunk rules w' := by
  obtain ⟨T, hkeeps, hT⟩ := h.sources
  have hn := h.nodup
  simp only [List.map_cons, List.nodup_cons] at hn
  refine ⟨hn.2, fun e' he' => h.targets e' (List.mem_cons_of_mem _ he'), _,
    castColumn_keeps P hkeeps hrun, fun c hc => ?_⟩
  have hne : c ≠ e.1 := fun heq => hn.1 (heq ▸ hc)
  rw [Function.update_of_ne hne]
  exact hT c (List.mem_cons_of_mem _ hc)

end Cast

lemma runCast_isOk_iff
    (h : Keeps chunk.height v.renameTargets w (normalizedTracks P v.toRules chunk)) :
    (∃ w', runCast P v.cast inverse w = .ok w') ↔
      ∀ e ∈ v.cast.entries, Casts P e.1 e.2 ∧
        ∃ format, castFormat P e.2 (normalizedTexts P v.toRules chunk e.1) = .ok format :=
  foldlM_isOk_iff (I := Casting P v chunk) (fun _ _ _ h => h.isOk_iff)
    (fun _ _ _ _ h hrun => h.step hrun) (casting_normalized h)

lemma runCast_keeps
    (h : Keeps chunk.height v.renameTargets w (normalizedTracks P v.toRules chunk))
    (hrun : runCast P v.cast (renameInverse v.toRules) w = .ok w') :
    Keeps chunk.height v.renameTargets w' (castTracks P v.toRules chunk) := by
  unfold castTracks
  refine foldlM_relates (R := fun _ w T => Keeps chunk.height v.renameTargets w T) ?_ h hrun
  exact fun e _ w w' T h hrun => castColumn_keeps P h hrun

lemma sourceOf_mem {e : String × DeriveSpec} (he : e ∈ v.derive.entries) {source : String}
    (h : sourceOf e.2.generator = some source) : source ∈ v.renameTargets := by
  have hvalid := v.validDerive e.2 (List.mem_map_of_mem (f := Prod.snd) he)
  simp only [Rules.validDerive, Bool.and_eq_true] at hvalid
  cases hg : e.2.generator with
  | copy s =>
    simp only [hg, decide_eq_true_eq, sourceOf, Option.some.injEq] at hvalid h
    exact h ▸ hvalid.1.1
  | constant value => simp [hg, sourceOf] at h
  | dateFromDatetime s =>
    simp only [hg, Bool.and_eq_true, decide_eq_true_eq, sourceOf, Option.some.injEq] at hvalid h
    exact h ▸ hvalid.1.1.1

lemma generatedTrack_dtype {e : String × DeriveSpec} (he : e ∈ v.derive.entries)
    (hrest : e.2.rest ≠ []) :
    (generatedTrack P (castTracks P v.toRules chunk) e.2.generator).dtype = .string := by
  have hvalid := v.validDerive e.2 (List.mem_map_of_mem (f := Prod.snd) he)
  have hempty : e.2.rest.isEmpty = false := by simpa using hrest
  simp only [Rules.validDerive, Bool.and_eq_true, hempty, Bool.false_or] at hvalid
  cases hg : e.2.generator with
  | copy source =>
    simp only [hg] at hvalid
    rw [generatedTrack, castTracks_dtype]
    cases hcast : v.cast.get? source with
    | none => rfl
    | some type =>
      simp only [hcast, decide_eq_true_eq] at hvalid
      simp [hvalid.2, targetDtype]
  | constant value =>
    simp only [hg] at hvalid
    cases value with
    | str s => rfl
    | int k => simp at hvalid
    | float l => simp at hvalid
    | bool b => simp at hvalid
  | dateFromDatetime source => simp [hg] at hvalid

/-- What the derive stage keeps while the rules `rules` are still to come. -/
structure Deriving (P : Polars) (v : SourceMapping upper) (chunk : Frame)
    (rules : List (String × DeriveSpec)) (w : Work) (T : String → Track) : Prop where
  nodup : (rules.map Prod.fst).Nodup
  rules_sub : ∀ e ∈ rules, e ∈ v.derive.entries
  keeps : Keeps chunk.height v.renameTargets w T
  done : ∀ c ∈ v.derive.keys, c ∈ rules.map Prod.fst ∨ c ∈ w.1.columns.keys
  sources : ∀ c, c ∈ rules.map Prod.fst ∨ c ∉ v.derive.keys →
    T c = castTracks P v.toRules chunk c

section Derive

variable {rules : List (String × DeriveSpec)} {e : String × DeriveSpec} {T : String → Track}
  (h : Deriving P v chunk (e :: rules) w T)
include h

lemma Deriving.generatedTrack_eq :
    generatedTrack P T e.2.generator =
      generatedTrack P (castTracks P v.toRules chunk) e.2.generator := by
  refine generatedTrack_congr P v (h.rules_sub e List.mem_cons_self) fun c hc => h.sources c ?_
  refine hc.imp_left ?_
  rintro rfl
  exact List.mem_cons_self

lemma Deriving.generated_dtype (hrest : e.2.rest ≠ []) {s : Series}
    (hs : generate P w.1 e.2.generator = .ok s) : s.dtype = .string := by
  rw [generate_ok P h.keeps.tracks hs, Track.series, h.generatedTrack_eq]
  exact generatedTrack_dtype (h.rules_sub e List.mem_cons_self) hrest

lemma Deriving.isOk_iff : (∃ w', deriveColumn P w e = .ok w') ↔
    Generates P e.2.generator ∧ Accepts P e.1 e.2.rest := by
  have he := h.rules_sub e List.mem_cons_self
  refine deriveColumn_isOk_iff P h.keeps (fun source hs => sourceOf_mem he hs) fun hrest _ => ?_
  rw [h.generatedTrack_eq]
  exact generatedTrack_dtype he hrest

lemma Deriving.step (hrun : deriveColumn P w e = .ok w') :
    Deriving P v chunk rules w' (Function.update T e.1 (deriveTrack P e.1 e.2 T)) := by
  have hn := h.nodup
  simp only [List.map_cons, List.nodup_cons] at hn
  have he := h.rules_sub e List.mem_cons_self
  have hkey : e.1 ∈ v.derive.keys := List.mem_map_of_mem he
  have hnew : ∀ i, faults ((T e.1).outcome i) = [] := by
    intro i
    rw [h.sources e.1 (Or.inl List.mem_cons_self), castTracks_outcome, castCell_of_derive P v hkey]
    rfl
  have hkeeps := deriveColumn_keeps P h.keeps hnew hrun
  refine ⟨hn.2, fun e' he' => h.rules_sub e' (List.mem_cons_of_mem _ he'),
    ⟨hkeeps.tracks, fun c hc => hkeeps.present c (List.mem_cons_of_mem _ hc)⟩, ?_, ?_⟩
  · intro c hc
    rcases h.done c hc with hc' | hc'
    · rcases List.mem_cons.mp hc' with rfl | hc'
      · exact Or.inr (hkeeps.present _ List.mem_cons_self)
      · exact Or.inl hc'
    · rw [deriveColumn_columns hrun, mem_addColumn]
      exact Or.inr (Or.inl hc')
  · intro c hc
    have hne : c ≠ e.1 := by
      rintro rfl
      exact hc.elim hn.1 fun hnot => hnot hkey
    rw [Function.update_of_ne hne]
    exact h.sources c (hc.imp_left (List.mem_cons_of_mem _))

end Derive

lemma deriving_cast (h : Keeps chunk.height v.renameTargets w (castTracks P v.toRules chunk)) :
    Deriving P v chunk v.derive.entries w (castTracks P v.toRules chunk) where
  nodup := v.derive.nodup
  rules_sub _ he := he
  keeps := h
  done _ hc := Or.inl hc
  sources _ _ := rfl

lemma runDerive_isOk_iff
    (h : Keeps chunk.height v.renameTargets w (castTracks P v.toRules chunk)) :
    (∃ w', runDerive P v.derive w = .ok w') ↔
      ∀ e ∈ v.derive.entries, Generates P e.2.generator ∧ Accepts P e.1 e.2.rest := by
  refine foldlM_isOk_iff (I := fun rules w => ∃ T, Deriving P v chunk rules w T) ?_ ?_
    ⟨_, deriving_cast h⟩
  · rintro e rules w ⟨T, hT⟩
    exact hT.isOk_iff
  · rintro e rules w w' ⟨T, hT⟩ hrun
    exact ⟨_, hT.step hrun⟩

lemma runDerive_keeps
    (h : Keeps chunk.height v.renameTargets w (castTracks P v.toRules chunk))
    (hrun : runDerive P v.derive w = .ok w') :
    Deriving P v chunk [] w' (derivedTracks P v.toRules chunk) :=
  foldlM_relates (R := Deriving P v chunk) (fun _ _ _ _ _ h hrun => h.step hrun)
    (deriving_cast h) hrun

lemma Deriving.present {T : String → Track} (h : Deriving P v chunk [] w T) :
    ∀ c ∈ v.targetColumns, c ∈ w.1.columns.keys := by
  intro c hc
  rcases List.mem_append.mp hc with hc | hc
  · exact h.keeps.present c hc
  · exact (h.done c hc).resolve_left (by simp)

/-- Columns are selected and the clean rows taken from them, of which there are none where no
column is. -/
lemma Deriving.exists_contribution {T : String → Track} (h : Deriving P v chunk [] w T)
    {shown : List String} (hshown : P.expandAll w.1.columns.keys v.targetColumns = .ok shown)
    (hn : shown.Nodup)
    (hclean : shown = [] → ∀ i < chunk.height, (∀ c, faults ((T c).outcome i) = []) →
      i < P.selectNone chunk.height) :
    ∃ selected contribution, w.1.select P v.targetColumns = .ok selected ∧
      selected.gather (keep w.1.height w.2) = .ok contribution := by
  obtain ⟨selected, hselected⟩ := (exists_select_iff P).mpr ⟨shown, hshown, hn⟩
  obtain ⟨picked, hpicked, hheight, -⟩ := select_ok P hselected
  obtain rfl := Except.ok.inj (hshown.symm.trans hpicked)
  have hlast := h.keeps.tracks.height
  obtain ⟨contribution, hgather⟩ := exists_gather (f := selected) (keep w.1.height w.2) <| by
    intro i hi
    rw [hlast] at hi hheight
    have hlt : i < chunk.height := List.mem_range.mp (List.mem_of_mem_filter hi)
    rw [hheight]
    split_ifs with hnone
    · exact hclean hnone i hlt (h.keeps.tracks.faults_of_kept hi)
    · exact hlt
  exact ⟨selected, contribution, hselected, hgather⟩

end Stages

lemma supported_of_ok (hfits : Fits v.toRules chunk)
    (hp : v.rename.keys = [] → P.selectNone chunk.height = chunk.height) {res : MappingResult}
    (hres : applyMapping P v.toRules chunk = .ok res) :
    Supported P v.toRules chunk.columns.keys ∧ ∀ e ∈ v.cast.entries, ∃ format,
      castFormat P e.2 (normalizedTexts P v.toRules chunk e.1) = .ok format := by
  have hshown := contribution_columns hres
  obtain ⟨frame, h₁, hres⟩ := of_bind_eq_ok hres
  obtain ⟨normalized, h₂, hres⟩ := of_bind_eq_ok hres
  obtain ⟨cast, h₃, hres⟩ := of_bind_eq_ok hres
  obtain ⟨derived, h₄, -⟩ := of_bind_eq_ok hres
  have hframe := keeps_of_runRename hfits hp h₁
  have hnormalized := runNormalize_keeps hframe h₂
  have hcast := (runCast_isOk_iff hnormalized).mp ⟨_, h₃⟩
  exact ⟨⟨renames_of_runRename h₁, (runNormalize_isOk_iff hframe).mp ⟨_, h₂⟩,
    fun e he => (hcast e he).1, (runDerive_isOk_iff (runCast_keeps hnormalized h₃)).mp ⟨_, h₄⟩,
    _, hshown, res.contribution.columns.nodup⟩, fun e he => (hcast e he).2⟩

lemma failed_of_ok (hfits : Fits v.toRules chunk) (hnamed : v.rename.keys ≠ [])
    (hnone : ∀ n, P.selectNone n = 0) {res : MappingResult}
    (hres : applyMapping P v.toRules chunk = .ok res)
    (hblank : contributed P v.toRules chunk.columns.keys = .ok []) {i : ℕ} (hi : i < chunk.height) :
    ∃ c, faults (imageCell P v.toRules (formatOf P v.toRules chunk) i (rowOf chunk i) c) ≠ [] := by
  have hacc := accountsRows_of_ok P hfits.rect hfits.text (fun h => absurd h hnamed) hres
  have hkept : res.sourceRowIndices = [] := by
    have hcolumns : res.contribution.columns.keys = [] :=
      Except.ok.inj ((contribution_columns hres).symm.trans hblank)
    obtain ⟨frame, h₁, hres⟩ := of_bind_eq_ok hres
    obtain ⟨normalized, h₂, hres⟩ := of_bind_eq_ok hres
    obtain ⟨cast, h₃, hres⟩ := of_bind_eq_ok hres
    obtain ⟨⟨last, failures⟩, h₄, hres⟩ := of_bind_eq_ok hres
    obtain ⟨selected, h₅, hres⟩ := of_bind_eq_ok hres
    obtain ⟨contribution, h₆, hres⟩ := of_bind_eq_ok hres
    cases hres
    obtain ⟨picked, -, hheight, hkeys, -⟩ := select_ok P h₅
    rw [(gather_ok h₆).2.1, hkeys] at hcolumns
    rw [if_pos hcolumns, hnone] at hheight
    refine List.eq_nil_iff_forall_not_mem.mpr fun k hk => ?_
    exact Nat.not_lt_zero k (hheight ▸ lt_height_of_gather h₆ hk)
  have hcovered := (hacc.covered i).mp hi
  rw [hkept] at hcovered
  obtain ⟨f, hf, hrow⟩ := List.mem_map.mp (hcovered.resolve_left List.not_mem_nil)
  refine ⟨f.column, ?_⟩
  have hlog := hacc.failures i f.column
  rw [if_pos hi] at hlog
  rw [← hlog]
  exact List.ne_nil_of_mem (List.mem_filter.mpr ⟨hf, by simpa using hrow⟩)

/-- The engine returns when polars takes the declarations and finds the formats; where the last
selection picks no column, only if every row fails. -/
lemma applyMapping_isOk_iff (hfits : Fits v.toRules chunk) (hnamed : v.rename.keys ≠ [])
    (hnone : ∀ n, P.selectNone n = 0) :
    (∃ res, applyMapping P v.toRules chunk = .ok res) ↔
      Supported P v.toRules chunk.columns.keys ∧
      (∀ e ∈ v.cast.entries, ∃ format,
        castFormat P e.2 (normalizedTexts P v.toRules chunk e.1) = .ok format) ∧
      (contributed P v.toRules chunk.columns.keys = .ok [] → ∀ i < chunk.height,
        ∃ c, faults (imageCell P v.toRules (formatOf P v.toRules chunk) i (rowOf chunk i) c) ≠
          []) := by
  have hp : v.rename.keys = [] → P.selectNone chunk.height = chunk.height :=
    fun h => absurd h hnamed
  constructor
  · rintro ⟨res, hres⟩
    obtain ⟨hs, hformats⟩ := supported_of_ok hfits hp hres
    exact ⟨hs, hformats, fun hblank i hi => failed_of_ok hfits hnamed hnone hres hblank hi⟩
  · rintro ⟨hs, hformats, hfailed⟩
    obtain ⟨frame, h₁⟩ := exists_runRename hfits hs.rename
    have hframe := keeps_of_runRename hfits hp h₁
    obtain ⟨normalized, h₂⟩ := (runNormalize_isOk_iff hframe).mpr hs.normalize
    have hnormalized := runNormalize_keeps hframe h₂
    obtain ⟨cast, h₃⟩ :=
      (runCast_isOk_iff hnormalized).mpr fun e he => ⟨hs.cast e he, hformats e he⟩
    have hcast := runCast_keeps hnormalized h₃
    obtain ⟨⟨last, failures⟩, h₄⟩ := (runDerive_isOk_iff hcast).mpr hs.derive
    -- an empty selection is no error when no row has to be kept
    obtain ⟨shown, hshown, hn⟩ := hs.select
    obtain ⟨selected, contribution, h₅, h₆⟩ := (runDerive_keeps hcast h₄).exists_contribution
      ((contributed_eq h₁ h₂ h₃ h₄).symm.trans hshown) hn <| by
        rintro rfl i hi hclean
        obtain ⟨c, hc⟩ := hfailed hshown i hi
        rw [← derivedTracks_outcome] at hc
        exact absurd (hclean c) hc
    refine ⟨⟨contribution, keep last.height failures, failures⟩, ?_⟩
    simp only [applyMapping, h₁, h₂, h₃, h₄, h₅, h₆, bind, Except.bind, pure, Except.pure]

end Run

end CortexDis.Totality
