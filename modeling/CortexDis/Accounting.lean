import CortexDis.ApplyMapping
import CortexDis.PyDecimal

/-!
The engine row by row.

Each column of the frame under work has a track: what every row's cell has come to, or the
failure that stopped it. The stages act on tracks, the recorded failures are the tracks'
failures, and at the end a track is the image of the source row alone, in the datetime
formats the columns were given.
-/

namespace CortexDis.Accounting

open CortexDis.PyDict CortexDis.Values CortexDis.Errors CortexDis.Frames CortexDis.MappingRules
open CortexDis.Masked CortexDis.Normalize CortexDis.ApplyMapping CortexDis.Runs

/-! ### The image of a row -/

abbrev Outcome := Except CellNormalizationFailure Cell

/-- The texts of row `i` of a chunk, by source column. -/
def rowOf (chunk : Frame) (i : ℕ) : String → Option String := fun source =>
  text ((chunk.columns.get? source).bind fun s => (s.cells[i]?).join)

variable (P : Polars) (m : Rules)

/-- The column of the chunk that a column comes from. -/
def originOf (c : String) : String := ((renameInverse m).get? c).getD c

/-- A column after its normalize list. -/
def normalizedCell (i : ℕ) (row : String → Option String) (c : String) :
    Except CellNormalizationFailure (Option String) :=
  applyCell P c ((renameInverse m).get? c) .normalize 0 ((m.normalize.get? c).getD []) i
    (row (originOf m c))

section Formats

variable (format : String → Option DatetimeFormat)

/-- A column after its cast. -/
def castCell (i : ℕ) (row : String → Option String) (c : String) : Outcome :=
  (normalizedCell P m i row c).bind fun t =>
    match m.cast.get? c with
    | none => .ok (ofText t)
    | some type => (castTextStep P c ((renameInverse m).get? c) type (format c)).row i t

/-- What a generator makes of a row. -/
def generatedCell (i : ℕ) (row : String → Option String) : Generator → Cell
  | .copy source => valueOf (castCell P m format i row source)
  | .constant value => some (scalarValue value)
  | .dateFromDatetime source => dateOf (valueOf (castCell P m format i row source))

/-- A derive target after its list. -/
def derivedCell (i : ℕ) (row : String → Option String) (c : String) (d : DeriveSpec) : Outcome :=
  let generated := generatedCell P m format i row d.generator
  if d.rest = [] then .ok generated
  else (applyCell P c (sourceOf d.generator) .derive 1 d.rest i (text generated)).map ofText

/-- A target column of the image of a row: the pipeline of the column on the row alone, up to
the first step that fails. -/
def imageCell (i : ℕ) (row : String → Option String) (c : String) : Outcome :=
  match m.derive.get? c with
  | some d => derivedCell P m format i row c d
  | none => castCell P m format i row c

end Formats

/-- The datetime format a column is cast in: inferred from its normalized texts. -/
def formatOf (chunk : Frame) (c : String) : Option DatetimeFormat :=
  (m.cast.get? c).bind fun type =>
    (castFormat P type ((List.range chunk.height).map fun i =>
      valueOf (normalizedCell P m i (rowOf chunk i) c))).toOption.join

/-! ### Tracks -/

/-- A column's data type and its outcome at every row. -/
structure Track where
  dtype : DType
  outcome : ℕ → Outcome

/-- The first `n` rows of a track as a column. -/
def Track.series (n : ℕ) (t : Track) : Series :=
  ⟨t.dtype, (List.range n).map fun i => valueOf (t.outcome i)⟩

/-- The frame holds the tracks' values and the failures are the tracks' failures. -/
structure Tracks (n : ℕ) (w : Work) (T : String → Track) : Prop where
  height : w.1.height = n
  column : ∀ c s, w.1.columns.get? c = some s → s = (T c).series n
  log : ∀ c i, w.2.filter (fun f => f.rowIndex = i ∧ f.column = c) =
    if i < n then faults ((T c).outcome i) else []

lemma filter_of_column {fs : List CellNormalizationFailure} {c : String}
    (h : ∀ f ∈ fs, f.column = c) (c' : String) (i : ℕ) :
    fs.filter (fun f => f.rowIndex = i ∧ f.column = c') =
      if c' = c then fs.filter (fun f => f.rowIndex = i) else [] := by
  split_ifs with hc
  · exact List.filter_congr fun f hf => by simp [h f hf, hc]
  · refine List.filter_eq_nil_iff.mpr fun f hf => ?_
    have : f.column ≠ c' := fun h' => hc (h' ▸ h f hf)
    simp [this]

lemma Tracks.update {n : ℕ} {w : Work} {T : String → Track} (h : Tracks n w T) (c : String)
    (t : Track) {fs : List CellNormalizationFailure} (hcol : ∀ f ∈ fs, f.column = c)
    (hfs : ∀ i, (if i < n then faults ((T c).outcome i) else []) ++
      fs.filter (fun f => f.rowIndex = i) = if i < n then faults (t.outcome i) else []) :
    Tracks n (w.1.withColumn c (t.series n), w.2 ++ fs) (Function.update T c t) where
  height := h.height
  column := by
    intro c' s hs
    simp only [Frame.withColumn, Dict.get?_set] at hs
    split_ifs at hs with hc
    · subst hc
      cases hs
      simp
    · rw [Function.update_of_ne (fun h => hc h.symm)]
      exact h.column c' s hs
  log := by
    intro c' i
    rw [List.filter_append, h.log, filter_of_column hcol]
    by_cases hc : c' = c
    · subst hc
      simpa using hfs i
    · simp [hc]

lemma Tracks.bind {n : ℕ} {w : Work} {T : String → Track} (h : Tracks n w T) (c : String)
    (dtype : DType) {g : ℕ → Cell → Outcome} (hg : ∀ i, g i none = .ok none)
    {fs : List CellNormalizationFailure} (hcol : ∀ f ∈ fs, f.column = c)
    (hfs : ∀ i, fs.filter (fun f => f.rowIndex = i) =
      if i < n then faults (g i (valueOf ((T c).outcome i))) else []) :
    Tracks n (w.1.withColumn c ⟨dtype, (List.range n).map fun i =>
        valueOf (g i (valueOf ((T c).outcome i)))⟩, w.2 ++ fs)
      (Function.update T c ⟨dtype, fun i => ((T c).outcome i).bind (g i)⟩) := by
  have := h.update c ⟨dtype, fun i => ((T c).outcome i).bind (g i)⟩ hcol fun i => by
    rw [hfs]
    split_ifs
    · rw [faults_bind (hg i)]
    · rfl
  simpa only [Track.series, valueOf_bind (hg _)] using this

lemma zipIdx_map_range {α : Type} (n : ℕ) (a : ℕ → α) :
    ((List.range n).map a).zipIdx = (List.range n).map fun i => (a i, i) := by
  refine List.ext_getElem (by simp) fun i h₁ h₂ => ?_
  simp

lemma getElem?_map_range {α : Type} (n : ℕ) (a : ℕ → α) (i : ℕ) :
    ((List.range n).map a)[i]? = if i < n then some (a i) else none := by
  by_cases h : i < n <;> simp [h]

/-- A text operation at a cell. -/
def onText (g : Option String → Except CellNormalizationFailure (Option String)) (cell : Cell) :
    Outcome :=
  (g (text cell)).map ofText

lemma valueOf_map_ofText (r : Except CellNormalizationFailure (Option String)) :
    valueOf (r.map ofText) = ofText (valueOf r) := by
  cases r <;> rfl

section Transform

variable {column : String} {sourceColumn : Option String} {stage : FailureStage} {k : ℕ}
  {specs : List NormalizeOp}

lemma onText_applyCell_null (i : ℕ) :
    onText (applyCell P column sourceColumn stage k specs i) none = .ok none := by
  have h := runCell_null i (opSteps_passesNull P column sourceColumn stage k specs)
  simp only [onText, text, applyCell, h]
  rfl

lemma applyTransformList_cells {n : ℕ} {cell : ℕ → Cell}
    {out : List (Option String) × List CellNormalizationFailure}
    (h : applyTransformList P column sourceColumn stage k specs
      (Series.texts ⟨.string, (List.range n).map cell⟩) = .ok out) :
    Series.ofTexts out.1 = ⟨.string, (List.range n).map fun i =>
        valueOf (onText (applyCell P column sourceColumn stage k specs i) (cell i))⟩ ∧
      (∀ f ∈ out.2, f.column = column) ∧
      ∀ i, out.2.filter (fun f => f.rowIndex = i) =
        if i < n then faults (onText (applyCell P column sourceColumn stage k specs i) (cell i))
        else [] := by
  have hpass := opSteps_passesNull P column sourceColumn stage k specs
  have hrec := opSteps_record P column sourceColumn stage k specs
  obtain rfl := applyTransformList_ok P column sourceColumn stage h
  refine ⟨?_, ?_, ?_⟩
  · rw [runColumn_values hpass, Series.texts, List.map_map, zipIdx_map_range]
    simp [Series.ofTexts, onText, valueOf_map_ofText, applyCell]
  · intro f hf
    obtain ⟨s, hs, i, c, rfl⟩ := mem_runColumn hf
    exact (hrec s hs i c).2
  · intro i
    rw [filter_runColumn hpass fun s hs i c => (hrec s hs i c).1, Series.texts, List.map_map,
      getElem?_map_range]
    split_ifs
    · simp [onText, faults_map, applyCell]
    · rfl

end Transform

/-! ### The stages on tracks -/

variable (inverse : Dict String String) (n : ℕ)

def normalizeTrack (c : String) (specs : List NormalizeOp) (T : String → Track) : Track :=
  ⟨.string, fun i => ((T c).outcome i).bind
    (onText (applyCell P c (inverse.get? c) .normalize 0 specs i))⟩

def castTrack (c : String) (type : CastType) (T : String → Track) : Track :=
  let series := (T c).series n
  if series.dtype = targetDtype type then T c
  else if series.dtype = .string then
    let format := (castFormat P type series.texts).toOption.join
    ⟨targetDtype type, fun i => ((T c).outcome i).bind fun cell =>
      (castTextStep P c (inverse.get? c) type format).row i (text cell)⟩
  else
    ⟨targetDtype type, fun i => ((T c).outcome i).bind
      ((castTypedStep P c (inverse.get? c) type).row i)⟩

def generatedTrack (T : String → Track) : Generator → Track
  | .copy source => ⟨(T source).dtype, fun i => .ok (valueOf ((T source).outcome i))⟩
  | .constant value =>
    ⟨(scalarDtype P value).toOption.getD .string, fun _ => .ok (some (scalarValue value))⟩
  | .dateFromDatetime source => ⟨.date, fun i => .ok (dateOf (valueOf ((T source).outcome i)))⟩

def deriveTrack (c : String) (d : DeriveSpec) (T : String → Track) : Track :=
  let generated := generatedTrack P T d.generator
  if d.rest = [] then generated
  else ⟨.string, fun i => (generated.outcome i).bind
    (onText (applyCell P c (sourceOf d.generator) .derive 1 d.rest i))⟩

variable {inverse n} {w w' : Work} {T : String → Track}

lemma Tracks.getColumn (h : Tracks n w T) {c : String} {s : Series}
    (hs : w.1.getColumn c = .ok s) : s = (T c).series n :=
  h.column c s (getColumn_ok hs)

lemma normalizeColumn_tracks (h : Tracks n w T) {rule : String × List NormalizeOp}
    (hrun : normalizeColumn P inverse w rule = .ok w') :
    Tracks n w' (Function.update T rule.1 (normalizeTrack P inverse rule.1 rule.2 T)) := by
  obtain ⟨series, hs, hrun⟩ := of_bind_eq_ok hrun
  obtain rfl := h.getColumn hs
  split_ifs at hrun with hdt
  obtain ⟨out, hout, hrun⟩ := of_bind_eq_ok hrun
  cases hrun
  rw [Track.series] at hout hdt
  obtain ⟨hval, hcol, hlog⟩ := applyTransformList_cells P hout
  rw [hval]
  exact h.bind rule.1 .string (fun i => onText_applyCell_null P i) hcol hlog

section CastSteps

variable {α : Type} {c : String} {sourceColumn : Option String} {type : CastType}
  {cast : Option α → Cell} {str : α → String}

lemma castStep_null (hcast : cast none = none) (i : ℕ) :
    (castStep P c sourceColumn type cast str).row i none = .ok none := by
  simp [Step.row, castStep, hcast]

lemma castText_null (format : Option DatetimeFormat) : castText P type format none = none := by
  cases type <;> simp [castText, ofText]

lemma castStep_column (a : ℕ → Option α) :
    (castStep P c sourceColumn type cast str).column ((List.range n).map a) =
      (List.range n).map fun i =>
        valueOf ((castStep P c sourceColumn type cast str).row i (a i)) := by
  simp [Step.column, Step.valueOf_row]

lemma castStep_log (a : ℕ → Option α) (i : ℕ) :
    ((castStep P c sourceColumn type cast str).log ((List.range n).map a)).filter
        (fun f => f.rowIndex = i) =
      if i < n then faults ((castStep P c sourceColumn type cast str).row i (a i)) else [] := by
  rw [Step.filter_log (fun _ _ => rfl), getElem?_map_range]
  split_ifs <;> rfl

lemma castStep_mem_log {cells : List (Option α)} {f : CellNormalizationFailure}
    (hf : f ∈ (castStep P c sourceColumn type cast str).log cells) : f.column = c := by
  obtain ⟨i, a, rfl⟩ := Step.mem_log hf
  rfl

end CastSteps

lemma castColumn_tracks (h : Tracks n w T) {rule : String × CastType}
    (hrun : castColumn P inverse w rule = .ok w') :
    Tracks n w' (Function.update T rule.1 (castTrack P inverse n rule.1 rule.2 T)) := by
  obtain ⟨series, hs, hrun⟩ := of_bind_eq_ok hrun
  obtain rfl := h.getColumn hs
  split at hrun
  · cases hrun
  · rw [castTrack]
    by_cases hsame : ((T rule.1).series n).dtype = targetDtype rule.2
    · -- already typed
      rw [if_pos hsame] at hrun ⊢
      cases hrun
      rwa [Function.update_eq_self]
    rw [if_neg hsame] at hrun ⊢
    by_cases htext : ((T rule.1).series n).dtype = .string
    · rw [if_pos htext] at hrun ⊢
      split at hrun
      · cases hrun
      obtain ⟨format, hformat, hrun⟩ := of_bind_eq_ok hrun
      cases hrun
      rw [hformat, Track.series, Series.texts, List.map_map, castTextStep, castStep_column]
      refine h.bind rule.1 _ (g := fun i cell => Step.row _ i (text cell))
        (fun i => castStep_null P (castText_null P _) i) ?_ ?_
      · exact fun f hf => castStep_mem_log P hf
      · exact fun i => castStep_log P _ i
    · rw [if_neg htext] at hrun ⊢
      cases hrun
      rw [Track.series, castTypedStep, castStep_column]
      refine h.bind rule.1 _ (fun i => castStep_null P rfl i) ?_ ?_
      · exact fun f hf => castStep_mem_log P hf
      · exact fun i => castStep_log P _ i

lemma generate_ok (h : Tracks n w T) {g : Generator} {s : Series}
    (hs : generate P w.1 g = .ok s) : s = (generatedTrack P T g).series n := by
  cases g with
  | copy source => exact h.getColumn hs
  | constant value =>
    obtain ⟨dtype, hd, hs⟩ := of_bind_eq_ok hs
    cases hs
    simp [generatedTrack, Track.series, hd, Except.toOption, h.height, List.map_const']
  | dateFromDatetime source =>
    obtain ⟨series, hseries, hs⟩ := of_bind_eq_ok hs
    cases hs
    simp [h.getColumn hseries, generatedTrack, Track.series]

lemma deriveColumn_tracks (h : Tracks n w T) {rule : String × DeriveSpec}
    (hnew : ∀ i, faults ((T rule.1).outcome i) = [])
    (hrun : deriveColumn P w rule = .ok w') :
    Tracks n w' (Function.update T rule.1 (deriveTrack P rule.1 rule.2 T)) := by
  obtain ⟨series, hs, hrun⟩ := of_bind_eq_ok hrun
  obtain rfl := generate_ok P h hs
  have hgen : ∀ i, ∃ v, (generatedTrack P T rule.2.generator).outcome i = .ok v := by
    intro i
    cases rule.2.generator <;> exact ⟨_, rfl⟩
  rw [deriveTrack]
  by_cases hrest : rule.2.rest = []
  · rw [if_pos hrest] at hrun ⊢
    cases hrun
    have hcol : ∀ f ∈ ([] : List CellNormalizationFailure), f.column = rule.1 := by simp
    have := h.update rule.1 (generatedTrack P T rule.2.generator) hcol ?_
    · simpa using this
    · intro i
      obtain ⟨v, hv⟩ := hgen i
      simp [hnew, hv]
  · rw [if_neg hrest] at hrun ⊢
    -- operations after the generator run on a column of texts only
    by_cases htext : ((generatedTrack P T rule.2.generator).series n).dtype = .string
    · rw [if_pos htext] at hrun
      obtain ⟨out, hout, hrun⟩ := of_bind_eq_ok hrun
      cases hrun
      obtain ⟨hval, hcol, hlog⟩ := applyTransformList_cells P hout
      have := h.update rule.1 ⟨.string, fun i =>
        ((generatedTrack P T rule.2.generator).outcome i).bind
          (onText (applyCell P rule.1 (sourceOf rule.2.generator) .derive 1 rule.2.rest i))⟩ hcol ?_
      · rw [hval]
        simpa only [Track.series, valueOf_bind (onText_applyCell_null P _)] using this
      · intro i
        obtain ⟨v, hv⟩ := hgen i
        simp [hnew, hlog, hv, Except.bind]
    · rw [if_neg htext] at hrun
      cases hrun

/-! ### A whole run -/

/-- The tracks after the rename. -/
def renamedTracks (chunk : Frame) (c : String) : Track :=
  ⟨.string, fun i => .ok (ofText (rowOf chunk i (originOf m c)))⟩

lemma ofTexts_eq_series {chunk : Frame} {source : String} {texts : List (Option String)}
    (hrect : chunk.Rect) (h : chunk.columns.get? source = some (Series.ofTexts texts)) :
    Series.ofTexts texts =
      Track.series chunk.height ⟨.string, fun i => .ok (ofText (rowOf chunk i source))⟩ := by
  have hlen : texts.length = chunk.height := by
    have := hrect source _ h
    simpa [Series.ofTexts] using this
  simp only [Series.ofTexts, Track.series, Series.mk.injEq, true_and]
  refine List.ext_getElem (by simp [hlen]) fun i h₁ h₂ => ?_
  have hi : i < texts.length := by simpa using h₁
  simp [rowOf, h, Series.ofTexts, hi]

lemma runRename_ok {chunk frame : Frame} {names : Dict String String}
    (h : runRename P chunk names = .ok frame) :
    ∃ picked, P.expandAll chunk.columns.keys names.keys = .ok picked ∧ names.keys ⊆ picked ∧
      frame.height = (if picked = [] then P.selectNone chunk.height else chunk.height) ∧
      frame.columns.keys = picked.map (renamed names) ∧
      ∀ c s, frame.columns.get? c = some s →
        ∃ c₀ ∈ picked, chunk.columns.get? c₀ = some s ∧ renamed names c₀ = c := by
  unfold runRename at h
  split at h
  · cases h
  obtain ⟨selected, hselected, hrenamed⟩ := of_bind_eq_ok h
  obtain ⟨picked, hpicked, hheight, hkeys, hcells⟩ := select_ok P hselected
  obtain ⟨hsub, hheight', hkeys', hcells'⟩ := rename_ok hrenamed
  rw [hkeys] at hsub hkeys'
  refine ⟨picked, hpicked, hsub, hheight'.trans hheight, hkeys', fun c s hs => ?_⟩
  obtain ⟨c₀, hmem, hc⟩ := hcells' c s (frame.columns.mem_entries.mpr hs)
  exact ⟨c₀, hkeys ▸ List.mem_map_of_mem (f := Prod.fst) hmem, hcells c₀ s hmem, hc⟩

lemma originOf_renamed (hn : m.renameTargets.Nodup) {picked : List String}
    (hsub : m.rename.keys ⊆ picked) (hpicked : (picked.map (renamed m.rename)).Nodup) {c : String}
    (hc : c ∈ picked) : originOf m (renamed m.rename c) = c := by
  cases htarget : m.rename.get? c with
  | some target =>
    have hinverse := (Dict.get?_inverse hn).mpr htarget
    simp [originOf, renameInverse, renamed, htarget, hinverse]
  | none =>
    -- no column is renamed to `c`: it would collide with `c`
    have hinverse : (renameInverse m).get? c = none := by
      by_contra hsome
      obtain ⟨source, hsource⟩ := Option.ne_none_iff_exists'.mp hsome
      have hrename := (Dict.get?_inverse hn).mp hsource
      have hmem : source ∈ picked :=
        hsub (List.mem_map_of_mem (f := Prod.fst) (m.rename.mem_entries.mpr hrename))
      have hsame : renamed m.rename source = renamed m.rename c := by
        simp [renamed, hrename, htarget]
      rw [List.inj_on_of_nodup_map hpicked hmem hc hsame, htarget] at hrename
      cases hrename
    simp [originOf, renamed, htarget, hinverse]

lemma runRename_tracks {chunk frame : Frame} (hn : m.renameTargets.Nodup) (hrect : chunk.Rect)
    (htext : chunk.AllText) (hp : m.rename.keys = [] → P.selectNone chunk.height = chunk.height)
    (h : runRename P chunk m.rename = .ok frame) :
    Tracks chunk.height (frame, []) (renamedTracks m chunk) := by
  obtain ⟨picked, -, hsub, hheight, hkeys, hcells⟩ := runRename_ok P h
  refine ⟨?_, ?_, ?_⟩
  · rw [hheight]
    split_ifs with hnone
    · exact hp (List.subset_nil.mp (hnone ▸ hsub))
    · rfl
  · intro c s hs
    obtain ⟨c₀, hmem, hs₀, rfl⟩ := hcells c s hs
    obtain ⟨texts, rfl⟩ := htext c₀ s hs₀
    rw [ofTexts_eq_series hrect hs₀, renamedTracks,
      originOf_renamed m hn hsub (hkeys ▸ frame.columns.nodup) hmem]
  · intro c i
    simp [renamedTracks]

variable (chunk : Frame)

/-- The tracks after the normalize stage. -/
def normalizedTracks : String → Track :=
  m.normalize.entries.foldl (fun T e => Function.update T e.1
    (normalizeTrack P (renameInverse m) e.1 e.2 T)) (renamedTracks m chunk)

/-- The tracks after the cast stage. -/
def castTracks : String → Track :=
  m.cast.entries.foldl (fun T e => Function.update T e.1
    (castTrack P (renameInverse m) chunk.height e.1 e.2 T)) (normalizedTracks P m chunk)

/-- The tracks after the derive stage. -/
def derivedTracks : String → Track :=
  m.derive.entries.foldl (fun T e => Function.update T e.1 (deriveTrack P e.1 e.2 T))
    (castTracks P m chunk)

lemma normalizedTracks_eq (c : String) :
    normalizedTracks P m chunk c = ⟨.string, fun i =>
      (normalizedCell P m i (rowOf chunk i) c).map ofText⟩ := by
  rw [normalizedTracks, Dict.foldl_update m.normalize (normalizeTrack P (renameInverse m))]
  · cases h : m.normalize.get? c with
    | none => simp [renamedTracks, normalizedCell, h, applyCell, opSteps, runCell, Except.map]
    | some specs => simp [normalizeTrack, renamedTracks, normalizedCell, h, Except.bind, onText]
  · intro e _ T T' hT
    simp [normalizeTrack, hT e.1 (Or.inl rfl)]

lemma castTextStep_string (c : String) (sourceColumn : Option String)
    (format : Option DatetimeFormat) (i : ℕ) (t : Option String) :
    (castTextStep P c sourceColumn .string format).row i t = .ok (ofText t) := by
  cases t <;> simp [castTextStep, castStep, castText, Step.row, ofText]

lemma targetDtype_eq_string {type : CastType} (h : DType.string = targetDtype type) :
    type = .string := by
  cases type <;> simp_all [targetDtype]

lemma bind_map_ofText (r : Except CellNormalizationFailure (Option String))
    (g : Option String → Outcome) :
    (r.map ofText).bind (fun cell => g (text cell)) = r.bind g := by
  cases r <;> simp [Except.map, Except.bind]

lemma castTracks_outcome (c : String) (i : ℕ) :
    (castTracks P m chunk c).outcome i =
      castCell P m (formatOf P m chunk) i (rowOf chunk i) c := by
  rw [castTracks, Dict.foldl_update m.cast (castTrack P (renameInverse m) chunk.height)]
  · cases h : m.cast.get? c with
    | none =>
      simp only [Option.elim_none, normalizedTracks_eq, castCell, h]
      rfl
    | some type =>
      have htexts : ((Track.series chunk.height ⟨.string, fun i =>
          (normalizedCell P m i (rowOf chunk i) c).map ofText⟩).texts) =
          (List.range chunk.height).map fun i =>
            valueOf (normalizedCell P m i (rowOf chunk i) c) := by
        simp [Track.series, Series.texts, valueOf_map_ofText]
      have hformat : (castFormat P type ((List.range chunk.height).map fun i =>
          valueOf (normalizedCell P m i (rowOf chunk i) c))).toOption.join =
          formatOf P m chunk c := by
        simp [formatOf, h]
      simp only [Option.elim_some, castTrack, normalizedTracks_eq, castCell, h, htexts, hformat]
      rw [Track.series]
      -- a cast to text leaves the column, any other one reads the texts
      split_ifs with hs ht
      · obtain rfl := targetDtype_eq_string hs
        simp only [castTextStep_string]
        rfl
      · exact bind_map_ofText _ _
      · exact absurd rfl ht
  · intro e _ T T' hT
    simp [castTrack, hT e.1 (Or.inl rfl)]

section Final

variable {upper : String → String} (v : SourceMapping upper)

lemma rules_of_derive {c : String} (hc : c ∈ v.derive.keys) :
    v.normalize.get? c = none ∧ v.cast.get? c = none := by
  have hnot := v.derive_keys c hc
  exact ⟨(v.normalize.get?_eq_none c).mpr fun h => hnot (v.normalize_keys c h),
    (v.cast.get?_eq_none c).mpr fun h => hnot (v.cast_keys c h)⟩

lemma castCell_of_derive {c : String} (hc : c ∈ v.derive.keys)
    (format : String → Option DatetimeFormat) (i : ℕ) (row : String → Option String) :
    castCell P v.toRules format i row c = .ok (ofText (row (originOf v.toRules c))) := by
  obtain ⟨hnormalize, hcast⟩ := rules_of_derive v hc
  simp [castCell, normalizedCell, hnormalize, hcast, applyCell, opSteps, runCell, Except.bind]

lemma generatedTrack_outcome (g : Generator) (i : ℕ) :
    (generatedTrack P (castTracks P m chunk) g).outcome i =
      .ok (generatedCell P m (formatOf P m chunk) i (rowOf chunk i) g) := by
  cases g <;> simp [generatedTrack, generatedCell, castTracks_outcome]

lemma generatedTrack_congr {e : String × DeriveSpec} (he : e ∈ v.derive.entries)
    {T T' : String → Track} (hT : ∀ k, k = e.1 ∨ k ∉ v.derive.keys → T k = T' k) :
    generatedTrack P T e.2.generator = generatedTrack P T' e.2.generator := by
  have hvalid := v.validDerive e.2 (List.mem_map_of_mem (f := Prod.snd) he)
  have hsource : ∀ source ∈ v.renameTargets, T source = T' source := fun source hs =>
    hT source (Or.inr fun hk => v.derive_keys source hk hs)
  simp only [Rules.validDerive, Bool.and_eq_true] at hvalid
  cases hg : e.2.generator with
  | copy source =>
    simp only [hg, decide_eq_true_eq] at hvalid
    simp [generatedTrack, hsource source hvalid.1.1]
  | constant value => rfl
  | dateFromDatetime source =>
    simp only [hg, Bool.and_eq_true, decide_eq_true_eq] at hvalid
    simp [generatedTrack, hsource source hvalid.1.1.1]

lemma derivedTracks_outcome (c : String) (i : ℕ) :
    (derivedTracks P v.toRules chunk c).outcome i =
      imageCell P v.toRules (formatOf P v.toRules chunk) i (rowOf chunk i) c := by
  rw [derivedTracks, Dict.foldl_update v.derive (deriveTrack P)]
  · cases h : v.derive.get? c with
    | none => simp [imageCell, h, castTracks_outcome]
    | some d =>
      simp only [Option.elim_some, deriveTrack, imageCell, h, derivedCell]
      split_ifs
      · exact generatedTrack_outcome P v.toRules chunk d.generator i
      · simp [generatedTrack_outcome, Except.bind, onText]
  · intro e he T T' hT
    simp only [deriveTrack, generatedTrack_congr P v he hT]

lemma stages_tracks {frame : Frame} {normalized cast w : Work} (hrect : chunk.Rect)
    (htext : chunk.AllText) (hp : v.rename.keys = [] → P.selectNone chunk.height = chunk.height)
    (h₁ : runRename P chunk v.rename = .ok frame)
    (h₂ : runNormalize P v.normalize (renameInverse v.toRules) (frame, []) = .ok normalized)
    (h₃ : runCast P v.cast (renameInverse v.toRules) normalized = .ok cast)
    (h₄ : runDerive P v.derive cast = .ok w) :
    Tracks chunk.height w (derivedTracks P v.toRules chunk) := by
  have ht₁ := runRename_tracks P v.toRules v.renameTargets_nodup hrect htext hp h₁
  have ht₂ : Tracks chunk.height normalized (normalizedTracks P v.toRules chunk) := by
    unfold normalizedTracks
    refine foldlM_relates (R := fun _ w T => Tracks chunk.height w T) ?_ ht₁ h₂
    exact fun e _ w w' T h hrun => normalizeColumn_tracks P h hrun
  have ht₃ : Tracks chunk.height cast (castTracks P v.toRules chunk) := by
    unfold castTracks
    refine foldlM_relates (R := fun _ w T => Tracks chunk.height w T) ?_ ht₂ h₃
    exact fun e _ w w' T h hrun => castColumn_tracks P h hrun
  -- a derive target has no failure before its own list
  unfold derivedTracks
  refine (foldlM_relates (R := fun rules w T => Tracks chunk.height w T ∧
    (rules.map Prod.fst).Nodup ∧ ∀ c ∈ rules.map Prod.fst, ∀ i, faults ((T c).outcome i) = [])
    ?_ ⟨ht₃, v.derive.nodup, ?_⟩ h₄).1
  · rintro e rules w w' T ⟨h, hn, hnew⟩ hrun
    simp only [List.map_cons, List.nodup_cons] at hn
    refine ⟨deriveColumn_tracks P h (hnew e.1 List.mem_cons_self) hrun, hn.2, ?_⟩
    intro c hc i
    have hne : c ≠ e.1 := fun h => hn.1 (h ▸ hc)
    rw [Function.update_of_ne hne]
    exact hnew c (List.mem_cons_of_mem _ hc) i
  · intro c hc i
    rw [castTracks_outcome, castCell_of_derive P v hc]
    rfl

/-- What a result says about the rows of its chunk. -/
structure AccountsRows (res : MappingResult) : Prop where
  increasing : res.sourceRowIndices.Pairwise (· < ·)
  /-- Every row of the chunk, and no other, was kept or has a failure. -/
  covered : ∀ i, i < chunk.height ↔
    i ∈ res.sourceRowIndices ∨ i ∈ res.failures.map (·.rowIndex)
  disjoint : ∀ i ∈ res.sourceRowIndices, i ∉ res.failures.map (·.rowIndex)
  height : res.contribution.height = res.sourceRowIndices.length
  /-- Each contribution row is the image of its source row, and that row has no failure. -/
  rows : ∀ c s, res.contribution.columns.get? c = some s →
    s.cells.map Except.ok = res.sourceRowIndices.map fun i =>
      imageCell P m (formatOf P m chunk) i (rowOf chunk i) c
  /-- The failures of a row and column: the first failing step of that column's pipeline on
  that row, or none. -/
  failures : ∀ i c, res.failures.filter (fun f => f.rowIndex = i ∧ f.column = c) =
    if i < chunk.height then faults (imageCell P m (formatOf P m chunk) i (rowOf chunk i) c)
    else []

/-- The contribution has the target columns, and the rows are accounted for. -/
structure Accounts (res : MappingResult) : Prop extends AccountsRows P m chunk res where
  columns : res.contribution.columns.keys = m.targetColumns

lemma Tracks.row_lt {n : ℕ} {w : Work} {T : String → Track} (h : Tracks n w T)
    {f : CellNormalizationFailure} (hf : f ∈ w.2) : f.rowIndex < n := by
  by_contra hlt
  have hlog := h.log f.column f.rowIndex
  rw [if_neg hlt] at hlog
  exact List.filter_eq_nil_iff.mp hlog f hf (by simp)

lemma Tracks.faults_of_kept {n : ℕ} {w : Work} {T : String → Track} (h : Tracks n w T) {i : ℕ}
    (hi : i ∈ keep n w.2) (c : String) : faults ((T c).outcome i) = [] := by
  simp only [keep, List.mem_filter, List.mem_range, decide_eq_true_eq] at hi
  have hlog := h.log c i
  rw [if_pos hi.1] at hlog
  rw [← hlog]
  refine List.filter_eq_nil_iff.mpr fun f hf hrow => hi.2 ?_
  simp only [decide_eq_true_eq] at hrow
  exact hrow.1 ▸ List.mem_map_of_mem (f := CellNormalizationFailure.rowIndex) hf

lemma accountsRows_of_ok {v : SourceMapping upper} {chunk : Frame} (hrect : chunk.Rect)
    (htext : chunk.AllText) (hp : v.rename.keys = [] → P.selectNone chunk.height = chunk.height)
    {res : MappingResult} (h : applyMapping P v.toRules chunk = .ok res) :
    AccountsRows P v.toRules chunk res := by
  obtain ⟨frame, h₁, h⟩ := of_bind_eq_ok h
  obtain ⟨normalized, h₂, h⟩ := of_bind_eq_ok h
  obtain ⟨cast, h₃, h⟩ := of_bind_eq_ok h
  obtain ⟨⟨last, failures⟩, h₄, h⟩ := of_bind_eq_ok h
  obtain ⟨selected, h₅, h⟩ := of_bind_eq_ok h
  obtain ⟨contribution, h₆, h⟩ := of_bind_eq_ok h
  cases h
  have ht := stages_tracks P chunk v hrect htext hp h₁ h₂ h₃ h₄
  obtain ⟨-, -, -, -, hselect⟩ := select_ok P h₅
  obtain ⟨hheight, -, hgather⟩ := gather_ok h₆
  have hlast : last.height = chunk.height := ht.height
  simp only [hlast] at hheight hgather ⊢
  refine ⟨List.pairwise_lt_range.filter _, ?_, ?_, hheight, ?_, ?_⟩
  · -- every row of the chunk, and no other
    intro i
    simp only [keep, List.mem_filter, List.mem_range, decide_eq_true_eq, List.mem_map]
    constructor
    · intro hi
      by_cases hf : ∃ f ∈ failures, f.rowIndex = i
      · exact Or.inr hf
      · exact Or.inl ⟨hi, hf⟩
    · rintro (⟨hi, -⟩ | ⟨f, hf, rfl⟩)
      · exact hi
      · exact ht.row_lt hf
  · intro i hi
    simp only [keep, List.mem_filter, decide_eq_true_eq] at hi
    exact hi.2
  · intro c s hs
    obtain ⟨s₀, hs₀, hcells⟩ := hgather c s hs
    obtain rfl := ht.column c s₀ (hselect c s₀ (selected.columns.mem_entries.mpr hs₀))
    rw [hcells, List.map_map]
    refine List.map_congr_left fun i hi => ?_
    have hlt : i < chunk.height := List.mem_range.mp (List.mem_of_mem_filter hi)
    have hok := eq_ok_of_faults (ht.faults_of_kept hi c)
    rw [← derivedTracks_outcome, hok]
    simp [Track.series, hlt]
  · intro i c
    rw [ht.log, derivedTracks_outcome]

/-! ### The columns of the contribution -/

/-- The columns of a frame in which the column is set. -/
def addColumn (columns : List String) (c : String) : List String :=
  if c ∈ columns then columns else columns ++ [c]

/-- The columns after the derive stage, where the rename selected `picked`. -/
def derivedColumns (m : Rules) (picked : List String) : List String :=
  m.derive.keys.foldl addColumn (picked.map (renamed m.rename))

/-- The columns that the last selection of the engine picks, in a chunk with these columns. -/
def contributed (P : Polars) (m : Rules) (columns : List String) : Except Exn (List String) := do
  let picked ← P.expandAll columns m.rename.keys
  P.expandAll (derivedColumns m picked) m.targetColumns

/-- The last selection of the engine, in a chunk with these columns, reads the target columns as
columns of these names. -/
def TargetsRead (P : Polars) (m : Rules) (columns : List String) : Prop :=
  ∀ picked, P.expandAll columns m.rename.keys = .ok picked →
    P.expandAll (derivedColumns m picked) m.targetColumns = .ok m.targetColumns

section Columns

variable {P} {inverse : Dict String String} {w w' : Work}

lemma keys_withColumn (f : Frame) (c : String) (s : Series) :
    (f.withColumn c s).columns.keys = addColumn f.columns.keys c := Dict.keys_set f.columns c s

lemma addColumn_of_mem {columns : List String} {c : String} (h : c ∈ columns) :
    addColumn columns c = columns := if_pos h

lemma mem_keys_of_getColumn {f : Frame} {c : String} {s : Series} (h : f.getColumn c = .ok s) :
    c ∈ f.columns.keys :=
  List.mem_map_of_mem (f := Prod.fst) (f.columns.mem_entries.mpr (getColumn_ok h))

lemma normalizeColumn_columns {rule : String × List NormalizeOp}
    (hrun : normalizeColumn P inverse w rule = .ok w') : w'.1.columns.keys = w.1.columns.keys := by
  obtain ⟨series, hs, hrun⟩ := of_bind_eq_ok hrun
  split_ifs at hrun
  obtain ⟨out, -, hrun⟩ := of_bind_eq_ok hrun
  cases hrun
  rw [keys_withColumn, addColumn_of_mem (mem_keys_of_getColumn hs)]

lemma castColumn_columns {rule : String × CastType}
    (hrun : castColumn P inverse w rule = .ok w') : w'.1.columns.keys = w.1.columns.keys := by
  obtain ⟨series, hs, hrun⟩ := of_bind_eq_ok hrun
  have hset : ∀ s, (w.1.withColumn rule.1 s).columns.keys = w.1.columns.keys := fun s => by
    rw [keys_withColumn, addColumn_of_mem (mem_keys_of_getColumn hs)]
  split at hrun
  · cases hrun
  split_ifs at hrun
  · cases hrun
    rfl
  · split at hrun
    · cases hrun
    obtain ⟨format, -, hrun⟩ := of_bind_eq_ok hrun
    cases hrun
    exact hset _
  · cases hrun
    exact hset _

lemma deriveColumn_columns {rule : String × DeriveSpec}
    (hrun : deriveColumn P w rule = .ok w') :
    w'.1.columns.keys = addColumn w.1.columns.keys rule.1 := by
  obtain ⟨series, -, hrun⟩ := of_bind_eq_ok hrun
  split_ifs at hrun
  · cases hrun
    exact keys_withColumn _ _ _
  · obtain ⟨out, -, hrun⟩ := of_bind_eq_ok hrun
    cases hrun
    exact keys_withColumn _ _ _

lemma stages_columns {m : Rules} {frame : Frame} {normalized cast : Work}
    (h₂ : runNormalize P m.normalize inverse (frame, []) = .ok normalized)
    (h₃ : runCast P m.cast inverse normalized = .ok cast) (h₄ : runDerive P m.derive cast = .ok w) :
    w.1.columns.keys = m.derive.keys.foldl addColumn frame.columns.keys := by
  have hnormalized : normalized.1.columns.keys = frame.columns.keys :=
    foldlM_keeps (I := fun w : Work => w.1.columns.keys = frame.columns.keys)
      (fun _ _ _ h hrun => (normalizeColumn_columns hrun).trans h) rfl h₂
  have hcast : cast.1.columns.keys = frame.columns.keys :=
    foldlM_keeps (I := fun w : Work => w.1.columns.keys = frame.columns.keys)
      (fun _ _ _ h hrun => (castColumn_columns hrun).trans h) hnormalized h₃
  have hderive : w.1.columns.keys = m.derive.entries.foldl
      (fun columns rule => addColumn columns rule.1) frame.columns.keys :=
    foldlM_relates (R := fun _ w columns => w.1.columns.keys = columns)
      (fun rule _ w w' columns h hrun => by rw [deriveColumn_columns hrun, h]) hcast h₄
  exact hderive.trans List.foldl_map.symm

lemma contributed_eq {m : Rules} {chunk frame : Frame} {normalized cast : Work}
    (h₁ : runRename P chunk m.rename = .ok frame)
    (h₂ : runNormalize P m.normalize inverse (frame, []) = .ok normalized)
    (h₃ : runCast P m.cast inverse normalized = .ok cast) (h₄ : runDerive P m.derive cast = .ok w) :
    contributed P m chunk.columns.keys = P.expandAll w.1.columns.keys m.targetColumns := by
  obtain ⟨picked, hpicked, -, -, hkeys, -⟩ := runRename_ok P h₁
  rw [contributed, hpicked, ok_bind, derivedColumns, ← hkeys, stages_columns h₂ h₃ h₄]

lemma contribution_columns {m : Rules} {chunk : Frame} {res : MappingResult}
    (h : applyMapping P m chunk = .ok res) :
    contributed P m chunk.columns.keys = .ok res.contribution.columns.keys := by
  obtain ⟨frame, h₁, h⟩ := of_bind_eq_ok h
  obtain ⟨normalized, h₂, h⟩ := of_bind_eq_ok h
  obtain ⟨cast, h₃, h⟩ := of_bind_eq_ok h
  obtain ⟨⟨last, failures⟩, h₄, h⟩ := of_bind_eq_ok h
  obtain ⟨selected, h₅, h⟩ := of_bind_eq_ok h
  obtain ⟨contribution, h₆, h⟩ := of_bind_eq_ok h
  cases h
  obtain ⟨targets, htargets, -, hselected, -⟩ := select_ok P h₅
  obtain ⟨-, hgathered, -⟩ := gather_ok h₆
  rw [contributed_eq h₁ h₂ h₃ h₄, htargets, hgathered, hselected]

lemma columns_eq_iff {m : Rules} {chunk : Frame} {res : MappingResult}
    (h : applyMapping P m chunk = .ok res) :
    res.contribution.columns.keys = m.targetColumns ↔ TargetsRead P m chunk.columns.keys := by
  obtain ⟨picked, hpicked, htargets⟩ := of_bind_eq_ok (contribution_columns h)
  constructor
  · intro hcolumns picked' hpicked'
    obtain rfl := Except.ok.inj (hpicked.symm.trans hpicked')
    rw [htargets, hcolumns]
  · intro hread
    exact Except.ok.inj (htargets.symm.trans (hread picked hpicked))

lemma foldl_addColumn {columns new : List String} (hnew : new.Nodup)
    (hdisjoint : ∀ c ∈ new, c ∉ columns) : new.foldl addColumn columns = columns ++ new := by
  induction new generalizing columns with
  | nil => rw [List.foldl_nil, List.append_nil]
  | cons c new ih =>
    obtain ⟨hc, hnew⟩ := List.nodup_cons.mp hnew
    have hadd : addColumn columns c = columns ++ [c] := if_neg (hdisjoint c List.mem_cons_self)
    rw [List.foldl_cons, hadd, ih hnew, List.append_assoc, List.singleton_append]
    intro c' hc' hmem
    rcases List.mem_append.mp hmem with hmem | hmem
    · exact hdisjoint c' (List.mem_cons_of_mem _ hc') hmem
    · exact hc (List.mem_singleton.mp hmem ▸ hc')

lemma derivedColumns_keys : derivedColumns v.toRules v.rename.keys = v.targetColumns := by
  rw [derivedColumns, map_renamed_keys]
  exact foldl_addColumn v.derive.nodup v.derive_keys

lemma targetsRead_of_reads {columns : List String} (hsources : P.Reads columns v.rename.keys)
    (htargets : P.Reads v.targetColumns v.targetColumns) :
    TargetsRead P v.toRules columns := by
  intro picked hpicked
  obtain rfl := Except.ok.inj (hsources.expandAll.symm.trans hpicked)
  rw [derivedColumns_keys, htargets.expandAll]

lemma targetsRead_of_plain {columns : List String} (hsub : v.rename.keys ⊆ columns)
    (hsources : ∀ c ∈ v.rename.keys, isPattern c = false)
    (htargets : ∀ c ∈ v.targetColumns, isPattern c = false) :
    TargetsRead P v.toRules columns :=
  targetsRead_of_reads v (reads_of_plain hsources hsub)
    (reads_of_plain htargets (List.Subset.refl _))

end Columns

lemma accounts_of_ok {v : SourceMapping upper} {chunk : Frame} (hrect : chunk.Rect)
    (htext : chunk.AllText) (hp : v.rename.keys = [] → P.selectNone chunk.height = chunk.height)
    (hread : TargetsRead P v.toRules chunk.columns.keys) {res : MappingResult}
    (h : applyMapping P v.toRules chunk = .ok res) : Accounts P v.toRules chunk res :=
  { accountsRows_of_ok P hrect htext hp h with columns := (columns_eq_iff h).mpr hread }

lemma runRename_unnamed {P : Polars} (hp : ∀ n, P.selectNone n = 0) {names : Dict String String}
    (hnone : names.keys = []) (f : Frame) :
    runRename P f names = runRename P ⟨0, Dict.empty⟩ names := by
  simp only [runRename, hnone, Frame.select, Polars.expandAll, List.mapM_nil, pure_bind,
    List.flatten_nil, hp]
  rfl

lemma applyMapping_unnamed {P : Polars} (hp : ∀ n, P.selectNone n = 0) (hnone : v.rename.keys = [])
    (f : Frame) : applyMapping P v.toRules f = applyMapping P v.toRules ⟨0, Dict.empty⟩ := by
  rw [applyMapping, applyMapping, runRename_unnamed hp hnone f]

/-- **When the engine accounts for every row and every cell of a chunk of text**: when the
mapping renames a column or the chunk has no row, and polars reads the target columns as such. -/
theorem applyMapping_accounts_iff {P : Polars} (hnone : ∀ n, P.selectNone n = 0)
    (v : SourceMapping P.upper) (chunk : Frame) (hrect : chunk.Rect) (htext : chunk.AllText)
    {res : MappingResult} (h : applyMapping P v.toRules chunk = .ok res) :
    Accounts P v.toRules chunk res ↔
      (v.rename.keys ≠ [] ∨ chunk.height = 0) ∧ TargetsRead P v.toRules chunk.columns.keys := by
  constructor
  · intro hacc
    refine ⟨?_, (columns_eq_iff h).mp hacc.columns⟩
    by_contra hboth
    obtain ⟨hkeys, hheight⟩ := not_or.mp hboth
    rw [not_not] at hkeys
    -- the rows are those of an empty chunk
    rw [applyMapping_unnamed v hnone hkeys] at h
    have hempty := accountsRows_of_ok P (fun c s hs => by cases hs) (fun c s hs => by cases hs)
      (fun _ => hnone 0) h
    have hrow := (hacc.covered 0).mp (Nat.pos_of_ne_zero hheight)
    exact absurd ((hempty.covered 0).mpr hrow) (Nat.not_lt_zero 0)
  · rintro ⟨hrows, hread⟩
    refine accounts_of_ok P hrect htext (fun hkeys => ?_) hread h
    rw [hrows.resolve_left (not_not.mpr hkeys)]
    exact hnone 0

end Final

/-! ### A price list -/

def asciiDigit (c : Char) : Bool := '0' ≤ c && c ≤ '9'

def decimalDigits (n : ℕ) : ℕ → List Char
  | 0 => []
  | len + 1 => Char.ofNat (48 + n / 10 ^ len % 10) :: decimalDigits n len

/-- Decimal text with a point and an optional minus sign, of at most `precision` digits. -/
def asciiDecimal (precision scale : ℕ) (s : String) : Option ℤ :=
  let body := s.toList.filter (· ≠ '-')
  let whole := body.takeWhile (· ≠ '.')
  let fraction := (body.dropWhile (· ≠ '.')).drop 1
  let n := PyDecimal.digitsValue (whole ++ (fraction ++ List.replicate scale '0').take scale)
  if whole ≠ [] ∧ (whole ++ fraction).all asciiDigit ∧ n < 10 ^ precision then
    some (if s.toList.head? = some '-' then -(n : ℤ) else n)
  else none

/-- Polars on ASCII text without dates. -/
def asciiPolars : Polars where
  isDigit := asciiDigit
  isSpace c := c = ' '
  isPrintable c := 32 ≤ c.toNat && c.toNat < 127
  upper s := String.ofList (s.toList.map Char.toUpper)
  toUppercase s := String.ofList (s.toList.map Char.toUpper)
  toLowercase s := String.ofList (s.toList.map Char.toLower)
  dateFormatError _ := none
  datetimeFormatError _ := none
  awareFormat _ := false
  strptimeDate _ _ := none
  strptimeDatetime _ _ := none
  knowsZone tz := tz = "UTC"
  replaceTimeZone _ t := some t
  strftimeDate _ := ""
  strftimeDatetime _ := ""
  castInt64 s := asciiDecimal 18 0 s
  castDecimal := asciiDecimal
  hundredthText d :=
    let q := d.natAbs / 100
    some (String.ofList ((if d < 0 then ['-'] else []) ++ (toString (q / 10 ^ 18)).toList ++
      '.' :: decimalDigits (q % 10 ^ 18) 18))
  toDate _ := none
  inferDatetime _ := .ok none
  toDatetime _ _ := none
  dtypeError _ := none
  castTyped _ v := some v
  strValue _ := ""
  intDtype _ := .ok .int32
  selectNone _ := 0
  regexError _ := none
  regexMatch regex c := c.toList = regex.toList.tail.dropLast

def priceRules : Rules where
  version := 1
  rename := Dict.ofList [("Artikel", "sku_id"), ("Preis", "unit_price")]
  normalize := Dict.ofList [("unit_price", [.nullTokens ["-"], .parseDecimal ',' (some '.')])]
  cast := Dict.ofList [("unit_price", .decimal 10 2)]
  derive := Dict.ofList [("currency", ⟨.constant (.str "EUR"), []⟩)]

def priceMapping : SourceMapping asciiPolars.upper := ⟨priceRules, by decide⟩

def priceChunk : Frame where
  height := 3
  columns := Dict.ofList [
    ("Artikel", Series.ofTexts [some "A1", some "A2", some "A3"]),
    ("Preis", Series.ofTexts [some "1.299,50", some "1,299.50", some "-"])]

lemma priceChunk_columns {c : String} {s : Series} (h : priceChunk.columns.get? c = some s) :
    (∃ texts, s = Series.ofTexts texts) ∧ s.cells.length = 3 := by
  have hm := priceChunk.columns.mem_entries.mpr h
  have he : priceChunk.columns.entries = [
      ("Artikel", Series.ofTexts [some "A1", some "A2", some "A3"]),
      ("Preis", Series.ofTexts [some "1.299,50", some "1,299.50", some "-"])] := by decide
  simp only [he, List.mem_cons, Prod.mk.injEq, List.not_mem_nil, or_false] at hm
  rcases hm with ⟨-, rfl⟩ | ⟨-, rfl⟩ <;> exact ⟨⟨_, rfl⟩, rfl⟩

/-- The second price is not in the declared locale: its row is dropped and reported. -/
theorem applyMapping_accounts_prices : ∃ res,
    applyMapping asciiPolars priceMapping.toRules priceChunk = .ok res ∧
      res.sourceRowIndices = [0, 2] ∧
      Accounts asciiPolars priceMapping.toRules priceChunk res := by
  have h : (applyMapping asciiPolars priceMapping.toRules priceChunk).toOption.map
      (·.sourceRowIndices) = some [0, 2] := by decide +kernel
  cases hr : applyMapping asciiPolars priceMapping.toRules priceChunk with
  | error e =>
    rw [hr] at h
    cases h
  | ok res =>
    rw [hr] at h
    refine ⟨res, rfl, by simpa [Except.toOption] using h, ?_⟩
    refine (applyMapping_accounts_iff (fun _ => rfl) priceMapping priceChunk
      (fun c s hs => (priceChunk_columns hs).2) (fun c s hs => (priceChunk_columns hs).1)
      hr).mpr ⟨Or.inl (by decide), ?_⟩
    exact targetsRead_of_plain priceMapping (by decide) (by decide) (by decide)

/-- A mapping of a constant alone. -/
def constantRules : Rules where
  version := 1
  rename := Dict.empty
  normalize := Dict.empty
  cast := Dict.empty
  derive := Dict.ofList [("currency", ⟨.constant (.str "EUR"), []⟩)]

def constantMapping : SourceMapping asciiPolars.upper := ⟨constantRules, by decide⟩

/-- The mapping renames no column: three rows come to nothing, and no failure is recorded. -/
theorem constant_loses_rows :
    (∀ n, asciiPolars.selectNone n = 0) ∧ priceChunk.Rect ∧ priceChunk.AllText ∧ ∃ res,
      applyMapping asciiPolars constantMapping.toRules priceChunk = .ok res ∧
        res.sourceRowIndices = [] ∧ res.failures = [] ∧
        ¬ Accounts asciiPolars constantMapping.toRules priceChunk res := by
  refine ⟨fun _ => rfl, fun c s hs => (priceChunk_columns hs).2,
    fun c s hs => (priceChunk_columns hs).1, ?_⟩
  have h : (applyMapping asciiPolars constantMapping.toRules priceChunk).toOption.map
      (fun res => (res.sourceRowIndices, res.failures)) = some ([], []) := by decide +kernel
  cases hr : applyMapping asciiPolars constantMapping.toRules priceChunk with
  | error e =>
    rw [hr] at h
    cases h
  | ok res =>
    rw [hr] at h
    obtain ⟨hkept, hfailed⟩ := Prod.mk.inj (Option.some.inj h)
    refine ⟨res, rfl, hkept, hfailed, fun hacc => ?_⟩
    have hrow := (hacc.covered 0).mp (by decide)
    rw [hkept, hfailed] at hrow
    simp at hrow

end CortexDis.Accounting
