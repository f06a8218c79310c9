import CortexDis.Totality

/-!
The outcome of a row, and the rows next to it.

A row is mapped by the pipelines of its own cells, except that a text column without a
declared format is cast to datetimes in the format of the column's first text. A row is
mapped alike in every selection of the chunk's rows when its datetime texts read alike in
the formats of the others, as far as the columns that the engine selects in the end show it.
-/

namespace CortexDis.RowIndependence

open CortexDis.PyDict CortexDis.Values CortexDis.Errors CortexDis.Frames CortexDis.MappingRules
open CortexDis.Masked CortexDis.Normalize CortexDis.ApplyMapping CortexDis.Runs
open CortexDis.Accounting CortexDis.Totality

/-! ### Outcomes -/

/-- What became of a row: its contribution, and the failures recorded for it, without their
position. -/
@[ext] structure RowOutcome where
  values : Option (Dict String Cell)
  failures : Finset CellNormalizationFailure

/-- The failure as recorded of row `i`. -/
def atRow (i : ℕ) (f : CellNormalizationFailure) : CellNormalizationFailure :=
  { f with rowIndex := i }

def rowOutcome (res : MappingResult) (i : ℕ) : RowOutcome where
  values := (res.sourceRowIndices.idxOf? i).bind fun k => res.contribution.toDicts[k]?
  failures := ((res.failures.filter fun f => f.rowIndex = i).map (atRow 0)).toFinset

/-- The outcome of row `i`; none when the engine raises. -/
def outcome (P : Polars) (m : Rules) (chunk : Frame) (i : ℕ) : Option RowOutcome :=
  (applyMapping P m chunk).toOption.map (rowOutcome · i)

def outcomes (P : Polars) (m : Rules) (chunk : Frame) : List (Option RowOutcome) :=
  (List.range chunk.height).map (outcome P m chunk)

/-- Rows taken from the chunk, in any order and number, are mapped as they are in the chunk. -/
def RowIndependent (P : Polars) (m : Rules) (chunk : Frame) : Prop :=
  ∀ indices part, chunk.gather indices = .ok part →
    outcomes P m part = indices.map (outcome P m chunk)

/-- What is assumed of polars: a format is inferred from the first text of a column, and a
selection of no column is empty. -/
structure Assumed (P : Polars) : Prop where
  inferred : ∀ texts, P.inferDatetime texts =
    match texts.reduceOption.head? with
    | none => .ok none
    | some t => P.inferDatetime [some t]
  selectNone : ∀ n, P.selectNone n = 0

/-! ### Positions -/

section Positions

variable (P : Polars) {α β : Type}

lemma row_atRow {s : Step α β CellNormalizationFailure}
    (hs : ∀ i c, s.record i c = atRow i (s.record 0 c)) (i : ℕ) (c : Option α) :
    s.row i c = (s.row 0 c).mapError (atRow i) := by
  unfold Step.row
  split
  · rw [hs]
    rfl
  · rfl

lemma bind_mapError {ε ε' : Type} (f : ε → ε') (r : Except ε α) {g : α → Except ε' β}
    {g' : α → Except ε β} (h : ∀ a, g a = (g' a).mapError f) :
    (r.mapError f).bind g = (r.bind g').mapError f := by
  cases r with
  | error e => rfl
  | ok a => exact h a

lemma map_mapError {ε ε' : Type} (f : ε → ε') (r : Except ε α) (g : α → β) :
    (r.mapError f).map g = (r.map g).mapError f := by
  cases r <;> rfl

lemma runCell_atRow {steps : List (Step α α CellNormalizationFailure)}
    (hs : ∀ s ∈ steps, ∀ i c, s.record i c = atRow i (s.record 0 c)) (i : ℕ) (c : Option α) :
    runCell i steps c = (runCell 0 steps c).mapError (atRow i) := by
  induction steps generalizing c with
  | nil => rfl
  | cons s steps ih =>
    rw [runCell, runCell, row_atRow (hs s List.mem_cons_self)]
    exact bind_mapError _ _ fun c => ih (fun s' hs' => hs s' (List.mem_cons_of_mem _ hs')) c

lemma applyCell_atRow (column : String) (sourceColumn : Option String) (stage : FailureStage)
    (k : ℕ) (specs : List NormalizeOp) (i : ℕ) (t : Option String) :
    applyCell P column sourceColumn stage k specs i t =
      (applyCell P column sourceColumn stage k specs 0 t).mapError (atRow i) := by
  refine runCell_atRow (fun s hs i c => ?_) i t
  obtain ⟨j, op, -, rfl⟩ := mem_opSteps P column sourceColumn stage hs
  rfl

variable (m : Rules) (format : String → Option DatetimeFormat) (i : ℕ)
  (row : String → Option String) (c : String)

lemma normalizedCell_atRow :
    normalizedCell P m i row c = (normalizedCell P m 0 row c).mapError (atRow i) :=
  applyCell_atRow P c _ .normalize 0 _ i _

lemma castCell_atRow :
    castCell P m format i row c = (castCell P m format 0 row c).mapError (atRow i) := by
  rw [castCell, normalizedCell_atRow]
  refine bind_mapError _ _ fun t => ?_
  split
  · rfl
  · exact row_atRow (fun _ _ => rfl) i t

lemma valueOf_mapError {ε ε' : Type} (f : ε → ε') (r : Except ε (Option β)) :
    valueOf (r.mapError f) = valueOf r := by
  cases r <;> rfl

lemma faults_mapError {ε ε' : Type} (f : ε → ε') (r : Except ε β) :
    faults (r.mapError f) = (faults r).map f := by
  cases r <;> rfl

lemma imageCell_atRow :
    imageCell P m format i row c = (imageCell P m format 0 row c).mapError (atRow i) := by
  unfold imageCell
  cases hd : m.derive.get? c with
  | none => exact castCell_atRow P m format i row c
  | some d =>
    have hgen : generatedCell P m format i row d.generator =
        generatedCell P m format 0 row d.generator := by
      cases d.generator <;> simp only [generatedCell, castCell_atRow P m format i row,
        valueOf_mapError]
    simp only [derivedCell, hgen]
    split_ifs
    · rfl
    · rw [applyCell_atRow, map_mapError]

end Positions

/-! ### The outcome from the image -/

section Image

variable {P : Polars} {m : Rules} {chunk chunk' : Frame} {res res' : MappingResult} {i j : ℕ}

/-- The image of row `i` of a chunk, in the formats of the chunk. -/
def image (P : Polars) (m : Rules) (chunk : Frame) (i : ℕ) (c : String) : Outcome :=
  imageCell P m (formatOf P m chunk) 0 (rowOf chunk i) c

/-- What a result says about the rows of its chunk, and which columns it has. -/
structure Reports (P : Polars) (m : Rules) (chunk : Frame) (res : MappingResult) : Prop
    extends AccountsRows P m chunk res where
  shown : contributed P m chunk.columns.keys = .ok res.contribution.columns.keys

lemma mem_failures (h : Reports P m chunk res) (hi : i < chunk.height)
    (f : CellNormalizationFailure) :
    f ∈ res.failures ∧ f.rowIndex = i ↔
      f ∈ (faults (image P m chunk i f.column)).map (atRow i) := by
  have hf := h.failures i f.column
  rw [if_pos hi, imageCell_atRow, faults_mapError] at hf
  rw [image, ← hf, List.mem_filter]
  simp

lemma mem_rowOutcome_failures (h : Reports P m chunk res) (hi : i < chunk.height)
    (f : CellNormalizationFailure) :
    f ∈ (rowOutcome res i).failures ↔
      f ∈ (faults (image P m chunk i f.column)).map (atRow 0) := by
  simp only [rowOutcome, List.mem_toFinset, List.mem_map, List.mem_filter, decide_eq_true_eq]
  constructor
  · rintro ⟨g, hg, rfl⟩
    obtain ⟨f₀, hf₀, rfl⟩ := List.mem_map.mp ((mem_failures h hi g).mp hg)
    exact ⟨f₀, hf₀, rfl⟩
  · rintro ⟨f₀, hf₀, rfl⟩
    exact ⟨atRow i f₀, (mem_failures h hi (atRow i f₀)).mpr (List.mem_map_of_mem hf₀), rfl⟩

lemma mem_kept_iff (h : Reports P m chunk res) (hi : i < chunk.height) :
    i ∈ res.sourceRowIndices ↔ ∀ c, faults (image P m chunk i c) = [] := by
  have hfailed : i ∈ res.failures.map (·.rowIndex) ↔ ¬ ∀ c, faults (image P m chunk i c) = [] := by
    constructor
    · rintro hmem hall
      obtain ⟨f, hf, rfl⟩ := List.mem_map.mp hmem
      have hf' := (mem_failures h hi f).mp ⟨hf, rfl⟩
      rw [hall] at hf'
      cases hf'
    · intro hsome
      obtain ⟨c, hc⟩ := not_forall.mp hsome
      have hlog := h.failures i c
      rw [if_pos hi, imageCell_atRow, faults_mapError] at hlog
      obtain ⟨f, hf⟩ := List.exists_mem_of_ne_nil _ hc
      have hmem : atRow i f ∈ (faults (image P m chunk i c)).map (atRow i) :=
        List.mem_map_of_mem hf
      rw [image, ← hlog] at hmem
      exact List.mem_map_of_mem (f := CellNormalizationFailure.rowIndex)
        (List.mem_of_mem_filter hmem)
  constructor
  · intro hmem
    by_contra hsome
    exact h.disjoint i hmem (hfailed.mpr hsome)
  · intro hall
    exact ((h.covered i).mp hi).resolve_right fun hmem => hfailed.mp hmem hall

lemma values_of_clean (h : Reports P m chunk res) (hi : i < chunk.height)
    (hclean : ∀ c, faults (image P m chunk i c) = []) :
    ∃ d, (rowOutcome res i).values = some d ∧ d.entries =
      res.contribution.columns.keys.map fun c => (c, valueOf (image P m chunk i c)) := by
  have hmem := (mem_kept_iff h hi).mpr hclean
  cases hk : res.sourceRowIndices.idxOf? i with
  | none => exact absurd hmem (List.idxOf?_eq_none_iff.mp hk)
  | some k =>
    obtain ⟨hlt, hki, -⟩ := List.idxOf?_eq_some_iff.mp hk
    have hheight : k < res.contribution.height := h.height ▸ hlt
    refine ⟨res.contribution.columns.map fun s => (s.cells[k]?).join, ?_, ?_⟩
    · simp [rowOutcome, hk, Frame.toDicts, hheight]
    · rw [Dict.keys, List.map_map, Dict.map]
      refine List.map_congr_left fun e he => Prod.ext rfl ?_
      have hcells := h.rows e.1 e.2 (res.contribution.columns.mem_entries.mp he)
      have hcell := congrArg (·[k]?) hcells
      simp only [List.getElem?_map, List.getElem?_eq_getElem hlt, hki, Option.map_some] at hcell
      obtain ⟨cell, hget, hcell⟩ := Option.map_eq_some_iff.mp hcell
      rw [imageCell_atRow] at hcell
      simp only [hget, Option.join_some, Function.comp_apply, image]
      rw [← valueOf_mapError (atRow i), ← hcell, valueOf_ok]

lemma values_of_failed (h : Reports P m chunk res) (hi : i < chunk.height)
    (hfailed : ¬ ∀ c, faults (image P m chunk i c) = []) : (rowOutcome res i).values = none := by
  have hnone : res.sourceRowIndices.idxOf? i = none :=
    List.idxOf?_eq_none_iff.mpr fun hmem => hfailed ((mem_kept_iff h hi).mp hmem)
  simp [rowOutcome, hnone]

lemma columns_congr (h : Reports P m chunk res) (h' : Reports P m chunk' res')
    (hkeys : chunk.columns.keys = chunk'.columns.keys) :
    res.contribution.columns.keys = res'.contribution.columns.keys := by
  have hshown := h.shown
  rw [hkeys, h'.shown] at hshown
  exact (Except.ok.inj hshown).symm

lemma rowOutcome_congr (h : Reports P m chunk res) (h' : Reports P m chunk' res')
    (hkeys : chunk.columns.keys = chunk'.columns.keys) (hi : i < chunk.height)
    (hj : j < chunk'.height)
    (hfaults : ∀ c, faults (image P m chunk i c) = faults (image P m chunk' j c))
    (hvalues : (∀ c, faults (image P m chunk i c) = []) →
      ∀ c ∈ res.contribution.columns.keys,
        valueOf (image P m chunk i c) = valueOf (image P m chunk' j c)) :
    rowOutcome res i = rowOutcome res' j := by
  refine RowOutcome.ext ?_ (Finset.ext fun f => ?_)
  · by_cases hclean : ∀ c, faults (image P m chunk i c) = []
    · obtain ⟨d, hd, hentries⟩ := values_of_clean h hi hclean
      obtain ⟨d', hd', hentries'⟩ := values_of_clean h' hj fun c => hfaults c ▸ hclean c
      have hsame : d.entries = d'.entries := by
        rw [hentries, hentries', ← columns_congr h h' hkeys]
        exact List.map_congr_left fun c hc => by rw [hvalues hclean c hc]
      rw [hd, hd']
      cases d
      cases d'
      cases hsame
      rfl
    · have hfailed' : ¬ ∀ c, faults (image P m chunk' j c) = [] := by
        simpa only [hfaults] using hclean
      rw [values_of_failed h hi hclean, values_of_failed h' hj hfailed']
  · rw [mem_rowOutcome_failures h hi, mem_rowOutcome_failures h' hj, hfaults]

end Image

/-! ### Formats -/

section Formats

variable (P : Polars) (m : Rules)

/-- The text of a column when it comes to the cast. -/
def textOf (row : String → Option String) (c : String) : Option String :=
  valueOf (normalizedCell P m 0 row c)

/-- The format polars infers from a text. -/
def inferredFormat (t : String) : Option DatetimeFormat :=
  (P.inferDatetime [some t]).toOption.join

/-- Polars finds a format for every datetime text of the row. -/
def Inferable (row : String → Option String) : Prop :=
  ∀ c t, m.cast.get? c = some .datetime → textOf P m row c = some t →
    ∃ format, P.inferDatetime [some t] = .ok format

/-- The formats of the row's own texts. -/
def ownFormat (row : String → Option String) (c : String) : Option DatetimeFormat :=
  (textOf P m row c).bind (inferredFormat P)

/-- The row fails on its own, each datetime text in the format inferred from it. -/
def Fails (row : String → Option String) : Prop :=
  ∃ c, faults (imageCell P m (ownFormat P m row) 0 row c) ≠ []

section Columns

variable (columns : List String)

/-- The row can be mapped: polars finds its formats, and where the last selection picks no column
of a chunk with these, the row fails. -/
def Mappable (row : String → Option String) : Prop :=
  Inferable P m row ∧ (contributed P m columns = .ok [] → Fails P m row)

/-- The last selection does not tell two values of the column apart: it picks neither the column
nor a copy of it, nor a date of theirs if these differ. -/
def Unseen (c : String) (x y : Cell) : Prop :=
  ∀ shown, contributed P m columns = .ok shown → c ∉ shown ∧
    ∀ k ∈ shown, ∀ d, m.derive.get? k = some d →
      d.generator ≠ .copy c ∧ (d.generator = .dateFromDatetime c → dateOf x = dateOf y)

/-- A datetime text of the row reads in the format as in its own. Two different values do no
harm in a row that fails, nor in a column that is not seen. -/
def ReadsAlike (row : String → Option String) (c : String) (format : Option DatetimeFormat)
    (t : String) : Prop :=
  let read := castText P .datetime format (some t)
  let own := castText P .datetime (inferredFormat P t) (some t)
  read = own ∨ (read.isSome ∧ own.isSome ∧ (Fails P m row ∨ Unseen P m columns c read own))

end Columns

/-- No row can be mapped, or every row can and its datetime texts read in the formats of the other
rows as in their own. -/
def FormatsAgree (chunk : Frame) : Prop :=
  (∀ i < chunk.height, ¬ Mappable P m chunk.columns.keys (rowOf chunk i)) ∨
    ((∀ i < chunk.height, Mappable P m chunk.columns.keys (rowOf chunk i)) ∧
      ∀ i < chunk.height, ∀ k < chunk.height, ∀ c a b, m.cast.get? c = some .datetime →
        textOf P m (rowOf chunk k) c = some a → textOf P m (rowOf chunk i) c = some b →
          ReadsAlike P m chunk.columns.keys (rowOf chunk i) c (inferredFormat P a) b)

end Formats

section Congruence

variable {P : Polars} {m : Rules} {f g : String → Option DatetimeFormat}
  {row : String → Option String} {c : String}

/-- What `f` makes of the row's datetime texts relates to what `g` makes of them. -/
def Related (R : String → Cell → Cell → Prop) (P : Polars) (m : Rules)
    (f g : String → Option DatetimeFormat) (row : String → Option String) : Prop :=
  ∀ c t, m.cast.get? c = some .datetime → textOf P m row c = some t →
    R c (castText P .datetime (f c) (some t)) (castText P .datetime (g c) (some t))

lemma castText_format {type : CastType} (h : type ≠ .datetime) (f g : Option DatetimeFormat)
    (t : Option String) : castText P type f t = castText P type g t := by
  cases type <;> first | rfl | exact absurd rfl h

lemma valueOf_castTextStep (sourceColumn : Option String) (type : CastType)
    (format : Option DatetimeFormat) (i : ℕ) (t : Option String) :
    valueOf ((castTextStep P c sourceColumn type format).row i t) = castText P type format t := by
  rw [Step.valueOf_row]
  simp only [castTextStep, castStep]
  rcases Option.eq_none_or_eq_some (castText P type format t) with hx | ⟨x, hx⟩
  · simp [hx]
  · simp [hx]

lemma castCell_congr (see : Cell → Cell)
    (h : ∀ t, m.cast.get? c = some .datetime → textOf P m row c = some t →
      see (castText P .datetime (f c) (some t)) = see (castText P .datetime (g c) (some t))) :
    see (valueOf (castCell P m f 0 row c)) = see (valueOf (castCell P m g 0 row c)) := by
  unfold castCell
  cases hn : normalizedCell P m 0 row c with
  | error e => rfl
  | ok t =>
    simp only [Except.bind]
    cases hc : m.cast.get? c with
    | none => rfl
    | some type =>
      simp only [valueOf_castTextStep]
      by_cases hd : type = .datetime
      · subst hd
        cases t with
        | none => rw [castText_null, castText_null]
        | some t => exact h t hc (by simp [textOf, hn])
      · rw [castText_format hd (f c) (g c) t]

lemma faults_castCell_eq (h : Related (fun _ x y => x.isSome = y.isSome) P m f g row)
    (c : String) : faults (castCell P m f 0 row c) = faults (castCell P m g 0 row c) := by
  unfold castCell
  cases hn : normalizedCell P m 0 row c with
  | error e => rfl
  | ok t =>
    simp only [Except.bind]
    cases hc : m.cast.get? c with
    | none => rfl
    | some type =>
      have htext : (castText P type (f c) t).isNone = (castText P type (g c) t).isNone := by
        by_cases hd : type = .datetime
        · subst hd
          cases t with
          | none => rw [castText_null, castText_null]
          | some t =>
            have := h c t hc (by simp [textOf, hn])
            simpa [← Option.not_isSome] using this
        · rw [castText_format hd (f c) (g c) t]
      simp only [Step.faults_row, castTextStep, castStep, htext]

section Mapping

variable {upper : String → String} {v : SourceMapping upper}

lemma generatedCell_eq_of_rest {d : DeriveSpec} (hd : v.derive.get? c = some d)
    (hrest : d.rest ≠ []) :
    generatedCell P v.toRules f 0 row d.generator =
      generatedCell P v.toRules g 0 row d.generator := by
  have he := v.derive.mem_entries.mpr hd
  have hvalid := v.validDerive d (List.mem_map_of_mem (f := Prod.snd) he)
  have hempty : d.rest.isEmpty = false := by simpa using hrest
  simp only [Rules.validDerive, Bool.and_eq_true, hempty, Bool.false_or] at hvalid
  cases hg : d.generator with
  | constant value => rfl
  | dateFromDatetime source => simp [hg] at hvalid
  | copy source =>
    simp only [hg] at hvalid
    refine castCell_congr id fun t hc _ => ?_
    simp [hc] at hvalid

lemma imageCell_generated {d : DeriveSpec} {source : String} (hd : v.derive.get? c = some d)
    (hc : v.cast.get? source = some .datetime)
    (hg : d.generator = .copy source ∨ d.generator = .dateFromDatetime source) :
    imageCell P v.toRules f 0 row c = .ok (generatedCell P v.toRules f 0 row d.generator) := by
  have he := v.derive.mem_entries.mpr hd
  have hvalid := v.validDerive d (List.mem_map_of_mem (f := Prod.snd) he)
  have hrest : d.rest = [] := by
    by_contra hne
    have hempty : d.rest.isEmpty = false := by simpa using hne
    simp only [Rules.validDerive, Bool.and_eq_true, hempty, Bool.false_or] at hvalid
    rcases hg with hg | hg
    · simp [hg, hc] at hvalid
    · simp [hg] at hvalid
  simp only [imageCell, hd, derivedCell, hrest, if_true]

lemma faults_imageCell_eq (h : Related (fun _ x y => x.isSome = y.isSome) P v.toRules f g row)
    (c : String) :
    faults (imageCell P v.toRules f 0 row c) = faults (imageCell P v.toRules g 0 row c) := by
  unfold imageCell
  cases hd : v.derive.get? c with
  | none => exact faults_castCell_eq h c
  | some d =>
    simp only [derivedCell]
    split_ifs with hrest
    · rfl
    · rw [generatedCell_eq_of_rest hd hrest]

lemma valueOf_imageCell_eq {columns shown : List String}
    (h : Related (fun c x y => x = y ∨ Unseen P v.toRules columns c x y) P v.toRules f g row)
    (hshown : contributed P v.toRules columns = .ok shown) (hc : c ∈ shown) :
    valueOf (imageCell P v.toRules f 0 row c) = valueOf (imageCell P v.toRules g 0 row c) := by
  unfold imageCell
  cases hd : v.derive.get? c with
  | none =>
    exact castCell_congr id fun t hcast ht =>
      (h c t hcast ht).resolve_right fun hunseen => (hunseen shown hshown).1 hc
  | some d =>
    simp only [derivedCell]
    split_ifs with hrest
    · cases hg : d.generator with
      | constant value => rfl
      | copy source =>
        exact castCell_congr id fun t hcast ht => (h source t hcast ht).resolve_right
          fun hunseen => ((hunseen shown hshown).2 c hc d hd).1 hg
      | dateFromDatetime source =>
        refine castCell_congr dateOf fun t hcast ht => ?_
        rcases h source t hcast ht with heq | hunseen
        · rw [heq]
        · exact ((hunseen shown hshown).2 c hc d hd).2 hg
    · rw [generatedCell_eq_of_rest hd hrest]

lemma valueOf_castCell_datetime {b : String} (hc : v.cast.get? c = some .datetime)
    (hb : textOf P v.toRules row c = some b) :
    valueOf (castCell P v.toRules f 0 row c) = castText P .datetime (f c) (some b) ∧
      (faults (castCell P v.toRules f 0 row c) = [] ↔
        (castText P .datetime (f c) (some b)).isSome) := by
  have hnormal : normalizedCell P v.toRules 0 row c = .ok (some b) := by
    unfold textOf at hb
    cases hn : normalizedCell P v.toRules 0 row c with
    | error e => simp [hn] at hb
    | ok t =>
      rw [hn] at hb
      exact congrArg Except.ok hb
  simp only [castCell, hnormal, hc, Except.bind]
  refine ⟨valueOf_castTextStep _ _ _ _ _, ?_⟩
  rw [Step.faults_row]
  simp only [castTextStep, castStep]
  rcases Option.eq_none_or_eq_some (castText P .datetime (f c) (some b)) with hx | ⟨x, hx⟩
  · simp [hx]
  · simp [hx]

lemma imageCell_datetime (hc : v.cast.get? c = some .datetime) :
    imageCell P v.toRules f 0 row c = castCell P v.toRules f 0 row c := by
  have hkey : c ∈ v.cast.keys := List.mem_map_of_mem (v.cast.mem_entries.mpr hc)
  have hderive : v.derive.get? c = none :=
    (v.derive.get?_eq_none c).mpr fun hd => v.derive_keys c hd (v.cast_keys c hkey)
  rw [imageCell, hderive]

end Mapping

end Congruence

/-! ### Selections of rows -/

section Parts

variable {P : Polars} {upper : String → String} {v : SourceMapping upper} {chunk part : Frame}
  {indices : List ℕ}

lemma rowOf_gather (h : chunk.gather indices = .ok part) {k : ℕ} (hk : k < indices.length) :
    rowOf part k = rowOf chunk indices[k] := by
  unfold Frame.gather at h
  split_ifs at h
  cases h
  funext source
  unfold rowOf
  rw [Dict.get?_map]
  cases chunk.columns.get? source with
  | none => rfl
  | some s => simp [hk]

lemma fits_gather (hfits : Fits v.toRules chunk) (h : chunk.gather indices = .ok part) :
    Fits v.toRules part := by
  obtain ⟨hheight, hkeys, hcells⟩ := gather_ok h
  refine ⟨?_, ?_, fun source hs => hkeys ▸ hfits.declared source hs⟩
  · intro c s hs
    obtain ⟨s₀, -, hcells⟩ := hcells c s hs
    simp [hcells, hheight]
  · intro c s hs
    unfold Frame.gather at h
    split_ifs at h
    cases h
    rw [Dict.get?_map] at hs
    obtain ⟨s₀, hs₀, rfl⟩ := Option.map_eq_some_iff.mp hs
    obtain ⟨texts, rfl⟩ := hfits.text c s₀ hs₀
    refine ⟨indices.map fun i => (texts[i]?).join, ?_⟩
    simp only [Series.ofTexts, List.map_map, Series.mk.injEq, true_and]
    refine List.map_congr_left fun i _ => ?_
    simp only [List.getElem?_map, Function.comp_apply]
    cases texts[i]? with
    | none => rfl
    | some t => rfl

lemma normalizedTexts_eq (c : String) : normalizedTexts P v.toRules chunk c =
    (List.range chunk.height).map fun i => textOf P v.toRules (rowOf chunk i) c := by
  refine List.map_congr_left fun i _ => ?_
  rw [normalizedCell_atRow, valueOf_mapError, textOf]

/-- The text a datetime column takes its format from. -/
def firstText (P : Polars) (m : Rules) (chunk : Frame) (c : String) : Option String :=
  (normalizedTexts P m chunk c).reduceOption.head?

lemma firstText_eq_some {c a : String} (h : firstText P v.toRules chunk c = some a) :
    ∃ k < chunk.height, textOf P v.toRules (rowOf chunk k) c = some a := by
  have hmem := List.reduceOption_mem_iff.mp (List.mem_of_mem_head? h)
  rw [normalizedTexts_eq] at hmem
  obtain ⟨k, hk, ha⟩ := List.mem_map.mp hmem
  exact ⟨k, List.mem_range.mp hk, ha⟩

lemma firstText_ne_none {c b : String} {i : ℕ} (hi : i < chunk.height)
    (h : textOf P v.toRules (rowOf chunk i) c = some b) :
    ∃ a, firstText P v.toRules chunk c = some a := by
  have hmem : b ∈ (normalizedTexts P v.toRules chunk c).reduceOption := by
    rw [List.reduceOption_mem_iff, normalizedTexts_eq]
    exact List.mem_map.mpr ⟨i, List.mem_range.mpr hi, h⟩
  exact Option.isSome_iff_exists.mp (by simpa [firstText] using List.ne_nil_of_mem hmem)

lemma firstText_first {c b : String} (hpos : 0 < chunk.height)
    (h : textOf P v.toRules (rowOf chunk 0) c = some b) :
    firstText P v.toRules chunk c = some b := by
  obtain ⟨n, hn⟩ := Nat.exists_eq_succ_of_ne_zero hpos.ne'
  rw [firstText, normalizedTexts_eq, hn, List.range_succ_eq_map, List.map_cons, h,
    List.reduceOption_cons_of_some, List.head?_cons]

section Assumed

variable (hP : Assumed P)
include hP

lemma castFormat_datetime (c : String) :
    castFormat P .datetime (normalizedTexts P v.toRules chunk c) =
      match firstText P v.toRules chunk c with
      | none => .ok none
      | some a => P.inferDatetime [some a] := by
  rw [castFormat, if_pos rfl, hP.inferred]
  rfl

lemma formatOf_datetime {c : String} (hc : v.cast.get? c = some .datetime) :
    formatOf P v.toRules chunk c =
      (firstText P v.toRules chunk c).bind (inferredFormat P) := by
  have h : castFormat P .datetime (normalizedTexts P v.toRules chunk c) = _ :=
    castFormat_datetime hP c
  rw [normalizedTexts] at h
  rw [formatOf, hc, Option.bind_some, h]
  cases firstText P v.toRules chunk c <;> rfl

end Assumed

end Parts

/-! ### Rows read alike -/

section Alike

variable {P : Polars} {upper : String → String} {v : SourceMapping upper} {chunk chunk' : Frame}
  {res res' : MappingResult} {i j : ℕ}

/-- The formats of the chunk read the row as the formats of its own texts do. -/
def ReadsRow (P : Polars) (m : Rules) (chunk : Frame) (row : String → Option String) : Prop :=
  ∀ c t, m.cast.get? c = some .datetime → textOf P m row c = some t →
    ReadsAlike P m chunk.columns.keys row c (formatOf P m chunk c) t

section ReadsRow

variable {row : String → Option String} (h : ReadsRow P v.toRules chunk row)
include h

lemma ReadsRow.faults_eq (c : String) :
    faults (imageCell P v.toRules (formatOf P v.toRules chunk) 0 row c) =
      faults (imageCell P v.toRules (ownFormat P v.toRules row) 0 row c) := by
  refine faults_imageCell_eq (fun c t hc ht => ?_) c
  rw [ownFormat, ht, Option.bind_some]
  rcases h c t hc ht with heq | ⟨hread, hown, -⟩
  · exact congrArg Option.isSome heq
  · exact hread.trans hown.symm

lemma ReadsRow.values_eq (hclean : ¬ Fails P v.toRules row) {shown : List String}
    (hshown : contributed P v.toRules chunk.columns.keys = .ok shown) {c : String}
    (hc : c ∈ shown) :
    valueOf (imageCell P v.toRules (formatOf P v.toRules chunk) 0 row c) =
      valueOf (imageCell P v.toRules (ownFormat P v.toRules row) 0 row c) := by
  refine valueOf_imageCell_eq (fun c t hc ht => ?_) hshown hc
  rw [ownFormat, ht, Option.bind_some]
  exact (h c t hc ht).imp_right fun ⟨_, _, hor⟩ => hor.resolve_left hclean

lemma ReadsRow.fails_iff :
    (∃ c, faults (imageCell P v.toRules (formatOf P v.toRules chunk) 0 row c) ≠ []) ↔
      Fails P v.toRules row :=
  exists_congr fun c => by rw [h.faults_eq c]

end ReadsRow

lemma rowOutcome_alike (hrep : Reports P v.toRules chunk res)
    (hrep' : Reports P v.toRules chunk' res') (hkeys : chunk.columns.keys = chunk'.columns.keys)
    (hi : i < chunk.height) (hj : j < chunk'.height) (hrow : rowOf chunk i = rowOf chunk' j)
    (h : ReadsRow P v.toRules chunk (rowOf chunk i))
    (h' : ReadsRow P v.toRules chunk' (rowOf chunk i)) :
    rowOutcome res i = rowOutcome res' j := by
  refine rowOutcome_congr hrep hrep' hkeys hi hj (fun c => ?_) (fun hclean c hc => ?_)
  · rw [image, image, ← hrow, h.faults_eq, h'.faults_eq]
  · have hfails : ¬ Fails P v.toRules (rowOf chunk i) := by
      rintro ⟨c', hc'⟩
      exact hc' ((h.faults_eq c').symm.trans (hclean c'))
    have hc' : c ∈ res'.contribution.columns.keys := columns_congr hrep hrep' hkeys ▸ hc
    rw [image, image, ← hrow, h.values_eq hfails hrep.shown hc,
      h'.values_eq hfails hrep'.shown hc']

lemma readsRow_of_agree (hP : Assumed P)
    (hread : ∀ i < chunk.height, ∀ k < chunk.height, ∀ c a b, v.cast.get? c = some .datetime →
      textOf P v.toRules (rowOf chunk k) c = some a →
      textOf P v.toRules (rowOf chunk i) c = some b →
        ReadsAlike P v.toRules chunk.columns.keys (rowOf chunk i) c (inferredFormat P a) b)
    (hkeys : chunk'.columns.keys = chunk.columns.keys)
    (hrows : ∀ k < chunk'.height, ∃ i < chunk.height, rowOf chunk' k = rowOf chunk i)
    (hj : j < chunk'.height) : ReadsRow P v.toRules chunk' (rowOf chunk' j) := by
  intro c b hc hb
  obtain ⟨a, ha⟩ := firstText_ne_none hj hb
  obtain ⟨k, hk, hka⟩ := firstText_eq_some ha
  obtain ⟨k', hk', hkrow⟩ := hrows k hk
  obtain ⟨i', hi', hirow⟩ := hrows j hj
  rw [formatOf_datetime hP hc, ha, Option.bind_some, hkeys]
  rw [hkrow] at hka
  rw [hirow] at hb ⊢
  exact hread i' hi' k' hk' c a b hc hka hb

lemma formatOf_first (hP : Assumed P) (hpos : 0 < chunk.height) {c t : String}
    (hc : v.cast.get? c = some .datetime)
    (ht : textOf P v.toRules (rowOf chunk 0) c = some t) :
    formatOf P v.toRules chunk c = inferredFormat P t := by
  rw [formatOf_datetime hP hc, firstText_first hpos ht, Option.bind_some]

lemma readsRow_first (hP : Assumed P) (hpos : 0 < chunk.height) :
    ReadsRow P v.toRules chunk (rowOf chunk 0) := by
  intro c t hc ht
  rw [formatOf_first hP hpos hc ht]
  exact Or.inl rfl

section Equal

variable (hrep : Reports P v.toRules chunk res) (hrep' : Reports P v.toRules chunk' res')
  (hkeys : chunk.columns.keys = chunk'.columns.keys)
  (hi : i < chunk.height) (hj : j < chunk'.height) (h : rowOutcome res i = rowOutcome res' j)
include hrep hi

lemma column_of_fault {c : String} {f : CellNormalizationFailure}
    (hf : f ∈ faults (image P v.toRules chunk i c)) : f.column = c := by
  have hlog := hrep.failures i c
  rw [if_pos hi, imageCell_atRow, faults_mapError] at hlog
  have hmem : atRow i f ∈ (faults (image P v.toRules chunk i c)).map (atRow i) :=
    List.mem_map_of_mem hf
  rw [image, ← hlog, List.mem_filter] at hmem
  exact (of_decide_eq_true hmem.2).2

include hrep' hj h

lemma faults_of_rowOutcome {c : String} (hc : faults (image P v.toRules chunk' j c) = []) :
    faults (image P v.toRules chunk i c) = [] := by
  refine List.eq_nil_iff_forall_not_mem.mpr fun f hf => ?_
  obtain rfl := column_of_fault hrep hi hf
  have hmem := (mem_rowOutcome_failures hrep hi (atRow 0 f)).mpr (List.mem_map_of_mem hf)
  rw [h, mem_rowOutcome_failures hrep' hj] at hmem
  obtain ⟨f', hf', -⟩ := List.mem_map.mp hmem
  rw [show (atRow 0 f).column = f.column from rfl, hc] at hf'
  cases hf'

include hkeys in
lemma valueOf_of_rowOutcome (hclean : ∀ c, faults (image P v.toRules chunk' j c) = [])
    {c : String} (hc : c ∈ res.contribution.columns.keys) :
    valueOf (image P v.toRules chunk i c) = valueOf (image P v.toRules chunk' j c) := by
  obtain ⟨d, hd, hentries⟩ := values_of_clean hrep hi fun c =>
    faults_of_rowOutcome hrep hrep' hi hj h (hclean c)
  obtain ⟨d', hd', hentries'⟩ := values_of_clean hrep' hj hclean
  rw [h, hd'] at hd
  obtain rfl := Option.some.inj hd
  rw [hentries', ← columns_congr hrep hrep' hkeys, List.map_inj_left] at hentries
  exact (Prod.mk.inj (hentries c hc)).2.symm

end Equal

lemma readsAlike_of_rowOutcome (hrep : Reports P v.toRules chunk res)
    (hrep' : Reports P v.toRules chunk' res') (hkeys : chunk.columns.keys = chunk'.columns.keys)
    (hi : i < chunk.height) (hj : j < chunk'.height) (hrow : rowOf chunk i = rowOf chunk' j)
    (h : rowOutcome res i = rowOutcome res' j)
    (hown : ReadsRow P v.toRules chunk' (rowOf chunk i)) {c b : String}
    (hc : v.cast.get? c = some .datetime) (hb : textOf P v.toRules (rowOf chunk i) c = some b)
    (hformat : formatOf P v.toRules chunk' c = inferredFormat P b) :
    ReadsAlike P v.toRules chunk.columns.keys (rowOf chunk i) c (formatOf P v.toRules chunk c)
      b := by
  obtain ⟨hread, hfread⟩ := valueOf_castCell_datetime (f := formatOf P v.toRules chunk) hc hb
  obtain ⟨hval, hfval⟩ := valueOf_castCell_datetime (f := formatOf P v.toRules chunk') hc hb
  have hiff : faults (image P v.toRules chunk i c) = [] ↔
      faults (image P v.toRules chunk' j c) = [] :=
    ⟨faults_of_rowOutcome hrep' hrep hj hi h.symm, faults_of_rowOutcome hrep hrep' hi hj h⟩
  rw [image, image, ← hrow, imageCell_datetime hc, imageCell_datetime hc, hfread, hfval,
    hformat] at hiff
  rw [hformat] at hval
  unfold ReadsAlike
  by_cases hsome : (castText P .datetime (inferredFormat P b) (some b)).isSome
  · by_cases hfails : Fails P v.toRules (rowOf chunk i)
    · exact Or.inr ⟨hiff.mpr hsome, hsome, Or.inl hfails⟩
    · -- nothing fails, so the contributions show what they show of the two values
      have hclean : ∀ c, faults (image P v.toRules chunk' j c) = [] := by
        intro c'
        rw [image, ← hrow, hown.faults_eq]
        by_contra hne
        exact hfails ⟨c', hne⟩
      have hshow : ∀ k ∈ res.contribution.columns.keys,
          valueOf (imageCell P v.toRules (formatOf P v.toRules chunk) 0 (rowOf chunk i) k) =
            valueOf (imageCell P v.toRules (formatOf P v.toRules chunk') 0 (rowOf chunk i) k) := by
        intro k hk
        have heq := valueOf_of_rowOutcome hrep hrep' hkeys hi hj h hclean hk
        rwa [image, image, ← hrow] at heq
      by_cases heq : castText P .datetime (formatOf P v.toRules chunk c) (some b) =
          castText P .datetime (inferredFormat P b) (some b)
      · exact Or.inl heq
      · refine Or.inr ⟨hiff.mpr hsome, hsome, Or.inr fun shown hshown => ?_⟩
        obtain rfl : shown = res.contribution.columns.keys :=
          Except.ok.inj (hshown.symm.trans hrep.shown)
        refine ⟨fun hmem => heq ?_, fun k hk d hd => ⟨fun hg => heq ?_, fun hg => ?_⟩⟩
        · have hsame := hshow c hmem
          rwa [imageCell_datetime hc, imageCell_datetime hc, hread, hval] at hsame
        · have hsame := hshow k hk
          rwa [imageCell_generated hd hc (.inl hg), imageCell_generated hd hc (.inl hg),
            valueOf_ok, valueOf_ok, hg, generatedCell, generatedCell, hread, hval] at hsame
        · have hsame := hshow k hk
          rwa [imageCell_generated hd hc (.inr hg), imageCell_generated hd hc (.inr hg),
            valueOf_ok, valueOf_ok, hg, generatedCell, generatedCell, hread, hval] at hsame
  · have hnone : castText P .datetime (formatOf P v.toRules chunk c) (some b) = none := by
      rw [← Option.not_isSome_iff_eq_none]
      exact fun hs => hsome (hiff.mp hs)
    rw [hnone, Option.not_isSome_iff_eq_none.mp hsome]
    exact Or.inl rfl

end Alike

/-! ### A selection at a time -/

section Main

variable {P : Polars} {upper : String → String} {v : SourceMapping upper} {chunk part : Frame}
  {indices : List ℕ}

lemma outcomes_eq_iff (h : chunk.gather indices = .ok part) :
    outcomes P v.toRules part = indices.map (outcome P v.toRules chunk) ↔
      ∀ k (hk : k < indices.length),
        outcome P v.toRules part k = outcome P v.toRules chunk indices[k] := by
  have hheight : part.height = indices.length := (gather_ok h).1
  constructor
  · intro heq k hk
    have hget := congrArg (·[k]?) heq
    simpa [outcomes, hheight, hk] using hget
  · intro hall
    refine List.ext_getElem (by simp [outcomes, hheight]) fun k h₁ h₂ => ?_
    have hk : k < indices.length := by simpa using h₂
    simpa [outcomes] using hall k hk

lemma outcome_of_ok {res : MappingResult} (h : applyMapping P v.toRules chunk = .ok res) (i : ℕ) :
    outcome P v.toRules chunk i = some (rowOutcome res i) := by
  simp [outcome, h, Except.toOption]

lemma outcome_of_raised (h : ¬ ∃ res, applyMapping P v.toRules chunk = .ok res) (i : ℕ) :
    outcome P v.toRules chunk i = none := by
  cases hr : applyMapping P v.toRules chunk with
  | error e => simp [outcome, hr, Except.toOption]
  | ok res => exact absurd ⟨res, hr⟩ h

lemma outcome_isSome_iff (i : ℕ) : (outcome P v.toRules chunk i).isSome ↔
    ∃ res, applyMapping P v.toRules chunk = .ok res := by
  constructor
  · intro h
    by_contra hraised
    rw [outcome_of_raised hraised] at h
    cases h
  · rintro ⟨res, hres⟩
    rw [outcome_of_ok hres]
    rfl

lemma rows_of_gather (h : chunk.gather indices = .ok part) :
    ∀ k < part.height, ∃ i < chunk.height, rowOf part k = rowOf chunk i := by
  intro k hk
  rw [(gather_ok h).1] at hk
  exact ⟨indices[k], lt_height_of_gather h (List.getElem_mem hk), rowOf_gather h hk⟩

section Named

variable (hP : Assumed P) (hnamed : v.rename.keys ≠ []) (hfits : Fits v.toRules chunk)
include hP hnamed hfits

omit hP in
lemma reports {res : MappingResult} (h : applyMapping P v.toRules chunk = .ok res) :
    Reports P v.toRules chunk res :=
  { accountsRows_of_ok P hfits.rect hfits.text (fun hnone => absurd hnone hnamed) h with
    shown := contribution_columns h }

/-- The engine returns where polars has a format for each column's first text; where the last
selection picks no column, only if every row fails. -/
lemma isOk_iff : (∃ res, applyMapping P v.toRules chunk = .ok res) ↔
    Supported P v.toRules chunk.columns.keys ∧
    (∀ c a, v.cast.get? c = some .datetime → firstText P v.toRules chunk c = some a →
      ∃ format, P.inferDatetime [some a] = .ok format) ∧
    (contributed P v.toRules chunk.columns.keys = .ok [] → ∀ i < chunk.height,
      ∃ c, faults (image P v.toRules chunk i c) ≠ []) := by
  rw [applyMapping_isOk_iff hfits hnamed hP.selectNone]
  refine and_congr_right fun _ => and_congr ⟨fun h c a hc ha => ?_, fun h e he => ?_⟩ ?_
  · have := h (c, .datetime) (v.cast.mem_entries.mpr hc)
    rwa [castFormat_datetime hP, ha] at this
  · have hc := v.cast.mem_entries.mp he
    by_cases hd : e.2 = .datetime
    · rw [hd, castFormat_datetime hP]
      rw [hd] at hc
      cases hfirst : firstText P v.toRules chunk e.1 with
      | none => exact ⟨none, rfl⟩
      | some a => exact h e.1 a hc hfirst
    · exact ⟨none, if_neg hd⟩
  · refine imp_congr_right fun _ => forall₂_congr fun i _ => exists_congr fun c => ?_
    rw [imageCell_atRow, faults_mapError, image, ne_eq, List.map_eq_nil_iff]

lemma isOk_of_mappable (hs : Supported P v.toRules chunk.columns.keys)
    (h : ∀ i < chunk.height, Mappable P v.toRules chunk.columns.keys (rowOf chunk i))
    (hread : ∀ i < chunk.height, ReadsRow P v.toRules chunk (rowOf chunk i)) :
    ∃ res, applyMapping P v.toRules chunk = .ok res := by
  refine (isOk_iff hP hnamed hfits).mpr ⟨hs, fun c a hc ha => ?_, fun hblank i hi => ?_⟩
  · obtain ⟨k, hk, hka⟩ := firstText_eq_some ha
    exact (h k hk).1 c a hc hka
  · exact (hread i hi).fails_iff.mpr ((h i hi).2 hblank)

lemma mappable_of_isOk (hpos : 0 < chunk.height)
    (h : ∃ res, applyMapping P v.toRules chunk = .ok res) :
    Mappable P v.toRules chunk.columns.keys (rowOf chunk 0) := by
  obtain ⟨-, hinfer, hblank⟩ := (isOk_iff hP hnamed hfits).mp h
  refine ⟨fun c t hc ht => hinfer c t hc (firstText_first hpos ht), fun hnone => ?_⟩
  exact (readsRow_first hP hpos).fails_iff.mp (hblank hnone 0 hpos)

lemma rowIndependent_of_agree (h : ¬ Supported P v.toRules chunk.columns.keys ∨
    FormatsAgree P v.toRules chunk) : RowIndependent P v.toRules chunk := by
  intro indices part hpart
  have hfits' := fits_gather hfits hpart
  have hkeys : part.columns.keys = chunk.columns.keys := (gather_ok hpart).2.1
  have hheight : part.height = indices.length := (gather_ok hpart).1
  rw [outcomes_eq_iff hpart]
  intro k hk
  have hik := lt_height_of_gather hpart (List.getElem_mem hk)
  have hrow := rowOf_gather hpart hk
  by_cases hs : Supported P v.toRules chunk.columns.keys
  · rcases h.resolve_left (fun hns => hns hs) with hnone | ⟨hall, halike⟩
    · -- the first row raises, of the chunk and of the selection
      have hraised : ¬ ∃ res, applyMapping P v.toRules chunk = .ok res := fun hok =>
        hnone 0 (by omega) (mappable_of_isOk hP hnamed hfits (by omega) hok)
      have hraised' : ¬ ∃ res, applyMapping P v.toRules part = .ok res := by
        intro hok
        have hfirst := mappable_of_isOk hP hnamed hfits' (by omega) hok
        rw [hkeys, rowOf_gather hpart (by omega)] at hfirst
        exact hnone _ (lt_height_of_gather hpart (List.getElem_mem _)) hfirst
      rw [outcome_of_raised hraised, outcome_of_raised hraised']
    · have hreads : ∀ i < chunk.height, ReadsRow P v.toRules chunk (rowOf chunk i) := fun i hi =>
        readsRow_of_agree hP halike rfl (fun i hi => ⟨i, hi, rfl⟩) hi
      have hreads' : ∀ i < part.height, ReadsRow P v.toRules part (rowOf part i) := fun i hi =>
        readsRow_of_agree hP halike hkeys (rows_of_gather hpart) hi
      have hall' : ∀ i < part.height, Mappable P v.toRules part.columns.keys (rowOf part i) := by
        intro i hi
        obtain ⟨i', hi', hr⟩ := rows_of_gather hpart i hi
        exact hkeys ▸ hr ▸ hall i' hi'
      obtain ⟨res, hres⟩ := isOk_of_mappable hP hnamed hfits hs hall hreads
      obtain ⟨res', hres'⟩ := isOk_of_mappable hP hnamed hfits' (hkeys ▸ hs) hall' hreads'
      have hkpart : k < part.height := hheight ▸ hk
      rw [outcome_of_ok hres, outcome_of_ok hres']
      exact congrArg some (rowOutcome_alike (reports hnamed hfits' hres')
        (reports hnamed hfits hres) hkeys hkpart hik hrow (hreads' k hkpart)
        (hrow ▸ hreads _ hik))
  · have hraised : ∀ {f : Frame}, Fits v.toRules f → f.columns.keys = chunk.columns.keys →
        ¬ ∃ res, applyMapping P v.toRules f = .ok res := fun hf hkeys hok =>
      hs (hkeys ▸ ((isOk_iff hP hnamed hf).mp hok).1)
    rw [outcome_of_raised (hraised hfits rfl), outcome_of_raised (hraised hfits' hkeys)]

omit hP hnamed in
lemma exists_part (i : ℕ) (rest : List ℕ) (h : ∀ k ∈ i :: rest, k < chunk.height) :
    ∃ part, chunk.gather (i :: rest) = .ok part ∧ Fits v.toRules part ∧
      part.columns.keys = chunk.columns.keys ∧ part.height = rest.length + 1 ∧
      rowOf part 0 = rowOf chunk i := by
  obtain ⟨part, hpart⟩ := exists_gather (i :: rest) h
  exact ⟨part, hpart, fits_gather hfits hpart, (gather_ok hpart).2.1, (gather_ok hpart).1,
    rowOf_gather hpart (Nat.succ_pos _)⟩

lemma mappable_iff (hs : Supported P v.toRules chunk.columns.keys)
    (h : RowIndependent P v.toRules chunk) {i : ℕ} (hi : i < chunk.height) :
    Mappable P v.toRules chunk.columns.keys (rowOf chunk i) ↔
      ∃ res, applyMapping P v.toRules chunk = .ok res := by
  obtain ⟨part, hpart, hfits', hkeys, hheight, hrow⟩ := exists_part hfits i [] (by simpa)
  have hsame : outcome P v.toRules part 0 = outcome P v.toRules chunk i :=
    (outcomes_eq_iff hpart).mp (h _ _ hpart) 0 (by simp)
  rw [← outcome_isSome_iff i, ← hsame, outcome_isSome_iff, ← hrow, ← hkeys]
  constructor
  · intro hmappable
    have hfirst : ∀ k < part.height, k = 0 := fun k hk => by simpa [hheight] using hk
    refine isOk_of_mappable hP hnamed hfits' (hkeys ▸ hs) (fun k hk => ?_) fun k hk => ?_
    · rwa [hfirst k hk]
    · rw [hfirst k hk]
      exact readsRow_first hP (by simp [hheight])
  · exact mappable_of_isOk hP hnamed hfits' (by simp [hheight])

lemma agree_of_rowIndependent (hs : Supported P v.toRules chunk.columns.keys)
    (h : RowIndependent P v.toRules chunk) : FormatsAgree P v.toRules chunk := by
  by_cases hok : ∃ res, applyMapping P v.toRules chunk = .ok res
  swap
  · exact Or.inl fun i hi hmappable => hok ((mappable_iff hP hnamed hfits hs h hi).mp hmappable)
  have hall : ∀ i < chunk.height, Mappable P v.toRules chunk.columns.keys (rowOf chunk i) :=
    fun i hi => (mappable_iff hP hnamed hfits hs h hi).mpr hok
  -- with the chunk, every selection of its rows is mapped
  have hpart : ∀ {indices : List ℕ} {part : Frame}, chunk.gather indices = .ok part →
      indices ≠ [] → ∃ res, applyMapping P v.toRules part = .ok res := by
    intro indices part hpart hne
    have hsame := (outcomes_eq_iff hpart).mp (h _ _ hpart) 0 (List.length_pos_iff.mpr hne)
    rwa [← outcome_isSome_iff 0, hsame, outcome_isSome_iff]
  refine Or.inr ⟨hall, fun i hi k hk c a b hc ha hb => ?_⟩
  -- the row alone, and the row after the other one
  obtain ⟨alone, halone, hfits₁, hkeys₁, hheight₁, hrow₁⟩ := exists_part hfits i [] (by simpa)
  obtain ⟨pair, hpair, hfits₂, hkeys₂, hheight₂, hfirst⟩ :=
    exists_part hfits k [i] (by simp [hi, hk])
  rw [List.length_nil] at hheight₁
  rw [List.length_singleton] at hheight₂
  have hrow₂ : rowOf pair 1 = rowOf chunk i := rowOf_gather hpair (by simp)
  obtain ⟨res₁, hres₁⟩ := hpart halone (by simp)
  obtain ⟨res₂, hres₂⟩ := hpart hpair (by simp)
  have hsame : rowOutcome res₂ 1 = rowOutcome res₁ 0 := by
    have h₁ := (outcomes_eq_iff halone).mp (h _ _ halone) 0 (by simp)
    have h₂ := (outcomes_eq_iff hpair).mp (h _ _ hpair) 1 (by simp)
    rw [outcome_of_ok hres₁] at h₁
    rw [outcome_of_ok hres₂] at h₂
    exact Option.some.inj (h₂.trans h₁.symm)
  have halike : ReadsRow P v.toRules alone (rowOf pair 1) := by
    rw [hrow₂, ← hrow₁]
    exact readsRow_first hP (by omega)
  have hformat : formatOf P v.toRules pair c = inferredFormat P a :=
    formatOf_first hP (by omega) hc (hfirst ▸ ha)
  have hown : formatOf P v.toRules alone c = inferredFormat P b :=
    formatOf_first hP (by omega) hc (hrow₁ ▸ hb)
  have hresult := readsAlike_of_rowOutcome (reports hnamed hfits₂ hres₂)
    (reports hnamed hfits₁ hres₁) (hkeys₂.trans hkeys₁.symm) (by omega) (by omega)
    (hrow₂.trans hrow₁.symm) hsame halike hc (hrow₂ ▸ hb) hown
  rwa [hformat, hrow₂, hkeys₂] at hresult

end Named

lemma rowOutcome_unnamed (hP : Assumed P) {res : MappingResult}
    (h : applyMapping P v.toRules ⟨0, Dict.empty⟩ = .ok res) (i : ℕ) :
    rowOutcome res i = ⟨none, ∅⟩ := by
  have hacc : AccountsRows P v.toRules ⟨0, Dict.empty⟩ res :=
    accountsRows_of_ok P (fun c s hs => by cases hs) (fun c s hs => by cases hs)
      (fun _ => hP.selectNone 0) h
  have hnot := (not_congr (hacc.covered i)).mp (Nat.not_lt_zero i)
  obtain ⟨hkept, hfailed⟩ := not_or.mp hnot
  have hnone : res.sourceRowIndices.idxOf? i = none := List.idxOf?_eq_none_iff.mpr hkept
  have hfilter : res.failures.filter (fun f => f.rowIndex = i) = [] := by
    refine List.filter_eq_nil_iff.mpr fun f hf hi => hfailed ?_
    exact List.mem_map.mpr ⟨f, hf, of_decide_eq_true hi⟩
  simp [rowOutcome, hnone, hfilter]

lemma rowIndependent_unnamed (hP : Assumed P) (hnone : v.rename.keys = []) :
    RowIndependent P v.toRules chunk := by
  intro indices part hpart
  rw [outcomes_eq_iff hpart]
  intro k hk
  simp only [outcome, applyMapping_unnamed v hP.selectNone hnone part,
    applyMapping_unnamed v hP.selectNone hnone chunk]
  cases hr : applyMapping P v.toRules ⟨0, Dict.empty⟩ with
  | error e => rfl
  | ok res => simp [Except.toOption, rowOutcome_unnamed hP hr]

lemma faults_unnamed (hnone : v.rename.keys = []) (f g : String → Option DatetimeFormat)
    (row row' : String → Option String) (c : String) :
    faults (imageCell P v.toRules f 0 row c) = faults (imageCell P v.toRules g 0 row' c) := by
  have htargets : v.renameTargets = [] := by
    simp [Rules.renameTargets, Dict.values, List.map_eq_nil_iff.mp hnone]
  have hnormalize : v.normalize.get? c = none :=
    (v.normalize.get?_eq_none c).mpr fun h => by simpa [htargets] using v.normalize_keys c h
  have hcast : v.cast.get? c = none :=
    (v.cast.get?_eq_none c).mpr fun h => by simpa [htargets] using v.cast_keys c h
  unfold imageCell
  cases hd : v.derive.get? c with
  | none => simp [castCell, normalizedCell, hnormalize, hcast, applyCell, opSteps, runCell,
      Except.bind, faults]
  | some d =>
    have hvalid := v.validDerive d
      (List.mem_map_of_mem (f := Prod.snd) (v.derive.mem_entries.mpr hd))
    simp only [Rules.validDerive, Bool.and_eq_true] at hvalid
    cases hg : d.generator with
    | constant value => simp only [derivedCell, hg, generatedCell]
    | copy source => simp [hg, htargets] at hvalid
    | dateFromDatetime source => simp [hg, htargets] at hvalid

lemma agree_unnamed (hnone : v.rename.keys = []) : FormatsAgree P v.toRules chunk := by
  have hcast : ∀ c, v.cast.get? c ≠ some .datetime := by
    intro c hc
    have hmem := v.cast_keys c (List.mem_map_of_mem (v.cast.mem_entries.mpr hc))
    have hentries := List.map_eq_nil_iff.mp hnone
    simp [Rules.renameTargets, Dict.values, hentries] at hmem
  have hfails : ∀ row row', Fails P v.toRules row → Fails P v.toRules row' := by
    rintro row row' ⟨c, hc⟩
    exact ⟨c, by rwa [faults_unnamed hnone _ (ownFormat P v.toRules row) row' row]⟩
  by_cases hblank : contributed P v.toRules chunk.columns.keys = .ok [] →
      Fails P v.toRules fun _ => none
  · exact Or.inr ⟨fun i _ => ⟨fun c t hc => absurd hc (hcast c), fun h => hfails _ _ (hblank h)⟩,
      fun i _ k _ c a b hc => absurd hc (hcast c)⟩
  · exact Or.inl fun i _ h => hblank fun hnil => hfails _ _ (h.2 hnil)

lemma RowIndependent.outcomes_append {m : Rules} (h : RowIndependent P m chunk) {k : ℕ}
    (hk : k ≤ chunk.height) {before after : Frame}
    (hbefore : chunk.gather (List.range k) = .ok before)
    (hafter : chunk.gather (List.range' k (chunk.height - k)) = .ok after) :
    outcomes P m chunk = outcomes P m before ++ outcomes P m after := by
  have hsplit : List.range' 0 k ++ List.range' k (chunk.height - k) =
      List.range' 0 chunk.height := by
    have happend := List.range'_append_1 (s := 0) (m := k) (n := chunk.height - k)
    rwa [Nat.zero_add, Nat.add_sub_cancel' hk] at happend
  rw [h _ _ hbefore, h _ _ hafter, ← List.map_append, outcomes, List.range_eq_range',
    List.range_eq_range', hsplit]

end Main

/-- Rows are mapped independently of one another exactly when polars refuses the mapping, or
the rows agree on the formats of their datetime texts. -/
theorem row_independent_iff {P : Polars} (hP : Assumed P) (v : SourceMapping P.upper)
    (chunk : Frame) (hfits : Fits v.toRules chunk) :
    RowIndependent P v.toRules chunk ↔
      ¬ Supported P v.toRules chunk.columns.keys ∨ FormatsAgree P v.toRules chunk := by
  by_cases hnone : v.rename.keys = []
  · exact iff_of_true (rowIndependent_unnamed hP hnone) (Or.inr (agree_unnamed hnone))
  · refine ⟨fun h => ?_, rowIndependent_of_agree hP hnone hfits⟩
    by_cases hs : Supported P v.toRules chunk.columns.keys
    · exact Or.inr (agree_of_rowIndependent hP hnone hfits hs h)
    · exact Or.inl hs

/-! ### Timestamps in two formats -/

/-- 2026-01-02 03:04:05, with the year first. -/
def yearFirst : String := "2026-01-02 03:04:05"

/-- The same, with the day first. -/
def dayFirst : String := "02/01/2026 03:04:05"

/-- Polars on ASCII text, and on these two texts. -/
def datedPolars : Polars :=
  { asciiPolars with
    inferDatetime := fun texts =>
      match texts.reduceOption.head? with
      | none => .ok none
      | some t =>
        if t = yearFirst then .ok (some "%Y-%m-%d %H:%M:%S")
        else if t = dayFirst then .ok (some "%d/%m/%Y %H:%M:%S")
        else .error (.other "ComputeError")
    toDatetime := fun format t =>
      if (format = "%Y-%m-%d %H:%M:%S" ∧ t = yearFirst) ∨
          (format = "%d/%m/%Y %H:%M:%S" ∧ t = dayFirst) then some 1767323045000000
      else none }

lemma datedPolars_assumed : Assumed datedPolars where
  inferred texts := by
    cases h : texts.reduceOption.head? <;> simp [datedPolars, h]
  selectNone _ := rfl

def stampRules : Rules where
  version := 1
  rename := Dict.ofList [("Zeit", "sold_at")]
  normalize := Dict.empty
  cast := Dict.ofList [("sold_at", .datetime)]
  derive := Dict.empty

def stampMapping : SourceMapping datedPolars.upper := ⟨stampRules, by decide⟩

/-- A chunk of timestamps. -/
def stampChunk (texts : List String) : Frame :=
  ⟨texts.length, Dict.ofList [("Zeit", Series.ofTexts (texts.map some))]⟩

section Stamps

variable {texts : List String}

lemma stampChunk_fits : Fits stampRules (stampChunk texts) := by
  have hcolumn : ∀ c s, (stampChunk texts).columns.get? c = some s →
      c = "Zeit" ∧ s = Series.ofTexts (texts.map some) := by
    intro c s hs
    rw [stampChunk, ← Dict.mem_entries, Dict.entries_ofList (by simp)] at hs
    simpa using hs
  refine ⟨?_, ?_, ?_⟩
  · intro c s hs
    rw [(hcolumn c s hs).2]
    simp [Series.ofTexts, stampChunk]
  · intro c s hs
    exact ⟨_, (hcolumn c s hs).2⟩
  · intro source hs
    simpa [stampRules, stampChunk, Dict.keys, Dict.entries_ofList] using hs

lemma stamp_datetime {c : String} (h : stampRules.cast.get? c = some .datetime) :
    c = "sold_at" := by
  rw [stampRules, ← Dict.mem_entries, Dict.entries_ofList (by simp)] at h
  simpa using h

lemma stampMapping_contributed :
    contributed datedPolars stampRules (stampChunk texts).columns.keys = .ok ["sold_at"] := rfl

lemma stampMapping_supported :
    Supported datedPolars stampRules (stampChunk texts).columns.keys where
  rename := ⟨["Zeit"], by rfl, by decide, by decide, by decide⟩
  normalize := by simp [stampRules, Dict.empty]
  cast e he := by
    have hentries : stampRules.cast.entries = [("sold_at", .datetime)] := by rfl
    rw [hentries, List.mem_singleton] at he
    rw [he]
    exact ⟨rfl, rfl⟩
  derive := by simp [stampRules, Dict.empty]
  select := ⟨_, stampMapping_contributed, by decide⟩

lemma stamp_mappable {row : String → Option String} {t : String}
    (ht : textOf datedPolars stampRules row "sold_at" = some t)
    (hinfer : ∃ format, datedPolars.inferDatetime [some t] = .ok format) :
    Mappable datedPolars stampRules (stampChunk texts).columns.keys row := by
  refine ⟨fun c a hc ha => ?_, fun hnone => ?_⟩
  · obtain rfl := stamp_datetime hc
    obtain rfl := Option.some.inj (ht.symm.trans ha)
    exact hinfer
  · rw [stampMapping_contributed] at hnone
    cases hnone

lemma stamp_text {i : ℕ} (hi : i < texts.length) :
    textOf datedPolars stampRules (rowOf (stampChunk texts) i) "sold_at" = some texts[i] := by
  have horigin : originOf stampRules "sold_at" = "Zeit" := by decide
  have hnormalize : stampRules.normalize.get? "sold_at" = none := rfl
  have hcolumn : (stampChunk texts).columns.get? "Zeit" =
      some (Series.ofTexts (texts.map some)) := rfl
  simp [textOf, normalizedCell, horigin, hnormalize, applyCell, opSteps, runCell, rowOf, hcolumn,
    Series.ofTexts, hi, text, ofText]

end Stamps

lemma infer_yearFirst : datedPolars.inferDatetime [some yearFirst] =
    .ok (some "%Y-%m-%d %H:%M:%S") := by
  simp [datedPolars, List.reduceOption]

lemma infer_dayFirst : datedPolars.inferDatetime [some dayFirst] =
    .ok (some "%d/%m/%Y %H:%M:%S") := by
  simp [datedPolars, List.reduceOption, dayFirst, yearFirst]

/-- Timestamps in one format are mapped row by row. -/
theorem row_independent_of_one_format :
    RowIndependent datedPolars stampMapping.toRules (stampChunk [yearFirst, yearFirst]) := by
  have htext : ∀ i < 2, textOf datedPolars stampRules
      (rowOf (stampChunk [yearFirst, yearFirst]) i) "sold_at" = some yearFirst := by
    intro i hi
    rw [stamp_text (by simpa using hi)]
    match i with
    | 0 => rfl
    | 1 => rfl
  refine (row_independent_iff datedPolars_assumed stampMapping _ stampChunk_fits).mpr
    (Or.inr (Or.inr ⟨fun i hi => stamp_mappable (htext i hi) ⟨_, infer_yearFirst⟩,
      fun i hi k hk c a b hc ha hb => ?_⟩))
  · obtain rfl := stamp_datetime hc
    obtain rfl := Option.some.inj ((htext i hi).symm.trans hb)
    obtain rfl := Option.some.inj ((htext k hk).symm.trans ha)
    exact Or.inl rfl

/-- After a timestamp with the year first, a timestamp with the day first fails; alone it is
mapped. -/
theorem row_depends_on_first_format :
    Fits stampMapping.toRules (stampChunk [yearFirst, dayFirst]) ∧
      ¬ RowIndependent datedPolars stampMapping.toRules (stampChunk [yearFirst, dayFirst]) := by
  refine ⟨stampChunk_fits, fun h => ?_⟩
  have hfirst : textOf datedPolars stampRules (rowOf (stampChunk [yearFirst, dayFirst]) 0)
      "sold_at" = some yearFirst := stamp_text (by simp)
  have hsecond : textOf datedPolars stampRules (rowOf (stampChunk [yearFirst, dayFirst]) 1)
      "sold_at" = some dayFirst := stamp_text (by simp)
  have hcast : stampRules.cast.get? "sold_at" = some .datetime := rfl
  have hne : dayFirst ≠ yearFirst := by simp [dayFirst, yearFirst]
  have hread : castText datedPolars .datetime (inferredFormat datedPolars yearFirst)
      (some dayFirst) = none := by
    rw [inferredFormat, infer_yearFirst]
    simp [castText, Except.toOption, datedPolars, hne]
  have hown : (castText datedPolars .datetime (inferredFormat datedPolars dayFirst)
      (some dayFirst)).isSome := by
    rw [inferredFormat, infer_dayFirst]
    simp [castText, Except.toOption, datedPolars]
  have hagree : FormatsAgree datedPolars stampMapping.toRules (stampChunk [yearFirst, dayFirst]) :=
    agree_of_rowIndependent datedPolars_assumed (by decide) stampChunk_fits
      stampMapping_supported h
  rcases hagree with hnone | ⟨-, hall⟩
  · exact hnone 0 (by simp [stampChunk]) (stamp_mappable hfirst ⟨_, infer_yearFirst⟩)
  · rcases hall 1 (by simp [stampChunk]) 0 (by simp [stampChunk]) "sold_at" yearFirst dayFirst hcast
      hfirst hsecond with heq | ⟨hsome, -⟩
    · rw [hread] at heq
      rw [← heq] at hown
      cases hown
    · rw [hread] at hsome
      cases hsome

end CortexDis.RowIndependence
