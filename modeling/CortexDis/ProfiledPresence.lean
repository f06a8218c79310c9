import CortexDis.Profiler

/-!
What a profile says of presence, of sample size and of missing cells.

The counters advance for each header, and the stamps are about files. They agree when no file
has two headers that normalise to one name.
-/

namespace CortexDis.ProfiledPresence

open CortexDis.Profiler CortexDis.DraftIr

/-! ### Counting -/

variable {α : Type*}

lemma sum_eq_length_filter_iff (f : α → ℕ) (l : List α) :
    (l.map f).sum = (l.filter fun a => 0 < f a).length ↔ ∀ a ∈ l, f a ≤ 1 := by
  have hle : ∀ l : List α, (l.filter fun a => 0 < f a).length ≤ (l.map f).sum := by
    intro l
    induction l with
    | nil => simp
    | cons a l ih =>
      rw [List.filter_cons, List.map_cons, List.sum_cons]
      split_ifs with h
      · have hpos : 0 < f a := of_decide_eq_true h
        rw [List.length_cons]
        omega
      · omega
  induction l with
  | nil => simp
  | cons a l ih =>
    have hl := hle l
    rw [List.filter_cons, List.map_cons, List.sum_cons, List.forall_mem_cons]
    refine Iff.trans ?_ (and_congr_right fun _ => ih)
    by_cases h : 0 < f a
    · rw [if_pos (decide_eq_true h), List.length_cons]
      omega
    · rw [if_neg (by simpa using h)]
      omega

lemma sum_mul_eq_sum_filter (f w : α → ℕ) {l : List α} (h : ∀ a ∈ l, f a ≤ 1) :
    (l.map fun a => f a * w a).sum = ((l.filter fun a => 0 < f a).map w).sum := by
  induction l with
  | nil => rfl
  | cons a l ih =>
    obtain ⟨ha, hl⟩ := List.forall_mem_cons.mp h
    rw [List.map_cons, List.sum_cons, ih hl, List.filter_cons]
    by_cases hpos : 0 < f a
    · have hone : f a = 1 := by omega
      rw [if_pos (decide_eq_true hpos), hone, one_mul, List.map_cons, List.sum_cons]
    · have hzero : f a = 0 := by omega
      rw [if_neg (by simpa using hpos), hzero, zero_mul, zero_add]

/-! ### Files under a name -/

variable {D : Digits} {frames : List Frame} {col : ProfiledColumn}

/-- How many headers of a file normalise to a name. -/
def headersUnder (name : String) (f : Frame) : ℕ :=
  (f.columns.map fun c => snakeCase c.header).count name

/-- The files that have a header for a name. -/
def filesUnder (frames : List Frame) (name : String) : List Frame :=
  frames.filter fun f => 0 < headersUnder name f

/-- What the stamps of a column say. -/
structure Faithful (frames : List Frame) (col : ProfiledColumn) : Prop where
  present : col.presentInFiles = (filesUnder frames col.name).length
  total : col.totalFiles = frames.length ∧ col.presentInFiles ≤ col.totalFiles
  rows : col.rowsProfiled = ((filesUnder frames col.name).map Frame.height).sum
  nullable : col.nullable = true ↔ (∃ f ∈ frames, headersUnder col.name f = 0) ∨
    ∃ f ∈ frames, ∃ c ∈ f.columns, snakeCase c.header = col.name ∧
      ∃ cell ∈ c.cells, isNull cell = true

/-- No two headers of one file normalise to one name. -/
def Separate (frames : List Frame) : Prop :=
  ∀ f ∈ frames, (f.columns.map fun c => snakeCase c.header).Nodup

lemma headersUnder_eq_length (name : String) (f : Frame) :
    headersUnder name f = (f.columns.filter fun c => snakeCase c.header = name).length := by
  rw [headersUnder, List.count, List.countP_map, List.countP_eq_length_filter]
  simp only [Function.comp_def, beq_eq_decide]

lemma placedUnder_eq (frames : List Frame) (name : String) :
    placedUnder frames name = frames.flatMap fun f =>
      (f.columns.filter fun c => snakeCase c.header = name).map fun c => (f.height, c) := by
  rw [placedUnder, placed, List.filter_flatMap]
  refine List.flatMap_congr fun f _ => ?_
  rw [List.filter_map, Function.comp_def]

lemma length_placedUnder (frames : List Frame) (name : String) :
    (placedUnder frames name).length = (frames.map (headersUnder name)).sum := by
  rw [placedUnder_eq, List.length_flatMap]
  congr 1
  refine List.map_congr_left fun f _ => ?_
  rw [List.length_map, headersUnder_eq_length]

lemma sum_heights_placedUnder (frames : List Frame) (name : String) :
    ((placedUnder frames name).map Prod.fst).sum =
      (frames.map fun f => headersUnder name f * f.height).sum := by
  rw [placedUnder_eq, List.map_flatMap]
  induction frames with
  | nil => rfl
  | cons f frames ih =>
    rw [List.flatMap_cons, List.sum_append, ih, List.map_cons, List.sum_cons,
      headersUnder_eq_length, List.map_map]
    simp [Function.comp_def]

lemma separate_iff : Separate frames ↔ ∀ name, ∀ f ∈ frames, headersUnder name f ≤ 1 := by
  constructor
  · intro h name f hf
    exact List.nodup_iff_count_le_one.mp (h f hf) name
  · intro h f hf
    exact List.nodup_iff_count_le_one.mpr fun name => h name f hf

lemma any_isNull_iff {g : Gathered} (hg : GatheredFrom (placedUnder frames col.name) g) :
    g.cells.any isNull = true ↔ ∃ f ∈ frames, ∃ c ∈ f.columns, snakeCase c.header = col.name ∧
      ∃ cell ∈ c.cells, isNull cell = true := by
  rw [hg.cells, List.any_flatMap, placedUnder_eq, List.any_flatMap]
  simp only [List.any_eq_true, List.mem_map, List.mem_filter, decide_eq_true_eq]
  constructor
  · rintro ⟨f, hf, e, ⟨c, ⟨hc, hname⟩, rfl⟩, cell, hcell, hnull⟩
    exact ⟨f, hf, c, hc, hname, cell, hcell, hnull⟩
  · rintro ⟨f, hf, c, hc, hname, cell, hcell, hnull⟩
    exact ⟨f, hf, _, ⟨c, ⟨hc, hname⟩, rfl⟩, cell, hcell, hnull⟩

/-! ### The law -/

lemma faithful_of_le_one (hcol : col ∈ profileCsvs D frames)
    (h : ∀ f ∈ frames, headersUnder col.name f ≤ 1) : Faithful frames col := by
  obtain ⟨g, hg, -, heq⟩ := eq_profileColumn hcol
  have hpresent : g.presentFiles = (filesUnder frames col.name).length := by
    rw [hg.presentFiles, length_placedUnder]
    exact (sum_eq_length_filter_iff _ _).mpr h
  have hrows : g.rowsProfiled = ((filesUnder frames col.name).map Frame.height).sum := by
    rw [hg.rowsProfiled, sum_heights_placedUnder]
    exact sum_mul_eq_sum_filter _ _ h
  have hlack : g.presentFiles < frames.length ↔ ∃ f ∈ frames, headersUnder col.name f = 0 := by
    rw [hpresent, filesUnder, List.length_filter_lt_length_iff_exists]
    simp
  have hp : col.presentInFiles = g.presentFiles := congrArg ProfiledColumn.presentInFiles heq
  have ht : col.totalFiles = frames.length := congrArg ProfiledColumn.totalFiles heq
  have hr : col.rowsProfiled = g.rowsProfiled := congrArg ProfiledColumn.rowsProfiled heq
  have hn : col.nullable = (g.cells.any isNull || decide (g.presentFiles < frames.length)) :=
    congrArg ProfiledColumn.nullable heq
  refine ⟨?_, ⟨ht, ?_⟩, ?_, ?_⟩
  · rw [hp, hpresent]
  · have hle : (filesUnder frames col.name).length ≤ frames.length := List.length_filter_le _ _
    rw [hp, ht, hpresent]
    exact_mod_cast hle
  · rw [hr, hrows]
  · rw [hn, Bool.or_eq_true, any_isNull_iff hg, decide_eq_true_eq, hlack, or_comm]

lemma le_one_of_faithful (hcol : col ∈ profileCsvs D frames) (h : Faithful frames col) :
    ∀ f ∈ frames, headersUnder col.name f ≤ 1 := by
  obtain ⟨g, hg, -, heq⟩ := eq_profileColumn hcol
  have hp : col.presentInFiles = g.presentFiles := congrArg ProfiledColumn.presentInFiles heq
  rw [← sum_eq_length_filter_iff, ← length_placedUnder, ← hg.presentFiles]
  exact_mod_cast hp.symm.trans h.present

/-- **When a profile is faithful.** The stamps of every column are those of the files exactly
when no file has two headers that normalise to one name. -/
theorem presence_faithful_iff (D : Digits) (frames : List Frame) :
    (∀ col ∈ profileCsvs D frames, Faithful frames col) ↔ Separate frames := by
  rw [separate_iff]
  constructor
  · intro h name f hf
    by_cases hname : placedUnder frames name = []
    · -- no file has the name
      have hzero : (frames.map (headersUnder name)).sum = 0 := by
        rw [← length_placedUnder, hname, List.length_nil]
      have hf0 := List.sum_eq_zero_iff.mp hzero _ (List.mem_map_of_mem hf)
      omega
    · obtain ⟨col, hcol, rfl⟩ := exists_profiled (D := D) hname
      exact le_one_of_faithful hcol (h col hcol) f hf
  · intro h col hcol
    exact faithful_of_le_one hcol (h col.name)

/-- One file, with a price under two spellings of its header. -/
def twoPrices : Frame where
  height := 1
  columns := [⟨"Price", [some "1.25"]⟩, ⟨"price", [some "1.25"]⟩]
  distinct := by decide
  heights := by simp

/-- The column is said to be in two files of one. -/
theorem two_headers_count_twice :
    ¬ ∀ col ∈ profileCsvs asciiDigits [twoPrices], Faithful [twoPrices] col := by
  intro h
  have hprofile : (profileCsvs asciiDigits [twoPrices]).map
      (fun col => (col.name, col.presentInFiles, col.totalFiles)) = [("price", 2, 1)] := by
    decide +kernel
  obtain ⟨col, hcol, hstamps⟩ := List.mem_map.mp
    (hprofile ▸ List.mem_singleton_self (α := String × ℤ × ℤ) ("price", 2, 1))
  have htotal := (h col hcol).total.2
  have hpresent : col.presentInFiles = 2 := congrArg (fun e => e.2.1) hstamps
  have hfiles : col.totalFiles = 1 := congrArg (fun e => e.2.2) hstamps
  omega

end CortexDis.ProfiledPresence
