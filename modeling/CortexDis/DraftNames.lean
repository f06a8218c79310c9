import CortexDis.DraftAttrs
import CortexDis.Profiler
import CortexDis.Proposer

/-!
The field names of an assembled draft.

A name comes from the system profile, from a header or from the model, and nothing compares the
three. The names can be used when none is empty and no two are the same.
-/

namespace CortexDis.DraftNames

open CortexDis.PyText CortexDis.PyValue CortexDis.SchemaIr CortexDis.DraftIr CortexDis.DraftAttrs
open CortexDis.Profiler CortexDis.Proposer

/-! ### Usable names -/

/-- Every field has a name of its own: an edit by name reaches it, and no two buckets of the
generated provenance share a name. -/
structure Usable (draft : Schema) : Prop where
  nonempty : ∀ t ∈ draft.tables, ∀ f ∈ t.fields, f.name ≠ []
  distinct : ∀ t ∈ draft.tables, (t.fields.map FieldIR.name).Nodup
  reaches : ∀ t ∈ draft.tables, ∀ i f, t.fields[i]? = some f → byName f.name t.fields = some i
  buckets : ∀ t ∈ draft.tables, ∀ f ∈ t.fields, ∀ g ∈ t.fields,
    f.producedBy ≠ g.producedBy → f.name ≠ g.name

lemma byName_of_nodup {fields : List (FieldIR Empty)} (hn : (fields.map FieldIR.name).Nodup)
    {i : ℕ} {f : FieldIR Empty} (h : fields[i]? = some f) : byName f.name fields = some i := by
  cases hby : byName f.name fields with
  | none =>
    -- a name that some field has is found
    exfalso
    have hmem := List.mem_of_getElem? h
    clear h hn
    induction fields with
    | nil => cases hmem
    | cons g fields ih =>
      rw [byName] at hby
      split at hby
      · cases hby
      · rename_i hnone
        rcases List.mem_cons.mp hmem with rfl | hmem
        · simp at hby
        · exact ih hnone hmem
  | some j =>
    obtain ⟨g, hg, hname⟩ := byName_name hby
    have hi : (fields.map FieldIR.name)[i]? = some f.name := by rw [List.getElem?_map, h]; rfl
    have hj : (fields.map FieldIR.name)[j]? = some f.name := by
      rw [List.getElem?_map, hg, ← hname]
      rfl
    have hlt : i < (fields.map FieldIR.name).length := (List.getElem?_eq_some_iff.mp hi).1
    rw [(List.getElem?_inj hlt hn).mp (hi.trans hj.symm)]

lemma usable_iff {draft : Schema} {t : TableIR Empty} (ht : draft.tables = [t]) :
    Usable draft ↔ [] ∉ t.fields.map FieldIR.name ∧ (t.fields.map FieldIR.name).Nodup := by
  constructor
  · intro h
    have hmem : t ∈ draft.tables := by rw [ht]; exact List.mem_singleton_self t
    refine ⟨fun hnil => ?_, h.distinct t hmem⟩
    obtain ⟨f, hf, hname⟩ := List.mem_map.mp hnil
    exact h.nonempty t hmem f hf hname
  · rintro ⟨hne, hn⟩
    refine ⟨?_, ?_, ?_, ?_⟩ <;> rw [ht] <;> intro t' ht' <;> obtain rfl := List.mem_singleton.mp ht'
    · exact fun f hf hname => hne (hname ▸ List.mem_map_of_mem hf)
    · exact hn
    · exact fun i f hf => byName_of_nodup hn hf
    · intro f hf g hg hp hname
      exact hp (congrArg FieldIR.producedBy (List.inj_on_of_nodup_map hn hf hg hname))

/-! ### Headers that normalise to nothing -/

lemma alphanum_facts : ∀ n < 128, (Char.ofNat n).isAlphanum = true →
    ObjectPath.isSpace (Char.ofNat n) = false ∧ (Char.ofNat n).toLower ≠ '_' ∧
      Char.ofNat n ≠ '_' := by decide +kernel

lemma isAlphanum_lt {c : Char} (h : c.isAlphanum = true) : c.toNat < 128 := by
  simp only [Char.isAlphanum, Char.isAlpha, Char.isUpper, Char.isLower, Char.isDigit,
    Bool.or_eq_true, Bool.and_eq_true, decide_eq_true_eq, ge_iff_le] at h
  rcases h with (⟨-, h⟩ | ⟨-, h⟩) | ⟨-, h⟩ <;>
  · have hle : c.toNat ≤ 122 := le_trans (UInt32.le_iff_toNat_le.mp h) (by decide)
    omega

lemma of_isAlphanum {c : Char} (h : c.isAlphanum = true) :
    ObjectPath.isSpace c = false ∧ c.toLower ≠ '_' ∧ c ≠ '_' := by
  have hfacts := alphanum_facts c.toNat (isAlphanum_lt h)
  rw [Char.ofNat_toNat] at hfacts
  exact hfacts h

lemma mem_dropWhile {p : Char → Bool} {s : List Char} {c : Char} (h : c ∈ s) (hc : p c = false) :
    c ∈ s.dropWhile p := by
  rw [← List.takeWhile_append_dropWhile (p := p) (l := s)] at h
  rcases List.mem_append.mp h with h | h
  · rw [List.mem_takeWhile_imp h] at hc
    cases hc
  · exact h

lemma mem_strip {p : Char → Bool} {s : List Char} {c : Char} (h : c ∈ s) (hc : p c = false) :
    c ∈ PyText.trim p s :=
  List.mem_reverse.mpr (mem_dropWhile (List.mem_reverse.mpr (mem_dropWhile h hc)) hc)

lemma mem_subRuns {p : Char → Bool} {s : List Char} {c : Char} (h : c ∈ s) (hc : p c = false)
    (inRun : Bool) : c ∈ subRuns p inRun s := by
  induction s generalizing inRun with
  | nil => cases h
  | cons a s ih =>
    rw [subRuns]
    rcases List.mem_cons.mp h with rfl | h
    · rw [if_neg (by simp [hc])]
      exact List.mem_cons_self
    · split_ifs
      · exact ih h true
      · exact List.mem_cons_of_mem _ (ih h true)
      · exact List.mem_cons_of_mem _ (ih h false)

lemma subRuns_of_all {p : Char → Bool} {s : List Char} (h : ∀ c ∈ s, p c = true) :
    subRuns p true s = [] ∧ ∀ c ∈ subRuns p false s, c = '_' := by
  have htrue : ∀ {s : List Char}, (∀ c ∈ s, p c = true) → subRuns p true s = [] := by
    intro s h
    induction s with
    | nil => rfl
    | cons a s ih =>
      obtain ⟨ha, hs⟩ := List.forall_mem_cons.mp h
      rw [subRuns, if_pos ha, if_pos rfl]
      exact ih hs
  refine ⟨htrue h, ?_⟩
  cases s with
  | nil => simp [subRuns]
  | cons a s =>
    obtain ⟨ha, hs⟩ := List.forall_mem_cons.mp h
    rw [subRuns, if_pos ha, if_neg Bool.false_ne_true, htrue hs]
    simp

lemma snakeCase_eq_empty (header : String) :
    snakeCase header = "" ↔ ∀ c ∈ header.toList, c.isAlphanum = false := by
  constructor
  · intro h c hc
    rw [← Bool.not_eq_true]
    intro halnum
    obtain ⟨hspace, hlower, hunder⟩ := of_isAlphanum halnum
    -- a letter or a digit survives each of the substitutions
    have hcleaned : c.toLower ∈ (stripUnderscores (subRuns (fun c => !c.isAlphanum) false
        (ObjectPath.strip header.toList))).map Char.toLower := by
      refine List.mem_map_of_mem (mem_strip (mem_subRuns (mem_strip hc hspace) ?_ false) ?_)
      · simp [halnum]
      · simpa using hunder
    have hmem := mem_subRuns (p := fun c => c = '_') hcleaned (by simpa using hlower) false
    have hnil := congrArg String.toList h
    rw [snakeCase, String.toList_ofList] at hnil
    rw [hnil] at hmem
    cases hmem
  · intro h
    have hstrip : ∀ c ∈ ObjectPath.strip header.toList, (!c.isAlphanum) = true := by
      intro c hc
      have hmem := (List.dropWhile_sublist _).subset (List.mem_reverse.mp
        ((List.dropWhile_sublist _).subset (List.mem_reverse.mp hc)))
      rw [h c hmem]
      rfl
    have hrun := (subRuns_of_all hstrip).2
    have hnil : stripUnderscores (subRuns (fun c => !c.isAlphanum) false
        (ObjectPath.strip header.toList)) = [] := by
      have hdrop : (subRuns (fun c => !c.isAlphanum) false
          (ObjectPath.strip header.toList)).dropWhile (· = '_') = [] :=
        List.dropWhile_eq_nil_iff.mpr fun c hc => decide_eq_true (hrun c hc)
      rw [stripUnderscores, PyText.trim, hdrop]
      rfl
    rw [snakeCase, hnil]
    rfl

/-! ### The names of an assembled draft -/

/-- The headers of the files. -/
def headers (frames : List Frame) : List String :=
  frames.flatMap fun f => f.columns.map Column.header

/-- The names of the system profile. -/
def systemNames : List String :=
  ["id", "tenant_id", "store_id", "last_source_event_at", "mapping_version_id", "trace_id",
    "dis_channel", "last_updated_at", "ingest_metadata"]

/-- What headers and renames must not do. -/
structure Apart (headers : List String) (renamed : String → Option String) : Prop where
  /-- a header without letters and digits is renamed -/
  named : ∀ h ∈ headers, renamed (snakeCase h) = none → ∃ c ∈ h.toList, c.isAlphanum = true
  /-- a header that stays does not normalise to a system name, and none is renamed to one -/
  headerNotSystem : ∀ h ∈ headers, renamed (snakeCase h) = none → snakeCase h ∉ systemNames
  renameNotSystem : ∀ h ∈ headers, ∀ n, renamed (snakeCase h) = some n → n ∉ systemNames
  /-- headers of two columns are not renamed to one name, nor one to the name of another that
  stays -/
  renamesApart : ∀ h ∈ headers, ∀ h' ∈ headers, ∀ n, renamed (snakeCase h) = some n →
    (renamed (snakeCase h') = some n → snakeCase h' = snakeCase h) ∧
      (renamed (snakeCase h') = none → snakeCase h' ≠ n)

/-- The draft of the create handler. -/
def draftOf (D : Digits) (loads : String → Option Json) (vertical tableKey : String)
    (frames : List Frame) (reply : Option String) : Schema :=
  assembleDraftIr vertical tableKey (profileCsvs D frames)
    (propose loads reply (profileCsvs D frames))

variable {D : Digits} {frames : List Frame}

lemma mem_names_iff {name : String} : name ∈ (profileCsvs D frames).map ProfiledColumn.name ↔
    ∃ h ∈ headers frames, snakeCase h = name := by
  have hplaced : placedUnder frames name ≠ [] ↔ ∃ h ∈ headers frames, snakeCase h = name := by
    rw [Ne, placedUnder, List.filter_eq_nil_iff]
    push Not
    simp only [placed, headers, List.mem_flatMap, List.mem_map, decide_eq_true_eq]
    constructor
    · rintro ⟨e, ⟨f, hf, c, hc, rfl⟩, hname⟩
      exact ⟨c.header, ⟨f, hf, c, hc, rfl⟩, hname⟩
    · rintro ⟨_, ⟨f, hf, c, hc, rfl⟩, hname⟩
      exact ⟨_, ⟨f, hf, c, hc, rfl⟩, hname⟩
  rw [← hplaced]
  constructor
  · intro h
    obtain ⟨col, hcol, rfl⟩ := List.mem_map.mp h
    obtain ⟨g, -, hne, -⟩ := eq_profileColumn hcol
    exact hne
  · intro h
    obtain ⟨col, hcol, rfl⟩ := exists_profiled (D := D) h
    exact List.mem_map_of_mem hcol

lemma fieldNames_eq (columns : List ProfiledColumn) {proposals : List ColumnProposal}
    (hne : ∀ name, renamed proposals name ≠ some "") :
    (snapshotSystemProfile ++ columns.map fun col =>
        businessField col (proposalFor proposals col.name)).map FieldIR.name =
      (systemNames ++ (columns.map ProfiledColumn.name).map
        fun n => (renamed proposals n).getD n).map pyStr := by
  have hsystem : snapshotSystemProfile.map FieldIR.name = systemNames.map pyStr := rfl
  rw [List.map_append, List.map_append, hsystem, List.map_map, List.map_map, List.map_map]
  congr 1
  refine List.map_congr_left fun col _ => ?_
  have hname : orName (renamed proposals col.name) col.name =
      (renamed proposals col.name).getD col.name := by
    cases h : renamed proposals col.name with
    | none => rfl
    | some n =>
      have hn : n ≠ "" := fun hn => hne col.name (hn ▸ h)
      rw [orName, if_neg hn, Option.getD_some]
  exact congrArg pyStr hname

/-- Headers and renames are apart when the names they end in are not empty, no system names, and
the same for one column only. -/
lemma apart_iff {headers : List String} {renamed : String → Option String}
    (hne : ∀ name, renamed name ≠ some "") : Apart headers renamed ↔
      (∀ h ∈ headers, (renamed (snakeCase h)).getD (snakeCase h) ≠ "") ∧
      (∀ h ∈ headers, (renamed (snakeCase h)).getD (snakeCase h) ∉ systemNames) ∧
      ∀ h ∈ headers, ∀ h' ∈ headers, (renamed (snakeCase h)).getD (snakeCase h) =
        (renamed (snakeCase h')).getD (snakeCase h') → snakeCase h = snakeCase h' := by
  have hempty : ∀ h, (∃ c ∈ h.toList, c.isAlphanum = true) ↔ snakeCase h ≠ "" := by
    intro h
    rw [Ne, snakeCase_eq_empty]
    push Not
    simp only [ne_eq, Bool.not_eq_false]
  constructor
  · intro hapart
    refine ⟨fun h hh => ?_, fun h hh => ?_, fun h hh h' hh' heq => ?_⟩
    · -- two headers end in one name by their own text, by their renames, or across the two
      cases hr : renamed (snakeCase h) with
      | none => exact (hempty h).mp (hapart.named h hh hr)
      | some n => exact fun hn => hne _ (hr.trans (congrArg some hn))
    · cases hr : renamed (snakeCase h) with
      | none => exact hapart.headerNotSystem h hh hr
      | some n => exact hapart.renameNotSystem h hh n hr
    · cases hr : renamed (snakeCase h) with
      | none =>
        cases hr' : renamed (snakeCase h') with
        | none => simpa [hr, hr'] using heq
        | some n =>
          rw [hr, hr', Option.getD_none, Option.getD_some] at heq
          exact absurd heq ((hapart.renamesApart h' hh' h hh n hr').2 hr)
      | some n =>
        cases hr' : renamed (snakeCase h') with
        | none =>
          rw [hr, hr', Option.getD_none, Option.getD_some] at heq
          exact absurd heq.symm ((hapart.renamesApart h hh h' hh' n hr).2 hr')
        | some n' =>
          rw [hr, hr', Option.getD_some, Option.getD_some] at heq
          exact ((hapart.renamesApart h hh h' hh' n hr).1 (heq ▸ hr')).symm
  · rintro ⟨hnonempty, hsystem, hinj⟩
    refine ⟨fun h hh hr => ?_, fun h hh hr => ?_, fun h hh n hr => ?_,
      fun h hh h' hh' n hr => ⟨fun hr' => ?_, fun hr' heq => ?_⟩⟩
    · rw [hempty]
      simpa [hr] using hnonempty h hh
    · simpa [hr] using hsystem h hh
    · simpa [hr] using hsystem h hh
    · exact hinj h' hh' h hh (by rw [hr, hr', Option.getD_some, Option.getD_some])
    · have hsame := hinj h' hh' h hh (by rw [hr, hr', Option.getD_none, Option.getD_some, heq])
      rw [hsame, hr] at hr'
      cases hr'

lemma pyStr_eq_nil {s : String} : pyStr s = [] ↔ s = "" := by
  rw [pyStr, List.map_eq_nil_iff, String.toList_eq_nil_iff]

/-- The names of system fields and of columns can be used when those of the columns are not
empty, no system names, and distinct. -/
lemma names_iff (l : List String) : ([] ∉ (systemNames ++ l).map pyStr ∧
    ((systemNames ++ l).map pyStr).Nodup) ↔
      (∀ n ∈ l, n ≠ "") ∧ (∀ n ∈ l, n ∉ systemNames) ∧ l.Nodup := by
  have hsystem : "" ∉ systemNames ∧ systemNames.Nodup := by decide
  rw [List.nodup_map_iff pyStr_injective, List.nodup_append, List.mem_map]
  constructor
  · rintro ⟨hnil, -, hl, hdisjoint⟩
    refine ⟨fun n hn hempty => ?_, fun n hn hmem => hdisjoint n hmem n hn rfl, hl⟩
    exact hnil ⟨n, List.mem_append_right _ hn, pyStr_eq_nil.mpr hempty⟩
  · rintro ⟨hne, hnot, hl⟩
    refine ⟨?_, hsystem.2, hl, fun a ha b hb hab => hnot b hb (hab ▸ ha)⟩
    rintro ⟨n, hn, hnil⟩
    have hempty := pyStr_eq_nil.mp hnil
    rcases List.mem_append.mp hn with hn | hn
    · exact hsystem.1 (hempty ▸ hn)
    · exact hne n hn hempty

/-- **When the names can be used.** They can exactly when no header without letters and digits
keeps its name, no name is one of the system profile, and no rename meets another column. -/
theorem draft_names_usable_iff (D : Digits) (loads : String → Option Json)
    (vertical tableKey : String) (frames : List Frame) (reply : Option String) :
    (freshDraft (draftOf D loads vertical tableKey frames reply) = true →
        Usable (draftOf D loads vertical tableKey frames reply)) ↔
      Apart (headers frames) (renamed (propose loads reply (profileCsvs D frames))) := by
  have hfresh : freshDraft (draftOf D loads vertical tableKey frames reply) = true :=
    freshDraft_assemble _ _ _ _
  have hne := renamed_ne_empty loads reply (profileCsvs D frames)
  have hforall : ∀ P : String → Prop, (∀ n ∈ (profileCsvs D frames).map ProfiledColumn.name, P n) ↔
      ∀ h ∈ headers frames, P (snakeCase h) := by
    intro P
    simp only [mem_names_iff]
    exact ⟨fun hP h hh => hP _ ⟨h, hh, rfl⟩, fun hP n ⟨h, hh, hn⟩ => hn ▸ hP h hh⟩
  rw [imp_iff_right hfresh, usable_iff rfl, fieldNames_eq _ hne, names_iff, apart_iff hne]
  refine and_congr ?_ (and_congr ?_ ?_)
  · rw [List.forall_mem_map, hforall]
  · rw [List.forall_mem_map, hforall]
  · rw [List.nodup_map_iff_inj_on names_nodup, hforall]
    exact forall₂_congr fun h _ => hforall _

/-- A file with an id of its own. -/
def idFile : Frame where
  height := 1
  columns := [⟨"ID", [some "7"]⟩, ⟨"Price", [some "1.25"]⟩]
  distinct := by decide
  heights := by simp

/-- Without a model, its column takes the name of the primary key. -/
theorem id_header_collides : ¬ (freshDraft (draftOf asciiDigits (fun _ => none) "retail"
    "retail_snapshot" [idFile] none) = true → Usable (draftOf asciiDigits (fun _ => none)
      "retail" "retail_snapshot" [idFile] none)) := by
  intro h
  have husable := h (freshDraft_assemble _ _ _ _)
  have hdup : ¬ ((draftOf asciiDigits (fun _ => none) "retail" "retail_snapshot" [idFile]
      none).tables.flatMap fun t => t.fields.map FieldIR.name).Nodup := by decide +kernel
  refine hdup ?_
  rw [draftOf, assembleDraftIr, List.flatMap_singleton]
  exact husable.distinct _ (List.mem_singleton_self _)

end CortexDis.DraftNames
