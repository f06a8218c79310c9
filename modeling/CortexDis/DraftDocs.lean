import CortexDis.DraftStore
import CortexDis.IrCodec

/-!
The documents of drafts, and that saving and loading gives a draft back.
-/

namespace CortexDis.DraftDocs

open CortexDis.PyText CortexDis.PyValue CortexDis.SchemaIr CortexDis.DraftIr CortexDis.DraftStore
open CortexDis.Jsonb CortexDis.IrCodec CortexDis.Runs

/-! ### The texts of a document -/

/-- The texts of a type, of a provenance stamp and of a field. -/
def TypeText (t : TypeIR Empty) : Prop :=
  Unicode t.base ∧ AllText Unicode t.precision ∧ AllText Unicode t.scale

def FieldText (f : FieldIR Empty) : Prop :=
  (Unicode f.name ∧ Unicode f.typeRef ∧ ∀ t ∈ f.inlineType, TypeText t) ∧
    (AllText Unicode f.maxLength ∧ AllText Unicode f.default ∧ AllText Unicode f.enumRef ∧
      AllText Unicode f.displayName ∧ AllText Unicode f.description ∧
      AllText Unicode f.fieldSection) ∧
    (∀ p ∈ f.provenance, ∀ v ∈ p.sourceHeaders, AllText Unicode v) ∧
    (AllText Unicode f.origin ∧ AllText Unicode f.pii ∧ ∀ v ∈ f.enumCandidate, AllText Unicode v)

def TableText (t : TableIR Empty) : Prop :=
  (Unicode t.key ∧ Unicode t.templateType ∧ Unicode t.semantics ∧ Unicode t.sink) ∧
    (∀ k ∈ t.naturalKey, Unicode k) ∧ ∀ f ∈ t.fields, FieldText f

lemma allText_fieldTypeToDict {f : FieldIR Empty} (h : FieldText f) :
    AllText Unicode (fieldTypeToDict f) := by
  obtain ⟨⟨-, href, htype⟩, -⟩ := h
  cases hi : f.inlineType with
  | none => simpa [fieldTypeToDict, hi] using href
  | some t =>
    have ht := htype t hi
    simp [fieldTypeToDict, hi, record, ht.1, ht.2.1, ht.2.2]

lemma allText_fieldToDict {f : FieldIR Empty} (h : FieldText f) :
    AllText Unicode (fieldToDict f) := by
  have htype := allText_fieldTypeToDict h
  obtain ⟨⟨hname, -, -⟩, ⟨hmax, hdefault, henum, hdisplay, hdesc, hsection⟩, hprov, horigin, hpii,
    hcand⟩ := h
  have hcandidate : AllItems Unicode (if f.enumCandidate.isEmpty then []
      else record [("enum_candidate", .list f.enumCandidate)]) := by
    split
    · simp
    · simpa [record] using hcand
  have hprovenance : AllItems Unicode
      (f.provenance.elim [] fun p => record [("provenance", provenanceToDict p)]) := by
    cases hp : f.provenance with
    | none => simp
    | some p => simpa [record, provenanceToDict] using hprov p hp
  simp only [fieldToDict, allText_dict, allItems_append, hcandidate, hprovenance, allItems_present,
    unicode_pyStr, true_and, hmax, hdefault, henum, hdisplay, hdesc, hsection, hpii, or_true]
  cases f.producedBy <;> simp [record, hname, htype, horigin, ProducedBy.value]

lemma allText_tableToDict {t : TableIR Empty} (h : TableText t) :
    AllText Unicode (tableToDict t) := by
  obtain ⟨⟨hkey, htemplate, hsemantics, hsink⟩, hnatural, hfields⟩ := h
  have hfields' : ∀ f ∈ t.fields, AllText Unicode (fieldToDict f) :=
    fun f hf => allText_fieldToDict (hfields f hf)
  simp only [tableToDict, record, List.map]
  simp [hkey, htemplate, hsemantics, hsink]
  exact ⟨hnatural, hfields'⟩

/-- What holds of every draft: its texts are Unicode, an inline type gives the field its name
and has no length bound, and it has one table and no named types or vocabularies. -/
structure WellFormed (s : Schema) : Prop where
  text : Unicode s.vertical ∧ Unicode s.status ∧ Unicode s.systemProfile
  types : s.types = []
  enums : s.enums = []
  table : ∃ t, s.tables = [t] ∧ TableText t
  names : AllFields NamesBase s
  unbounded : schemaWithoutLengths s = s

lemma WellFormed.allText {s : Schema} (h : WellFormed s) :
    AllText Unicode (schemaToDocument s) := by
  obtain ⟨t, ht, htext⟩ := h.table
  have htable := allText_tableToDict htext
  simp [schemaToDocument, record, h.types, h.enums, ht, h.text.1, h.text.2.1, h.text.2.2, htable]

lemma WellFormed.saveIr {s : Schema} (h : WellFormed s) {ir : Json} (hir : saveIr s = .ok ir) :
    ir = schemaToDocument s := by
  unfold DraftStore.saveIr at hir
  cases hj : toJsonb (schemaToDocument s) with
  | error e => simp [hj] at hir
  | ok v =>
    simp only [hj, Except.ok.injEq] at hir
    rw [← hir]
    exact toJsonb_eq_self h.allText hj

/-- A row holds a draft. -/
def Holds (row : Row) (s : Schema) : Prop := row.ir = schemaToDocument s

lemma WellFormed.loadIr {s : Schema} (h : WellFormed s) (py : Builtins Empty) {row : Row}
    (hrow : Holds row s) : loadIr py row = .ok s := by
  rw [DraftStore.loadIr, hrow, parseIr_schemaToDocument py h.names, h.unbounded]

lemma WellFormed.frozen {s : Schema} (h : WellFormed s) (version : ℤ) :
    WellFormed (frozen s version) where
  text := ⟨h.text.1, unicode_pyStr _, h.text.2.2⟩
  types := h.types
  enums := h.enums
  table := h.table
  names := h.names
  unbounded := by
    have hu := congrArg SchemaIR.tables h.unbounded
    simp only [schemaWithoutLengths] at hu
    simp [DraftStore.frozen, schemaWithoutLengths, hu]

/-! ### Drafts are well formed -/

/-- The fields of a draft: what saving and loading needs of each. -/
structure FieldOk (f : FieldIR Empty) : Prop where
  text : FieldText f
  names : NamesBase f
  unbounded : fieldWithoutLengths f = f

lemma wellFormed_of_fields {s : Schema} {t : TableIR Empty} (htables : s.tables = [t])
    (htext : Unicode s.vertical ∧ Unicode s.status ∧ Unicode s.systemProfile)
    (htypes : s.types = []) (henums : s.enums = [])
    (htable : Unicode t.key ∧ Unicode t.templateType ∧ Unicode t.semantics ∧ Unicode t.sink)
    (hnatural : ∀ k ∈ t.naturalKey, Unicode k) (hfields : ∀ f ∈ t.fields, FieldOk f) :
    WellFormed s where
  text := htext
  types := htypes
  enums := henums
  table := ⟨t, htables, htable, hnatural, fun f hf => (hfields f hf).text⟩
  names := by
    intro t' ht' f hf
    rw [htables, List.mem_singleton] at ht'
    subst ht'
    exact (hfields f hf).names
  unbounded := by
    have hmap : t.fields.map fieldWithoutLengths = t.fields :=
      List.map_congr_left (g := id) (fun f hf => (hfields f hf).unbounded) |>.trans (List.map_id _)
    cases s
    simp only at htables
    subst htables
    simp [schemaWithoutLengths, tableWithoutLengths, hmap]

lemma WellFormed.fields {s : Schema} (h : WellFormed s) {t : TableIR Empty}
    (ht : s.tables = [t]) : ∀ f ∈ t.fields, FieldOk f := by
  intro f hf
  obtain ⟨t', ht', htext⟩ := h.table
  cases ht.symm.trans ht'
  have hunbounded : t.fields.map fieldWithoutLengths = t.fields.map id := by
    have hu := congrArg SchemaIR.tables h.unbounded
    simp only [schemaWithoutLengths, ht, List.map_cons, List.map_nil, List.cons.injEq,
      and_true] at hu
    rw [List.map_id]
    exact congrArg TableIR.fields hu
  exact ⟨htext.2.2 f hf, h.names t (by simp [ht]) f hf, List.map_inj_left.mp hunbounded f hf⟩

lemma fieldOk_systemField {name typeRef : String} {producedBy : ProducedBy} {nullable : Bool}
    {default maxLength : Json} (hd : AllText Unicode default) (hm : AllText Unicode maxLength) :
    FieldOk (systemField name producedBy typeRef nullable default maxLength) where
  text := by simp [FieldText, systemField, text, hd, hm]
  names := by simp [NamesBase, systemField]
  unbounded := by simp [fieldWithoutLengths, systemField]

lemma fieldOk_snapshotSystemProfile : ∀ f ∈ snapshotSystemProfile, FieldOk f := by
  simp only [snapshotSystemProfile, List.forall_mem_cons]
  refine ⟨?_, ?_, ?_, ?_, ?_, ?_, ?_, ?_, ?_, by simp⟩ <;>
    exact fieldOk_systemField (by simp [text]) (by simp)

@[simp] lemma allText_optText (s : Option String) : AllText Unicode (optText s) := by
  cases s <;> simp [optText, text]

@[simp] lemma allText_optInt (n : Option ℤ) : AllText Unicode (optInt n) := by
  cases n <;> simp [optInt]

lemma fieldOk_businessField (col : ProfiledColumn) (proposal : Option ColumnProposal) :
    FieldOk (businessField col proposal) := by
  by_cases hdec : col.base = "decimal"
  · refine ⟨?_, ?_, ?_⟩
    · simp [FieldText, businessField, hdec, TypeText, text]
    · simp [NamesBase, businessField, hdec]
    · simp [fieldWithoutLengths, businessField, hdec, withoutLengths]
  · have hmax : AllText Unicode (businessField col proposal).maxLength := by
      by_cases hstr : col.base = "str" <;> simp [businessField, hstr]
    refine ⟨?_, ?_, ?_⟩
    · simp only [FieldText, hmax]
      simp [businessField, hdec, text]
    · simp [NamesBase, businessField, hdec]
    · simp [fieldWithoutLengths, businessField, hdec]

theorem wellFormed_assemble (vertical tableKey : String) (columns : List ProfiledColumn)
    (proposals : List ColumnProposal) :
    WellFormed (assembleDraftIr vertical tableKey columns proposals) := by
  refine wellFormed_of_fields rfl ?_ rfl rfl ?_ ?_ ?_
  · simp [assembleDraftIr]
  · simp
  · simp
  · intro f hf
    rcases List.mem_append.mp hf with hf | hf
    · exact fieldOk_snapshotSystemProfile f hf
    · obtain ⟨col, -, rfl⟩ := List.mem_map.mp hf
      exact fieldOk_businessField _ _

lemma FieldOk.editField {f : FieldIR Empty} (h : FieldOk f) (edit : FieldEdit) :
    FieldOk (editField edit f) where
  text := by
    obtain ⟨hname, hrest, hprov, horigin, hpii, hcand⟩ := h.text
    refine ⟨hname, hrest, hprov, ?_, ?_, ?_⟩
    · cases ho : edit.origin with
      | none => simpa [DraftIr.editField, ho] using horigin
      | some o => cases o <;> simp [DraftIr.editField, ho, Origin.text, DraftIr.text]
    · cases hp : edit.pii with
      | none => simpa [DraftIr.editField, hp] using hpii
      | some p => simp [DraftIr.editField, hp, DraftIr.text]
    · cases hc : edit.enumCandidate with
      | none => simpa [DraftIr.editField, hc] using hcand
      | some l => simp [DraftIr.editField, hc, DraftIr.text]
  names := h.names
  unbounded := by
    have hu := congrArg FieldIR.inlineType h.unbounded
    simp only [fieldWithoutLengths] at hu
    simp [fieldWithoutLengths, DraftIr.editField, hu]

lemma applyEdit_eq_ok {draftId : PyStr} {own fields fields' : List (FieldIR Empty)}
    {edit : FieldEdit} (h : applyEdit draftId own fields edit = .ok fields') :
    ∃ i f, byName (pyStr edit.name) own = some i ∧ fields[i]? = some f ∧
      f.producedBy = .mappingProduced ∧ fields' = fields.set i (editField edit f) := by
  unfold applyEdit at h
  split at h
  · cases h
  next i hi =>
    split at h
    · cases h
    next f hf =>
      split at h
      next hp =>
        cases h
        exact ⟨i, f, hi, hf, hp, rfl⟩
      · cases h

lemma applyPatch_eq_ok {draft updated : Schema} {patch : DraftPatch} {draftId : PyStr}
    (h : applyPatch draft patch draftId = .ok updated) :
    ∃ table rest fields, draft.tables = table :: rest ∧
      patch.fields.foldlM (applyEdit draftId table.fields) table.fields = .ok fields ∧
      updated = { draft with tables := [{ table with
        fields := fields
        naturalKey := patch.naturalKey.elim table.naturalKey fun l => l.map pyStr }] } := by
  unfold applyPatch at h
  split at h
  · cases h
  next table rest htables =>
    obtain ⟨fields, hfields, h⟩ := of_bind_eq_ok h
    cases h
    exact ⟨table, rest, fields, htables, hfields, rfl⟩

lemma foldlM_applyEdit_keeps {P : FieldIR Empty → Prop}
    (hedit : ∀ edit f, P f → P (editField edit f)) {draftId : PyStr}
    {own : List (FieldIR Empty)} {edits : List FieldEdit} {fields fields' : List (FieldIR Empty)}
    (h : edits.foldlM (applyEdit draftId own) fields = .ok fields') (hP : ∀ f ∈ fields, P f) :
    ∀ f ∈ fields', P f := by
  induction edits generalizing fields with
  | nil =>
    cases h
    exact hP
  | cons edit edits ih =>
    rw [List.foldlM_cons] at h
    obtain ⟨fields₁, h₁, h⟩ := of_bind_eq_ok h
    obtain ⟨i, f, -, hf, -, rfl⟩ := applyEdit_eq_ok h₁
    refine ih h fun g hg => ?_
    rcases List.mem_or_eq_of_mem_set hg with hg | rfl
    · exact hP g hg
    · exact hedit edit f (hP f (List.mem_of_getElem? hf))

theorem WellFormed.applyPatch {draft updated : Schema} {patch : DraftPatch} {draftId : PyStr}
    (hd : WellFormed draft) (h : applyPatch draft patch draftId = .ok updated) :
    WellFormed updated := by
  obtain ⟨table, rest, fields, htables, hfields, rfl⟩ := applyPatch_eq_ok h
  obtain ⟨t, ht, htext⟩ := hd.table
  obtain ⟨rfl, rfl⟩ := List.cons.inj (htables.symm.trans ht)
  refine wellFormed_of_fields rfl hd.text hd.types hd.enums htext.1 ?_ ?_
  · cases hn : patch.naturalKey with
    | none => simpa using htext.2.1
    | some l => simp
  · exact foldlM_applyEdit_keeps (fun edit f hf => hf.editField edit) hfields (hd.fields ht)

lemma applyPatch_status {draft updated : Schema} {patch : DraftPatch} {draftId : PyStr}
    (h : DraftIr.applyPatch draft patch draftId = .ok updated) : updated.status = draft.status := by
  obtain ⟨table, rest, fields, -, -, rfl⟩ := applyPatch_eq_ok h
  rfl

end CortexDis.DraftDocs
