import CortexDis.DraftDocs

/-!
The attributes of a draft that a patch can edit, and what a patch does to each of them.
-/

namespace CortexDis.DraftAttrs

open CortexDis.PyText CortexDis.PyValue CortexDis.SchemaIr CortexDis.DraftIr CortexDis.DraftDocs
open CortexDis.Runs

/-- The attributes of a field that can be edited. -/
inductive FieldAttr
  | nullable
  | mandatory
  | pii
  | enumCandidate
  | origin
  deriving DecidableEq, Repr

inductive Attr
  | naturalKey
  | field (name : PyStr) (attr : FieldAttr)
  deriving DecidableEq, Repr

def fieldValue : FieldAttr → FieldIR Empty → Value Empty
  | .nullable, f => .bool f.nullable
  | .mandatory, f => .bool f.mandatory
  | .pii, f => f.pii
  | .enumCandidate, f => .list f.enumCandidate
  | .origin, f => f.origin

/-- The value of an attribute in a list of fields; the last field of a name counts. -/
def fieldAttr (name : PyStr) (a : FieldAttr) (own fields : List (FieldIR Empty)) :
    Option (Value Empty) :=
  (byName name own).bind fun i => fields[i]?.map (fieldValue a)

/-- The value of an attribute in a draft. -/
def attr : Attr → Schema → Option (Value Empty)
  | .naturalKey, s => s.tables.head?.map fun t => .list (t.naturalKey.map .str)
  | .field name a, s => s.tables.head?.bind fun t => fieldAttr name a t.fields t.fields

/-- The value a field edit gives to an attribute. -/
def editValue : FieldAttr → FieldEdit → Option (Value Empty)
  | .nullable, e => e.nullable.map .bool
  | .mandatory, e => e.mandatory.map .bool
  | .pii, e => e.pii.map text
  | .enumCandidate, e => e.enumCandidate.map fun l => .list (l.map text)
  | .origin, e => e.origin.map Origin.text

/-- The value the edits give to an attribute of a field: the last one that gives any. -/
def editsValue (name : PyStr) (a : FieldAttr) : List FieldEdit → Option (Value Empty)
  | [] => none
  | e :: edits =>
    (editsValue name a edits).or (if pyStr e.name = name then editValue a e else none)

/-- The value a patch gives to an attribute; `none` where it does not edit it. -/
def patchValue (patch : DraftPatch) : Attr → Option (Value Empty)
  | .naturalKey => patch.naturalKey.map fun l => .list (l.map text)
  | .field name a => editsValue name a patch.fields

lemma fieldValue_editField (a : FieldAttr) (e : FieldEdit) (f : FieldIR Empty) :
    fieldValue a (editField e f) = (editValue a e).getD (fieldValue a f) := by
  cases a with
  | nullable => cases h : e.nullable <;> simp [fieldValue, editField, editValue, h]
  | mandatory => cases h : e.mandatory <;> simp [fieldValue, editField, editValue, h]
  | pii => cases h : e.pii <;> simp [fieldValue, editField, editValue, h]
  | enumCandidate => cases h : e.enumCandidate <;> simp [fieldValue, editField, editValue, h]
  | origin => cases h : e.origin <;> simp [fieldValue, editField, editValue, h]

/-! ### The index of a name -/

lemma byName_name {name : PyStr} {fields : List (FieldIR Empty)} {i : ℕ}
    (h : byName name fields = some i) : ∃ f, fields[i]? = some f ∧ f.name = name := by
  induction fields generalizing i with
  | nil => cases h
  | cons f fields ih =>
    unfold byName at h
    split at h
    next j hj =>
      cases h
      simpa using ih hj
    · split at h
      next hf =>
        cases h
        exact ⟨f, rfl, hf⟩
      · cases h

lemma byName_congr (name : PyStr) {fields fields' : List (FieldIR Empty)}
    (h : fields.map FieldIR.name = fields'.map FieldIR.name) :
    byName name fields = byName name fields' := by
  induction fields generalizing fields' with
  | nil =>
    cases fields' with
    | nil => rfl
    | cons => simp at h
  | cons f fields ih =>
    cases fields' with
    | nil => simp at h
    | cons f' fields' =>
      simp only [List.map_cons, List.cons.injEq] at h
      rw [byName, byName, ih h.2, h.1]

/-! ### What a patch does -/

lemma applyEdit_attr {draftId : PyStr} {own fields fields' : List (FieldIR Empty)}
    {edit : FieldEdit} (h : applyEdit draftId own fields edit = .ok fields') :
    fields'.map FieldIR.name = fields.map FieldIR.name ∧
      ∀ name a, fieldAttr name a own fields' =
        (if pyStr edit.name = name then editValue a edit else none).or
          (fieldAttr name a own fields) := by
  obtain ⟨i, f, hi, hf, -, rfl⟩ := applyEdit_eq_ok h
  obtain ⟨hlt, hget⟩ := List.getElem?_eq_some_iff.mp hf
  constructor
  · rw [List.map_set]
    refine List.ext_getElem? fun j => ?_
    rw [List.getElem?_set]
    split
    next hij =>
      subst hij
      simp [hlt, hget, editField]
    · rfl
  · intro name a
    by_cases hname : pyStr edit.name = name
    · subst hname
      simp only [fieldAttr, hi, Option.bind_some, if_true, hf, Option.map_some]
      rw [List.getElem?_set_self hlt, Option.map_some, fieldValue_editField]
      cases editValue a edit <;> rfl
    · simp only [hname, if_false, Option.none_or]
      cases hj : byName name own with
      | none => simp [fieldAttr, hj]
      | some j =>
        have hij : i ≠ j := by
          rintro rfl
          obtain ⟨g, hg, rfl⟩ := byName_name hj
          obtain ⟨g', hg', hn⟩ := byName_name hi
          cases hg.symm.trans hg'
          exact hname hn.symm
        simp [fieldAttr, hj, List.getElem?_set_ne hij]

lemma foldlM_applyEdit_attr {draftId : PyStr} {own fields fields' : List (FieldIR Empty)}
    {edits : List FieldEdit} (h : edits.foldlM (applyEdit draftId own) fields = .ok fields') :
    fields'.map FieldIR.name = fields.map FieldIR.name ∧
      ∀ name a, fieldAttr name a own fields' =
        (editsValue name a edits).or (fieldAttr name a own fields) := by
  induction edits generalizing fields with
  | nil =>
    cases h
    exact ⟨rfl, fun _ _ => rfl⟩
  | cons edit edits ih =>
    rw [List.foldlM_cons] at h
    obtain ⟨fields₁, h₁, h⟩ := of_bind_eq_ok h
    obtain ⟨hnames₁, hattr₁⟩ := applyEdit_attr h₁
    obtain ⟨hnames, hattr⟩ := ih h
    refine ⟨hnames.trans hnames₁, fun name a => ?_⟩
    rw [hattr, hattr₁, editsValue, Option.or_assoc]

/-- **What a patch does**: an attribute has the value the patch gives it, or its old one. -/
theorem attr_applyPatch {draft updated : Schema} {patch : DraftPatch} {draftId : PyStr}
    (h : applyPatch draft patch draftId = .ok updated) (a : Attr) :
    attr a updated = (patchValue patch a).or (attr a draft) := by
  obtain ⟨table, rest, fields, htables, hfields, rfl⟩ := applyPatch_eq_ok h
  cases a with
  | naturalKey =>
    cases hn : patch.naturalKey <;>
      simp [attr, patchValue, htables, hn, text, Function.comp_def]
  | field name a =>
    obtain ⟨hnames, hattr⟩ := foldlM_applyEdit_attr hfields
    have hown : fieldAttr name a fields fields = fieldAttr name a table.fields fields := by
      rw [fieldAttr, byName_congr name hnames, fieldAttr]
    simp only [attr, htables, List.head?_cons, Option.bind_some, patchValue]
    rw [hown, hattr]

end CortexDis.DraftAttrs
