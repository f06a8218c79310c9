import CortexDis.Templates

/-!
One lineage, edited by one writer at a time who sees all of it.
-/

namespace CortexDis.Lineage

open CortexDis.Values CortexDis.Templates

variable {ρ : Type}

/-- The newest version that is not deprecated. -/
def newestLiving (versions : List (SourceMappingRow ρ)) : Option (SourceMappingRow ρ) :=
  versions.reverse.find? fun r => r.status ≠ .deprecated

/-- A lineage, in the order of its commits: its versions are numbered from one, one of them at
most is a draft, they agree on what is the template's, and a draft that is chained is chained to
the newest version before it that is not deprecated. -/
structure Coherent (versions : List (SourceMappingRow ρ)) : Prop where
  keys : (versions.map (·.mappingVersionId)).Nodup
  seqs : versions.map (·.versionSeqPerSource) = List.range' 1 versions.length
  drafts : (versions.filter fun r => r.status = .draft).length ≤ 1
  tenant : ∀ r ∈ versions, ∀ r' ∈ versions, r.tenantId = r'.tenantId
  source : ∀ r ∈ versions, ∀ r' ∈ versions, r.sourceId = r'.sourceId
  type : ∀ r ∈ versions, ∀ r' ∈ versions, r.templateType = r'.templateType
  name : ∀ r ∈ versions, ∀ r' ∈ versions, r.templateName = r'.templateName
  predecessor : ∀ before r after, versions = before ++ r :: after → r.status = .draft →
    ∀ id, r.predecessorVersionId = some id →
      (newestLiving before).map (·.mappingVersionId) = some id

lemma coherent_nil : Coherent ([] : List (SourceMappingRow ρ)) :=
  ⟨by simp, by simp, by simp, by simp, by simp, by simp, by simp, by simp⟩

/-- The row a new version may be: it has the next number and what is the template's. -/
structure Follows (versions : List (SourceMappingRow ρ)) (row : SourceMappingRow ρ) : Prop where
  key : row.mappingVersionId ∉ versions.map (·.mappingVersionId)
  seq : row.versionSeqPerSource = versions.length + 1
  tenant : ∀ r ∈ versions, r.tenantId = row.tenantId
  source : ∀ r ∈ versions, r.sourceId = row.sourceId
  type : ∀ r ∈ versions, r.templateType = row.templateType
  name : ∀ r ∈ versions, r.templateName = row.templateName

/-- One edit of a lineage. -/
inductive Edit : List (SourceMappingRow ρ) → List (SourceMappingRow ρ) → Prop
  | create {row : SourceMappingRow ρ} (hfollows : Follows [] row)
    (hpredecessor : row.predecessorVersionId = none) : Edit [] [row]
  | rename {versions : List (SourceMappingRow ρ)} (templateName : String) :
    Edit versions (versions.map fun r => { r with templateName })
  | inPlace {versions : List (SourceMappingRow ρ)} {draft : SourceMappingRow ρ}
    (hdraft : draft ∈ versions) (hstatus : draft.status = .draft) (mappingRules : ρ) :
    Edit versions (versions.map fun r =>
      if r.mappingVersionId = draft.mappingVersionId then { r with mappingRules } else r)
  | chain {versions : List (SourceMappingRow ρ)} {head row : SourceMappingRow ρ}
    (hnone : ∀ r ∈ versions, r.status ≠ .draft) (hhead : newestLiving versions = some head)
    (hfollows : Follows versions row)
    (hpredecessor : row.predecessorVersionId = some head.mappingVersionId) :
    Edit versions (versions ++ [row])

/-! ### Edits keep a lineage coherent -/

/-- A change of versions one by one, that leaves alone all but the name and the rules. -/
structure Retouches (f : SourceMappingRow ρ → SourceMappingRow ρ) : Prop where
  key : ∀ r, (f r).mappingVersionId = r.mappingVersionId
  tenant : ∀ r, (f r).tenantId = r.tenantId
  source : ∀ r, (f r).sourceId = r.sourceId
  template : ∀ r, (f r).templateId = r.templateId
  seq : ∀ r, (f r).versionSeqPerSource = r.versionSeqPerSource
  status : ∀ r, (f r).status = r.status
  predecessor : ∀ r, (f r).predecessorVersionId = r.predecessorVersionId
  type : ∀ r, (f r).templateType = r.templateType

lemma retouches_name (templateName : String) :
    Retouches fun r : SourceMappingRow ρ => { r with templateName } := by
  constructor <;> exact fun _ => rfl

lemma retouches_rules (c : SourceMappingRow ρ → Prop) [DecidablePred c] (mappingRules : ρ) :
    Retouches fun r : SourceMappingRow ρ => if c r then { r with mappingRules } else r := by
  constructor <;> exact fun r => by split <;> rfl

section Retouch

variable {f : SourceMappingRow ρ → SourceMappingRow ρ} {versions : List (SourceMappingRow ρ)}

lemma newestLiving_map (hf : Retouches f) :
    newestLiving (versions.map f) = (newestLiving versions).map f := by
  rw [newestLiving, newestLiving, ← List.map_reverse, List.find?_map]
  congr 1
  refine congrArg (List.find? · versions.reverse) ?_
  funext r
  simp [hf.status]

lemma Coherent.map (h : Coherent versions) (hf : Retouches f)
    (hname : ∀ r ∈ versions, ∀ r' ∈ versions, (f r).templateName = (f r').templateName) :
    Coherent (versions.map f) := by
  refine ⟨?_, ?_, ?_, ?_, ?_, ?_, ?_, ?_⟩
  · simpa [Function.comp_def, hf.key] using h.keys
  · simpa [Function.comp_def, hf.seq] using h.seqs
  · simpa [List.filter_map, Function.comp_def, hf.status] using h.drafts
  · simpa [hf.tenant] using h.tenant
  · simpa [hf.source] using h.source
  · simpa [hf.type] using h.type
  · simpa using hname
  · intro before r after hsplit hstatus id hid
    obtain ⟨before', rest, rfl, rfl, hrest⟩ := List.map_eq_append_iff.mp hsplit
    obtain ⟨r', after', rfl, rfl, rfl⟩ := List.map_eq_cons_iff.mp hrest
    rw [hf.status] at hstatus
    rw [hf.predecessor] at hid
    have hnewest := h.predecessor before' r' after' rfl hstatus id hid
    simpa [newestLiving_map hf, Function.comp_def, hf.key] using hnewest

end Retouch

lemma Coherent.snoc {versions : List (SourceMappingRow ρ)} {row : SourceMappingRow ρ}
    (h : Coherent versions) (hrow : Follows versions row)
    (hdraft : row.status = .draft → ∀ r ∈ versions, r.status ≠ .draft)
    (hpredecessor : ∀ id, row.predecessorVersionId = some id →
      (newestLiving versions).map (·.mappingVersionId) = some id) :
    Coherent (versions ++ [row]) := by
  have hagree : ∀ {α : Type} (g : SourceMappingRow ρ → α),
      (∀ r ∈ versions, ∀ r' ∈ versions, g r = g r') → (∀ r ∈ versions, g r = g row) →
      ∀ r ∈ versions ++ [row], ∀ r' ∈ versions ++ [row], g r = g r' := by
    intro α g hold hnew r hr r' hr'
    rcases List.mem_append.mp hr with hr | hr <;> rcases List.mem_append.mp hr' with hr' | hr'
    · exact hold r hr r' hr'
    · rw [List.mem_singleton.mp hr', hnew r hr]
    · rw [List.mem_singleton.mp hr, hnew r' hr']
    · rw [List.mem_singleton.mp hr, List.mem_singleton.mp hr']
  refine ⟨?_, ?_, ?_, hagree _ h.tenant hrow.tenant, hagree _ h.source hrow.source,
    hagree _ h.type hrow.type, hagree _ h.name hrow.name, ?_⟩
  · rw [List.map_append, List.nodup_append]
    refine ⟨h.keys, by simp, fun a ha b hb hab => hrow.key ?_⟩
    rw [List.map_singleton, List.mem_singleton] at hb
    rwa [← hb, ← hab]
  · rw [List.map_append, h.seqs, List.length_append, List.length_singleton,
      List.range'_concat, List.map_singleton, hrow.seq]
    simp [Nat.add_comm]
  · rw [List.filter_append, List.length_append]
    by_cases hstatus : row.status = .draft
    · simpa [hstatus] using hdraft hstatus
    · simpa [hstatus] using h.drafts
  · -- the version is the new one, or its predecessor lies among the old ones
    intro before r after hsplit hstatus id hid
    rcases List.eq_nil_or_concat after with rfl | ⟨after', last, rfl⟩
    · obtain ⟨rfl, hr⟩ := List.append_inj' hsplit rfl
      obtain rfl : row = r := by simpa using hr
      exact hpredecessor id hid
    · rw [List.concat_eq_append, ← List.cons_append, ← List.append_assoc] at hsplit
      exact h.predecessor before r after' (List.append_inj' hsplit rfl).1 hstatus id hid

lemma Edit.coherent {versions versions' : List (SourceMappingRow ρ)}
    (hedit : Edit versions versions')
    (h : Coherent versions) : Coherent versions' := by
  cases hedit with
  | create hfollows hpredecessor =>
    refine h.snoc hfollows (by simp) fun id hid => ?_
    rw [hpredecessor] at hid
    cases hid
  | rename templateName => exact h.map (retouches_name templateName) fun _ _ _ _ => rfl
  | inPlace hdraft hstatus mappingRules =>
    refine h.map (retouches_rules _ mappingRules) fun r hr r' hr' => ?_
    have hname := h.name r hr r' hr'
    split <;> split <;> exact hname
  | chain hnone hhead hfollows hpredecessor =>
    refine h.snoc hfollows (fun _ => hnone) fun id hid => ?_
    rw [hhead, ← hid, hpredecessor]
    rfl

/-- The versions that are not drafts keep their status and their rules. -/
def Keeps (versions versions' : List (SourceMappingRow ρ)) : Prop :=
  ∀ r ∈ versions, r.status ≠ .draft → ∃ r' ∈ versions',
    r'.mappingVersionId = r.mappingVersionId ∧ r'.status = r.status ∧
      r'.mappingRules = r.mappingRules

lemma Keeps.refl (versions : List (SourceMappingRow ρ)) : Keeps versions versions :=
  fun r hr _ => ⟨r, hr, rfl, rfl, rfl⟩

lemma Keeps.trans {a b c : List (SourceMappingRow ρ)} (hab : Keeps a b) (hbc : Keeps b c) :
    Keeps a c := by
  intro r hr hstatus
  obtain ⟨r', hr', hid', hstatus', hrules'⟩ := hab r hr hstatus
  obtain ⟨r'', hr'', hid'', hstatus'', hrules''⟩ := hbc r' hr' (hstatus' ▸ hstatus)
  exact ⟨r'', hr'', hid''.trans hid', hstatus''.trans hstatus', hrules''.trans hrules'⟩

lemma Edit.keeps {versions versions' : List (SourceMappingRow ρ)} (hedit : Edit versions versions')
    (h : Coherent versions) : Keeps versions versions' := by
  intro r hr hstatus
  cases hedit with
  | create => cases hr
  | rename templateName => exact ⟨_, List.mem_map_of_mem hr, rfl, rfl, rfl⟩
  | inPlace hdraft hdraftStatus mappingRules =>
    refine ⟨_, List.mem_map_of_mem hr, ?_⟩
    rw [if_neg]
    · exact ⟨rfl, rfl, rfl⟩
    · intro hid
      rw [List.inj_on_of_nodup_map h.keys hr hdraft hid] at hstatus
      exact hstatus hdraftStatus
  | chain => exact ⟨r, List.mem_append_left _ hr, rfl, rfl, rfl⟩

/-- What edits make of a lineage. -/
def Edits : List (SourceMappingRow ρ) → List (SourceMappingRow ρ) → Prop :=
  Relation.ReflTransGen Edit

lemma Edits.coherent_keeps {versions versions' : List (SourceMappingRow ρ)}
    (hedits : Edits versions versions') (h : Coherent versions) :
    Coherent versions' ∧ Keeps versions versions' := by
  induction hedits with
  | refl => exact ⟨h, Keeps.refl versions⟩
  | tail _ hedit ih => exact ⟨hedit.coherent ih.1, ih.2.trans (hedit.keeps ih.1)⟩

end CortexDis.Lineage
