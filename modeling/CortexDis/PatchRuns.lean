import CortexDis.Lineage

/-!
Concurrent requests keep every lineage coherent.

The lock that counts is the one on the oldest version. A PATCH that edits rules has read a
version of its lineage before it begins, so its first statement locks the oldest version; from
then on no other request changes the lineage, and what the second statement returns is all of
it. A PATCH that only renames may begin before the lineage exists. It then relies on the
snapshot of the renaming update, taken when its second statement has locked the oldest version.
-/

namespace CortexDis.PatchRuns

open CortexDis.Values CortexDis.Templates CortexDis.Lineage

variable {ρ : Type}

abbrev key (r : SourceMappingRow ρ) : ℕ := r.mappingVersionId

/-! ### What the statements see of a coherent lineage -/

section Statements

variable {s : Session} {templateId : Uuid} {rows : List (SourceMappingRow ρ)}

@[simp] lemma mem_lineage {r : SourceMappingRow ρ} :
    r ∈ lineage templateId rows ↔ r ∈ rows ∧ r.templateId = templateId := by
  simp [lineage]

lemma insertionSort_of_ascending {versions : List (SourceMappingRow ρ)}
    (h : versions.Pairwise fun a b => a.versionSeqPerSource < b.versionSeqPerSource) :
    versions.insertionSort (fun a b => b.versionSeqPerSource ≤ a.versionSeqPerSource) =
      versions.reverse := by
  induction versions with
  | nil => rfl
  | cons r versions ih =>
    obtain ⟨hr, hrest⟩ := List.pairwise_cons.mp h
    have hall : ∀ b ∈ versions.reverse, ¬ b.versionSeqPerSource ≤ r.versionSeqPerSource :=
      fun b hb => not_le.mpr (hr b (List.mem_reverse.mp hb))
    rw [List.insertionSort_cons, ih hrest, List.orderedInsert_eq_take_drop,
      List.takeWhile_eq_self_iff.mpr (by simpa using hall),
      List.dropWhile_eq_nil_iff.mpr (by simpa using hall), List.reverse_cons]

lemma lineageStmt_of_sees (h : Coherent (lineage templateId rows))
    (hsees : ∀ r ∈ lineage templateId rows, s.sees r) :
    lineageStmt s templateId rows = (lineage templateId rows).reverse := by
  have hseqs : ((lineage templateId rows).map (·.versionSeqPerSource)).Pairwise (· < ·) := by
    rw [h.seqs]
    exact List.pairwise_lt_range'
  rw [lineageStmt, List.filter_eq_self.mpr hsees,
    insertionSort_of_ascending (List.pairwise_map.mp hseqs)]

lemma lineageStmt_cases (h : Coherent (lineage templateId rows)) :
    (∀ r ∈ lineage templateId rows, s.sees r = false) ∧ lineageStmt s templateId rows = [] ∨
      (∀ r ∈ lineage templateId rows, s.sees r) ∧
        lineageStmt s templateId rows = (lineage templateId rows).reverse := by
  by_cases hsome : ∃ r ∈ lineage templateId rows, s.sees r
  · obtain ⟨r, hr, hseen⟩ := hsome
    have hsees : ∀ r' ∈ lineage templateId rows, s.sees r' := by
      intro r' hr'
      simpa [Session.sees, h.tenant r' hr' r hr] using hseen
    exact .inr ⟨hsees, lineageStmt_of_sees h hsees⟩
  · have hblind : ∀ r ∈ lineage templateId rows, s.sees r = false :=
      fun r hr => Bool.not_eq_true _ ▸ fun hseen => hsome ⟨r, hr, hseen⟩
    refine .inl ⟨hblind, ?_⟩
    have hnone : (lineage templateId rows).filter s.sees = [] :=
      List.filter_eq_nil_iff.mpr fun r hr => by simp [hblind r hr]
    rw [lineageStmt, hnone, List.insertionSort_nil]

lemma foldl_max_range' (n : ℕ) : (List.range' 1 n).foldl max 0 = n := by
  induction n with
  | zero => rfl
  | succ n ih =>
    rw [List.range'_concat, List.foldl_append, ih]
    simp [Nat.add_comm]

lemma setCsmVersionSeq_seq {new : SourceMappingRow ρ} (h : Coherent (lineage new.templateId rows))
    (htenant : new.tenantId = s.tenantId)
    (hown : ∀ r ∈ lineage new.templateId rows,
      r.tenantId = new.tenantId ∧ r.sourceId = new.sourceId) :
    (setCsmVersionSeq s rows new).versionSeqPerSource =
      (lineage new.templateId rows).length + 1 := by
  have hfilter : (rows.filter fun r => s.sees r && r.tenantId = new.tenantId &&
      r.sourceId = new.sourceId && r.templateId = new.templateId) =
        lineage new.templateId rows := by
    refine List.filter_congr fun r hr => ?_
    by_cases htemplate : r.templateId = new.templateId
    · have hr' := hown r (mem_lineage.mpr ⟨hr, htemplate⟩)
      simp [Session.sees, htemplate, hr'.1, hr'.2, htenant]
    · simp [htemplate]
  dsimp only [setCsmVersionSeq]
  rw [hfilter, h.seqs, foldl_max_range']

end Statements

/-! ### What a request holds and has written -/

/-- The lock on the oldest version is held, or is among those still to be taken. -/
def Entered (versions : List (SourceMappingRow ρ)) (todo locks : List ℕ) : Prop :=
  ∃ root, versions.head? = some root ∧ (key root ∈ todo ∨ key root ∈ locks)

def HoldsRoot (versions : List (SourceMappingRow ρ)) (locks : List ℕ) : Prop :=
  ∃ root, versions.head? = some root ∧ key root ∈ locks

/-- The lineage is of the request's tenant. -/
def Owned (p : PatchTemplate ρ) (versions : List (SourceMappingRow ρ)) : Prop :=
  ∃ r ∈ versions, r.tenantId = p.session.tenantId

/-- The lineage under a name. -/
def named (templateName : String) (versions : List (SourceMappingRow ρ)) :
    List (SourceMappingRow ρ) :=
  versions.map fun r => { r with templateName }

/-- The writes that give every version the name; none when they all have it. -/
def Renames (versions : List (SourceMappingRow ρ)) (templateName : String) (locks : List ℕ)
    (writes : List (Write ρ)) : Prop :=
  (writes = [] ∧ ∀ r ∈ versions, r.templateName = templateName) ∨
    ∃ ids, ids.Perm (versions.map key) ∧ ids ⊆ locks ∧ writes = ids.map (.setName · templateName)

/-- The writes a PATCH commits, after those that rename. -/
inductive RulesWrites (p : PatchTemplate ρ) (versions : List (SourceMappingRow ρ))
    (locks : List ℕ) :
    List (Write ρ) → Prop
  | none : RulesWrites p versions locks []
  | inPlace {draft : SourceMappingRow ρ} (hdraft : draft ∈ versions)
    (hstatus : draft.status = .draft) (hlock : key draft ∈ locks) (mappingRules : ρ) :
    RulesWrites p versions locks [.setRules (key draft) mappingRules]
  | chain {head row : SourceMappingRow ρ} (hnone : ∀ r ∈ versions, r.status ≠ .draft)
    (hhead : newestLiving versions = some head) (hfollows : Follows versions row)
    (hpredecessor : row.predecessorVersionId = some (key head))
    (htemplate : row.templateId = p.templateId) : RulesWrites p versions locks [.insert row]

/-- What a PATCH that edits rules has of its lineage once its second statement is done. -/
structure Rereads (p : PatchTemplate ρ) (versions locked : List (SourceMappingRow ρ))
    (locks : List ℕ) : Prop where
  owned : Owned p versions
  all : locked = versions.reverse
  locks : versions.map key ⊆ locks

/-- Where a PATCH stands in its lineage. -/
def PatchGood (p : PatchTemplate ρ) (versions : List (SourceMappingRow ρ)) (tx : Tx ρ) : Prop :=
  match tx.phase with
  | .idle => tx.locks = [] ∧ tx.writes = []
  | .opened => tx.locks = [] ∧ tx.writes = [] ∧ (p.mappingRules.isSome → Owned p versions)
  | .first todo => tx.writes = [] ∧
    (p.mappingRules.isSome → Owned p versions ∧ Entered versions todo tx.locks)
  | .second todo locked => tx.writes = [] ∧
    (∀ r ∈ locked, r ∈ versions ∧ key r ∈ tx.locks) ∧
    (todo = [] ∧ locked = [] ∨ (∀ r ∈ versions, p.session.sees r) ∧
      Entered versions todo tx.locks ∧ todo ⊆ versions.map key) ∧
    (p.mappingRules.isSome → Owned p versions ∧ HoldsRoot versions tx.locks ∧
      versions.reverse.map key = locked.map key ++ todo)
  | .updating todo locked templateName => HoldsRoot versions tx.locks ∧
    (p.mappingRules.isSome → Rereads p versions locked tx.locks) ∧
    ∃ done, (done ++ todo).Perm (versions.map key) ∧ done ⊆ tx.locks ∧
      tx.writes = done.map (.setName · templateName)
  | .editing locked templateName => HoldsRoot versions tx.locks ∧
    (p.mappingRules.isSome → Rereads p versions locked tx.locks) ∧
    Renames versions templateName tx.locks tx.writes
  | .ready => tx.writes = [] ∨ HoldsRoot versions tx.locks ∧ ∃ templateName renames edits,
    Renames versions templateName tx.locks renames ∧
      RulesWrites p (named templateName versions) tx.locks edits ∧ tx.writes = renames ++ edits
  | .ended => tx.locks = [] ∧ tx.writes = []

/-- Where a creation stands: until it has committed, its lineage is empty. -/
def CreateGood (c : CreateTemplate ρ) (versions : List (SourceMappingRow ρ)) (tx : Tx ρ) : Prop :=
  tx.locks = [] ∧
  match tx.phase with
  | .idle => tx.writes = [] ∧ versions = []
  | .ready => versions = [] ∧ ∃ row, tx.writes = [.insert row] ∧ row.templateId = c.templateId ∧
    Follows [] row ∧ row.predecessorVersionId = none
  | .ended => tx.writes = []
  | _ => False

def TxGood (rows : List (SourceMappingRow ρ)) (tx : Tx ρ) : Request ρ → Prop
  | .create c => CreateGood c (lineage c.templateId rows) tx
  | .patch p => PatchGood p (lineage p.templateId rows) tx

variable {ι : Type}

/-- The invariant of every run. -/
structure Good (requests : ι → Request ρ) (s : State ι ρ) : Prop where
  coherent : ∀ templateId, Coherent (lineage templateId s.rows)
  keys : (s.rows.map key).Nodup
  bound : ∀ r ∈ s.rows, key r < s.nextVersionId
  exclusive : ∀ i j id, id ∈ (s.txs i).locks → id ∈ (s.txs j).locks → i = j
  tx : ∀ i, TxGood s.rows (s.txs i) (requests i)
  pending : ∀ i row, .insert row ∈ (s.txs i).writes →
    key row < s.nextVersionId ∧ key row ∉ s.rows.map key
  apart : ∀ i j row row', .insert row ∈ (s.txs i).writes → .insert row' ∈ (s.txs j).writes →
    key row = key row' → i = j

/-- Every creation has a template id of its own, which `new_uuid7` mints. -/
def Minted (requests : ι → Request ρ) : Prop :=
  ∀ i j c c', requests i = .create c → requests j = .create c' → c.templateId = c'.templateId →
    i = j

/-- Before any request has begun. -/
structure Starts (requests : ι → Request ρ) (s : State ι ρ) : Prop where
  coherent : ∀ templateId, Coherent (lineage templateId s.rows)
  keys : (s.rows.map key).Nodup
  bound : ∀ r ∈ s.rows, key r < s.nextVersionId
  idle : ∀ i, s.txs i = .idle
  minted : Minted requests
  fresh : ∀ i c, requests i = .create c → ∀ r ∈ s.rows, r.templateId ≠ c.templateId

lemma Starts.good {requests : ι → Request ρ} {s : State ι ρ} (h : Starts requests s) :
    Good requests s := by
  refine ⟨h.coherent, h.keys, h.bound, ?_, fun i => ?_, ?_, ?_⟩
  · intro i j id hi
    simp [h.idle, Tx.idle] at hi
  · rw [h.idle i]
    cases hreq : requests i with
    | create c =>
      refine ⟨rfl, rfl, List.filter_eq_nil_iff.mpr fun r hr => ?_⟩
      simpa using h.fresh i c hreq r hr
    | patch p => exact ⟨rfl, rfl⟩
  · intro i row hi
    simp [h.idle, Tx.idle] at hi
  · intro i j row row' hi
    simp [h.idle, Tx.idle] at hi

/-! ### Steps inside a transaction -/

section Inside

variable {p : PatchTemplate ρ} {versions : List (SourceMappingRow ρ)}

lemma Owned.tenant (h : Owned p versions) (hcoherent : Coherent versions) :
    ∀ r ∈ versions, r.tenantId = p.session.tenantId := by
  obtain ⟨own, hown, htenant⟩ := h
  exact fun r hr => (hcoherent.tenant r hr own hown).trans htenant

lemma Owned.sees (h : Owned p versions) (hcoherent : Coherent versions) :
    ∀ r ∈ versions, p.session.sees r := by
  intro r hr
  simp [Session.sees, h.tenant hcoherent r hr]

lemma Owned.ne_nil (h : Owned p versions) : versions ≠ [] := by
  obtain ⟨own, hown, -⟩ := h
  exact List.ne_nil_of_mem hown

lemma entered_of_ne_nil (h : versions ≠ []) (locks : List ℕ) :
    Entered versions (versions.reverse.map key) locks := by
  refine ⟨versions.head h, List.head?_eq_some_head h, .inl ?_⟩
  exact List.mem_map_of_mem (List.mem_reverse.mpr (List.head_mem h))

lemma eq_of_map_key (hkeys : (versions.map key).Nodup) {l l' : List (SourceMappingRow ρ)}
    (hl : l ⊆ versions) (hl' : l' ⊆ versions) (h : l.map key = l'.map key) : l = l' := by
  induction l generalizing l' with
  | nil => exact (List.map_eq_nil_iff.mp h.symm).symm
  | cons a l ih =>
    cases l' with
    | nil => cases h
    | cons b l' =>
      obtain ⟨hab, hrest⟩ := List.cons.inj h
      rw [List.inj_on_of_nodup_map hkeys (hl List.mem_cons_self) (hl' List.mem_cons_self) hab,
        ih (List.subset_of_cons_subset hl) (List.subset_of_cons_subset hl') hrest]

lemma mem_lineage_of_key {templateId : Uuid} {rows : List (SourceMappingRow ρ)}
    (hkeys : (rows.map key).Nodup) {r : SourceMappingRow ρ} (hr : r ∈ rows)
    (hkey : key r ∈ (lineage templateId rows).map key) : r ∈ lineage templateId rows := by
  obtain ⟨r', hr', heq⟩ := List.mem_map.mp hkey
  have hsame : r' = r := List.inj_on_of_nodup_map hkeys (mem_lineage.mp hr').1 hr heq
  exact hsame ▸ hr'

lemma rereads_of_done (hcoherent : Coherent versions) {locked : List (SourceMappingRow ρ)}
    {locks : List ℕ} (hlocked : ∀ r ∈ locked, r ∈ versions ∧ key r ∈ locks)
    (hrules : p.mappingRules.isSome → Owned p versions ∧ HoldsRoot versions locks ∧
      versions.reverse.map key = locked.map key ++ []) (hsome : p.mappingRules.isSome) :
    Rereads p versions locked locks := by
  obtain ⟨howned, -, hkeys⟩ := hrules hsome
  have hall : locked = versions.reverse :=
    eq_of_map_key hcoherent.keys (fun r hr => (hlocked r hr).1)
      (fun r hr => List.mem_reverse.mp hr) (by rw [hkeys, List.append_nil])
  refine ⟨howned, hall, fun id hid => ?_⟩
  obtain ⟨r, hr, rfl⟩ := List.mem_map.mp hid
  exact (hlocked r (hall ▸ List.mem_reverse.mpr hr)).2

lemma Entered.holdsRoot {locks : List ℕ} (h : Entered versions [] locks) :
    HoldsRoot versions locks := by
  obtain ⟨root, hroot, hmem | hmem⟩ := h
  · cases hmem
  · exact ⟨root, hroot, hmem⟩

lemma HoldsRoot.mono {locks locks' : List ℕ} (h : HoldsRoot versions locks)
    (hsub : locks ⊆ locks') : HoldsRoot versions locks' := by
  obtain ⟨root, hroot, hmem⟩ := h
  exact ⟨root, hroot, hsub hmem⟩

lemma applyRulesEdit_inPlace {locked : List (SourceMappingRow ρ)} {draft : SourceMappingRow ρ}
    (h : applyRulesEdit locked = .ok (.inPlace draft)) :
    draft ∈ locked ∧ draft.status = .draft := by
  unfold applyRulesEdit at h
  split at h
  · rename_i found hfound
    cases h
    exact ⟨List.mem_of_find?_eq_some hfound, by simpa using List.find?_some hfound⟩
  · split at h <;> cases h

lemma applyRulesEdit_chain {locked : List (SourceMappingRow ρ)} {head : SourceMappingRow ρ}
    (h : applyRulesEdit locked = .ok (.chain head)) :
    (∀ r ∈ locked, r.status ≠ .draft) ∧
      locked.find? (fun r => r.status ≠ .deprecated) = some head := by
  unfold applyRulesEdit at h
  split at h
  · cases h
  · rename_i hnone
    split at h
    · rename_i living hliving
      cases h
      rw [← List.head?_filter, hliving]
      exact ⟨by simpa using hnone, rfl⟩
    · cases h

/-! The statements of a PATCH, one by one. -/

section Patch

variable {rows : List (SourceMappingRow ρ)} {tx : Tx ρ} (hcoherent : Coherent versions)

include hcoherent

lemma read_good (hversions : versions = lineage p.templateId rows)
    (hfound : p.mappingRules.isSome →
      lineageStmt ⟨false, p.session.tenantId⟩ p.templateId rows ≠ []) :
    PatchGood p versions ⟨.opened, [], []⟩ := by
  subst hversions
  refine ⟨rfl, rfl, fun hsome => ?_⟩
  rcases lineageStmt_cases hcoherent with ⟨-, hnil⟩ | ⟨hsees, hall⟩
  · exact absurd hnil (hfound hsome)
  · have hne := hfound hsome
    rw [hall] at hne
    obtain ⟨r, hr⟩ := List.exists_mem_of_ne_nil _ hne
    refine ⟨r, List.mem_reverse.mp hr, ?_⟩
    simpa [Session.sees] using hsees r (List.mem_reverse.mp hr)

lemma snapshotFirst_good (hversions : versions = lineage p.templateId rows)
    (hphase : tx.phase = .opened) (h : PatchGood p versions tx) :
    PatchGood p versions { tx with
      phase := .first ((lineageStmt p.session p.templateId rows).map (·.mappingVersionId)) } := by
  simp only [PatchGood, hphase] at h
  obtain ⟨-, hwrites, hrules⟩ := h
  refine ⟨hwrites, fun hsome => ⟨hrules hsome, ?_⟩⟩
  subst hversions
  rw [lineageStmt_of_sees hcoherent ((hrules hsome).sees hcoherent)]
  exact entered_of_ne_nil (hrules hsome).ne_nil _

omit hcoherent in
lemma lockFirst_good {id : ℕ} {todo : List ℕ} (hphase : tx.phase = .first (id :: todo))
    (h : PatchGood p versions tx) :
    PatchGood p versions { tx with phase := .first todo, locks := id :: tx.locks } := by
  simp only [PatchGood, hphase] at h
  obtain ⟨hwrites, hrules⟩ := h
  refine ⟨hwrites, fun hsome => ?_⟩
  obtain ⟨howned, root, hroot, hmem⟩ := hrules hsome
  refine ⟨howned, root, hroot, ?_⟩
  simp only [List.mem_cons] at hmem ⊢
  tauto

lemma snapshotSecond_good (hversions : versions = lineage p.templateId rows)
    (hphase : tx.phase = .first []) (h : PatchGood p versions tx) :
    PatchGood p versions { tx with
      phase := .second ((lineageStmt p.session p.templateId rows).map
        (·.mappingVersionId)) [] } := by
  simp only [PatchGood, hphase] at h
  obtain ⟨hwrites, hrules⟩ := h
  subst hversions
  refine ⟨hwrites, by simp, ?_, fun hsome => ?_⟩
  · rcases lineageStmt_cases (s := p.session) hcoherent with ⟨-, hnil⟩ | ⟨hsees, hall⟩
    · exact .inl ⟨by rw [hnil]; rfl, rfl⟩
    · rw [hall]
      by_cases hne : lineage p.templateId rows = []
      · exact .inl ⟨by rw [hne]; rfl, rfl⟩
      · refine .inr ⟨hsees, entered_of_ne_nil hne _, ?_⟩
        rw [List.map_reverse]
        exact fun id hid => List.mem_reverse.mp hid
  · obtain ⟨howned, root, hroot, hmem | hmem⟩ := hrules hsome
    · cases hmem
    · rw [lineageStmt_of_sees hcoherent (howned.sees hcoherent)]
      exact ⟨howned, ⟨root, hroot, hmem⟩, rfl⟩

omit hcoherent in
lemma lockSecond_good (hversions : versions = lineage p.templateId rows)
    (hkeys : (rows.map key).Nodup) {r : SourceMappingRow ρ} {todo : List ℕ}
    {locked : List (SourceMappingRow ρ)}
    (hphase : tx.phase = .second (r.mappingVersionId :: todo) locked) (hrow : r ∈ rows)
    (h : PatchGood p versions tx) :
    PatchGood p versions { tx with
      phase := .second todo (locked ++ [r]), locks := r.mappingVersionId :: tx.locks } := by
  simp only [PatchGood, hphase] at h
  obtain ⟨hwrites, hlocked, hentered, hrules⟩ := h
  -- a request that has something left to lock is not blind
  obtain ⟨hnil, -⟩ | ⟨hsees, ⟨root, hroot, hmem⟩, htodo⟩ := hentered
  · cases hnil
  have hr : r ∈ versions := by
    subst hversions
    exact mem_lineage_of_key hkeys hrow (htodo List.mem_cons_self)
  refine ⟨hwrites, ?_, .inr ⟨hsees, ⟨root, hroot, ?_⟩, List.subset_of_cons_subset htodo⟩,
    fun hsome => ?_⟩
  · intro r' hr'
    rcases List.mem_append.mp hr' with hr' | hr'
    · exact ⟨(hlocked r' hr').1, List.mem_cons_of_mem _ (hlocked r' hr').2⟩
    · rw [List.mem_singleton.mp hr']
      exact ⟨hr, List.mem_cons_self⟩
  · simp only [List.mem_cons] at hmem ⊢
    tauto
  · obtain ⟨howned, hholds, hall⟩ := hrules hsome
    refine ⟨howned, hholds.mono (List.subset_cons_self _ _), ?_⟩
    rw [hall, List.map_append, List.append_assoc]
    rfl

lemma keepName_good {r : SourceMappingRow ρ} {locked : List (SourceMappingRow ρ)}
    (hphase : tx.phase = .second [] (r :: locked)) (h : PatchGood p versions tx) :
    PatchGood p versions { tx with phase := .editing (r :: locked) r.templateName } := by
  simp only [PatchGood, hphase] at h
  obtain ⟨hwrites, hlocked, hentered, hrules⟩ := h
  obtain ⟨-, hnil⟩ | ⟨-, hentered, -⟩ := hentered
  · cases hnil
  refine ⟨hentered.holdsRoot, rereads_of_done hcoherent hlocked hrules,
    .inl ⟨hwrites, fun r' hr' => ?_⟩⟩
  exact hcoherent.name r' hr' r (hlocked r List.mem_cons_self).1

lemma rename_good (hversions : versions = lineage p.templateId rows) {r : SourceMappingRow ρ}
    {locked : List (SourceMappingRow ρ)} {todo : List ℕ} {templateName : String}
    (hphase : tx.phase = .second [] (r :: locked))
    (hscan : todo.Perm ((lineageStmt p.session p.templateId rows).map (·.mappingVersionId)))
    (h : PatchGood p versions tx) :
    PatchGood p versions { tx with phase := .updating todo (r :: locked) templateName } := by
  simp only [PatchGood, hphase] at h
  obtain ⟨hwrites, hlocked, hentered, hrules⟩ := h
  obtain ⟨-, hnil⟩ | ⟨hsees, hentered, -⟩ := hentered
  · cases hnil
  refine ⟨hentered.holdsRoot, rereads_of_done hcoherent hlocked hrules,
    [], ?_, by simp, hwrites⟩
  subst hversions
  rw [lineageStmt_of_sees hcoherent hsees] at hscan
  exact hscan.trans ((List.reverse_perm _).map _)

omit hcoherent in
lemma setName_good {r : SourceMappingRow ρ} {locked : List (SourceMappingRow ρ)} {todo : List ℕ}
    {templateName : String}
    (hphase : tx.phase = .updating (r.mappingVersionId :: todo) locked templateName)
    (h : PatchGood p versions tx) :
    PatchGood p versions
      { phase := .updating todo locked templateName
        locks := r.mappingVersionId :: tx.locks
        writes := tx.writes ++ [.setName r.mappingVersionId templateName] } := by
  simp only [PatchGood, hphase] at h
  obtain ⟨hholds, hrules, done, hperm, hdone, hwrites⟩ := h
  have hsub : tx.locks ⊆ r.mappingVersionId :: tx.locks := List.subset_cons_self _ _
  refine ⟨hholds.mono hsub, fun hsome => ?_, done ++ [r.mappingVersionId], ?_, ?_, ?_⟩
  · obtain ⟨howned, hall, hlocks⟩ := hrules hsome
    exact ⟨howned, hall, fun id hid => hsub (hlocks hid)⟩
  · simpa using hperm
  · intro id hid
    rcases List.mem_append.mp hid with hid | hid
    · exact hsub (hdone hid)
    · rw [List.mem_singleton.mp hid]
      exact List.mem_cons_self
  · simp [hwrites]

omit hcoherent in
lemma renamed_good {locked : List (SourceMappingRow ρ)} {templateName : String}
    (hphase : tx.phase = .updating [] locked templateName) (h : PatchGood p versions tx) :
    PatchGood p versions { tx with phase := .editing locked templateName } := by
  simp only [PatchGood, hphase] at h
  obtain ⟨hholds, hrules, done, hperm, hdone, hwrites⟩ := h
  rw [List.append_nil] at hperm
  exact ⟨hholds, hrules, .inr ⟨done, hperm, hdone, hwrites⟩⟩

omit hcoherent in
lemma noRules_good {locked : List (SourceMappingRow ρ)} {templateName : String}
    (hphase : tx.phase = .editing locked templateName) (h : PatchGood p versions tx) :
    PatchGood p versions { tx with phase := .ready } := by
  simp only [PatchGood, hphase] at h
  obtain ⟨hholds, -, hrenames⟩ := h
  exact .inr ⟨hholds, templateName, tx.writes, [], hrenames, .none, by simp⟩

omit hcoherent in
lemma inPlace_good {locked : List (SourceMappingRow ρ)} {templateName : String} {rules : ρ}
    {draft : SourceMappingRow ρ} (hphase : tx.phase = .editing locked templateName)
    (hrules : p.mappingRules = some rules) (hedit : applyRulesEdit locked = .ok (.inPlace draft))
    (h : PatchGood p versions tx) :
    PatchGood p versions { tx with
      phase := .ready, writes := tx.writes ++ [.setRules draft.mappingVersionId rules] } := by
  simp only [PatchGood, hphase] at h
  obtain ⟨hholds, hreread, hrenames⟩ := h
  obtain ⟨-, hall, hlocks⟩ := hreread (by rw [hrules]; rfl)
  obtain ⟨hmem, hstatus⟩ := applyRulesEdit_inPlace hedit
  have hdraft : draft ∈ versions := by
    rw [hall] at hmem
    exact List.mem_reverse.mp hmem
  have hlock : key draft ∈ tx.locks := hlocks (List.mem_map_of_mem hdraft)
  exact .inr ⟨hholds, templateName, tx.writes, _, hrenames,
    .inPlace (List.mem_map_of_mem hdraft) hstatus hlock rules, rfl⟩

lemma chain_good (hversions : versions = lineage p.templateId rows) {next : ℕ}
    (hbound : ∀ r ∈ rows, key r < next) {locked : List (SourceMappingRow ρ)}
    {templateName : String} {rules : ρ} {head : SourceMappingRow ρ}
    (hphase : tx.phase = .editing locked templateName) (hrules : p.mappingRules = some rules)
    (hedit : applyRulesEdit locked = .ok (.chain head)) (h : PatchGood p versions tx) :
    PatchGood p versions { tx with
      phase := .ready
      writes := tx.writes ++ [.insert (p.draftRow rows next templateName head rules)] } := by
  simp only [PatchGood, hphase] at h
  obtain ⟨hholds, hreread, hrenames⟩ := h
  obtain ⟨howned, hall, -⟩ := hreread (by rw [hrules]; rfl)
  obtain ⟨hnone, hhead⟩ := applyRulesEdit_chain hedit
  rw [hall] at hnone hhead
  -- a rename among the writes leaves the order of the versions
  have hnewest : newestLiving (named templateName versions) = some { head with templateName } := by
    rw [named, newestLiving_map (retouches_name templateName),
      show newestLiving versions = some head from hhead]
    rfl
  have hmem : head ∈ versions := List.mem_reverse.mp (List.mem_of_find?_eq_some hhead)
  have hown := howned.tenant hcoherent
  refine .inr ⟨hholds, templateName, tx.writes, _, hrenames,
    .chain ?_ hnewest ⟨?_, ?_, ?_, ?_, ?_, ?_⟩ rfl rfl, rfl⟩
  · exact List.forall_mem_map.mpr fun r hr => hnone r (List.mem_reverse.mpr hr)
  · rw [named, List.map_map]
    intro hkey
    obtain ⟨r, hr, heq⟩ := List.mem_map.mp hkey
    have hlt := hbound r (mem_lineage.mp (hversions ▸ hr)).1
    exact hlt.ne heq
  · rw [named, List.length_map, hversions]
    refine setCsmVersionSeq_seq (hversions ▸ hcoherent) rfl fun r hr => ?_
    have hr : r ∈ versions := hversions ▸ hr
    exact ⟨hown r hr, hcoherent.source r hr head hmem⟩
  · exact List.forall_mem_map.mpr hown
  · exact List.forall_mem_map.mpr fun r hr => hcoherent.source r hr head hmem
  · exact List.forall_mem_map.mpr fun r hr => hcoherent.type r hr head hmem
  · exact List.forall_mem_map.mpr fun _ _ => rfl

end Patch

end Inside

section Steps

variable {requests : ι → Request ρ} {s : State ι ρ} {i : ι}

lemma Good.patch (hg : Good requests s) {p : PatchTemplate ρ} (hreq : requests i = .patch p) :
    PatchGood p (lineage p.templateId s.rows) (s.txs i) := by
  have htx := hg.tx i
  rwa [hreq] at htx

lemma Good.exists_patch (hg : Good requests s)
    (hbusy : ∀ c versions, ¬ CreateGood c versions (s.txs i)) : ∃ p, requests i = .patch p := by
  cases hreq : requests i with
  | patch p => exact ⟨p, rfl⟩
  | create c =>
    have htx := hg.tx i
    rw [hreq] at htx
    exact absurd htx (hbusy _ _)

lemma free_cons {id : ℕ} (hfree : Free s i id) :
    ∀ id' ∈ id :: (s.txs i).locks, id' ∈ (s.txs i).locks ∨ Free s i id' := by
  intro id' hid'
  rcases List.mem_cons.mp hid' with rfl | hid'
  · exact .inr hfree
  · exact .inl hid'

variable [DecidableEq ι]

@[simp] lemma set_txs_self (s : State ι ρ) (i : ι) (tx : Tx ρ) : (s.set i tx).txs i = tx :=
  Function.update_self ..

lemma set_txs_of_ne (s : State ι ρ) {i j : ι} (hj : j ≠ i) (tx : Tx ρ) :
    (s.set i tx).txs j = s.txs j :=
  Function.update_of_ne hj ..

/-- One transaction moves: it stands well, the locks it takes are free, and the row it inserts
has the next key of the sequence. -/
lemma Good.set (hg : Good requests s) {tx : Tx ρ} {next : ℕ}
    (htx : TxGood s.rows tx (requests i))
    (hlocks : ∀ id ∈ tx.locks, id ∈ (s.txs i).locks ∨ Free s i id)
    (hnext : s.nextVersionId ≤ next)
    (hinserts : ∀ row, .insert row ∈ tx.writes → .insert row ∈ (s.txs i).writes ∨
      key row = s.nextVersionId ∧ s.nextVersionId < next) :
    Good requests { s.set i tx with nextVersionId := next } := by
  have hself : (s.set i tx).txs i = tx := set_txs_self s i tx
  have hother : ∀ j, j ≠ i → (s.set i tx).txs j = s.txs j := fun j hj => set_txs_of_ne s hj tx
  have hnew : ∀ j row, .insert row ∈ (s.txs j).writes → key row ≠ s.nextVersionId :=
    fun j row hrow => (hg.pending j row hrow).1.ne
  refine ⟨hg.coherent, hg.keys, fun r hr => (hg.bound r hr).trans_le hnext, ?_, fun j => ?_, ?_, ?_⟩
  · -- a lock of the transaction that moves was its own or free, so no other one holds it
    intro a b id ha hb
    dsimp only at ha hb
    by_cases hai : a = i <;> by_cases hbi : b = i
    · rw [hai, hbi]
    · subst hai
      rw [hself] at ha
      rw [hother b hbi] at hb
      rcases hlocks id ha with ha' | hfree
      · exact hg.exclusive a b id ha' hb
      · exact absurd hb (hfree b hbi)
    · subst hbi
      rw [hself] at hb
      rw [hother a hai] at ha
      rcases hlocks id hb with hb' | hfree
      · exact hg.exclusive a b id ha hb'
      · exact absurd ha (hfree a hai)
    · rw [hother a hai] at ha
      rw [hother b hbi] at hb
      exact hg.exclusive a b id ha hb
  · dsimp only
    by_cases hj : j = i
    · subst hj
      rw [hself]
      exact htx
    · rw [hother j hj]
      exact hg.tx j
  · intro j row hrow
    dsimp only at hrow
    have hold : .insert row ∈ (s.txs j).writes → key row < next ∧ key row ∉ s.rows.map key :=
      fun h => ⟨(hg.pending j row h).1.trans_le hnext, (hg.pending j row h).2⟩
    by_cases hj : j = i
    · subst hj
      rw [hself] at hrow
      rcases hinserts row hrow with hrow | ⟨hkey, hlt⟩
      · exact hold hrow
      · refine ⟨hkey ▸ hlt, fun hmem => ?_⟩
        obtain ⟨r, hr, heq⟩ := List.mem_map.mp hmem
        exact (hg.bound r hr).ne (heq.trans hkey)
    · rw [hother j hj] at hrow
      exact hold hrow
  · intro a b row row' ha hb hkey
    dsimp only at ha hb
    by_cases hai : a = i <;> by_cases hbi : b = i
    · rw [hai, hbi]
    · subst hai
      rw [hself] at ha
      rw [hother b hbi] at hb
      rcases hinserts row ha with ha' | ⟨hnext', -⟩
      · exact hg.apart a b row row' ha' hb hkey
      · exact absurd (hkey.symm.trans hnext') (hnew b row' hb)
    · subst hbi
      rw [hself] at hb
      rw [hother a hai] at ha
      rcases hinserts row' hb with hb' | ⟨hnext', -⟩
      · exact hg.apart a b row row' ha hb' hkey
      · exact absurd (hkey.trans hnext') (hnew a row ha)
    · rw [hother a hai] at ha
      rw [hother b hbi] at hb
      exact hg.apart a b row row' ha hb hkey

lemma Good.move (hg : Good requests s) {tx : Tx ρ} (htx : TxGood s.rows tx (requests i))
    (hlocks : ∀ id ∈ tx.locks, id ∈ (s.txs i).locks ∨ Free s i id)
    (hinserts : ∀ row, .insert row ∈ tx.writes → .insert row ∈ (s.txs i).writes) :
    Good requests (s.set i tx) :=
  hg.set htx hlocks le_rfl fun row hrow => .inl (hinserts row hrow)

end Steps

/-! ### Commits -/

/-- A commit on one lineage by a transaction with the given locks: it edits the lineage, adds to
its end, and leaves alone the other lineages and the versions it has not locked. -/
structure Commits (templateId : Uuid) (locks : List ℕ) (rows rows' : List (SourceMappingRow ρ)) :
    Prop where
  others : ∀ other, other ≠ templateId → lineage other rows' = lineage other rows
  edits : Edits (lineage templateId rows) (lineage templateId rows')
  kept : ∀ r ∈ lineage templateId rows, key r ∉ locks → r ∈ lineage templateId rows'
  keys : (lineage templateId rows).map key <+: (lineage templateId rows').map key
  tenant : ∀ r ∈ lineage templateId rows, ∃ r' ∈ lineage templateId rows',
    r'.tenantId = r.tenantId

section Commit

variable {templateId : Uuid} {locks : List ℕ} {rows rows' rows'' : List (SourceMappingRow ρ)}

lemma Commits.refl : Commits templateId locks rows rows :=
  ⟨fun _ _ => rfl, .refl, fun _ hr _ => hr, List.prefix_refl _, fun r hr => ⟨r, hr, rfl⟩⟩

lemma Commits.trans (h : Commits templateId locks rows rows')
    (h' : Commits templateId locks rows' rows'') : Commits templateId locks rows rows'' := by
  refine ⟨fun other hne => (h'.others other hne).trans (h.others other hne),
    Relation.ReflTransGen.trans h.edits h'.edits,
    fun r hr hkey => h'.kept r (h.kept r hr hkey) hkey, h.keys.trans h'.keys, fun r hr => ?_⟩
  obtain ⟨r', hr', htenant⟩ := h.tenant r hr
  obtain ⟨r'', hr'', htenant'⟩ := h'.tenant r' hr'
  exact ⟨r'', hr'', htenant'.trans htenant⟩

lemma lineage_map {f : SourceMappingRow ρ → SourceMappingRow ρ} (hf : Retouches f)
    (templateId : Uuid) (rows : List (SourceMappingRow ρ)) :
    lineage templateId (rows.map f) = (lineage templateId rows).map f := by
  rw [lineage, lineage, List.filter_map]
  congr 1
  exact List.filter_congr fun r _ => by simp [hf.template]

lemma commits_map {f : SourceMappingRow ρ → SourceMappingRow ρ} (hf : Retouches f)
    (hother : ∀ r ∈ rows, r.templateId ≠ templateId → f r = r)
    (hkept : ∀ r ∈ rows, key r ∉ locks → f r = r)
    (hedit : Edit (lineage templateId rows) ((lineage templateId rows).map f)) :
    Commits templateId locks rows (rows.map f) := by
  refine ⟨fun other hne => ?_, ?_, fun r hr hkey => ?_, ?_, fun r hr => ?_⟩
  · rw [lineage_map hf]
    refine (List.map_congr_left fun r hr => hother r (mem_lineage.mp hr).1 ?_).trans (List.map_id _)
    rw [(mem_lineage.mp hr).2]
    exact hne
  · rw [lineage_map hf]
    exact .single hedit
  · rw [lineage_map hf]
    have hfix := hkept r (mem_lineage.mp hr).1 hkey
    exact List.mem_map.mpr ⟨r, hr, hfix⟩
  · rw [lineage_map hf, List.map_map]
    have hkeys : key ∘ f = key := funext hf.key
    rw [hkeys]
  · rw [lineage_map hf]
    exact ⟨f r, List.mem_map_of_mem hr, hf.tenant r⟩

lemma commits_append {row : SourceMappingRow ρ} (htemplate : row.templateId = templateId)
    (hedit : Edit (lineage templateId rows) (lineage templateId rows ++ [row])) :
    Commits templateId locks rows (rows ++ [row]) := by
  have hlineage : lineage templateId (rows ++ [row]) = lineage templateId rows ++ [row] := by
    simp [lineage, htemplate]
  refine ⟨fun other hne => ?_, ?_, fun r hr _ => ?_, ?_, fun r hr => ?_⟩
  · have hother : row.templateId ≠ other := htemplate ▸ hne.symm
    simp [lineage, hother]
  · rw [hlineage]
    exact .single hedit
  · rw [hlineage]
    exact List.mem_append_left _ hr
  · rw [hlineage, List.map_append]
    exact List.prefix_append _ _
  · rw [hlineage]
    exact ⟨r, List.mem_append_left _ hr, rfl⟩

lemma foldl_setName (ids : List ℕ) (templateName : String) (rows : List (SourceMappingRow ρ)) :
    (ids.map (Write.setName · templateName)).foldl Write.apply rows =
      rows.map fun r => if key r ∈ ids then { r with templateName } else r := by
  induction ids generalizing rows with
  | nil => simp
  | cons id ids ih =>
    rw [List.map_cons, List.foldl_cons, ih, Write.apply, List.map_map]
    refine List.map_congr_left fun r _ => ?_
    by_cases hid : r.mappingVersionId = id <;> by_cases hids : r.mappingVersionId ∈ ids <;>
      simp [hid, hids]

lemma commits_renames (hkeys : (rows.map key).Nodup) {templateName : String}
    {writes : List (Write ρ)} (h : Renames (lineage templateId rows) templateName locks writes) :
    Commits templateId locks rows (writes.foldl Write.apply rows) ∧
      lineage templateId (writes.foldl Write.apply rows) =
        named templateName (lineage templateId rows) := by
  rcases h with ⟨rfl, hname⟩ | ⟨ids, hperm, hlocks, rfl⟩
  · have hsame : named templateName (lineage templateId rows) =
        (lineage templateId rows).map id :=
      List.map_congr_left fun r hr => by rw [← hname r hr, id]
    exact ⟨.refl, (hsame.trans (List.map_id _)).symm⟩
  · rw [foldl_setName]
    have hf : Retouches fun r : SourceMappingRow ρ =>
        if key r ∈ ids then { r with templateName } else r := by
      constructor <;> exact fun r => by split <;> rfl
    have hall : (lineage templateId rows).map (fun r =>
        if key r ∈ ids then { r with templateName } else r) =
          named templateName (lineage templateId rows) := by
      refine List.map_congr_left fun r hr => if_pos ?_
      exact hperm.mem_iff.mpr (List.mem_map_of_mem hr)
    refine ⟨commits_map hf (fun r hr hne => if_neg fun hid => hne ?_)
      (fun r _ hkey => if_neg fun hid => hkey (hlocks hid)) (hall ▸ .rename templateName),
      (lineage_map hf _ _).trans hall⟩
    exact (mem_lineage.mp (mem_lineage_of_key hkeys hr (hperm.mem_iff.mp hid))).2

lemma commits_rules {p : PatchTemplate ρ} (hkeys : (rows.map key).Nodup) {writes : List (Write ρ)}
    (h : RulesWrites p (lineage p.templateId rows) locks writes) :
    Commits p.templateId locks rows (writes.foldl Write.apply rows) := by
  cases h with
  | none => exact .refl
  | inPlace hdraft hstatus hlock mappingRules =>
    refine commits_map (retouches_rules _ mappingRules) (fun r hr hne => if_neg fun hid => hne ?_)
      (fun r _ hkey => if_neg fun hid => hkey ?_) (.inPlace hdraft hstatus mappingRules)
    · rw [List.inj_on_of_nodup_map hkeys hr (mem_lineage.mp hdraft).1 hid]
      exact (mem_lineage.mp hdraft).2
    · rw [key, hid]
      exact hlock
  | chain hnone hhead hfollows hpredecessor htemplate =>
    exact commits_append htemplate (.chain hnone hhead hfollows hpredecessor)

/-- The lock on the oldest version keeps the others out: a PATCH stands in the lineage as it
stood before another one's commit. -/
lemma PatchGood.frame {p : PatchTemplate ρ} {tx : Tx ρ} {versions versions' : List _}
    (h : PatchGood p versions tx) (hcoherent : Coherent versions')
    (hkept : ∀ r ∈ versions, key r ∉ locks → r ∈ versions')
    (hkeys : versions.map key <+: versions'.map key)
    (htenant : ∀ r ∈ versions, ∃ r' ∈ versions', r'.tenantId = r.tenantId)
    (hholds : HoldsRoot versions locks) (hdisjoint : ∀ id ∈ tx.locks, id ∉ locks) :
    PatchGood p versions' tx := by
  obtain ⟨root, hroot, hrootLock⟩ := hholds
  have hroot' : ∃ root', versions'.head? = some root' ∧ key root' = key root := by
    obtain ⟨extra, hextra⟩ := hkeys
    have hhead : (versions'.map key).head? = some (key root) := by
      rw [← hextra, List.head?_append, List.head?_map, hroot]
      rfl
    rw [List.head?_map, Option.map_eq_some_iff] at hhead
    exact hhead
  have hnotRoot : ¬ HoldsRoot versions tx.locks := by
    rintro ⟨other, hother, hlock⟩
    rw [hroot] at hother
    cases hother
    exact hdisjoint _ hlock hrootLock
  have howned : Owned p versions → Owned p versions' := by
    rintro ⟨r, hr, htenantId⟩
    obtain ⟨r', hr', heq⟩ := htenant r hr
    exact ⟨r', hr', heq.trans htenantId⟩
  have hentered : ∀ {todo}, Entered versions todo tx.locks → Entered versions' todo tx.locks := by
    rintro todo ⟨other, hother, hmem⟩
    rw [hroot] at hother
    cases hother
    obtain ⟨root', hroot', heq⟩ := hroot'
    exact ⟨root', hroot', by rwa [heq]⟩
  unfold PatchGood at h ⊢
  -- past the lock of the oldest version nothing is left to show: another transaction has it
  cases hphase : tx.phase with
  | idle =>
    rw [hphase] at h
    exact h
  | opened =>
    rw [hphase] at h
    exact ⟨h.1, h.2.1, fun hsome => howned (h.2.2 hsome)⟩
  | first todo =>
    rw [hphase] at h
    exact ⟨h.1, fun hsome => ⟨howned (h.2 hsome).1, hentered (h.2 hsome).2⟩⟩
  | second todo locked =>
    rw [hphase] at h
    obtain ⟨hwrites, hlocked, hall, hrules⟩ := h
    refine ⟨hwrites, fun r hr => ⟨hkept r (hlocked r hr).1 (hdisjoint _ (hlocked r hr).2),
      (hlocked r hr).2⟩, ?_, fun hsome => absurd (hrules hsome).2.1 hnotRoot⟩
    rcases hall with hnil | ⟨hsees, hin, htodo⟩
    · exact .inl hnil
    · refine .inr ⟨fun r hr => ?_, hentered hin, fun id hid => hkeys.subset (htodo hid)⟩
      have hmem : root ∈ versions := List.mem_of_mem_head? hroot
      obtain ⟨r', hr', heq⟩ := htenant root hmem
      have hseen := hsees root hmem
      simpa [Session.sees, hcoherent.tenant r hr r' hr', heq] using hseen
  | updating todo locked templateName =>
    rw [hphase] at h
    exact absurd h.1 hnotRoot
  | editing locked templateName =>
    rw [hphase] at h
    exact absurd h.1 hnotRoot
  | ready =>
    rw [hphase] at h
    rcases h with hnil | ⟨hholds, -⟩
    · exact .inl hnil
    · exact absurd hholds hnotRoot
  | ended =>
    rw [hphase] at h
    exact h

lemma PatchGood.of_nil {p : PatchTemplate ρ} {tx : Tx ρ} (h : PatchGood p [] tx)
    (versions : List (SourceMappingRow ρ)) : PatchGood p versions tx := by
  have howned : ¬ Owned p ([] : List (SourceMappingRow ρ)) := fun ⟨_, hr, _⟩ => by cases hr
  have hroot : ∀ {locks}, ¬ HoldsRoot ([] : List (SourceMappingRow ρ)) locks :=
    fun ⟨_, hhead, _⟩ => by cases hhead
  unfold PatchGood at h ⊢
  -- a transaction that has a lock of its lineage cannot stand in an empty one
  cases hphase : tx.phase with
  | idle =>
    rw [hphase] at h
    exact h
  | opened =>
    rw [hphase] at h
    exact ⟨h.1, h.2.1, fun hsome => absurd (h.2.2 hsome) howned⟩
  | first todo =>
    rw [hphase] at h
    exact ⟨h.1, fun hsome => absurd (h.2 hsome).1 howned⟩
  | second todo locked =>
    rw [hphase] at h
    obtain ⟨hwrites, hlocked, hall, hrules⟩ := h
    refine ⟨hwrites, fun r hr => absurd (hlocked r hr).1 List.not_mem_nil, ?_,
      fun hsome => absurd (hrules hsome).1 howned⟩
    rcases hall with hnil | ⟨-, ⟨_, hhead, _⟩, -⟩
    · exact .inl hnil
    · cases hhead
  | updating todo locked templateName =>
    rw [hphase] at h
    exact absurd h.1 hroot
  | editing locked templateName =>
    rw [hphase] at h
    exact absurd h.1 hroot
  | ready =>
    rw [hphase] at h
    rcases h with hnil | ⟨hholds, -⟩
    · exact .inl hnil
    · exact absurd hholds hroot
  | ended =>
    rw [hphase] at h
    exact h

/-- The rows a transaction inserts. -/
def inserts (writes : List (Write ρ)) : List (SourceMappingRow ρ) :=
  writes.filterMap fun
    | .insert row => some row
    | _ => none

lemma mem_inserts {writes : List (Write ρ)} {row : SourceMappingRow ρ} :
    row ∈ inserts writes ↔ .insert row ∈ writes := by
  simp only [inserts, List.mem_filterMap]
  constructor
  · rintro ⟨write, hwrite, hrow⟩
    split at hrow
    · cases hrow
      exact hwrite
    · cases hrow
  · exact fun h => ⟨_, h, rfl⟩

lemma map_key_foldl (writes : List (Write ρ)) (rows : List (SourceMappingRow ρ)) :
    (writes.foldl Write.apply rows).map key = rows.map key ++ (inserts writes).map key := by
  induction writes generalizing rows with
  | nil => simp [inserts]
  | cons write writes ih =>
    rw [List.foldl_cons, ih]
    cases write with
    | setName id templateName =>
      rw [Write.apply, List.map_map]
      congr 1
      exact List.map_congr_left fun r _ => by simp only [Function.comp_apply]; split <;> rfl
    | setRules id mappingRules =>
      rw [Write.apply, List.map_map]
      congr 1
      exact List.map_congr_left fun r _ => by simp only [Function.comp_apply]; split <;> rfl
    | insert row => simp [Write.apply, inserts]

lemma inserts_renames {versions : List (SourceMappingRow ρ)} {templateName : String}
    {writes : List (Write ρ)} (h : Renames versions templateName locks writes) :
    inserts writes = [] := by
  rcases h with ⟨rfl, -⟩ | ⟨ids, -, -, rfl⟩
  · rfl
  · rw [inserts, List.filterMap_map]
    exact List.filterMap_eq_nil_iff.mpr fun _ _ => rfl

lemma length_inserts_rules {p : PatchTemplate ρ} {versions : List (SourceMappingRow ρ)}
    {writes : List (Write ρ)} (h : RulesWrites p versions locks writes) :
    (inserts writes).length ≤ 1 := by
  cases h <;> simp [inserts]

end Commit

section Runs

variable {requests : ι → Request ρ} {s : State ι ρ} {i : ι}

/-- Who can change a lineage: a PATCH that holds its oldest version, or its creation. -/
inductive Writer (requests : ι → Request ρ) (s : State ι ρ) (i : ι) (templateId : Uuid) : Prop
  | patch {p : PatchTemplate ρ} (hreq : requests i = .patch p)
    (htemplate : p.templateId = templateId)
    (hholds : HoldsRoot (lineage templateId s.rows) (s.txs i).locks)
  | create {c : CreateTemplate ρ} (hreq : requests i = .create c)
    (htemplate : c.templateId = templateId) (hnil : lineage templateId s.rows = [])

lemma commit_cases (hg : Good requests s) (hphase : (s.txs i).phase = .ready) :
    (inserts (s.txs i).writes).length ≤ 1 ∧
      ((s.txs i).writes = [] ∨ ∃ templateId, Writer requests s i templateId ∧
        Commits templateId (s.txs i).locks s.rows
          ((s.txs i).writes.foldl Write.apply s.rows)) := by
  have htx := hg.tx i
  cases hreq : requests i with
  | create c =>
    simp only [hreq, TxGood, CreateGood, hphase] at htx
    obtain ⟨-, hnil, row, hwrites, htemplate, hfollows, hpredecessor⟩ := htx
    rw [hwrites]
    refine ⟨by simp [inserts], .inr ⟨c.templateId, .create hreq rfl hnil, ?_⟩⟩
    refine commits_append htemplate ?_
    rw [hnil]
    exact .create hfollows hpredecessor
  | patch p =>
    simp only [hreq, TxGood, PatchGood, hphase] at htx
    rcases htx with hnil | ⟨hholds, templateName, renames, edits, hrenames, hedits, hwrites⟩
    · rw [hnil]
      exact ⟨by simp [inserts], .inl rfl⟩
    · obtain ⟨hcommits, hnamed⟩ := commits_renames hg.keys hrenames
      have hkeys : ((renames.foldl Write.apply s.rows).map key).Nodup := by
        rw [map_key_foldl, inserts_renames hrenames, List.map_nil, List.append_nil]
        exact hg.keys
      have hrules := commits_rules hkeys (hnamed ▸ hedits)
      rw [hwrites, List.foldl_append]
      refine ⟨?_, .inr ⟨p.templateId, .patch hreq rfl hholds, hcommits.trans hrules⟩⟩
      rw [inserts, List.filterMap_append, List.length_append, ← inserts, ← inserts,
        inserts_renames hrenames]
      simpa using length_inserts_rules hedits

lemma Writer.frame {templateId : Uuid} (hwriter : Writer requests s i templateId)
    (hg : Good requests s) (hminted : Minted requests) {rows' : List (SourceMappingRow ρ)}
    (hcommits : Commits templateId (s.txs i).locks s.rows rows')
    (hcoherent : Coherent (lineage templateId rows')) {j : ι} (hj : j ≠ i) :
    TxGood rows' (s.txs j) (requests j) := by
  have htx := hg.tx j
  cases hreq : requests j with
  | create c =>
    rw [hreq] at htx
    by_cases htemplate : c.templateId = templateId
    · obtain ⟨hlocks, hstands⟩ := htx
      refine ⟨hlocks, ?_⟩
      rw [htemplate] at hstands ⊢
      -- ids are minted once, so the lineage of this creation cannot be the one that was written
      have hnil : lineage templateId s.rows ≠ [] := by
        cases hwriter with
        | patch _ _ hholds =>
          obtain ⟨root, hroot, -⟩ := hholds
          exact List.ne_nil_of_mem (List.mem_of_mem_head? hroot)
        | create hreq' htemplate' =>
          exact absurd (hminted j i _ _ hreq hreq' (htemplate.trans htemplate'.symm)) hj
      cases hphase : (s.txs j).phase with
      | idle => exact absurd (by simpa [hphase] using hstands : _ ∧ _).2 hnil
      | ready => exact absurd (by simpa [hphase] using hstands : _ ∧ _).1 hnil
      | ended => simpa [hphase] using hstands
      | _ => simp [hphase] at hstands
    · rw [TxGood, hcommits.others _ htemplate]
      exact htx
  | patch p =>
    rw [hreq] at htx
    by_cases htemplate : p.templateId = templateId
    · rw [TxGood, htemplate] at htx ⊢
      cases hwriter with
      | patch _ _ hholds =>
        exact htx.frame hcoherent hcommits.kept hcommits.keys hcommits.tenant hholds
          fun id hid hid' => hj (hg.exclusive j i id hid hid')
      | create _ _ hnil => exact (hnil ▸ htx).of_nil _
    · rw [TxGood, hcommits.others _ htemplate]
      exact htx

lemma txGood_ended (rows : List (SourceMappingRow ρ)) (request : Request ρ) :
    TxGood rows .ended request := by
  cases request with
  | create c => exact ⟨rfl, rfl⟩
  | patch p => exact ⟨rfl, rfl⟩

lemma edits_commit (hg : Good requests s) (hphase : (s.txs i).phase = .ready)
    (templateId : Uuid) :
    Edits (lineage templateId s.rows)
      (lineage templateId ((s.txs i).writes.foldl Write.apply s.rows)) := by
  rcases (commit_cases hg hphase).2 with hnil | ⟨written, -, hcommits⟩
  · rw [hnil]
    exact .refl
  · by_cases htemplate : templateId = written
    · rw [htemplate]
      exact hcommits.edits
    · rw [hcommits.others _ htemplate]
      exact .refl

variable [DecidableEq ι]

lemma good_abort (hg : Good requests s) : Good requests (s.set i .ended) :=
  hg.move (txGood_ended _ _) (by simp [Tx.ended]) (by simp [Tx.ended])

lemma good_commit (hg : Good requests s) (hminted : Minted requests)
    (hphase : (s.txs i).phase = .ready) :
    Good requests { s.set i .ended with rows := (s.txs i).writes.foldl Write.apply s.rows } := by
  have hended := good_abort hg (i := i)
  have hkeys := map_key_foldl (s.txs i).writes s.rows
  have hcoherent : ∀ templateId,
      Coherent (lineage templateId ((s.txs i).writes.foldl Write.apply s.rows)) :=
    fun templateId =>
      ((edits_commit hg hphase templateId).coherent_keeps (hg.coherent templateId)).1
  have hpending : ∀ row ∈ inserts (s.txs i).writes, key row < s.nextVersionId ∧
      key row ∉ s.rows.map key := fun row hrow => hg.pending i row (mem_inserts.mp hrow)
  obtain ⟨hone, hcases⟩ := commit_cases hg hphase
  refine ⟨hcoherent, ?_, fun r hr => ?_, hended.exclusive, fun j => ?_, fun j row hrow => ?_,
    hended.apart⟩
  · dsimp only
    rw [hkeys]
    match hinserts : inserts (s.txs i).writes, hone with
    | [], _ => simpa using hg.keys
    | [row], _ =>
      have hnew := (hpending row (by simp [hinserts])).2
      simpa [List.nodup_append] using ⟨hg.keys, by simpa using hnew⟩
  · have hmem : key r ∈ s.rows.map key ++ (inserts (s.txs i).writes).map key := by
      rw [← hkeys]
      exact List.mem_map_of_mem hr
    rcases List.mem_append.mp hmem with hold | hnew
    · obtain ⟨r', hr', heq⟩ := List.mem_map.mp hold
      exact heq ▸ hg.bound r' hr'
    · obtain ⟨r', hr', heq⟩ := List.mem_map.mp hnew
      exact heq ▸ (hpending r' hr').1
  · by_cases hj : j = i
    · subst hj
      dsimp only
      rw [set_txs_self]
      exact txGood_ended _ _
    · dsimp only
      rw [set_txs_of_ne s hj]
      -- the others stand beside the one lineage that the commit wrote to
      rcases hcases with hnil | ⟨templateId, hwriter, hcommits⟩
      · rw [hnil]
        exact hg.tx j
      · exact hwriter.frame hg hminted hcommits (hcoherent templateId) hj
  · obtain ⟨hlt, hnot⟩ := hended.pending j row hrow
    refine ⟨hlt, ?_⟩
    dsimp only
    rw [hkeys, List.mem_append, not_or]
    refine ⟨hnot, fun hmem => ?_⟩
    obtain ⟨row', hrow', heq⟩ := List.mem_map.mp hmem
    by_cases hj : j = i
    · subst hj
      dsimp only at hrow
      rw [set_txs_self] at hrow
      cases hrow
    · dsimp only at hrow
      rw [set_txs_of_ne s hj] at hrow
      exact hj (hg.apart j i row row' hrow (mem_inserts.mp hrow') heq.symm)

lemma good_step (hg : Good requests s) (hminted : Minted requests) {s' : State ι ρ}
    (hstep : Step requests s s') : Good requests s' := by
  cases hstep with
  | @create i c hreq hphase hrange =>
    have htx := hg.tx i
    simp only [hreq, TxGood, CreateGood, hphase] at htx
    obtain ⟨-, -, hnil⟩ := htx
    refine hg.set ?_ (by simp) (Nat.le_succ _) fun row hrow => .inr ?_
    · rw [hreq]
      refine ⟨rfl, hnil, _, rfl, rfl, ⟨by simp, ?_, by simp, by simp, by simp, by simp⟩, rfl⟩
      refine (setCsmVersionSeq_seq (hg.coherent _) rfl ?_).trans ?_
      · simp [hnil]
      · simp [hnil]
    · rw [List.mem_singleton, Write.insert.injEq] at hrow
      exact ⟨hrow ▸ rfl, Nat.lt_succ_self _⟩
  | read hreq hphase hfound =>
    exact hg.move (hreq ▸ read_good (hg.coherent _) rfl hfound) (by simp) (by simp)
  | snapshotFirst hreq hphase =>
    exact hg.move (hreq ▸ snapshotFirst_good (hg.coherent _) rfl hphase (hg.patch hreq))
      (fun _ hid => .inl hid) fun _ hrow => hrow
  | @lockFirst i id todo hphase hfree =>
    obtain ⟨p, hreq⟩ : ∃ p, requests i = .patch p :=
      hg.exists_patch (by simp [CreateGood, hphase])
    exact hg.move (hreq ▸ lockFirst_good hphase (hg.patch hreq)) (free_cons hfree)
      fun _ hrow => hrow
  | snapshotSecond hreq hphase =>
    exact hg.move (hreq ▸ snapshotSecond_good (hg.coherent _) rfl hphase (hg.patch hreq))
      (fun _ hid => .inl hid) fun _ hrow => hrow
  | @lockSecond i r todo locked hphase hrow hfree =>
    obtain ⟨p, hreq⟩ : ∃ p, requests i = .patch p :=
      hg.exists_patch (by simp [CreateGood, hphase])
    exact hg.move (hreq ▸ lockSecond_good rfl hg.keys hphase hrow (hg.patch hreq))
      (free_cons hfree) fun _ hrow => hrow
  | keepName hreq hphase hname =>
    exact hg.move (hreq ▸ keepName_good (hg.coherent _) hphase (hg.patch hreq))
      (fun _ hid => .inl hid) fun _ hrow => hrow
  | rename hreq hphase hname hne hscan =>
    exact hg.move (hreq ▸ rename_good (hg.coherent _) rfl hphase hscan (hg.patch hreq))
      (fun _ hid => .inl hid) fun _ hrow => hrow
  | setName hreq hphase hrow hadmits hfree =>
    exact hg.move (hreq ▸ setName_good hphase (hg.patch hreq)) (free_cons hfree) (by simp)
  | @renamed i locked templateName hphase =>
    obtain ⟨p, hreq⟩ : ∃ p, requests i = .patch p :=
      hg.exists_patch (by simp [CreateGood, hphase])
    exact hg.move (hreq ▸ renamed_good hphase (hg.patch hreq)) (fun _ hid => .inl hid)
      fun _ hrow => hrow
  | noRules hreq hphase hrules =>
    exact hg.move (hreq ▸ noRules_good hphase (hg.patch hreq)) (fun _ hid => .inl hid)
      fun _ hrow => hrow
  | inPlace hreq hphase hrules hedit hadmits =>
    exact hg.move (hreq ▸ inPlace_good hphase hrules hedit (hg.patch hreq))
      (fun _ hid => .inl hid) (by simp)
  | chain hreq hphase hrules hedit hrange =>
    refine hg.set (hreq ▸ chain_good (hg.coherent _) rfl hg.bound hphase hrules hedit
      (hg.patch hreq)) (fun _ hid => .inl hid) (Nat.le_succ _) fun row hrow => ?_
    rcases List.mem_append.mp hrow with hrow | hrow
    · exact .inl hrow
    · rw [List.mem_singleton, Write.insert.injEq] at hrow
      exact .inr ⟨hrow ▸ rfl, Nat.lt_succ_self _⟩
  | commit hphase => exact good_commit hg hminted hphase
  | abort => exact good_abort hg

lemma edits_step (hg : Good requests s) {s' : State ι ρ} (hstep : Step requests s s')
    (templateId : Uuid) : Edits (lineage templateId s.rows) (lineage templateId s'.rows) := by
  cases hstep with
  | commit hphase => exact edits_commit hg hphase templateId
  | _ => exact .refl

lemma edits_reaches (hg : Good requests s) (hminted : Minted requests) {s' : State ι ρ}
    (h : Reaches requests s s') : Good requests s' ∧ ∀ templateId,
      Edits (lineage templateId s.rows) (lineage templateId s'.rows) := by
  induction h with
  | refl => exact ⟨hg, fun _ => .refl⟩
  | tail _ hstep ih =>
    exact ⟨good_step ih.1 hminted hstep, fun templateId =>
      Relation.ReflTransGen.trans (ih.2 templateId) (edits_step ih.1 hstep templateId)⟩

/-- **Concurrent requests keep every lineage coherent**, in every state that any interleaving
of their steps reaches; and from there on, whatever else is run, no version that is not a draft
changes its rules. -/
theorem lineages_coherent (requests : ι → Request ρ) {start s s' : State ι ρ}
    (hstart : Starts requests start) (hs : Reaches requests start s)
    (hs' : Reaches requests s s') (templateId : Uuid) :
    Coherent (lineage templateId s.rows) ∧
      Keeps (lineage templateId s.rows) (lineage templateId s'.rows) := by
  obtain ⟨hg, -⟩ := edits_reaches hstart.good hstart.minted hs
  obtain ⟨-, hedits⟩ := edits_reaches hg hstart.minted hs'
  exact ⟨hg.coherent templateId, ((hedits templateId).coherent_keeps (hg.coherent templateId)).2⟩

end Runs

/-! ### Edits of a template with one version -/

def firstVersion : SourceMappingRow ℕ where
  mappingVersionId := 1
  tenantId := .ofNat 2
  sourceId := "pos"
  templateId := .ofNat 7
  templateName := "sales"
  versionSeqPerSource := 1
  status := .active
  mappingRules := 0
  predecessorVersionId := none
  templateType := "sales"

/-- Three PATCHes with new rules. -/
def rulesEdits (i : Fin 3) : PatchTemplate ℕ := ⟨⟨false, .ofNat 2⟩, .ofNat 7, none, some (i + 1)⟩

def rulesRequests (i : Fin 3) : Request ℕ := .patch (rulesEdits i)

/-- The draft that the first of them chains. -/
def chainedDraft : SourceMappingRow ℕ := { firstVersion with
  mappingVersionId := 2, versionSeqPerSource := 2, status := .draft, mappingRules := 1
  predecessorVersionId := some 1 }

def sampleStart : State (Fin 3) ℕ := ⟨[firstVersion], 2, fun _ => .idle⟩

lemma sampleStart_starts : Starts rulesRequests sampleStart where
  coherent templateId := by
    by_cases htemplate : firstVersion.templateId = templateId
    · have hone : lineage templateId sampleStart.rows = [] ++ [firstVersion] := by
        simp [lineage, sampleStart, htemplate]
      rw [hone]
      exact coherent_nil.snoc ⟨by simp, rfl, by simp, by simp, by simp, by simp⟩ (by simp)
        fun id hid => by cases hid
    · have hnone : lineage templateId sampleStart.rows = [] := by
        simp [lineage, sampleStart, htemplate]
      rw [hnone]
      exact coherent_nil
  keys := by simp [sampleStart]
  bound := by simp [sampleStart, firstVersion]
  idle _ := rfl
  minted := by simp [Minted, rulesRequests]
  fresh := by simp [rulesRequests]

/-- The first request chains its draft while the second waits for the version. -/
def afterChain : Option (State (Fin 3) ℕ) :=
  runSchedule rulesRequests [0, 0, 0, 1, 1, 0, 0, 0, 0, 0] sampleStart

theorem chained_draft_coherent : ∃ s, afterChain = some s ∧
    s.rows = [firstVersion, chainedDraft] ∧ Coherent (lineage (.ofNat 7) s.rows) := by
  obtain ⟨s, hs⟩ : ∃ s, afterChain = some s := ⟨_, rfl⟩
  have hreaches := reaches_of_runSchedule rulesRequests hs
  refine ⟨s, hs, ?_, (lineages_coherent rulesRequests sampleStart_starts hreaches .refl _).1⟩
  have hrows : afterChain.map (·.rows) = some [firstVersion, chainedDraft] := by decide +kernel
  simpa [hs] using hrows

end CortexDis.PatchRuns
