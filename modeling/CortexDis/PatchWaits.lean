import CortexDis.PatchRuns

/-!
Waits among PATCHes of one lineage.

The first statement takes the locks from the newest version down. Where all requests have the
same versions before them, the newest lets one of them in and the others wait with empty hands.
A version committed while a request waits changes that: the request will ask for it when it
already holds the older ones, and a request that begins in between takes it first.
-/

namespace CortexDis.PatchWaits

open CortexDis.Values CortexDis.Templates CortexDis.Lineage CortexDis.PatchRuns

variable {ρ ι : Type}

/-- The locks the statement under way has still to take. -/
def toLock : Phase ρ → List ℕ
  | .first todo => todo
  | .second todo _ => todo
  | .updating todo _ _ => todo
  | _ => []

/-- The request's next lock is held by another. -/
def WaitsFor (s : State ι ρ) (i j : ι) : Prop :=
  i ≠ j ∧ ∃ id, (toLock (s.txs i).phase).head? = some id ∧ id ∈ (s.txs j).locks

/-- The request has an older version, or takes it in this statement, and has yet to ask for a
newer one. -/
def Behind (versions : List (SourceMappingRow ρ)) (tx : Tx ρ) : Prop :=
  ∃ newer ∈ versions, ∃ older ∈ versions,
    older.versionSeqPerSource < newer.versionSeqPerSource ∧ key newer ∉ tx.locks ∧
      (key older ∈ tx.locks ∨
        key older ∈ toLock tx.phase ∧ key newer ∉ toLock tx.phase)

/-- The request takes its first snapshot. -/
def Begins (s s' : State ι ρ) (i : ι) : Prop :=
  (s.txs i).phase = .opened ∧ ∃ todo, (s'.txs i).phase = .first todo

/-- A step in which no request begins while another is behind. -/
def CalmStep [DecidableEq ι] (requests : ι → Request ρ) (templateId : Uuid) (s s' : State ι ρ) :
    Prop :=
  Step requests s s' ∧
    ∀ i, Begins s s' i → ∀ j, ¬ Behind (lineage templateId s.rows) (s.txs j)

/-! ### One holder -/

/-- The versions of a request's first snapshot, newest first. -/
def queue (tx : Tx ρ) : List ℕ := tx.locks.reverse ++ toLock tx.phase

/-- The session sees nothing of the lineage. -/
def Blind (p : PatchTemplate ρ) (versions : List (SourceMappingRow ρ)) : Prop :=
  ∀ r ∈ versions, p.session.sees r = false

/-- Where a PATCH stands in the queue: before its first snapshot, in its first statement with
the newest versions of its time, or past it with the oldest version in its hands. -/
def Stands (p : PatchTemplate ρ) (versions : List (SourceMappingRow ρ)) (tx : Tx ρ) : Prop :=
  match tx.phase with
  | .idle | .opened | .ended => tx.locks = []
  | .first todo => Blind p versions ∧ tx.locks = [] ∧ todo = [] ∨
    queue tx ≠ [] ∧ queue tx <:+ versions.reverse.map key
  | .second todo _ => Blind p versions ∧ tx.locks = [] ∧ todo = [] ∨ HoldsRoot versions tx.locks
  | .updating _ _ _ | .editing _ _ | .ready => HoldsRoot versions tx.locks

/-- The request is past its first statement. -/
def Past (tx : Tx ρ) : Prop :=
  match tx.phase with
  | .idle | .opened | .ended | .first _ => False
  | _ => True

def InFirst (tx : Tx ρ) : Prop := ∃ todo, tx.phase = .first todo

structure Queued (requests : ι → Request ρ) (templateId : Uuid) (s : State ι ρ) : Prop where
  exist : lineage templateId s.rows ≠ []
  stands : ∀ i p, requests i = .patch p → Stands p (lineage templateId s.rows) (s.txs i)
  same : ∀ i j, InFirst (s.txs i) → InFirst (s.txs j) → queue (s.txs i) ≠ [] →
    queue (s.txs j) ≠ [] → queue (s.txs i) = queue (s.txs j)
  covered : ∀ i j, InFirst (s.txs i) → Past (s.txs j) → (s.txs j).locks ≠ [] →
    queue (s.txs i) ⊆ (s.txs j).locks

section Holder

variable {requests : ι → Request ρ} {templateId : Uuid} {s : State ι ρ}
  (hpatches : ∀ i, ∃ p, requests i = .patch p ∧ p.templateId = templateId)

lemma head_queue {tx : Tx ρ} (h : tx.locks ≠ []) :
    ∃ id, (queue tx).head? = some id ∧ id ∈ tx.locks := by
  have hne : tx.locks.reverse ≠ [] := by simpa using h
  refine ⟨tx.locks.reverse.head hne, ?_, List.mem_reverse.mp (List.head_mem hne)⟩
  rw [queue, List.head?_append, List.head?_eq_some_head hne]
  rfl

lemma inFirst_or_past {p : PatchTemplate ρ} {versions : List (SourceMappingRow ρ)} {tx : Tx ρ}
    (h : Stands p versions tx) (hlocks : tx.locks ≠ []) : InFirst tx ∨ Past tx := by
  unfold Stands at h
  cases hphase : tx.phase with
  | first todo => exact .inl ⟨todo, hphase⟩
  | second todo locked => exact .inr (by simp [Past, hphase])
  | updating todo locked templateName => exact .inr (by simp [Past, hphase])
  | editing locked templateName => exact .inr (by simp [Past, hphase])
  | ready => exact .inr (by simp [Past, hphase])
  | _ =>
    rw [hphase] at h
    exact absurd h hlocks

lemma holdsRoot_of_past {p : PatchTemplate ρ} {versions : List (SourceMappingRow ρ)} {tx : Tx ρ}
    (h : Stands p versions tx) (hpast : Past tx) (hlocks : tx.locks ≠ []) :
    HoldsRoot versions tx.locks := by
  unfold Stands at h
  unfold Past at hpast
  cases hphase : tx.phase with
  | second todo locked =>
    rw [hphase] at h
    rcases h with ⟨-, hnil, -⟩ | hholds
    · exact absurd hnil hlocks
    · exact hholds
  | updating todo locked templateName =>
    rw [hphase] at h
    exact h
  | editing locked templateName =>
    rw [hphase] at h
    exact h
  | ready =>
    rw [hphase] at h
    exact h
  | _ =>
    rw [hphase] at hpast
    cases hpast

include hpatches in
lemma eq_of_holding (hg : Good requests s) (hq : Queued requests templateId s) {i j : ι}
    (hi : (s.txs i).locks ≠ []) (hj : (s.txs j).locks ≠ []) : i = j := by
  obtain ⟨p, hp, -⟩ := hpatches i
  obtain ⟨q, hq', -⟩ := hpatches j
  have hstandsi := hq.stands i p hp
  have hstandsj := hq.stands j q hq'
  obtain ⟨a, ha, hai⟩ := head_queue hi
  obtain ⟨b, hb, hbj⟩ := head_queue hj
  have hqueue : ∀ {k id}, (queue (s.txs k)).head? = some id → queue (s.txs k) ≠ [] := by
    intro k id hid hnil
    rw [hnil] at hid
    cases hid
  rcases inFirst_or_past hstandsi hi with hfirsti | hpasti
  · rcases inFirst_or_past hstandsj hj with hfirstj | hpastj
    · rw [hq.same i j hfirsti hfirstj (hqueue ha) (hqueue hb), hb] at ha
      cases ha
      exact hg.exclusive i j _ hai hbj
    · exact hg.exclusive i j a hai (hq.covered i j hfirsti hpastj hj (List.mem_of_mem_head? ha))
  · rcases inFirst_or_past hstandsj hj with hfirstj | hpastj
    · exact hg.exclusive i j b (hq.covered j i hfirstj hpasti hi (List.mem_of_mem_head? hb)) hbj
    · obtain ⟨root, hroot, hlock⟩ := holdsRoot_of_past hstandsi hpasti hi
      obtain ⟨root', hroot', hlock'⟩ := holdsRoot_of_past hstandsj hpastj hj
      rw [hroot] at hroot'
      cases hroot'
      exact hg.exclusive i j _ hlock hlock'

include hpatches in
lemma not_waits_of_queued (hg : Good requests s) (hq : Queued requests templateId s) (i : ι) :
    ¬ Relation.TransGen (WaitsFor s) i i := by
  have hchain : ∀ {a b c}, WaitsFor s a b → ¬ WaitsFor s b c := by
    rintro a b c ⟨-, id, -, hb⟩ ⟨hne, id', -, hc⟩
    exact hne (eq_of_holding hpatches hg hq (List.ne_nil_of_mem hb) (List.ne_nil_of_mem hc))
  intro hcycle
  obtain ⟨j, hij, hji⟩ := Relation.TransGen.head'_iff.mp hcycle
  rcases Relation.ReflTransGen.cases_head hji with rfl | ⟨k, hjk, -⟩
  · exact hij.1 rfl
  · exact hchain hij hjk

include hpatches in
lemma template_of_patch {i : ι} {p : PatchTemplate ρ} (hreq : requests i = .patch p) :
    p.templateId = templateId := by
  obtain ⟨q, hq, htemplate⟩ := hpatches i
  rw [hreq] at hq
  cases hq
  exact htemplate

lemma holdsRoot_of_locked (hg : Good requests s) (hq : Queued requests templateId s)
    {i : ι} {p : PatchTemplate ρ} (hreq : requests i = .patch p) {todo : List ℕ}
    {r : SourceMappingRow ρ} {locked : List (SourceMappingRow ρ)}
    (hphase : (s.txs i).phase = .second todo (r :: locked)) :
    HoldsRoot (lineage templateId s.rows) (s.txs i).locks := by
  have hpatch := hg.patch hreq
  have hstands := hq.stands i p hreq
  simp only [PatchGood, Stands, hphase] at hpatch hstands
  rcases hstands with ⟨-, hnil, -⟩ | hholds
  · have hlock := (hpatch.2.1 r List.mem_cons_self).2
    rw [hnil] at hlock
    cases hlock
  · exact hholds

end Holder

/-! ### Calm steps keep the queue -/

section Versions

variable {versions : List (SourceMappingRow ρ)} {root : SourceMappingRow ρ}

lemma keys_eq_concat (hroot : versions.head? = some root) :
    ∃ rest, versions.reverse.map key = rest ++ [key root] := by
  cases versions with
  | nil => cases hroot
  | cons r versions =>
    cases hroot
    exact ⟨versions.reverse.map key, by simp⟩

lemma root_mem_queue (hroot : versions.head? = some root) {ids : List ℕ} (hne : ids ≠ [])
    (hsuffix : ids <:+ versions.reverse.map key) : key root ∈ ids := by
  obtain ⟨rest, hrest⟩ := keys_eq_concat hroot
  rw [hrest, List.suffix_concat_iff] at hsuffix
  rcases hsuffix with hnil | ⟨init, rfl, -⟩
  · exact absurd hnil hne
  · simp

lemma root_seq_lt (hcoherent : Coherent versions) (hroot : versions.head? = some root)
    {r : SourceMappingRow ρ} (hr : r ∈ versions) (hne : key r ≠ key root) :
    root.versionSeqPerSource < r.versionSeqPerSource := by
  have hseqs : (versions.map (·.versionSeqPerSource)).Pairwise (· < ·) := by
    rw [hcoherent.seqs]
    exact List.pairwise_lt_range'
  cases versions with
  | nil => cases hr
  | cons first rest =>
    cases hroot
    rcases List.mem_cons.mp hr with rfl | hr
    · exact absurd rfl hne
    · exact (List.pairwise_cons.mp (List.pairwise_map.mp hseqs)).1 r hr

lemma keys_subset_of_not_behind (hcoherent : Coherent versions) {tx : Tx ρ}
    (hholds : HoldsRoot versions tx.locks) (hbehind : ¬ Behind versions tx) :
    versions.reverse.map key ⊆ tx.locks := by
  obtain ⟨root, hroot, hlock⟩ := hholds
  intro id hid
  obtain ⟨r, hr, rfl⟩ := List.mem_map.mp hid
  by_contra hfree
  have hmem : r ∈ versions := List.mem_reverse.mp hr
  refine hbehind ⟨r, hmem, root, List.mem_of_mem_head? hroot, ?_, hfree, .inl hlock⟩
  exact root_seq_lt hcoherent hroot hmem fun heq => hfree (heq ▸ hlock)

lemma queue_eq_of_not_behind (hcoherent : Coherent versions) (hexist : versions ≠ []) {tx : Tx ρ}
    (hne : queue tx ≠ []) (hsuffix : queue tx <:+ versions.reverse.map key)
    (hbehind : ¬ Behind versions tx) : queue tx = versions.reverse.map key := by
  obtain ⟨extra, hextra⟩ := hsuffix
  obtain ⟨root, hroot⟩ : ∃ root, versions.head? = some root :=
    ⟨versions.head hexist, List.head?_eq_some_head hexist⟩
  have hmem : key root ∈ queue tx := root_mem_queue hroot hne ⟨extra, hextra⟩
  cases extra with
  | nil => exact hextra
  | cons id extra =>
    have hid : id ∈ versions.reverse.map key := by simp [← hextra]
    obtain ⟨r, hr, rfl⟩ := List.mem_map.mp hid
    have hr : r ∈ versions := List.mem_reverse.mp hr
    -- the newest version is before the queue, so not in it
    have hnot : key r ∉ queue tx := by
      have hnodup : (versions.reverse.map key).Nodup := by
        rw [List.map_reverse, List.nodup_reverse]
        exact hcoherent.keys
      rw [← hextra] at hnodup
      exact fun hin => (List.nodup_cons.mp hnodup).1 (List.mem_append_right _ hin)
    simp only [queue, List.mem_append, List.mem_reverse, not_or] at hnot hmem
    refine absurd ⟨r, hr, root, List.mem_of_mem_head? hroot, ?_, hnot.1, ?_⟩ hbehind
    · refine root_seq_lt hcoherent hroot hr fun heq => ?_
      rw [heq] at hnot
      exact hmem.elim hnot.1 hnot.2
    · exact hmem.imp_right fun h => ⟨h, hnot.2⟩

end Versions

section Keeps

variable [DecidableEq ι] {requests : ι → Request ρ} {templateId : Uuid} {s : State ι ρ} {i : ι}

/-- One request moves: in its first statement it keeps its queue or begins with one that fits
the others, and past it, it has all that the others queue for. -/
lemma Queued.move (hq : Queued requests templateId s) {tx : Tx ρ} (next : ℕ)
    (hstands : ∀ p, requests i = .patch p → Stands p (lineage templateId s.rows) tx)
    (hfirst : InFirst tx → InFirst (s.txs i) ∧ queue tx = queue (s.txs i) ∨
      ∀ j, j ≠ i →
        (InFirst (s.txs j) → queue (s.txs j) ≠ [] → queue tx ≠ [] → queue tx = queue (s.txs j)) ∧
        (Past (s.txs j) → (s.txs j).locks ≠ [] → queue tx ⊆ (s.txs j).locks))
    (hpast : Past tx → tx.locks ≠ [] → ∀ j, j ≠ i → InFirst (s.txs j) →
      queue (s.txs j) ⊆ tx.locks) :
    Queued requests templateId { s.set i tx with nextVersionId := next } := by
  have hself : (s.set i tx).txs i = tx := set_txs_self s i tx
  have hother : ∀ j, j ≠ i → (s.set i tx).txs j = s.txs j := fun j hj => set_txs_of_ne s hj tx
  -- a queue that is not new fits the others because it did before
  have hfits : InFirst tx → ∀ j, j ≠ i →
      (InFirst (s.txs j) → queue (s.txs j) ≠ [] → queue tx ≠ [] → queue tx = queue (s.txs j)) ∧
      (Past (s.txs j) → (s.txs j).locks ≠ [] → queue tx ⊆ (s.txs j).locks) := by
    intro hin j hj
    rcases hfirst hin with ⟨hold, heq⟩ | hnew
    · rw [heq]
      exact ⟨fun hj' hjne hine => hq.same i j hold hj' hine hjne, hq.covered i j hold⟩
    · exact hnew j hj
  refine ⟨hq.exist, fun j p hp => ?_, fun a b ha hb hane hbne => ?_, fun a b ha hb hbne => ?_⟩
  · dsimp only
    by_cases hj : j = i
    · subst hj
      rw [hself]
      exact hstands p hp
    · rw [hother j hj]
      exact hq.stands j p hp
  · dsimp only at ha hb hane hbne ⊢
    by_cases hai : a = i <;> by_cases hbi : b = i
    · rw [hai, hbi]
    · subst hai
      rw [hself] at ha hane ⊢
      rw [hother b hbi] at hb hbne ⊢
      exact (hfits ha b hbi).1 hb hbne hane
    · subst hbi
      rw [hself] at hb hbne ⊢
      rw [hother a hai] at ha hane ⊢
      exact ((hfits hb a hai).1 ha hane hbne).symm
    · rw [hother a hai] at ha hane ⊢
      rw [hother b hbi] at hb hbne ⊢
      exact hq.same a b ha hb hane hbne
  · dsimp only at ha hb hbne ⊢
    by_cases hai : a = i <;> by_cases hbi : b = i
    · subst hai hbi
      rw [hself] at ha hb
      obtain ⟨todo, hphase⟩ := ha
      simp [Past, hphase] at hb
    · subst hai
      rw [hself] at ha ⊢
      rw [hother b hbi] at hb hbne ⊢
      exact (hfits ha b hbi).2 hb hbne
    · subst hbi
      rw [hself] at hb hbne ⊢
      rw [hother a hai] at ha ⊢
      exact hpast hb hbne a hai ha
    · rw [hother a hai] at ha ⊢
      rw [hother b hbi] at hb hbne ⊢
      exact hq.covered a b ha hb hbne

lemma Queued.onward (hq : Queued requests templateId s) (hold : Past (s.txs i))
    (hholds : HoldsRoot (lineage templateId s.rows) (s.txs i).locks) {tx : Tx ρ} (hnew : Past tx)
    (hlocks : (s.txs i).locks ⊆ tx.locks) (next : ℕ) :
    Queued requests templateId { s.set i tx with nextVersionId := next } := by
  refine hq.move next (fun p _ => ?_) (fun ⟨todo, hphase⟩ => ?_) fun _ _ j _ hj id hid => ?_
  · have hroot := hholds.mono hlocks
    unfold Past at hnew
    unfold Stands
    cases hphase : tx.phase with
    | second todo locked => exact .inr hroot
    | updating todo locked templateName => exact hroot
    | editing locked templateName => exact hroot
    | ready => exact hroot
    | _ =>
      rw [hphase] at hnew
      cases hnew
  · simp [Past, hphase] at hnew
  · obtain ⟨root, -, hlock⟩ := hholds
    exact hlocks (hq.covered j i hj hold (List.ne_nil_of_mem hlock) hid)

lemma Queued.goOn (hq : Queued requests templateId s) {tx : Tx ρ} (hold : Past (s.txs i))
    (hholds : HoldsRoot (lineage templateId s.rows) (s.txs i).locks) (hnew : Past tx)
    (hlocks : (s.txs i).locks ⊆ tx.locks) : Queued requests templateId (s.set i tx) :=
  hq.onward hold hholds hnew hlocks s.nextVersionId

lemma Queued.ended (hq : Queued requests templateId s) :
    Queued requests templateId (s.set i .ended) :=
  hq.move s.nextVersionId (fun _ _ => rfl) (fun ⟨_, h⟩ => by cases h) fun _ h => absurd rfl h

lemma Stands.frame {p : PatchTemplate ρ} {versions versions' : List (SourceMappingRow ρ)}
    {tx : Tx ρ} (h : Stands p versions tx) (hexist : versions ≠ []) (hcoherent : Coherent versions')
    (hkeys : versions.map key <+: versions'.map key)
    (htenant : ∀ r ∈ versions, ∃ r' ∈ versions', r'.tenantId = r.tenantId) :
    Stands p versions' tx := by
  -- locks are taken from the newest version down, and new versions come in front
  have hsuffix : versions.reverse.map key <:+ versions'.reverse.map key := by
    rw [List.map_reverse, List.map_reverse]
    exact List.reverse_suffix.mpr hkeys
  have hroot : HoldsRoot versions tx.locks → HoldsRoot versions' tx.locks := by
    rintro ⟨root, hroot, hlock⟩
    obtain ⟨extra, hextra⟩ := hkeys
    have hhead : (versions'.map key).head? = some (key root) := by
      rw [← hextra, List.head?_append, List.head?_map, hroot]
      rfl
    rw [List.head?_map, Option.map_eq_some_iff] at hhead
    obtain ⟨root', hroot', heq⟩ := hhead
    exact ⟨root', hroot', by rwa [heq]⟩
  have hblind : Blind p versions → Blind p versions' := by
    intro hblind r hr
    obtain ⟨own, hown⟩ := List.exists_mem_of_ne_nil _ hexist
    obtain ⟨own', hown', heq⟩ := htenant own hown
    have hunseen := hblind own hown
    simpa [Session.sees, hcoherent.tenant r hr own' hown', heq] using hunseen
  unfold Stands at h ⊢
  cases hphase : tx.phase with
  | first todo =>
    rw [hphase] at h
    exact h.imp (fun h => ⟨hblind h.1, h.2⟩) fun h => ⟨h.1, h.2.trans hsuffix⟩
  | second todo locked =>
    rw [hphase] at h
    exact h.imp (fun h => ⟨hblind h.1, h.2⟩) hroot
  | updating todo locked templateName =>
    rw [hphase] at h
    exact hroot h
  | editing locked templateName =>
    rw [hphase] at h
    exact hroot h
  | ready =>
    rw [hphase] at h
    exact hroot h
  | _ =>
    rw [hphase] at h
    exact h

lemma queued_commit (hpatches : ∀ i, ∃ p, requests i = .patch p ∧ p.templateId = templateId)
    (hg : Good requests s) (hq : Queued requests templateId s)
    (hphase : (s.txs i).phase = .ready) :
    Queued requests templateId
      { s.set i .ended with rows := (s.txs i).writes.foldl Write.apply s.rows } := by
  have hended := hq.ended (i := i)
  have hcoherent := ((edits_commit hg hphase templateId).coherent_keeps (hg.coherent templateId)).1
  rcases (commit_cases hg hphase).2 with hnil | ⟨written, hwriter, hcommits⟩
  · rw [hnil]
    exact hended
  obtain rfl : written = templateId := by
    obtain ⟨p, hp, htemplate⟩ := hpatches i
    cases hwriter with
    | patch hreq hwritten =>
      rw [hp] at hreq
      cases hreq
      exact hwritten.symm.trans htemplate
    | create hreq =>
      rw [hp] at hreq
      cases hreq
  refine ⟨fun hnil => hq.exist ?_, fun j p hp => ?_, hended.same, hended.covered⟩
  · have hkeys := hcommits.keys
    dsimp only at hnil
    rw [hnil, List.map_nil, List.prefix_nil, List.map_eq_nil_iff] at hkeys
    exact hkeys
  · exact (hended.stands j p hp).frame hq.exist hcoherent hcommits.keys hcommits.tenant

lemma queued_snapshotFirst
    (hpatches : ∀ i, ∃ p, requests i = .patch p ∧ p.templateId = templateId)
    (hg : Good requests s) (hq : Queued requests templateId s) {p : PatchTemplate ρ}
    (hreq : requests i = .patch p) (hphase : (s.txs i).phase = .opened)
    (hbehind : ∀ j, ¬ Behind (lineage templateId s.rows) (s.txs j)) :
    Queued requests templateId (s.set i { s.txs i with
      phase :=
        .first ((lineageStmt p.session p.templateId s.rows).map (·.mappingVersionId)) }) := by
  have htemplate := template_of_patch hpatches hreq
  have hcoherent := hg.coherent templateId
  have hlocks := hq.stands i p hreq
  simp only [Stands, hphase] at hlocks
  rw [htemplate]
  rcases lineageStmt_cases (s := p.session) hcoherent with ⟨hblind, hnil⟩ | ⟨hsees, hall⟩
  · rw [hnil]
    refine hq.move _ (fun q hq' => ?_) (fun _ => .inr fun j _ => ?_) fun h => h.elim
    · rw [hreq] at hq'
      cases hq'
      exact .inl ⟨hblind, hlocks, rfl⟩
    · simp [queue, toLock, hlocks]
  · rw [hall]
    have hqueue : queue { s.txs i with
        phase := .first ((lineage templateId s.rows).reverse.map (·.mappingVersionId)) } =
          (lineage templateId s.rows).reverse.map key := by
      simp [queue, toLock, hlocks]
    refine hq.move _ (fun q _ => .inr ?_) (fun _ => .inr fun j hj => ⟨?_, ?_⟩) fun h => h.elim
    · rw [hqueue]
      exact ⟨by simpa using hq.exist, List.suffix_refl _⟩
    · rintro ⟨todo, hfirst⟩ hne -
      obtain ⟨q, hq', -⟩ := hpatches j
      have hstands := hq.stands j q hq'
      simp only [Stands, hfirst] at hstands
      rcases hstands with ⟨-, hnone, hnil⟩ | ⟨-, hsuffix⟩
      · exact absurd (by simp [queue, toLock, hfirst, hnone, hnil]) hne
      · rw [hqueue]
        exact (queue_eq_of_not_behind hcoherent hq.exist hne hsuffix (hbehind j)).symm
    · -- nobody is behind, so those past their first statement hold every version of the snapshot
      intro hpast hne
      obtain ⟨q, hq', -⟩ := hpatches j
      rw [hqueue]
      exact keys_subset_of_not_behind hcoherent
        (holdsRoot_of_past (hq.stands j q hq') hpast hne) (hbehind j)

lemma queued_lockFirst (hq : Queued requests templateId s) {id : ℕ} {todo : List ℕ}
    (hphase : (s.txs i).phase = .first (id :: todo)) :
    Queued requests templateId (s.set i { s.txs i with
      phase := .first todo, locks := id :: (s.txs i).locks }) := by
  have hqueue : queue { s.txs i with phase := .first todo, locks := id :: (s.txs i).locks } =
      queue (s.txs i) := by
    simp [queue, toLock, hphase]
  refine hq.move _ (fun q hq' => ?_) (fun _ => .inl ⟨⟨_, hphase⟩, hqueue⟩) fun h => h.elim
  have hstands := hq.stands i q hq'
  simp only [Stands, hphase] at hstands
  rcases hstands with ⟨-, -, hnil⟩ | hqueued
  · cases hnil
  · exact .inr (by rwa [hqueue])

lemma queued_snapshotSecond
    (hpatches : ∀ i, ∃ p, requests i = .patch p ∧ p.templateId = templateId)
    (hg : Good requests s) (hq : Queued requests templateId s) {p : PatchTemplate ρ}
    (hreq : requests i = .patch p) (hphase : (s.txs i).phase = .first []) :
    Queued requests templateId (s.set i { s.txs i with
      phase := .second ((lineageStmt p.session p.templateId s.rows).map
        (·.mappingVersionId)) [] }) := by
  have htemplate := template_of_patch hpatches hreq
  have hqueue : queue (s.txs i) = (s.txs i).locks.reverse := by simp [queue, toLock, hphase]
  refine hq.move _ (fun q hq' => ?_) (fun ⟨_, h⟩ => by cases h) fun _ hne j _ hj => ?_
  · rw [hreq] at hq'
    cases hq'
    have hstands := hq.stands i p hreq
    simp only [Stands, hphase] at hstands
    rcases hstands with ⟨hblind, hnone, -⟩ | ⟨hne, hsuffix⟩
    · refine .inl ⟨hblind, hnone, ?_⟩
      rcases lineageStmt_cases (s := p.session) (hg.coherent p.templateId) with
        ⟨-, hnil⟩ | ⟨hsees, -⟩
      · rw [hnil]
        rfl
      · obtain ⟨r, hr⟩ := List.exists_mem_of_ne_nil _ hq.exist
        have hseen := hsees r (htemplate ▸ hr)
        rw [hblind r hr] at hseen
        cases hseen
    · refine .inr ⟨_, List.head?_eq_some_head hq.exist, ?_⟩
      have hroot := root_mem_queue (List.head?_eq_some_head hq.exist) hne hsuffix
      rw [hqueue] at hroot
      exact List.mem_reverse.mp hroot
  · -- those still in their first statement queue for what this request has locked
    intro id hid
    have hne' : queue (s.txs i) ≠ [] := by
      rw [hqueue]
      simpa using hne
    rw [hq.same j i hj ⟨_, hphase⟩ (List.ne_nil_of_mem hid) hne', hqueue] at hid
    exact List.mem_reverse.mp hid

lemma queued_step (hpatches : ∀ i, ∃ p, requests i = .patch p ∧ p.templateId = templateId)
    (hg : Good requests s) (hq : Queued requests templateId s) {s' : State ι ρ}
    (hcalm : CalmStep requests templateId s s') : Queued requests templateId s' := by
  obtain ⟨hstep, hbegins⟩ := hcalm
  cases hstep with
  | @create i c hreq hphase hrange =>
    obtain ⟨p, hp, -⟩ := hpatches i
    rw [hp] at hreq
    cases hreq
  | read hreq hphase hfound =>
    exact hq.move _ (fun _ _ => rfl) (fun ⟨_, h⟩ => by cases h) fun h => h.elim
  | @snapshotFirst i p hreq hphase =>
    have hbehind := hbegins i ⟨hphase, _, by rw [set_txs_self]⟩
    exact queued_snapshotFirst hpatches hg hq hreq hphase hbehind
  | @lockFirst i id todo hphase hfree =>
    exact queued_lockFirst hq hphase
  | @snapshotSecond i p hreq hphase => exact queued_snapshotSecond hpatches hg hq hreq hphase
  | @lockSecond i r todo locked hphase hrow hfree =>
    obtain ⟨p, hp, -⟩ := hpatches i
    have hstands := hq.stands i p hp
    simp only [Stands, hphase] at hstands
    rcases hstands with ⟨-, -, hnil⟩ | hholds
    · cases hnil
    · exact hq.goOn (by simp [Past, hphase]) hholds trivial (List.subset_cons_self _ _)
  | @keepName i p r locked hreq hphase hname =>
    have hholds := holdsRoot_of_locked hg hq hreq hphase
    exact hq.goOn (by simp [Past, hphase]) hholds trivial (List.Subset.refl _)
  | @rename i p r locked templateName todo hreq hphase hname hne hscan =>
    have hholds := holdsRoot_of_locked hg hq hreq hphase
    exact hq.goOn (by simp [Past, hphase]) hholds trivial (List.Subset.refl _)
  | @setName i p r todo locked templateName hreq hphase hrow hadmits hfree =>
    have hholds := hq.stands i p hreq
    simp only [Stands, hphase] at hholds
    exact hq.goOn (by simp [Past, hphase]) hholds trivial (List.subset_cons_self _ _)
  | @renamed i locked templateName hphase =>
    obtain ⟨p, hp, -⟩ := hpatches i
    have hholds := hq.stands i p hp
    simp only [Stands, hphase] at hholds
    exact hq.goOn (by simp [Past, hphase]) hholds trivial (List.Subset.refl _)
  | @noRules i p locked templateName hreq hphase hrules =>
    have hholds := hq.stands i p hreq
    simp only [Stands, hphase] at hholds
    exact hq.goOn (by simp [Past, hphase]) hholds trivial (List.Subset.refl _)
  | @inPlace i p locked templateName rules draft hreq hphase hrules hedit hadmits =>
    have hholds := hq.stands i p hreq
    simp only [Stands, hphase] at hholds
    exact hq.goOn (by simp [Past, hphase]) hholds trivial (List.Subset.refl _)
  | @chain i p locked templateName rules head hreq hphase hrules hedit hrange =>
    have hholds := hq.stands i p hreq
    simp only [Stands, hphase] at hholds
    refine hq.onward (by simp [Past, hphase]) hholds ?_ ?_ _
    · exact trivial
    · exact List.Subset.refl _
  | commit hphase => exact queued_commit hpatches hg hq hphase
  | abort => exact hq.ended

end Keeps

/-- **Calm runs do not deadlock**: where no PATCH of the lineage begins while another is behind,
no request ever waits for itself, through however many others. -/
theorem no_wait_cycle [DecidableEq ι] (requests : ι → Request ρ) (templateId : Uuid)
    (hpatches : ∀ i, ∃ p, requests i = .patch p ∧ p.templateId = templateId)
    {start s : State ι ρ} (hstart : Starts requests start)
    (hexist : lineage templateId start.rows ≠ [])
    (hs : Relation.ReflTransGen (CalmStep requests templateId) start s) (i : ι) :
    ¬ Relation.TransGen (WaitsFor s) i i := by
  have hkept : Good requests s ∧ Queued requests templateId s := by
    induction hs with
    | refl =>
      refine ⟨hstart.good, hexist, fun j p _ => ?_, fun j k hj => ?_, fun j k hj => ?_⟩
      · rw [hstart.idle j]
        rfl
      · rw [hstart.idle j] at hj
        obtain ⟨todo, htodo⟩ := hj
        cases htodo
      · rw [hstart.idle j] at hj
        obtain ⟨todo, htodo⟩ := hj
        cases htodo
    | tail _ hcalm ih =>
      exact ⟨good_step ih.1 hstart.minted hcalm.1, queued_step hpatches ih.1 ih.2 hcalm⟩
  exact not_waits_of_queued hpatches hkept.1 hkept.2 i

/-! ### Two and three requests -/

section Schedules

variable [DecidableEq ι] [Fintype ι] (requests : ι → Request ρ) (templateId : Uuid)

/-- Every step of the schedule is taken while the lineage has one version. -/
def oneVersion : List ι → State ι ρ → Bool
  | [], _ => true
  | i :: schedule, s => (lineage templateId s.rows).length = 1 &&
    ((advance requests s i).map (oneVersion schedule)).getD true

lemma calm_of_oneVersion {schedule : List ι} {s s' : State ι ρ}
    (h : runSchedule requests schedule s = some s')
    (hone : oneVersion requests templateId schedule s) :
    Relation.ReflTransGen (CalmStep requests templateId) s s' := by
  induction schedule generalizing s with
  | nil =>
    cases h
    exact .refl
  | cons i schedule ih =>
    obtain ⟨mid, hmid, hrest⟩ := Option.bind_eq_some_iff.mp h
    simp only [oneVersion, hmid, Option.map_some, Option.getD_some, Bool.and_eq_true,
      decide_eq_true_eq] at hone
    obtain ⟨version, hversion⟩ := List.length_eq_one_iff.mp hone.1
    refine .head ⟨step_of_advance requests hmid, fun _ _ j => ?_⟩ (ih hrest hone.2)
    rintro ⟨newer, hnewer, older, holder, hlt, -⟩
    rw [hversion, List.mem_singleton] at hnewer holder
    rw [hnewer, holder] at hlt
    exact lt_irrefl _ hlt

end Schedules

lemma rulesRequests_patch (i : Fin 3) :
    ∃ p, rulesRequests i = .patch p ∧ p.templateId = .ofNat 7 := ⟨rulesEdits i, rfl, rfl⟩

/-- The second request waits for the first, which waits for nobody. -/
theorem second_edit_waits : ∃ s, runSchedule rulesRequests [0, 0, 0, 1, 1] sampleStart = some s ∧
    WaitsFor s 1 0 ∧ ¬ Relation.TransGen (WaitsFor s) 1 1 := by
  obtain ⟨s, hs⟩ : ∃ s, runSchedule rulesRequests [0, 0, 0, 1, 1] sampleStart = some s := ⟨_, rfl⟩
  have hlocks : (runSchedule rulesRequests [0, 0, 0, 1, 1] sampleStart).map
      (fun s => ((toLock (s.txs 1).phase).head?, (s.txs 0).locks)) = some (some 1, [1]) := by
    decide +kernel
  simp only [hs, Option.map_some, Option.some.injEq, Prod.mk.injEq] at hlocks
  refine ⟨s, hs, ⟨by decide, 1, hlocks.1, by simp [hlocks.2]⟩,
    no_wait_cycle rulesRequests (.ofNat 7) rulesRequests_patch sampleStart_starts (by decide)
      (calm_of_oneVersion _ _ hs (by decide +kernel)) 1⟩

/-- The first request commits a draft while the second waits for the version. The second takes
the version; the third begins, takes the draft and waits for the version; and the second
statement of the second asks for the draft. -/
theorem three_edits_deadlock : Starts rulesRequests sampleStart ∧
    ∃ s, Reaches rulesRequests sampleStart s ∧ Relation.TransGen (WaitsFor s) 1 1 := by
  obtain ⟨s, hs⟩ : ∃ s, runSchedule rulesRequests [0, 0, 0, 1, 1, 0, 0, 0, 0, 0, 1, 2, 2, 2, 1]
      sampleStart = some s := ⟨_, rfl⟩
  have hlocks : (runSchedule rulesRequests [0, 0, 0, 1, 1, 0, 0, 0, 0, 0, 1, 2, 2, 2, 1]
      sampleStart).map (fun s => ((toLock (s.txs 1).phase).head?, (s.txs 1).locks,
        (toLock (s.txs 2).phase).head?, (s.txs 2).locks)) = some (some 2, [1], some 1, [2]) := by
    decide +kernel
  simp only [hs, Option.map_some, Option.some.injEq, Prod.mk.injEq] at hlocks
  obtain ⟨hwants, hholds, hwants', hholds'⟩ := hlocks
  refine ⟨sampleStart_starts, s, reaches_of_runSchedule rulesRequests hs,
    .head ⟨by decide, 2, hwants, by simp [hholds']⟩
      (.single ⟨by decide, 1, hwants', by simp [hholds]⟩)⟩

end CortexDis.PatchWaits
