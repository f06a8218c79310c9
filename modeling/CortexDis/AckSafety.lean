import CortexDis.Accounting
import CortexDis.MissHistory
import CortexDis.Orchestrate

/-!
Acknowledged means handled.

A message leaves the queue when its envelope was no event, when the whole chunk was written,
or when a record of it was held and nothing of it was written. The last needs that what a
batch transaction raises is never one of the exceptions the handler holds: a batch before it
may be in the tables by then.
-/

namespace CortexDis.AckSafety

open CortexDis.Values CortexDis.Envelope CortexDis.Errors CortexDis.GroupHot CortexDis.HotSink
open CortexDis.WriteChunk CortexDis.Catalogue CortexDis.Quarantine CortexDis.Intake
open CortexDis.Orchestrate CortexDis.Bronze CortexDis.Frames CortexDis.PyDict CortexDis.PyText
open CortexDis.PyJson CortexDis.HotWrites CortexDis.MissHistory

/-- What the transactions of an attempt raise, no registry entry maps. -/
def DbFailuresUnmapped (txs : ℕ → Tx) : Prop :=
  ∀ i e landed, (txs i).fate = .raises e landed → e.Unmapped

/-! ### The event write -/

/-- Every batch ran in a transaction that committed, its rows are in the event table and its
groups merged into the hot table, and no natural key was missing. -/
structure Complete (a : WriteArgs Cell) (txs : ℕ → Tx) (bs : List (List (EventRow Cell)))
    (db : Db) (run : ChunkRun) : Prop where
  commits : ∀ i < bs.length, (txs i).fate = .commits
  rows : run.log.map (·.rows) = bs
  inserted : columns (run.db.events a.loaded.targetModel) =
    columns (db.events a.loaded.targetModel) ++ bs.flatten.map (rowColumns a.loaded.targetModel)
  merged : (run.db.hot, run.merges) =
    mergeGroups a (bs.flatMap fun b => sortGroups (groupHot b)) db.hot
  noMiss : ∀ m ∈ run.merges, m.2 ≠ .missing

lemma not_missing_of_misses {l : BatchLog} (h : l.misses = []) :
    ∀ m ∈ l.merges, m.2 ≠ .missing := by
  intro m hm hmiss
  have := List.filter_eq_nil_iff.mp h m hm
  simp [hmiss] at this

/-- A batch loop that raises nothing was complete; one that raises met a miss or a failed
transaction. -/
lemma writeBatches_cases (d : Driver) (a : WriteArgs Cell) (tsColumn : String) (txs : ℕ → Tx)
    (bs : List (List (EventRow Cell))) (db : Db) :
    ((writeBatches d a tsColumn txs bs db).raised = none ∧
      Complete a txs bs db (writeBatches d a tsColumn txs bs db)) ∨
    ∃ e, (writeBatches d a tsColumn txs bs db).raised = some e ∧
      ((∃ n, e = .hotPositionMissing n) ∨ ∃ i landed, (txs i).fate = .raises e landed) := by
  induction bs generalizing txs db with
  | nil => exact Or.inl ⟨rfl, by simp, rfl, by simp [writeBatches], rfl,
      by simp [writeBatches, ChunkRun.merges]⟩
  | cons b bs ih =>
    rw [writeBatches]
    cases hfate : (txs 0).fate with
    | raises e landed => exact Or.inr ⟨e, rfl, Or.inr ⟨0, landed, hfate⟩⟩
    | commits =>
      dsimp only
      -- the loop goes on only after a batch without a miss
      by_cases hmiss : (writeBatch d a tsColumn (txs 0).now b db).2.misses = []
      · rw [if_pos hmiss]
        rcases ih (fun i => txs (i + 1)) (writeBatch d a tsColumn (txs 0).now b db).1 with
          ⟨hnone, hcommits, hrows, hinserted, hmerged, hno⟩ | ⟨e, he, hwhy⟩
        · refine Or.inl ⟨hnone, ?_, ?_, ?_, ?_, ?_⟩
          · intro i hi
            cases i with
            | zero => exact hfate
            | succ i => exact hcommits i (by simpa using hi)
          · simpa [writeBatch] using hrows
          · dsimp only
            rw [hinserted, columns_writeBatch]
            simp
          · rw [List.flatMap_cons, mergeGroups_append]
            obtain ⟨hhot, hmerges⟩ := Prod.mk.inj hmerged
            have hlog : (writeBatch d a tsColumn (txs 0).now b db).2.merges ++
                (writeBatches d a tsColumn (fun i => txs (i + 1)) bs
                  (writeBatch d a tsColumn (txs 0).now b db).1).merges = _ :=
              congrArg ((writeBatch d a tsColumn (txs 0).now b db).2.merges ++ ·) hmerges
            exact Prod.ext hhot hlog
          · intro m hm
            simp only [ChunkRun.merges, List.flatMap_cons, List.mem_append] at hm
            rcases hm with hm | hm
            · exact not_missing_of_misses hmiss m hm
            · exact hno m hm
        · refine Or.inr ⟨e, he, hwhy.imp_right ?_⟩
          rintro ⟨i, landed, hi⟩
          exact ⟨i + 1, landed, hi⟩
      · rw [if_neg hmiss]
        exact Or.inr ⟨_, rfl, Or.inl ⟨_, rfl⟩⟩

lemma writeChunk_cases (d : Driver) (a : WriteArgs Cell) (n : ℕ) {txs : ℕ → Tx}
    (hdb : DbFailuresUnmapped txs) (rows : List (EventRow Cell)) (db : Db) :
    ((writeChunk d a n txs rows db).raised = none ∧
      Complete a txs (batches rows n) db (writeChunk d a n txs rows db)) ∨
    ∃ e, (writeChunk d a n txs rows db).raised = some e ∧
      ((∃ k, e = .hotPositionMissing k) ∨ e.Unmapped) := by
  unfold writeChunk
  split
  · exact Or.inr ⟨_, rfl, Or.inr rfl⟩
  · rename_i tsColumn _
    rcases writeBatches_cases d a tsColumn txs (batches rows n) db with h | ⟨e, he, hwhy⟩
    · exact Or.inl h
    · refine Or.inr ⟨e, he, hwhy.imp_right ?_⟩
      rintro ⟨i, landed, hi⟩
      exact hdb i e landed hi

/-! ### The catalogue write -/

/-- Every batch of a catalogue committed, and every key of it has a row. -/
structure CatalogueComplete (a : WriteArgs Cell) (n : ℕ) (txs : ℕ → Tx)
    (groups : List (HotGroup Cell)) (t : HotTable Cell) : Prop where
  commits : ∀ i < (batches groups n).length, (txs i).fate = .commits
  present : ∀ g ∈ groups, (t.find? (catalogueParams a g).key).isSome

lemma insertOnConflict_keeps (p : HotParams Cell) (t : HotTable Cell) :
    Keeps t (insertOnConflictHotCompletePath p t).1 := by
  intro k hk
  unfold insertOnConflictHotCompletePath
  split
  · rw [find?_insert, Option.isSome_or]
    simp [hk]
  · rw [isSome_find?_update]
    exact hk

lemma insertOnConflict_present (p : HotParams Cell) (t : HotTable Cell) :
    ((insertOnConflictHotCompletePath p t).1.find? p.key).isSome := by
  have hkey : p.newRow.key = p.key := rfl
  unfold insertOnConflictHotCompletePath
  split
  · rw [find?_insert, Option.isSome_or]
    simp [hkey]
  · rename_i hsome
    rw [isSome_find?_update, ← hkey]
    exact Option.isSome_iff_ne_none.mpr hsome

lemma foldl_present (a : WriteArgs Cell) (gs : List (HotGroup Cell)) (t : HotTable Cell) :
    let after := gs.foldl
      (fun t g => (insertOnConflictHotCompletePath (catalogueParams a g) t).1) t
    Keeps t after ∧ ∀ g ∈ gs, (after.find? (catalogueParams a g).key).isSome := by
  induction gs generalizing t with
  | nil => exact ⟨fun _ hk => hk, by simp⟩
  | cons g gs ih =>
    obtain ⟨hkeeps, hpresent⟩ := ih (insertOnConflictHotCompletePath (catalogueParams a g) t).1
    refine ⟨fun k hk => hkeeps k (insertOnConflict_keeps _ t k hk), ?_⟩
    intro g' hg'
    rcases List.mem_cons.mp hg' with rfl | hg'
    · exact hkeeps _ (insertOnConflict_present _ t)
    · exact hpresent g' hg'

lemma writeCatalogueBatch_present (a : WriteArgs Cell) (b : List (HotGroup Cell))
    (t : HotTable Cell) :
    Keeps t (writeCatalogueBatch a b t) ∧
      ∀ g ∈ b, ((writeCatalogueBatch a b t).find? (catalogueParams a g).key).isSome := by
  obtain ⟨hkeeps, hpresent⟩ := foldl_present a (sortGroups b) t
  exact ⟨hkeeps, fun g hg => hpresent g ((List.mem_insertionSort _).mpr hg)⟩

lemma writeCatalogueBatches_cases (a : WriteArgs Cell) (txs : ℕ → Tx)
    (bs : List (List (HotGroup Cell))) (t : HotTable Cell) :
    ((writeCatalogueBatches a txs bs t).2 = none ∧ (∀ i < bs.length, (txs i).fate = .commits) ∧
      Keeps t (writeCatalogueBatches a txs bs t).1 ∧
      ∀ b ∈ bs, ∀ g ∈ b,
        ((writeCatalogueBatches a txs bs t).1.find? (catalogueParams a g).key).isSome) ∨
    ∃ e i landed, (writeCatalogueBatches a txs bs t).2 = some e ∧
      (txs i).fate = .raises e landed := by
  induction bs generalizing txs t with
  | nil => exact Or.inl ⟨rfl, by simp, fun _ hk => hk, by simp⟩
  | cons b bs ih =>
    rw [writeCatalogueBatches]
    cases hfate : (txs 0).fate with
    | raises e landed => exact Or.inr ⟨e, 0, landed, rfl, hfate⟩
    | commits =>
      dsimp only
      -- the keys of this batch are there now, and no later batch removes a row
      obtain ⟨hkeeps, hpresent⟩ := writeCatalogueBatch_present a b t
      rcases ih (fun i => txs (i + 1)) (writeCatalogueBatch a b t) with
        ⟨hnone, hcommits, hlater, hrest⟩ | ⟨e, i, landed, he, hi⟩
      · refine Or.inl ⟨hnone, ?_, fun k hk => hlater k (hkeeps k hk), ?_⟩
        · intro i hi
          cases i with
          | zero => exact hfate
          | succ i => exact hcommits i (by simpa using hi)
        · intro b' hb' g hg
          rcases List.mem_cons.mp hb' with rfl | hb'
          · exact hlater _ (hpresent g hg)
          · exact hrest b' hb' g hg
      · exact Or.inr ⟨e, i + 1, landed, he, hi⟩

lemma catalogueGroups_unmapped {event : IngressReadyEvent} {result : MappingResult} {e : Exn}
    (h : catalogueGroups event result = .error e) : e.Unmapped := by
  unfold catalogueGroups at h
  split at h
  · cases h
    rfl
  · split at h <;> cases h
    rfl

lemma writeCatalogueChunk_cases (a : WriteArgs Cell) {n : ℕ} (hn : 1 ≤ n) {txs : ℕ → Tx}
    (hdb : DbFailuresUnmapped txs) (result : MappingResult) (db : Db) :
    (∃ report groups, (writeCatalogueChunk a n txs result db).2 = .ok report ∧
      catalogueGroups a.event result = .ok groups ∧
      CatalogueComplete a n txs groups (writeCatalogueChunk a n txs result db).1.hot) ∨
    ∃ e, (writeCatalogueChunk a n txs result db).2 = .error e ∧ e.Unmapped := by
  unfold writeCatalogueChunk
  cases hg : catalogueGroups a.event result with
  | error e => exact Or.inr ⟨e, rfl, catalogueGroups_unmapped hg⟩
  | ok groups =>
    rcases writeCatalogueBatches_cases a txs (batches groups n) db.hot with
      ⟨hnone, hcommits, -, hpresent⟩ | ⟨e, i, landed, he, hi⟩
    · refine Or.inl ⟨_, groups, by dsimp only; rw [hnone], rfl, hcommits, ?_⟩
      intro g hgm
      rw [← flatten_batches groups hn] at hgm
      obtain ⟨b, hb, hgb⟩ := List.mem_flatten.mp hgm
      exact hpresent b hb g hgb
    · exact Or.inr ⟨e, by dsimp only; rw [he], hdb i e landed hi⟩

/-! ### The handlers -/

section Handlers

variable {p : ConsumerPipeline} {c : Calls} {event : IngressReadyEvent} {ctx : FlowContext}

lemma not_quarantinable {e : Exn} (h : (∃ n, e = .hotPositionMissing n) ∨ e.Unmapped) :
    quarantinable e ctx = false := by
  have hcode : failureCodeFor e ∉ chunkQuarantineCodes := by
    rcases h with ⟨n, rfl⟩ | h
    · simp [failureCodeFor, chunkQuarantineCodes]
    · rw [Exn.Unmapped] at h
      rw [h]
      decide
  rw [quarantinable, if_pos hcode]

lemma handleException_ok {raised : Raised} {w w' : World} {d : Disposition}
    (h : handleException p c event ctx raised w = (.ok d, w')) :
    quarantinable raised.exn ctx = true ∧ Holds event w.held w'.held ∧ w'.db = w.db := by
  unfold handleException at h
  dsimp only at h
  split at h
  · rename_i hq
    split at h
    · rename_i held hhold
      obtain rfl := (Prod.mk.inj h).2
      exact ⟨hq, holdChunkFailure_ok hhold, rfl⟩
    · cases congrArg Prod.fst h
  · cases congrArg Prod.fst h

lemma holdGateFailure_ok {stage : Stage} {code : FailureCode} {failures : List GateFailure}
    {held held' : Held}
    (h : holdGateFailure c event ctx stage code failures held = (.ok (), held')) :
    Holds event held held' := by
  unfold holdGateFailure at h
  split at h
  · split at h
    · rename_i n after hhold
      obtain rfl : after = held' := (Prod.mk.inj h).2
      exact holdRowFailures_ok hhold
    · cases congrArg Prod.fst h
  · exact holdChunkFailure_ok h

lemma quarantineGateFailure_ok {stage : Stage} {failures : List GateFailure}
    {fallback d : Disposition} {held held' : Held}
    (h : quarantineGateFailure c event ctx stage failures fallback held = (.ok d, held')) :
    d = fallback ∨ Holds event held held' := by
  unfold quarantineGateFailure at h
  split at h
  · cases congrArg Prod.fst h
  · split at h
    · rename_i after hhold
      obtain rfl : after = held' := (Prod.mk.inj h).2
      exact Or.inr (holdGateFailure_ok hhold)
    · exact Or.inl (Except.ok.inj (Prod.mk.inj h).1).symm

lemma quarantineGateFailure_error {stage : Stage} {failures : List GateFailure}
    {fallback : Disposition} {held held' : Held} {e : Exn}
    (h : quarantineGateFailure c event ctx stage failures fallback held = (.error e, held')) :
    e.Unmapped := by
  unfold quarantineGateFailure at h
  split at h
  · cases h
    rfl
  · split at h <;> cases congrArg Prod.fst h

end Handlers

/-! ### What is prepared -/

/-- What holds of every value a computation returns. -/
def Ensures {α : Type} (body : Flow α) (Q : α → Prop) : Prop :=
  ∀ ctx a ctx', body.run.run ctx = (.ok a, ctx') → Q a

section Ensures

variable {ε α β : Type} {Q : β → Prop}

lemma Ensures.pure {b : β} (h : Q b) : Ensures (Pure.pure b : Flow β) Q := by
  intro ctx a ctx' hrun
  cases hrun
  exact h

lemma run_bind (body : ExceptT ε (StateM FlowContext) α)
    (f : α → ExceptT ε (StateM FlowContext) β) (ctx : FlowContext) :
    (body >>= f).run.run ctx = match body.run.run ctx with
      | (.ok a, ctx) => (f a).run.run ctx
      | (.error e, ctx) => (.error e, ctx) := by
  rw [ExceptT.run_bind, StateT.run_bind]
  cases hbody : body.run.run ctx with
  | mk answer mid => cases answer <;> rfl

lemma Ensures.bind {body : Flow α} {f : α → Flow β} (h : ∀ a, Ensures (f a) Q) :
    Ensures (body >>= f) Q := by
  intro ctx b ctx' hrun
  rw [run_bind] at hrun
  split at hrun
  · exact h _ _ b ctx' hrun
  · cases hrun

end Ensures

/-- A gate falls back to a disposition that is not acknowledged, and a write is of the event. -/
def Prepared.Sound (event : IngressReadyEvent) : Prepared → Prop
  | .gateFailed _ _ fallback => fallback ≠ .quarantined ∧ fallback ≠ .written
  | .catalogue args _ => args.event = event
  | .events args _ => args.event = event

lemma writeInput_sound (p : ConsumerPipeline) (event : IngressReadyEvent)
    (bronze : Bronze.BronzeMeta) (loaded : Canonical.LoadedMapping)
    (facts : Option LoadMapping.StoreFacts) (result : ApplyMapping.MappingResult) :
    Ensures (writeInput p event bronze loaded facts result) (Prepared.Sound event) := by
  unfold writeInput
  dsimp only
  split
  · exact .pure rfl
  · exact .bind fun rows => .pure rfl

lemma prepare_sound (p : ConsumerPipeline) (c : Calls) (event : IngressReadyEvent) :
    Ensures (prepare p c event) (Prepared.Sound event) := by
  unfold prepare
  refine .bind fun fetched => .bind fun _ => .bind fun loaded => .bind fun _ =>
    .bind fun facts => ?_
  unfold validateAndMap
  refine .bind fun pre => ?_
  split
  · exact .pure ⟨by decide, by decide⟩
  · refine .bind fun result => ?_
    split
    · exact .pure ⟨by decide, by decide⟩
    · refine .bind fun result => .bind fun post => ?_
      split
      · exact .pure ⟨by decide, by decide⟩
      · exact writeInput_sound p event _ loaded facts result

/-! ### Messages -/

section Messages

variable {p : ConsumerPipeline} {c : Calls} {event : IngressReadyEvent} {w w' : World}

/-- The whole chunk was written, and nothing was held. -/
def WroteAll (p : ConsumerPipeline) (c : Calls) (w w' : World) : Prepared → Prop
  | .gateFailed .. => False
  | .catalogue args result =>
    w' = ⟨(writeCatalogueChunk args p.batchSize c.txs result w.db).1, w.held⟩ ∧
    ∃ groups, catalogueGroups args.event result = .ok groups ∧
      CatalogueComplete args p.batchSize c.txs groups w'.db.hot
  | .events args rows => w' = ⟨(writeChunk p.driver args p.batchSize c.txs rows w.db).db, w.held⟩ ∧
    Complete args c.txs (batches rows p.batchSize) w.db
      (writeChunk p.driver args p.batchSize c.txs rows w.db)

/-- Every batch of the event's chunk committed, and no natural key was missing. -/
def Written (p : ConsumerPipeline) (c : Calls) (event : IngressReadyEvent) (w w' : World) : Prop :=
  ∃ prepared ctx, (prepare p c event).run.run .initial = (.ok prepared, ctx) ∧
    Prepared.Sound event prepared ∧ WroteAll p c w w' prepared

/-- A record of the event was held, and neither an event row nor a hot row was written. -/
def HeldBack (event : IngressReadyEvent) (w w' : World) : Prop :=
  Holds event w.held w'.held ∧ w'.db = w.db

lemma handleException_write {ctx : FlowContext} {e : Exn} {stage : Option Stage} {d : Disposition}
    (he : (∃ n, e = .hotPositionMissing n) ∨ e.Unmapped)
    (h : handleException p c event ctx ⟨e, stage⟩ w = (.ok d, w')) : False := by
  have hq := (handleException_ok h).1
  rw [not_quarantinable he] at hq
  cases hq

lemma process_handled (hdb : DbFailuresUnmapped c.txs) {d : Disposition}
    (hd : d = .written ∨ d = .quarantined) (h : process p c event w = (.ok d, w')) :
    Written p c event w w' ∨ HeldBack event w w' := by
  unfold process at h
  split at h
  · exact Or.inr (handleException_ok h).2
  · -- the gate failed: the rows are held, or the hold itself raised
    rename_i stage failures fallback ctx hprep
    obtain ⟨hq, hw⟩ := prepare_sound p c event _ _ _ hprep
    split at h
    · rename_i d' held hgate
      cases h
      rcases quarantineGateFailure_ok hgate with rfl | hholds
      · rcases hd with rfl | rfl
        · exact absurd rfl hw
        · exact absurd rfl hq
      · exact Or.inr ⟨hholds, rfl⟩
    · rename_i e held hgate
      exact (handleException_write (Or.inr (quarantineGateFailure_error hgate)) h).elim
  · rename_i args result ctx hprep
    have hs := prepare_sound p c event _ _ _ hprep
    have hcases := writeCatalogueChunk_cases args p.batchSize_pos hdb result w.db
    cases hwrite : writeCatalogueChunk args p.batchSize c.txs result w.db with
    | mk db answer =>
      rw [hwrite] at h hcases
      rcases hcases with ⟨report, groups, rfl, hgroups, hcomplete⟩ | ⟨e, rfl, hun⟩
      · cases h
        exact Or.inl ⟨_, ctx, hprep, hs, by rw [hwrite], groups, hgroups, hcomplete⟩
      · exact (handleException_write (Or.inr hun) h).elim
  · rename_i args rows ctx hprep
    have hs := prepare_sound p c event _ _ _ hprep
    rcases writeChunk_cases p.driver args p.batchSize hdb rows w.db with
      ⟨hnone, hcomplete⟩ | ⟨e, herr, hwhy⟩
    · dsimp only at h
      rw [hnone] at h
      cases h
      exact Or.inl ⟨_, ctx, hprep, hs, rfl, hcomplete⟩
    · dsimp only at h
      rw [herr] at h
      exact (handleException_write hwhy h).elim

/-- An acknowledged message was no event, or its chunk was written whole, or a record of it
was held and nothing of it was written. -/
theorem ack_never_loses (P : Pydantic) (room : ℕ) (data : Bytes)
    (hdb : DbFailuresUnmapped c.txs)
    (hack : processMessage P room (process p c) data w = (.ok .ack, w')) :
    (∃ field tenantId traceId, w' = w ∧
      parseIngressReady P room data = .error (.eventContract field tenantId traceId)) ∨
    ∃ event, parseIngressReady P room data = .ok event ∧
      (Written p c event w w' ∨ HeldBack event w w') := by
  unfold processMessage at hack
  split at hack
  · rename_i field tenantId traceId hparse
    exact Or.inl ⟨field, tenantId, traceId, (Prod.mk.inj hack).2.symm, hparse⟩
  · cases congrArg Prod.fst hack
  · rename_i event hparse
    refine Or.inr ⟨event, hparse, ?_⟩
    split at hack
    · cases congrArg Prod.fst hack
    · rename_i w₁ hprocess
      obtain rfl := (Prod.mk.inj hack).2
      exact process_handled hdb (Or.inr rfl) hprocess
    · rename_i w₁ hprocess
      obtain rfl := (Prod.mk.inj hack).2
      exact process_handled hdb (Or.inl rfl) hprocess
    · cases congrArg Prod.fst hack

lemma processMessage_of_quarantined {P : Pydantic} {room : ℕ} {data : Bytes}
    (hparse : parseIngressReady P room data = .ok event)
    (h : (process p c event w).1 = .ok .quarantined) :
    processMessage P room (process p c) data w = (.ok .ack, (process p c event w).2) := by
  unfold processMessage
  rw [hparse]
  cases hrun : process p c event w with
  | mk answer w' =>
    rw [hrun] at h
    obtain rfl : answer = .ok .quarantined := h
    dsimp only
    rw [hrun]

lemma heldBack_of_error {P : Pydantic} {room : ℕ} {data : Bytes} {raised : Raised}
    {ctx : FlowContext} (hparse : parseIngressReady P room data = .ok event)
    (hprepare : (prepare p c event).run.run .initial = (.error raised, ctx))
    (h : (∃ field tenantId traceId, w' = w ∧
        parseIngressReady P room data = .error (.eventContract field tenantId traceId)) ∨
      ∃ event, parseIngressReady P room data = .ok event ∧
        (Written p c event w w' ∨ HeldBack event w w')) : HeldBack event w w' := by
  rw [hparse] at h
  rcases h with ⟨field, tenantId, traceId, -, hrefused⟩ | ⟨event', hok, hwritten | hheld⟩
  · cases hrefused
  · cases hok
    obtain ⟨prepared, ctx', hprepared, -⟩ := hwritten
    rw [hprepare] at hprepared
    cases hprepared
  · cases hok
    exact hheld

lemma crossCheckPath_of_parsed {bucket objectKey : String}
    {parsed : ObjectPath.ParsedObjectPath}
    (huri : ObjectPath.splitObjectUri event.gcsUri = .ok (bucket, objectKey))
    (hkey : ObjectPath.parseObjectPath objectKey = .ok parsed)
    (htenant : parsed.tenantId = event.tenantId) (hsource : parsed.sourceId = event.sourceId) :
    crossCheckPath bucket event = .ok objectKey := by
  simp [crossCheckPath, huri, hkey, htenant, hsource, bind, Except.bind]

lemma fetchChunk_eq {objectKey : String} {table : BronzeTable} {bronze : BronzeMeta} {data : Bytes}
    {frame : Frame} (hpath : crossCheckPath p.bronzeBucket event = .ok objectKey)
    (htable : c.bronze = .ok table) (hrow : readBronzeRow table event = .ok bronze)
    (hdata : c.download objectKey = .ok data) (hframe : parseChunk p event data = .ok frame) :
    fetchChunk p c event = (do
      modify fun ctx =>
        { ctx with bronzeId := some bronze.bronzeId, disChannel := some bronze.disChannel }
      return (frame, bronze)) := by
  simp only [fetchChunk, hpath, htable, hrow, hdata, hframe, call, pure_bind]

lemma prepare_of_unmapped {objectKey : String} {table : BronzeTable} {bronze : BronzeMeta}
    {data : Bytes} {frame : Frame} {rows : List LoadMapping.MappingRow} {e : Exn}
    (hpath : crossCheckPath p.bronzeBucket event = .ok objectKey) (htable : c.bronze = .ok table)
    (hrow : readBronzeRow table event = .ok bronze) (hdata : c.download objectKey = .ok data)
    (hframe : parseChunk p event data = .ok frame) (hrows : c.mappings = .ok rows)
    (hload : LoadMapping.loadActiveMapping p.modelValidate rows event = .error e) :
    (prepare p c event).run.run .initial =
      (.error ⟨e, some .mappingLookedUp⟩,
        ⟨some bronze.bronzeId, none, some bronze.disChannel, some frame.height⟩) := by
  rw [prepare, fetchChunk_eq hpath htable hrow hdata hframe]
  simp only [hrows, call, pure_bind, hload]
  rfl

lemma process_of_error {raised : Raised} {ctx : FlowContext} {disChannel : String}
    (hprepare : (prepare p c event).run.run .initial = (.error raised, ctx))
    (hkept : quarantinable raised.exn ctx = true) (hchannel : ctx.disChannel = some disChannel)
    (hvalid : (recordBase c.now event ctx disChannel (raised.stage.getD .received)
      (failureCodeFor raised.exn)).valid = true)
    (hhold : c.hold = .commits) : (process p c event w).1 = .ok .quarantined := by
  simp [process, hprepare, handleException, hkept, holdChunkFailure, hchannel, hvalid, hhold,
    holdChunk, insertHeld]

end Messages

/-! ### A source without a mapping -/

def quoted (s : List Char) : List Char := Char.ofNat 34 :: s ++ [Char.ofNat 34]

def jsonMember (name : String) (value : List Char) : List Char :=
  quoted name.toList ++ ':' :: value

def sampleTime : String := "2026-01-02T03:04:05Z"

/-- The only time it is asked for is one instant. -/
def samplePydantic : Pydantic :=
  plainPydantic ObjectPath.uuidOf fun s =>
    if s = pyStr sampleTime then some (.aware 1767323045000000) else none

def sampleUri : List Char := ObjectPath.posUri (.ofNat 2) (.ofNat 1)

def sampleMessage : Bytes :=
  (Char.ofNat 123 :: List.intercalate [','] [
    jsonMember "schema_version" ['1'],
    jsonMember "trace_id" (quoted (Uuid.ofNat 1).chars),
    jsonMember "tenant_id" (quoted (Uuid.ofNat 2).chars),
    jsonMember "store_id" (quoted (Uuid.ofNat 3).chars),
    jsonMember "source_id" (quoted "pos".toList),
    jsonMember "template_id" (quoted (Uuid.ofNat 4).chars),
    jsonMember "bronze_ref" (quoted (Uuid.ofNat 5).chars),
    jsonMember "gcs_uri" (quoted sampleUri),
    jsonMember "received_ts" (quoted sampleTime.toList)] ++ [Char.ofNat 125]).map
      fun c => UInt8.ofNat c.toNat

def sampleEvent : IngressReadyEvent where
  traceId := .ofNat 1
  tenantId := .ofNat 2
  storeId := .ofNat 3
  sourceId := "pos"
  templateId := .ofNat 4
  bronzeRef := .ofNat 5
  gcsUri := String.ofList sampleUri
  receivedTs := 1767323045000000
  delimiter := ','
  tenantDisplayCode := none
  storeCode := none
  replay := false
  parentTraceId := none

lemma sampleMessage_parses :
    parseIngressReady samplePydantic 900 sampleMessage = .ok sampleEvent := by
  decide +kernel

def sampleBronze : BronzeTable where
  rows := [{
    id := .ofNat 5
    tenantId := .ofNat 2
    storeId := some (.ofNat 3)
    sourceId := "pos"
    disChannel := "csv_upload"
    traceId := .ofNat 1
    gcsUri := String.ofList sampleUri
    payloadSizeBytes := some 3
    payloadSha256 := none
    rowCount := some 1
    sourcePayloadId := none
    templateId := some (.ofNat 4)
    receivedAt := 1767323045000000
    publishedAt := none
    processingStatus := .received }]
  nodup := by simp

def samplePipeline : ConsumerPipeline where
  bronzeBucket := "b"
  batchSize := 500
  batchSize_pos := by decide
  polars := Accounting.asciiPolars
  driver := plainDriver
  readCsv _ data :=
    if data = sampleCsv then
      .ok ⟨1, Dict.ofList [("a", Series.ofTexts [some "1"])]⟩
    else .error (.other "ComputeError")
  modelValidate _ := .error (.other "ValidationError")
  runPreValidation _ _ := .ok ⟨true, []⟩
  runPostValidation _ _ := .ok ⟨true, []⟩
  buildEventRows _ _ _ _ _ := .ok []
  str _ := "no ACTIVE mapping"

/-- The mapping table is empty, and the transactions commit. -/
def sampleCalls : Calls where
  bronze := .ok sampleBronze
  download _ := .ok sampleCsv
  mappings := .ok []
  stores := .ok []
  txs := committing
  hold := .commits
  now := 1767323046000000

def emptyWorld : World := ⟨⟨⟨[], by simp⟩, fun _ => []⟩, ⟨[], []⟩⟩

/-- The flow knows the chunk, and no mapping. -/
def sampleContext : FlowContext := ⟨some (.ofNat 5), none, some "csv_upload", some 1⟩

lemma sample_path : crossCheckPath samplePipeline.bronzeBucket sampleEvent =
    .ok (String.ofList (ObjectPath.posKey (.ofNat 2) (.ofNat 1))) := by
  have huri : ObjectPath.matchUri (ObjectPath.strip sampleUri) =
      some (['b'], ObjectPath.posKey (.ofNat 2) (.ofNat 1)) := by decide +kernel
  have hkey : ObjectPath.matchPath (ObjectPath.strip (ObjectPath.posKey (.ofNat 2) (.ofNat 1))) =
      some ⟨.ofNat 2, "pos", 2026, 1, 2, (Uuid.ofNat 1).str, "csv"⟩ := by decide +kernel
  exact crossCheckPath_of_parsed (ObjectPath.splitObjectUri_ofList huri)
    (ObjectPath.parseObjectPath_ofList hkey) rfl rfl

lemma sample_readBronzeRow : readBronzeRow sampleBronze sampleEvent =
    .ok ⟨.ofNat 5, "pos", "csv_upload", String.ofList sampleUri, 1767323045000000, some 1⟩ := by
  simp [readBronzeRow, BronzeTable.find?, sampleBronze, sampleEvent, Option.filter]

lemma sample_prepare : (prepare samplePipeline sampleCalls sampleEvent).run.run .initial =
    (.error ⟨.mappingConfig none, some .mappingLookedUp⟩, sampleContext) := by
  have hframe : parseChunk samplePipeline sampleEvent sampleCsv =
      .ok ⟨1, Dict.ofList [("a", Series.ofTexts [some "1"])]⟩ := rfl
  exact prepare_of_unmapped sample_path rfl sample_readBronzeRow rfl hframe rfl rfl

lemma sample_quarantined :
    (process samplePipeline sampleCalls sampleEvent emptyWorld).1 = .ok .quarantined := by
  refine process_of_error sample_prepare rfl rfl ?_ rfl
  simp only [RecordBase.valid, recordBase, sampleEvent, String.length_ofList]
  decide +kernel

/-- The message of a source without a mapping is acknowledged, and its chunk is held. -/
theorem ack_never_loses_without_mapping : ∃ w',
    processMessage samplePydantic 900 (process samplePipeline sampleCalls) sampleMessage
      emptyWorld = (.ok .ack, w') ∧ HeldBack sampleEvent emptyWorld w' := by
  have hack := processMessage_of_quarantined sampleMessage_parses sample_quarantined
  have hdb : DbFailuresUnmapped sampleCalls.txs := by
    intro i e landed h
    cases h
  exact ⟨_, hack, heldBack_of_error sampleMessage_parses sample_prepare
    (ack_never_loses samplePydantic 900 sampleMessage hdb hack)⟩

end CortexDis.AckSafety
