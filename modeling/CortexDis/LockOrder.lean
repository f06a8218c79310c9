import CortexDis.Freshness
import CortexDis.Locking

/-!
The order in which the writers take hot rows.

Every batch, of events or of the catalogue, issues its statements in the order of the
COALESCE'd natural key, within one tenant and store. Null and empty segments are one lock and
one place in the order.
-/

namespace CortexDis.LockOrder

open CortexDis.Values CortexDis.GroupHot CortexDis.HotSink CortexDis.WriteChunk
open CortexDis.Catalogue CortexDis.Freshness CortexDis.Locking

lemma keyLe_refl (a : String × String × String) : keyLe a a :=
  .inr ⟨rfl, .inr ⟨rfl, le_rfl⟩⟩

lemma keyLe_trans {a b c : String × String × String} (hab : keyLe a b) (hbc : keyLe b c) :
    keyLe a c := by
  rcases hab with h₁ | ⟨h₁, hab⟩
  · rcases hbc with h₂ | ⟨h₂, -⟩
    · exact .inl (h₁.trans h₂)
    · exact .inl (h₂ ▸ h₁)
  · rcases hbc with h₂ | ⟨h₂, hbc⟩
    · exact .inl (h₁ ▸ h₂)
    · refine .inr ⟨h₁.trans h₂, ?_⟩
      rcases hab with h₃ | ⟨h₃, hab⟩
      · rcases hbc with h₄ | ⟨h₄, -⟩
        · exact .inl (h₃.trans h₄)
        · exact .inl (h₄ ▸ h₃)
      · rcases hbc with h₄ | ⟨h₄, hbc⟩
        · exact .inl (h₃ ▸ h₄)
        · exact .inr ⟨h₃.trans h₄, hab.trans hbc⟩

lemma keyLe_total (a b : String × String × String) : keyLe a b ∨ keyLe b a := by
  rcases lt_trichotomy a.1 b.1 with h₁ | h₁ | h₁
  · exact .inl (.inl h₁)
  · rcases lt_trichotomy a.2.1 b.2.1 with h₂ | h₂ | h₂
    · exact .inl (.inr ⟨h₁, .inl h₂⟩)
    · rcases le_total a.2.2 b.2.2 with h₃ | h₃
      · exact .inl (.inr ⟨h₁, .inr ⟨h₂, h₃⟩⟩)
      · exact .inr (.inr ⟨h₁.symm, .inr ⟨h₂.symm, h₃⟩⟩)
    · exact .inr (.inr ⟨h₁.symm, .inl h₂⟩)
  · exact .inr (.inl h₁)

lemma keyLe_antisymm {a b : String × String × String} (hab : keyLe a b) (hba : keyLe b a) :
    a = b := by
  rcases hab with h₁ | ⟨h₁, hab⟩
  · rcases hba with h₂ | ⟨h₂, -⟩
    · exact absurd h₁ (lt_asymm h₂)
    · exact absurd h₂.symm h₁.ne
  · rcases hba with h₂ | ⟨-, hba⟩
    · exact absurd h₁ h₂.ne'
    · rcases hab with h₃ | ⟨h₃, hab⟩
      · rcases hba with h₄ | ⟨h₄, -⟩
        · exact absurd h₃ (lt_asymm h₄)
        · exact absurd h₄.symm h₃.ne
      · rcases hba with h₄ | ⟨-, hba⟩
        · exact absurd h₃ h₄.ne'
        · exact Prod.ext h₁ (Prod.ext h₃ (le_antisymm hab hba))

/-- Within one tenant and store, the order of the COALESCE'd keys. -/
def lockLe (a b : HotKey) : Prop := a.1 = b.1 ∧ a.2.1 = b.2.1 ∧ keyLe a.2.2 b.2.2

/-- The locks a batch takes, in the order it issues its statements. -/
def batchLocks (b : Batch) : List HotKey := b.program.map fun stmt => stmt.write.key

lemma pairwise_sortGroups (groups : List (HotGroup Cell)) :
    (sortGroups groups).Pairwise fun a b => keyLe (hotSortKey a) (hotSortKey b) := by
  have : IsTrans (HotGroup Cell) fun a b => keyLe (hotSortKey a) (hotSortKey b) :=
    ⟨fun _ _ _ => keyLe_trans⟩
  have : Std.Total fun a b : HotGroup Cell => keyLe (hotSortKey a) (hotSortKey b) :=
    ⟨fun _ _ => keyLe_total _ _⟩
  exact List.pairwise_insertionSort _ groups

/-- The locks of one batch stand in order: its tenant and store are fixed, and the lock of a
group is its sort key. -/
lemma pairwise_batchLocks (b : Batch) : (batchLocks b).Pairwise lockLe := by
  cases b with
  | events a rows =>
    rw [batchLocks, Batch.program, List.map_map, List.pairwise_map]
    exact (pairwise_sortGroups _).imp fun h => ⟨rfl, rfl, h⟩
  | catalogue a groups =>
    rw [batchLocks, Batch.program, List.map_map, List.pairwise_map]
    exact (pairwise_sortGroups _).imp fun h => ⟨rfl, rfl, h⟩

/-- **No deadlock**: however many batches of either writer run at once, in no reachable
interleaving does a transaction wait for itself through others. -/
theorem no_deadlock {ι : Type} [DecidableEq ι] (batch : ι → Batch) {s : State ι}
    (hs : Reachable (fun i => batchLocks (batch i)) s) (i : ι) :
    ¬ Relation.TransGen (WaitsFor (fun i => batchLocks (batch i)) s) i i := by
  refine not_waits_cycle (fun i => pairwise_batchLocks (batch i)) (fun k => ?_) ?_ ?_ hs i
  · exact ⟨rfl, rfl, keyLe_refl _⟩
  · rintro a b c ⟨h₁, h₂, hab⟩ ⟨h₃, h₄, hbc⟩
    exact ⟨h₁.trans h₃, h₂.trans h₄, keyLe_trans hab hbc⟩
  · rintro a b ⟨h₁, h₂, hab⟩ ⟨-, -, hba⟩
    exact Prod.ext h₁ (Prod.ext h₂ (keyLe_antisymm hab hba))

/-- Two chunks of the same two skus. -/
def twoSkus (_ : Bool) : Batch := .events (saleArgs none) [rowAt "B" 5 0 [], rowAt "A" 5 1 []]

/-- One batch has taken its first row, the other none. -/
def firstTaken : State Bool := ⟨Function.update (fun _ => 0) false 1, fun _ => False⟩

lemma wants_first (i : Bool) : Wants (fun i => batchLocks (twoSkus i)) State.initial i
    (.ofNat 2, .ofNat 3, "A", "", "") := by
  have hfirst : (batchLocks (twoSkus true))[0]? = some (.ofNat 2, .ofNat 3, "A", "", "") := by
    decide +kernel
  exact ⟨id, hfirst⟩

/-- The second batch waits for the first, and neither for itself. -/
theorem second_waits_without_cycle :
    WaitsFor (fun i => batchLocks (twoSkus i)) firstTaken true false ∧
      ∀ i, ¬ Relation.TransGen (WaitsFor (fun i => batchLocks (twoSkus i)) firstTaken) i i := by
  have hstep : Step (fun i => batchLocks (twoSkus i)) State.initial firstTaken :=
    .take (wants_first false) fun _ _ hholds => absurd hholds.2 (by simp [State.initial])
  refine ⟨⟨by decide, _, ⟨id, (wants_first true).2⟩, ⟨id, ?_⟩⟩,
    no_deadlock twoSkus (.single hstep)⟩
  decide +kernel

end CortexDis.LockOrder
