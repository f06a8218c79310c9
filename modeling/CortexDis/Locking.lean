import Mathlib

/-!
Transactions that take exclusive locks one after another and hold them until they end.

When every transaction takes its locks along one partial order, none ever waits for itself,
through however many others.
-/

namespace CortexDis.Locking

variable {ι K : Type*} (locks : ι → List K)

/-- How many of its locks each transaction has taken, and whether it has ended. -/
structure State (ι : Type*) where
  taken : ι → ℕ
  ended : ι → Prop

def State.initial : State ι := ⟨fun _ => 0, fun _ => False⟩

/-- A transaction in progress holds the locks it has taken. -/
def Holds (s : State ι) (i : ι) (k : K) : Prop := ¬ s.ended i ∧ k ∈ (locks i).take (s.taken i)

/-- The lock a transaction in progress takes next. -/
def Wants (s : State ι) (i : ι) (k : K) : Prop := ¬ s.ended i ∧ (locks i)[s.taken i]? = some k

/-- The transaction wants a lock that another holds. -/
def WaitsFor (s : State ι) (i j : ι) : Prop := i ≠ j ∧ ∃ k, Wants locks s i k ∧ Holds locks s j k

variable [DecidableEq ι]

/-- A transaction takes its next lock when no other holds it, and may end at any time, by a
commit or a rollback. -/
inductive Step : State ι → State ι → Prop
  | take {s : State ι} {i : ι} {k : K} (hwants : Wants locks s i k)
    (hfree : ∀ j, j ≠ i → ¬ Holds locks s j k) :
    Step s { s with taken := Function.update s.taken i (s.taken i + 1) }
  | finish {s : State ι} {i : ι} : Step s { s with ended := fun j => j = i ∨ s.ended j }

def Reachable (s : State ι) : Prop := Relation.ReflTransGen (Step locks) State.initial s

/-- No two transactions hold one lock. -/
def Exclusive (s : State ι) : Prop := ∀ i j k, Holds locks s i k → Holds locks s j k → i = j

variable {locks}

/-- What a transaction holds after it took its next lock. -/
lemma holds_take {s : State ι} {i j : ι} {k k' : K} (hwants : Wants locks s i k)
    (h : Holds locks { s with taken := Function.update s.taken i (s.taken i + 1) } j k') :
    Holds locks s j k' ∨ j = i ∧ k' = k := by
  obtain ⟨hlive, hmem⟩ := h
  dsimp only at hlive hmem
  by_cases hj : j = i
  · subst hj
    rw [Function.update_self, List.take_add_one, hwants.2] at hmem
    rcases List.mem_append.mp hmem with hmem | hmem
    · exact .inl ⟨hlive, hmem⟩
    · exact .inr ⟨rfl, List.mem_singleton.mp hmem⟩
  · rw [Function.update_of_ne hj] at hmem
    exact .inl ⟨hlive, hmem⟩

lemma exclusive_step {s s' : State ι} (h : Exclusive locks s) (hstep : Step locks s s') :
    Exclusive locks s' := by
  cases hstep with
  | @take i k hwants hfree =>
    intro a b k' ha hb
    rcases holds_take hwants ha with ha' | ⟨rfl, rfl⟩
    · rcases holds_take hwants hb with hb' | ⟨rfl, rfl⟩
      · exact h a b k' ha' hb'
      · by_contra hne
        exact hfree a hne ha'
    · rcases holds_take hwants hb with hb' | ⟨rfl, -⟩
      · by_contra hne
        exact hfree b (Ne.symm hne) hb'
      · rfl
  | @finish i =>
    intro a b k' ha hb
    exact h a b k' ⟨fun he => ha.1 (.inr he), ha.2⟩ ⟨fun he => hb.1 (.inr he), hb.2⟩

lemma exclusive_of_reachable {s : State ι} (h : Reachable locks s) : Exclusive locks s := by
  induction h with
  | refl => exact fun i j k hi => absurd hi.2 (by simp [State.initial])
  | tail _ hstep ih => exact exclusive_step ih hstep

section Ordered

variable {le : K → K → Prop} (hsorted : ∀ i, (locks i).Pairwise le)

include hsorted

omit [DecidableEq ι] in
/-- What a transaction holds stands before what it wants. -/
lemma le_of_holds_of_wants {s : State ι} {i : ι} {k k' : K} (hk : Holds locks s i k)
    (hk' : Wants locks s i k') : le k k' := by
  have hsplit := List.pairwise_append.mp ((List.take_append_drop (s.taken i) (locks i)).symm ▸
    hsorted i)
  refine hsplit.2.2 k hk.2 k' ?_
  obtain ⟨hlt, rfl⟩ := List.getElem?_eq_some_iff.mp hk'.2
  exact List.mem_drop_iff_getElem.mpr ⟨0, by omega, by simp⟩

omit [DecidableEq ι] in
/-- Along a chain of waits, the last transaction holds a lock not before what the first one
wants. -/
lemma exists_holds_of_chain (hrefl : ∀ k, le k k) (htrans : ∀ {a b c}, le a b → le b c → le a c)
    {s : State ι} {i j : ι} (h : Relation.TransGen (WaitsFor locks s) i j) :
    ∃ k k', Wants locks s i k ∧ Holds locks s j k' ∧ le k k' := by
  induction h with
  | single hwait =>
    obtain ⟨-, k, hwants, hholds⟩ := hwait
    exact ⟨k, k, hwants, hholds, hrefl k⟩
  | tail _ hwait ih =>
    obtain ⟨k, k', hwants, hholds, hle⟩ := ih
    obtain ⟨-, m, hwants', hholds'⟩ := hwait
    exact ⟨k, m, hwants, hholds', htrans hle (le_of_holds_of_wants hsorted hholds hwants')⟩

/-- **Locks taken in order never deadlock.** -/
theorem not_waits_cycle (hrefl : ∀ k, le k k) (htrans : ∀ {a b c}, le a b → le b c → le a c)
    (hantisymm : ∀ {a b}, le a b → le b a → a = b) {s : State ι} (hs : Reachable locks s)
    (i : ι) : ¬ Relation.TransGen (WaitsFor locks s) i i := by
  intro hcycle
  obtain ⟨k, k', hwants, hholds, hle⟩ := exists_holds_of_chain hsorted hrefl htrans hcycle
  have hk : k' = k := hantisymm (le_of_holds_of_wants hsorted hholds hwants) hle
  -- so the transaction already holds the lock that another holds as well
  obtain ⟨j, ⟨hne, m, hwants', hheld⟩, -⟩ := Relation.TransGen.head'_iff.mp hcycle
  have hm : m = k := Option.some.inj (hwants'.2.symm.trans hwants.2)
  exact hne (exclusive_of_reachable hs i j k (hk ▸ hholds) (hm ▸ hheld))

end Ordered

end CortexDis.Locking
