import Mathlib

/-!
Registers that refuse older writes.

A register carries the stamp of the last write it took, or none. A write that is offered is
taken when its stamp is not below the register's, and then becomes the register's stamp;
otherwise the register is left alone. Nothing is assumed of the stamps beyond their order,
so ties are taken: the later of two writes with one stamp wins.
-/

namespace CortexDis.Stamped

variable {T W R : Type*} [LinearOrder T]

/-- What a register is made of: the stamp it carries, the stamp of a write, and the
register after a write is taken. -/
structure Register (T W R : Type*) [LinearOrder T] where
  stamp : R → WithBot T
  time : W → T
  write : W → R → R
  stamp_write : ∀ w r, stamp (write w r) = time w

namespace Register

variable (X : Register T W R)

/-- Offer one write. -/
def offer (w : W) (r : R) : R := if X.stamp r ≤ X.time w then X.write w r else r

/-- Offer a list of writes in order. -/
def run (ws : List W) (r : R) : R := ws.foldl (fun r w => X.offer w r) r

/-- The writes of a list that a register with stamp `s` takes. -/
def accepted (s : WithBot T) : List W → List W
  | [] => []
  | w :: ws => if s ≤ X.time w then w :: accepted (X.time w) ws else accepted s ws

@[simp] lemma run_nil (r : R) : X.run [] r = r := rfl
@[simp] lemma run_cons (w : W) (ws : List W) (r : R) :
    X.run (w :: ws) r = X.run ws (X.offer w r) := rfl
lemma run_append (us vs : List W) (r : R) : X.run (us ++ vs) r = X.run vs (X.run us r) := by
  simp [run, List.foldl_append]

lemma offer_of_le {w : W} {r : R} (h : X.stamp r ≤ X.time w) : X.offer w r = X.write w r := by
  simp [offer, h]

lemma offer_of_lt {w : W} {r : R} (h : X.time w < X.stamp r) : X.offer w r = r := by
  simp [offer, not_le.mpr h]

lemma stamp_offer (w : W) (r : R) : X.stamp (X.offer w r) = max (X.stamp r) (X.time w) := by
  rcases le_or_gt (X.stamp r) (X.time w) with h | h
  · rw [X.offer_of_le h, X.stamp_write, max_eq_right h]
  · rw [X.offer_of_lt h, max_eq_left h.le]

lemma le_stamp_run (ws : List W) (r : R) : X.stamp r ≤ X.stamp (X.run ws r) := by
  induction ws generalizing r with
  | nil => exact le_rfl
  | cons w ws ih =>
    calc X.stamp r ≤ X.stamp (X.offer w r) := by rw [stamp_offer]; exact le_max_left _ _
      _ ≤ _ := ih _

lemma time_le_stamp_run {ws : List W} {w : W} (h : w ∈ ws) (r : R) :
    (X.time w : WithBot T) ≤ X.stamp (X.run ws r) := by
  induction ws generalizing r with
  | nil => simp at h
  | cons u ws ih =>
    rcases List.mem_cons.mp h with rfl | h'
    · calc (X.time w : WithBot T) ≤ X.stamp (X.offer w r) := by
            rw [stamp_offer]; exact le_max_right _ _
        _ ≤ _ := X.le_stamp_run ws _
    · exact ih h' _

/-- The final stamp is the greatest of the initial one and those offered. -/
lemma stamp_run_le {ws : List W} {r : R} {b : WithBot T} (hr : X.stamp r ≤ b)
    (h : ∀ w ∈ ws, (X.time w : WithBot T) ≤ b) : X.stamp (X.run ws r) ≤ b := by
  induction ws generalizing r with
  | nil => exact hr
  | cons w ws ih =>
    refine ih ?_ fun u hu => h u (List.mem_cons_of_mem _ hu)
    rw [stamp_offer]
    exact max_le hr (h w List.mem_cons_self)

lemma accepted_append (us vs : List W) (r : R) :
    X.accepted (X.stamp r) (us ++ vs) =
      X.accepted (X.stamp r) us ++ X.accepted (X.stamp (X.run us r)) vs := by
  induction us generalizing r with
  | nil => rfl
  | cons u us ih =>
    rcases le_or_gt (X.stamp r) (X.time u) with h | h
    · have hs := ih (X.write u r)
      rw [X.stamp_write] at hs
      simp [accepted, h, X.offer_of_le h, hs]
    · have hs := ih r
      simp [accepted, not_le.mpr h, X.offer_of_lt h, hs]

lemma run_of_lt {ws : List W} {r : R} (h : ∀ w ∈ ws, (X.time w : WithBot T) < X.stamp r) :
    X.run ws r = r := by
  induction ws with
  | nil => rfl
  | cons w ws ih =>
    rw [run_cons, X.offer_of_lt (h w List.mem_cons_self)]
    exact ih fun u hu => h u (List.mem_cons_of_mem _ hu)

/-- A write is accepted when it is not below any write before it. -/
lemma mem_accepted {ws : List W} {w : W} {s : WithBot T} (h : w ∈ X.accepted s ws) :
    ∃ us vs, ws = us ++ w :: vs ∧ s ≤ X.time w ∧ ∀ u ∈ us, X.time u ≤ X.time w := by
  induction ws generalizing s with
  | nil => simp [accepted] at h
  | cons u ws ih =>
    simp only [accepted] at h
    split at h
    · rename_i hu
      rcases List.mem_cons.mp h with rfl | h'
      · exact ⟨[], ws, rfl, hu, by simp⟩
      · obtain ⟨us, vs, rfl, hs, hus⟩ := ih h'
        refine ⟨u :: us, vs, rfl, hu.trans hs, ?_⟩
        intro v hv
        rcases List.mem_cons.mp hv with rfl | hv'
        · exact WithBot.coe_le_coe.mp hs
        · exact hus v hv'
    · rename_i hu
      obtain ⟨us, vs, rfl, hs, hus⟩ := ih h
      refine ⟨u :: us, vs, rfl, hs, ?_⟩
      intro v hv
      rcases List.mem_cons.mp hv with rfl | hv'
      · exact WithBot.coe_le_coe.mp ((not_le.mp hu).le.trans hs)
      · exact hus v hv'

/-- **When an invariant holds all along a list of writes**: every write that is taken admits
it. `J` is what the writes never change. -/
lemma invariant_iff_accepted {I J : R → Prop} {admits : W → Prop} {ws : List W}
    (hwrite : ∀ r, ∀ w ∈ ws, J r → I r → (I (X.write w r) ↔ admits w))
    (hJ : ∀ r, ∀ w ∈ ws, J r → J (X.write w r)) {r : R} (hr : J r) (hI : I r) :
    (∀ us, us <+: ws → I (X.run us r)) ↔ ∀ w ∈ X.accepted (X.stamp r) ws, admits w := by
  induction ws generalizing r with
  | nil =>
    refine iff_of_true (fun us hus => ?_) (by simp [accepted])
    rw [List.prefix_nil.mp hus]
    exact hI
  | cons w ws ih =>
    have hcons : (∀ us, us <+: w :: ws → I (X.run us r)) ↔
        ∀ us, us <+: ws → I (X.run us (X.offer w r)) := by
      constructor
      · intro h us hus
        exact h (w :: us) ((List.prefix_cons_inj w).mpr hus)
      · intro h us hus
        rcases List.prefix_cons_iff.mp hus with rfl | ⟨vs, rfl, hvs⟩
        · exact hI
        · exact h vs hvs
    have hwrite' : ∀ r, ∀ v ∈ ws, J r → I r → (I (X.write v r) ↔ admits v) :=
      fun r v hv => hwrite r v (List.mem_cons_of_mem _ hv)
    have hJ' : ∀ r, ∀ v ∈ ws, J r → J (X.write v r) :=
      fun r v hv => hJ r v (List.mem_cons_of_mem _ hv)
    rw [hcons, accepted]
    -- a write that is not taken leaves the register and the invariant
    by_cases hle : X.stamp r ≤ X.time w
    · rw [if_pos hle, X.offer_of_le hle, List.forall_mem_cons,
        ← hwrite r w List.mem_cons_self hr hI, ← X.stamp_write w r]
      constructor
      · intro h
        have hw : I (X.write w r) := h [] List.nil_prefix
        exact ⟨hw, (ih hwrite' hJ' (hJ r w List.mem_cons_self hr) hw).mp h⟩
      · rintro ⟨hw, h⟩
        exact (ih hwrite' hJ' (hJ r w List.mem_cons_self hr) hw).mpr h
    · rw [if_neg hle, X.offer_of_lt (not_le.mp hle)]
      exact ih hwrite' hJ' hr hI

lemma pairwise_accepted (s : WithBot T) (ws : List W) :
    (X.accepted s ws).Pairwise fun u v => X.time u ≤ X.time v := by
  induction ws generalizing s with
  | nil => exact List.Pairwise.nil
  | cons w ws ih =>
    simp only [accepted]
    split
    · refine List.pairwise_cons.mpr ⟨?_, ih _⟩
      intro v hv
      obtain ⟨_, _, _, hs, _⟩ := X.mem_accepted hv
      exact WithBot.coe_le_coe.mp hs
    · exact ih _

/-- Among the writes with property `p`, offered alone, every one is taken exactly when the
stamps, from the register's own on, do not decrease. -/
lemma takes_all_iff (p : W → Bool) (ws : List W) (r : R) :
    (∀ us w vs, ws = us ++ w :: vs → p w = true → X.stamp (X.run (us.filter p) r) ≤ X.time w) ↔
      (X.stamp r :: (ws.filter p).map fun w => (X.time w : WithBot T)).Pairwise (· ≤ ·) := by
  induction ws generalizing r with
  | nil => simp
  | cons w ws ih =>
    cases hp : p w with
    | false =>
      rw [List.filter_cons_of_neg (by simp [hp]), ← ih r]
      constructor
      · intro h us v vs hsplit hv
        simpa [hp] using h (w :: us) v vs (by rw [hsplit, List.cons_append]) hv
      · intro h us v vs hsplit hv
        cases us with
        | nil =>
          simp only [List.nil_append, List.cons.injEq] at hsplit
          rw [← hsplit.1, hp] at hv
          cases hv
        | cons u us =>
          simp only [List.cons_append, List.cons.injEq] at hsplit
          rw [← hsplit.1, List.filter_cons_of_neg (by simp [hp])]
          exact h us v vs hsplit.2 hv
    | true =>
      rw [List.filter_cons_of_pos hp, List.map_cons, List.pairwise_cons]
      -- the first write is taken, and from then on its time is the stamp
      have hoffer : X.stamp r ≤ X.time w →
          X.stamp (X.offer w r) = (X.time w : WithBot T) := fun h => by
        rw [X.offer_of_le h, X.stamp_write]
      constructor
      · intro h
        have hw : X.stamp r ≤ X.time w := h [] w ws rfl hp
        have htail := (ih (X.offer w r)).mp fun us v vs hsplit hv => by
          simpa [hp] using h (w :: us) v vs (by rw [hsplit, List.cons_append]) hv
        rw [hoffer hw] at htail
        refine ⟨?_, htail⟩
        intro t ht
        rcases List.mem_cons.mp ht with rfl | ht'
        · exact hw
        · exact hw.trans ((List.pairwise_cons.mp htail).1 t ht')
      · rintro ⟨hall, htail⟩ us v vs hsplit hv
        have hw : X.stamp r ≤ X.time w := hall _ List.mem_cons_self
        cases us with
        | nil =>
          simp only [List.nil_append, List.cons.injEq] at hsplit
          rw [← hsplit.1]
          exact hw
        | cons u us =>
          simp only [List.cons_append, List.cons.injEq] at hsplit
          rw [← hsplit.1, List.filter_cons_of_pos hp, run_cons]
          rw [← hoffer hw] at htail
          exact (ih (X.offer w r)).mpr htail us v vs hsplit.2 hv

/-! ### Running a list again -/

/-- Writes overwrite: a write hides every earlier occurrence of itself. -/
structure Overwriting : Prop where
  idem : ∀ w r, X.write w (X.write w r) = X.write w r
  hides : ∀ u v r, X.write u (X.write v (X.write u r)) = X.write u (X.write v r)

/-- All the writes, taken whatever the stamps. -/
def writeAll (ws : List W) (r : R) : R := ws.foldl (fun r w => X.write w r) r

lemma writeAll_append (us vs : List W) (r : R) :
    X.writeAll (us ++ vs) r = X.writeAll vs (X.writeAll us r) := by
  simp [writeAll, List.foldl_append]

variable {X}

lemma Overwriting.write_writeAll_write (hX : X.Overwriting) (u : W) (vs : List W) (r : R) :
    X.write u (X.writeAll vs (X.write u r)) = X.write u (X.writeAll vs r) := by
  induction vs generalizing r with
  | nil => exact hX.idem u r
  | cons v vs ih =>
    calc X.write u (X.writeAll vs (X.write v (X.write u r)))
        = X.write u (X.writeAll vs (X.write u (X.write v (X.write u r)))) := (ih _).symm
      _ = X.write u (X.writeAll vs (X.write u (X.write v r))) := by rw [hX.hides]
      _ = X.write u (X.writeAll vs (X.write v r)) := ih _

lemma Overwriting.writeAll_write (hX : X.Overwriting) {u : W} {vs : List W} (h : u ∈ vs) (r : R) :
    X.writeAll vs (X.write u r) = X.writeAll vs r := by
  obtain ⟨as, bs, rfl⟩ := List.append_of_mem h
  rw [writeAll_append, writeAll_append]
  show X.writeAll bs (X.write u (X.writeAll as (X.write u r))) = _
  rw [hX.write_writeAll_write]
  rfl

lemma Overwriting.writeAll_idem (hX : X.Overwriting) (ws : List W) (r : R) :
    X.writeAll ws (X.writeAll ws r) = X.writeAll ws r := by
  -- the inner run is peeled off one write at a time, each hidden by the outer run
  have key : ∀ us : List W, us ⊆ ws → ∀ r, X.writeAll ws (X.writeAll us r) = X.writeAll ws r := by
    intro us
    induction us with
    | nil => intro _ r; rfl
    | cons u us ih =>
      intro hsub r
      show X.writeAll ws (X.writeAll us (X.write u r)) = _
      rw [ih (fun w hw => hsub (List.mem_cons_of_mem _ hw)),
        hX.writeAll_write (hsub List.mem_cons_self)]
  exact key ws (List.Subset.refl ws) r

variable (X)

/-- The writes that carry the final stamp were taken last, and nothing after them. -/
lemma exists_writeAll_top (ws : List W) (r : R) :
    ∃ r₀, X.run ws r =
      X.writeAll (ws.filter fun w => (X.time w : WithBot T) = X.stamp (X.run ws r)) r₀ := by
  induction ws using List.reverseRecOn with
  | nil => exact ⟨r, rfl⟩
  | append_singleton ws w ih =>
    obtain ⟨r₀, h₀⟩ := ih
    rw [run_append, run_cons, run_nil, List.filter_append]
    rcases lt_trichotomy (X.stamp (X.run ws r)) (X.time w : WithBot T) with h | h | h
    · refine ⟨X.run ws r, ?_⟩
      have hnone : ws.filter (fun u => (X.time u : WithBot T) =
          X.stamp (X.offer w (X.run ws r))) = [] := by
        rw [List.filter_eq_nil_iff]
        intro u hu
        have hle := X.time_le_stamp_run hu r
        rw [X.offer_of_le h.le, X.stamp_write]
        simpa using (lt_of_le_of_lt hle h).ne
      rw [hnone, X.offer_of_le h.le, X.stamp_write]
      simp [writeAll]
    · refine ⟨r₀, ?_⟩
      have hs : X.stamp (X.offer w (X.run ws r)) = X.stamp (X.run ws r) := by
        rw [stamp_offer, h, max_self]
      rw [hs, writeAll_append, ← h₀, X.offer_of_le h.le]
      simp [writeAll, h]
    · refine ⟨r₀, ?_⟩
      rw [X.offer_of_lt h, writeAll_append, ← h₀]
      simp [writeAll, h.ne]

/-- A register whose stamp is the greatest takes from a list exactly the writes with its
own stamp. -/
lemma run_of_top {ws : List W} {r : R} (h : ∀ w ∈ ws, (X.time w : WithBot T) ≤ X.stamp r) :
    X.run ws r = X.writeAll (ws.filter fun w => (X.time w : WithBot T) = X.stamp r) r := by
  induction ws generalizing r with
  | nil => rfl
  | cons w ws ih =>
    have hw := h w List.mem_cons_self
    have hws : ∀ u ∈ ws, (X.time u : WithBot T) ≤ X.stamp r :=
      fun u hu => h u (List.mem_cons_of_mem _ hu)
    rw [run_cons]
    rcases hw.lt_or_eq with hlt | heq
    · rw [X.offer_of_lt hlt, ih hws, List.filter_cons_of_neg (by simpa using hlt.ne)]
    · have hs : X.stamp (X.write w r) = X.stamp r := by rw [X.stamp_write, heq]
      rw [X.offer_of_le heq.ge, ih (by rw [hs]; exact hws), hs,
        List.filter_cons_of_pos (by simpa using heq)]
      rfl

variable {X}

/-- **Offering a list a second time changes nothing.** -/
theorem Overwriting.run_idem (hX : X.Overwriting) (ws : List W) (r : R) :
    X.run ws (X.run ws r) = X.run ws r := by
  obtain ⟨r₀, h₀⟩ := X.exists_writeAll_top ws r
  rw [X.run_of_top fun w hw => X.time_le_stamp_run hw r]
  generalize ws.filter (fun w => (X.time w : WithBot T) = X.stamp (X.run ws r)) = top at h₀
  rw [h₀, hX.writeAll_idem]

/-- **A prefix offered beforehand is absorbed.** -/
theorem Overwriting.run_run_of_prefix (hX : X.Overwriting) {us ws : List W} (h : us <+: ws)
    (r : R) : X.run ws (X.run us r) = X.run ws r := by
  obtain ⟨vs, rfl⟩ := h
  rw [run_append, run_append, hX.run_idem]

end Register

end CortexDis.Stamped
