import Mathlib

/-!
Runs of a system that takes one action after another.
-/

namespace CortexDis.Runs

variable {S A : Type*} (step : S → A → S)

/-- `P` holds at each action of the run, of the state before it and the action. -/
def Along (P : S → A → Prop) : List A → S → Prop
  | [], _ => True
  | a :: as, s => P s a ∧ Along P as (step s a)

variable {step} {P Q : S → A → Prop}

@[simp] lemma along_nil (s : S) : Along step P [] s := trivial
@[simp] lemma along_cons (a : A) (as : List A) (s : S) :
    Along step P (a :: as) s ↔ P s a ∧ Along step P as (step s a) := Iff.rfl

lemma along_append (as bs : List A) (s : S) :
    Along step P (as ++ bs) s ↔ Along step P as s ∧ Along step P bs (as.foldl step s) := by
  induction as generalizing s with
  | nil => simp
  | cons a as ih => simp [ih, and_assoc]

lemma along_congr (as : List A) (h : ∀ s, ∀ a ∈ as, P s a ↔ Q s a) (s : S) :
    Along step P as s ↔ Along step Q as s := by
  induction as generalizing s with
  | nil => exact Iff.rfl
  | cons a as ih =>
    rw [along_cons, along_cons, h s a List.mem_cons_self,
      ih fun s b hb => h s b (List.mem_cons_of_mem _ hb)]

/-- A reflexive and transitive relation that holds over each step holds over the run. -/
lemma Along.chain {r : S → S → Prop} (hrefl : ∀ s, r s s)
    (htrans : ∀ {a b c}, r a b → r b c → r a c) {as : List A} {s : S}
    (h : Along step (fun s a => r s (step s a)) as s) : r s (as.foldl step s) := by
  induction as generalizing s with
  | nil => exact hrefl s
  | cons a as ih => exact htrans h.1 (ih h.2)

/-- An invariant that each action keeps where `P` holds is true in every state of the run. -/
lemma Along.invariant {I : S → Prop} (hstep : ∀ s a, I s → P s a → I (step s a)) {as : List A}
    {s : S} (h : Along step P as s) (hs : I s) (n : ℕ) : I ((as.take n).foldl step s) := by
  induction as generalizing s n with
  | nil => simpa using hs
  | cons a as ih =>
    cases n with
    | zero => exact hs
    | succ n => exact ih h.2 (hstep s a hs h.1) n

/-- What each action does where the invariant holds, it does all along the run. -/
lemma along_of_invariant {I : S → Prop} {as : List A}
    (hstep : ∀ s, ∀ a ∈ as, I s → P s a ∧ I (step s a)) {s : S} (hs : I s) :
    Along step P as s := by
  induction as generalizing s with
  | nil => trivial
  | cons a as ih =>
    obtain ⟨hP, hI⟩ := hstep s a List.mem_cons_self hs
    exact ⟨hP, ih (fun s b hb => hstep s b (List.mem_cons_of_mem _ hb)) hI⟩

/-- What holds at the end and not at the start is brought about by some step. -/
lemma exists_step_of (f : S → A → S) {Q : S → Prop} {as : List A} {s : S} (hstart : ¬ Q s)
    (hend : Q (as.foldl f s)) : ∃ before a after, as = before ++ a :: after ∧
      ¬ Q (before.foldl f s) ∧ Q (f (before.foldl f s) a) := by
  induction as generalizing s with
  | nil => exact absurd hend hstart
  | cons a as ih =>
    by_cases hstep : Q (f s a)
    · exact ⟨[], a, as, rfl, hstart, hstep⟩
    · obtain ⟨before, b, after, rfl, hnot, hb⟩ := ih hstep hend
      exact ⟨a :: before, b, after, rfl, hnot, hb⟩

/-! ### Two systems under the same actions -/

section Outputs

variable {O T : Type*}

/-- What a system answers to each action of a run. -/
def outputs (step : S → A → S × O) : List A → S → List O
  | [], _ => []
  | a :: as, s => (step s a).2 :: outputs step as (step s a).1

/-- Two systems answer alike exactly as long as `P` holds, if from related states `P` says
whether the next answers agree and keeps the states related. -/
lemma outputs_eq_iff {stepS : S → A → S × O} {stepT : T → A → T × O} {P : S → A → Prop}
    {R : S → T → Prop} {as : List A}
    (hout : ∀ a ∈ as, ∀ s t, R s t → ((stepS s a).2 = (stepT t a).2 ↔ P s a))
    (hnext : ∀ a ∈ as, ∀ s t, R s t → P s a → R (stepS s a).1 (stepT t a).1) {s : S} {t : T}
    (h : R s t) :
    outputs stepS as s = outputs stepT as t ↔ Along (fun s a => (stepS s a).1) P as s := by
  induction as generalizing s t with
  | nil => simp [outputs]
  | cons a as ih =>
    rw [outputs, outputs, List.cons.injEq, along_cons, hout a List.mem_cons_self s t h]
    refine and_congr_right fun hP => ?_
    exact ih (fun b hb => hout b (List.mem_cons_of_mem _ hb))
      (fun b hb => hnext b (List.mem_cons_of_mem _ hb)) (hnext a List.mem_cons_self s t h hP)

end Outputs

/-! ### Steps that can fail -/

universe u

variable {ε T : Type*} {α β : Type u}

@[simp] lemma ok_bind (a : α) (f : α → Except ε β) : ((.ok a : Except ε α) >>= f) = f a := rfl

lemma error_bind (e : ε) (f : α → Except ε β) : ((.error e : Except ε α) >>= f) = .error e := rfl

lemma of_bind_eq_ok {x : Except ε α} {f : α → Except ε β} {b : β} (h : (x >>= f) = .ok b) :
    ∃ a, x = .ok a ∧ f a = .ok b := by
  cases x with
  | error e => cases h
  | ok a => exact ⟨a, rfl, h⟩

lemma of_bind_eq_error {x : Except ε α} {f : α → Except ε β} {e : ε} (h : (x >>= f) = .error e) :
    x = .error e ∨ ∃ a, x = .ok a ∧ f a = .error e := by
  cases x with
  | error e' =>
    cases h
    exact Or.inl rfl
  | ok a => exact Or.inr ⟨a, rfl, h⟩

lemma exists_of_isOk {x : Except ε α} (h : x.isOk) : ∃ a, x = .ok a := by
  cases x with
  | error e => cases h
  | ok a => exact ⟨a, rfl⟩

lemma forall₂_of_mapM_eq_ok {f : A → Except ε β} {as : List A} {bs : List β}
    (h : as.mapM f = .ok bs) : List.Forall₂ (fun a b => f a = .ok b) as bs := by
  induction as generalizing bs with
  | nil =>
    cases h
    exact .nil
  | cons a as ih =>
    rw [List.mapM_cons] at h
    obtain ⟨b, hb, h⟩ := of_bind_eq_ok h
    obtain ⟨rest, hrest, h⟩ := of_bind_eq_ok h
    cases h
    exact .cons hb (ih hrest)

lemma exists_of_mem_mapM {f : A → Except ε β} {as : List A} {bs : List β}
    (h : as.mapM f = .ok bs) : ∀ b ∈ bs, ∃ a ∈ as, f a = .ok b := by
  have hall := forall₂_of_mapM_eq_ok h
  clear h
  induction hall with
  | nil => simp
  | @cons a b as bs hb _ ih =>
    intro b' hb'
    rcases List.mem_cons.mp hb' with rfl | hb'
    · exact ⟨a, List.mem_cons_self, hb⟩
    · obtain ⟨a', ha', h'⟩ := ih b' hb'
      exact ⟨a', List.mem_cons_of_mem _ ha', h'⟩

lemma exists_ok_of_mem_mapM {f : A → Except ε β} {as : List A} {bs : List β}
    (h : as.mapM f = .ok bs) : ∀ a ∈ as, ∃ b, f a = .ok b := by
  have hall := forall₂_of_mapM_eq_ok h
  clear h
  induction hall with
  | nil => simp
  | cons hb _ ih => exact List.forall_mem_cons.mpr ⟨⟨_, hb⟩, ih⟩

lemma exists_mapM_eq_ok {f : A → Except ε β} {as : List A} (h : ∀ a ∈ as, ∃ b, f a = .ok b) :
    ∃ bs, as.mapM f = .ok bs := by
  induction as with
  | nil => exact ⟨[], rfl⟩
  | cons a as ih =>
    obtain ⟨b, hb⟩ := h a List.mem_cons_self
    obtain ⟨bs, hbs⟩ := ih fun a' ha' => h a' (List.mem_cons_of_mem _ ha')
    refine ⟨b :: bs, ?_⟩
    rw [List.mapM_cons, hb, hbs]
    rfl

/-- A function fixes the decoded list when it fixes each element decoded from it. -/
lemma map_eq_self_iff_of_mapM {f : A → Except ε β} {g : β → β} {C : A → Prop}
    (h : ∀ a b, f a = .ok b → (g b = b ↔ C a)) {as : List A} {bs : List β}
    (hf : as.mapM f = .ok bs) : bs.map g = bs ↔ ∀ a ∈ as, C a := by
  have hall := forall₂_of_mapM_eq_ok hf
  clear hf
  induction hall with
  | nil => simp
  | cons hb _ ih => simp [h _ _ hb, ih]

/-- Decoding an encoded list, where decoding an encoded element gives `g` of it. -/
lemma mapM_map_eq_ok {f : T → Except ε β} {e : A → T} {g : A → β} {as : List A}
    (h : ∀ a ∈ as, f (e a) = .ok (g a)) : (as.map e).mapM f = .ok (as.map g) := by
  induction as with
  | nil => rfl
  | cons a as ih =>
    have hrest := ih fun b hb => h b (List.mem_cons_of_mem _ hb)
    rw [List.map_cons, List.mapM_cons, h a List.mem_cons_self, hrest]
    rfl

/-- A run that does not fail follows an abstract run that relates to it step by step; the
relation may speak of the actions still to come. -/
lemma foldlM_relates {step : S → A → Except ε S} {spec : T → A → T} {R : List A → S → T → Prop}
    (hstep : ∀ a as s s' t, R (a :: as) s t → step s a = .ok s' → R as s' (spec t a))
    {as : List A} {s s' : S} {t : T} (h : R as s t) (hrun : as.foldlM step s = .ok s') :
    R [] s' (as.foldl spec t) := by
  induction as generalizing s t with
  | nil =>
    cases hrun
    exact h
  | cons a as ih =>
    rw [List.foldlM_cons] at hrun
    obtain ⟨s₁, h₁, hrest⟩ := of_bind_eq_ok hrun
    exact ih (hstep a as s s₁ t h h₁) hrest

lemma foldlM_keeps {step : S → A → Except ε S} {I : S → Prop}
    (hstep : ∀ a s s', I s → step s a = .ok s' → I s') {as : List A} {s s' : S} (h : I s)
    (hrun : as.foldlM step s = .ok s') : I s' := by
  induction as generalizing s with
  | nil =>
    cases hrun
    exact h
  | cons a as ih =>
    rw [List.foldlM_cons] at hrun
    obtain ⟨s₁, h₁, hrest⟩ := of_bind_eq_ok hrun
    exact ih (hstep a s s₁ h h₁) hrest

/-- A run succeeds when each of its actions does, where that is a matter of the action alone. -/
lemma foldlM_isOk_iff {step : S → A → Except ε S} {good : A → Prop} {I : List A → S → Prop}
    (hgood : ∀ a as s, I (a :: as) s → ((∃ s', step s a = .ok s') ↔ good a))
    (hkeep : ∀ a as s s', I (a :: as) s → step s a = .ok s' → I as s') {as : List A} {s : S}
    (h : I as s) : (∃ s', as.foldlM step s = .ok s') ↔ ∀ a ∈ as, good a := by
  induction as generalizing s with
  | nil => exact iff_of_true ⟨s, rfl⟩ (by simp)
  | cons a as ih =>
    rw [List.foldlM_cons, List.forall_mem_cons, ← hgood a as s h]
    constructor
    · rintro ⟨s', hrun⟩
      obtain ⟨s₁, h₁, hrest⟩ := of_bind_eq_ok hrun
      exact ⟨⟨s₁, h₁⟩, (ih (hkeep a as s s₁ h h₁)).mp ⟨s', hrest⟩⟩
    · rintro ⟨⟨s₁, h₁⟩, hall⟩
      obtain ⟨s', hrest⟩ := (ih (hkeep a as s s₁ h h₁)).mpr hall
      exact ⟨s', by rw [h₁]; exact hrest⟩

/-- The run gets to the action `a`, in the state `s'`. -/
def Reaches (step : S → A → Except ε S) (as : List A) (s : S) (a : A) (s' : S) : Prop :=
  ∃ before after, as = before ++ a :: after ∧ before.foldlM step s = .ok s'

section Reaches

variable {step : S → A → Except ε S} {as : List A} {s s' : S} {a : A}

lemma Reaches.mem (h : Reaches step as s a s') : a ∈ as := by
  obtain ⟨before, after, rfl, -⟩ := h
  simp

/-- What each action keeps of the actions still to come and the state holds where the run
gets to. -/
lemma Reaches.invariant {I : List A → S → Prop}
    (hkeep : ∀ a as s s', I (a :: as) s → step s a = .ok s' → I as s')
    (h : Reaches step as s a s') (hs : I as s) : ∃ rest, I (a :: rest) s' := by
  obtain ⟨before, after, rfl, hrun⟩ := h
  refine ⟨after, ?_⟩
  induction before generalizing s with
  | nil =>
    cases hrun
    exact hs
  | cons b before ih =>
    rw [List.foldlM_cons] at hrun
    obtain ⟨s₁, h₁, hrest⟩ := of_bind_eq_ok hrun
    exact ih hrest (hkeep b _ s s₁ hs h₁)

/-- A run fails at an action that it gets to. -/
lemma exists_reaches_of_error {e : ε} (h : as.foldlM step s = .error e) :
    ∃ a s', Reaches step as s a s' ∧ step s' a = .error e := by
  induction as generalizing s with
  | nil => cases h
  | cons b as ih =>
    rw [List.foldlM_cons] at h
    rcases of_bind_eq_error h with hb | ⟨s₁, h₁, hrest⟩
    · exact ⟨b, s, ⟨[], as, rfl, rfl⟩, hb⟩
    · obtain ⟨a, s', ⟨before, after, rfl, hrun⟩, ha⟩ := ih hrest
      exact ⟨a, s', ⟨b :: before, after, rfl, by rw [List.foldlM_cons, h₁]; exact hrun⟩, ha⟩

end Reaches

end CortexDis.Runs
