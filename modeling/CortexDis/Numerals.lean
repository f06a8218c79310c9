import CortexDis.PyDecimal

/-!
Decimal numerals: digit strings, and texts with a sign, a grouped whole part and a fraction.

Nothing here is about a program. A reading takes a text apart; a text may have several, when a
separator is a digit. A literal is a text that reads with a point and without groups; it has one
reading.
-/

namespace CortexDis.Numerals

open CortexDis.PyDecimal

/-- Only ASCII digits. -/
def Digits (s : List Char) : Prop := ∀ c ∈ s, c.isDigit = true

def digitOf (c : Char) : ℕ := c.toNat - 48

/-- The value of digits after the point. -/
def fractionValue (s : List Char) : ℚ := digitsValue s / 10 ^ s.length

/-! ### Digit strings -/

lemma digitOf_le {c : Char} (h : c.isDigit = true) : digitOf c ≤ 9 := by
  rw [Char.isDigit_iff_toNat] at h
  unfold digitOf
  have : c.toNat ≤ 57 := h.2
  omega

lemma digitOf_eq_zero {c : Char} (h : c.isDigit = true) : digitOf c = 0 ↔ c = '0' := by
  rw [Char.isDigit_iff_toNat] at h
  have h48 : 48 ≤ c.toNat := h.1
  unfold digitOf
  constructor
  · intro h0
    have htoNat : c.toNat = 48 := by omega
    calc c = Char.ofNat c.toNat := (Char.ofNat_toNat c).symm
      _ = '0' := by rw [htoNat]
  · rintro rfl
    rfl

lemma Digits.append {s t : List Char} (hs : Digits s) (ht : Digits t) : Digits (s ++ t) := by
  intro c hc
  rcases List.mem_append.mp hc with hc | hc
  · exact hs c hc
  · exact ht c hc

lemma Digits.filter {s : List Char} (hs : Digits s) (p : Char → Bool) : Digits (s.filter p) :=
  fun c hc => hs c (List.mem_of_mem_filter hc)

lemma digitsValue_snoc (s : List Char) (c : Char) :
    digitsValue (s ++ [c]) = 10 * digitsValue s + digitOf c := by
  unfold digitsValue
  rw [List.foldl_append]
  rfl

lemma digitsValue_append (s t : List Char) :
    digitsValue (s ++ t) = digitsValue s * 10 ^ t.length + digitsValue t := by
  induction t using List.reverseRecOn with
  | nil => simp [digitsValue]
  | append_singleton t c ih =>
    rw [← List.append_assoc, digitsValue_snoc, digitsValue_snoc, ih, List.length_append,
      List.length_singleton, pow_succ]
    ring

lemma digitsValue_singleton (c : Char) : digitsValue [c] = digitOf c := by
  simp [digitsValue, digitOf]

lemma digitsValue_cons (c : Char) (s : List Char) :
    digitsValue (c :: s) = digitOf c * 10 ^ s.length + digitsValue s := by
  rw [← List.singleton_append, digitsValue_append, digitsValue_singleton]

lemma digitsValue_lt {s : List Char} (h : Digits s) : digitsValue s < 10 ^ s.length := by
  induction s using List.reverseRecOn with
  | nil => simp [digitsValue]
  | append_singleton s c ih =>
    have hc := digitOf_le (h c (by simp))
    have hs := ih fun x hx => h x (List.mem_append_left _ hx)
    rw [digitsValue_snoc, List.length_append, List.length_singleton, pow_succ]
    omega

lemma digitsValue_replicate_zero (n : ℕ) : digitsValue (List.replicate n '0') = 0 := by
  induction n with
  | zero => rfl
  | succ n ih => simp [List.replicate_succ, digitsValue_cons, ih, digitOf]

lemma digitsValue_eq_zero {s : List Char} (h : Digits s) :
    digitsValue s = 0 ↔ ∀ c ∈ s, c = '0' := by
  induction s with
  | nil => simp [digitsValue]
  | cons c s ih =>
    rw [digitsValue_cons, List.forall_mem_cons, ← ih fun x hx => h x (List.mem_cons_of_mem _ hx),
      ← digitOf_eq_zero (h c List.mem_cons_self), Nat.add_eq_zero_iff, Nat.mul_eq_zero]
    simp

lemma digitsValue_filter_le (p : Char → Bool) (s : List Char) :
    digitsValue (s.filter p) ≤ digitsValue s := by
  induction s using List.reverseRecOn with
  | nil => rfl
  | append_singleton s c ih =>
    rw [List.filter_append, digitsValue_snoc]
    by_cases hc : p c
    · rw [List.filter_cons_of_pos hc, List.filter_nil, digitsValue_snoc]
      omega
    · rw [List.filter_cons_of_neg hc, List.filter_nil, List.append_nil]
      omega

@[simp] lemma fractionValue_nil : fractionValue [] = 0 := by simp [fractionValue, digitsValue]

lemma fractionValue_nonneg (s : List Char) : 0 ≤ fractionValue s := by
  unfold fractionValue
  positivity

lemma fractionValue_lt_one {s : List Char} (h : Digits s) : fractionValue s < 1 := by
  unfold fractionValue
  rw [div_lt_one (by positivity)]
  exact_mod_cast digitsValue_lt h

lemma fractionValue_cons (c : Char) (s : List Char) :
    fractionValue (c :: s) = (digitOf c + fractionValue s) / 10 := by
  have hpow : (10 : ℚ) ^ s.length ≠ 0 := by positivity
  unfold fractionValue
  rw [digitsValue_cons, List.length_cons, pow_succ]
  push_cast
  field_simp

lemma whole_eq_of_add_eq {m n : ℕ} {x y : ℚ} (hx : 0 ≤ x) (hx1 : x < 1) (hy : 0 ≤ y) (hy1 : y < 1)
    (h : (m : ℚ) + x = n + y) : m = n ∧ x = y := by
  have hmn : m = n := by
    have h1 : (m : ℚ) < n + 1 := by linarith
    have h2 : (n : ℚ) < m + 1 := by linarith
    have h1' : m < n + 1 := by exact_mod_cast h1
    have h2' : n < m + 1 := by exact_mod_cast h2
    omega
  refine ⟨hmn, ?_⟩
  rw [hmn] at h
  linarith

/-! ### Leaving out a digit -/

/-- `c` stands in the whole part at most as zeros before other digits. -/
def LeadsOnly (c : Char) (s : List Char) : Prop :=
  ∃ n ds, s = List.replicate n c ++ ds ∧ c ∉ ds ∧ ds ≠ [] ∧ (n ≠ 0 → c = '0')

/-- `c` stands in the fraction at most as zeros after other digits. -/
def TrailsOnly (c : Char) (s : List Char) : Prop :=
  ∃ n ds, s = ds ++ List.replicate n c ∧ c ∉ ds ∧ ds ≠ [] ∧ (n ≠ 0 → c = '0')

lemma filter_ne_of_not_mem {c : Char} {s : List Char} (h : c ∉ s) :
    s.filter (fun x => x ≠ c) = s := by
  rw [List.filter_eq_self]
  intro x hx
  simp only [decide_eq_true_eq]
  rintro rfl
  exact h hx

lemma filter_ne_replicate (c : Char) (n : ℕ) :
    (List.replicate n c).filter (fun x => x ≠ c) = [] := by
  rw [List.filter_eq_nil_iff]
  intro x hx
  simp [List.eq_of_mem_replicate hx]

lemma digitsValue_filter_iff {c : Char} {s : List Char} (h : Digits s) :
    s.filter (fun x => x ≠ c) ≠ [] ∧ digitsValue (s.filter fun x => x ≠ c) = digitsValue s ↔
      LeadsOnly c s := by
  constructor
  · induction s using List.reverseRecOn with
    | nil => simp
    | append_singleton s x ih =>
      have hs : Digits s := fun y hy => h y (List.mem_append_left _ hy)
      rintro ⟨hne, hval⟩
      rw [List.filter_append] at hne hval
      by_cases hx : x = c
      · -- a last digit left out leaves a tenth at most
        subst hx
        have hnil : [x].filter (fun y => y ≠ x) = [] := by simp
        rw [hnil, List.append_nil] at hne hval
        rw [digitsValue_snoc] at hval
        have hle := digitsValue_filter_le (fun y => y ≠ x) s
        have hzero : digitsValue (s.filter fun y => y ≠ x) = 0 := by omega
        have hx0 : x = '0' := (digitOf_eq_zero (h x (by simp))).mp (by omega)
        have hall := (digitsValue_eq_zero (hs.filter _)).mp hzero
        refine absurd (List.eq_nil_iff_forall_not_mem.mpr fun y hy => ?_) hne
        have hne := of_decide_eq_true (List.mem_filter.mp hy).2
        exact hne ((hall y hy).trans hx0.symm)
      · have hkeep : [x].filter (fun y => y ≠ c) = [x] := by simp [hx]
        rw [hkeep, digitsValue_snoc, digitsValue_snoc] at hval
        by_cases hnil : s.filter (fun y => y ≠ c) = []
        · -- every other digit is `c`, and their value is zero
          rw [hnil] at hval
          have hzero : digitsValue s = 0 := by
            simp only [digitsValue, List.foldl_nil] at hval
            unfold digitsValue
            omega
          have hrep : s = List.replicate s.length c := by
            refine List.eq_replicate_of_mem fun y hy => ?_
            by_contra hyc
            exact List.not_mem_nil (hnil ▸ List.mem_filter.mpr ⟨hy, by simpa using hyc⟩)
          refine ⟨s.length, [x], by rw [← hrep], by simpa using Ne.symm hx, by simp, fun hn => ?_⟩
          have hc : c ∈ s := by
            rw [hrep]
            exact List.mem_replicate.mpr ⟨hn, rfl⟩
          exact (digitsValue_eq_zero hs).mp hzero c hc
        · obtain ⟨n, ds, rfl, hds, -, hn⟩ := ih hs ⟨hnil, by omega⟩
          refine ⟨n, ds ++ [x], by simp, ?_, by simp, hn⟩
          simp [hds, Ne.symm hx]
  · rintro ⟨n, ds, rfl, hds, hne, hn⟩
    rw [List.filter_append, filter_ne_replicate, filter_ne_of_not_mem hds, List.nil_append]
    refine ⟨hne, ?_⟩
    rw [digitsValue_append]
    by_cases h0 : n = 0
    · simp [h0, digitsValue]
    · rw [hn h0, digitsValue_replicate_zero]
      simp

lemma fractionValue_append_replicate (ds : List Char) (n : ℕ) :
    fractionValue (ds ++ List.replicate n '0') = fractionValue ds := by
  induction ds with
  | nil =>
    rw [List.nil_append, fractionValue_nil, fractionValue, digitsValue_replicate_zero]
    simp
  | cons c ds ih => rw [List.cons_append, fractionValue_cons, ih, fractionValue_cons]

lemma fractionValue_filter_iff {c : Char} {s : List Char} (h : Digits s) :
    s.filter (fun x => x ≠ c) ≠ [] ∧ fractionValue (s.filter fun x => x ≠ c) = fractionValue s ↔
      TrailsOnly c s := by
  constructor
  · induction s with
    | nil => simp
    | cons x s ih =>
      have hs : Digits s := fun y hy => h y (List.mem_cons_of_mem _ hy)
      have hx9 := h x List.mem_cons_self
      rintro ⟨hne, hval⟩
      by_cases hx : x = c
      · -- the first digit that stays cannot be the one that goes
        subst hx
        rw [List.filter_cons_of_neg (by simp)] at hne hval
        obtain ⟨y, ys, hys⟩ := List.exists_cons_of_ne_nil hne
        have hy : y ∈ s.filter fun z => z ≠ x := by rw [hys]; simp
        obtain ⟨hys', hyx⟩ := List.mem_filter.mp hy
        have hysd : Digits ys := fun z hz =>
          hs z (List.mem_of_mem_filter (p := fun z => z ≠ x) (by rw [hys]; simp [hz]))
        rw [hys, fractionValue_cons, fractionValue_cons] at hval
        have hadd : (digitOf y : ℚ) + fractionValue ys = digitOf x + fractionValue s := by
          linarith
        have hdigit := (whole_eq_of_add_eq (fractionValue_nonneg _) (fractionValue_lt_one hysd)
          (fractionValue_nonneg _) (fractionValue_lt_one hs) hadd).1
        have hxy : y = x := by
          have hy48 := (Char.isDigit_iff_toNat.mp (hs y hys')).1
          have hx48 := (Char.isDigit_iff_toNat.mp hx9).1
          unfold digitOf at hdigit
          have htoNat : y.toNat = x.toNat := by
            have h1 : 48 ≤ y.toNat := hy48
            have h2 : 48 ≤ x.toNat := hx48
            omega
          exact Char.toNat_inj.mp htoNat
        exact absurd hxy (of_decide_eq_true hyx)
      · rw [List.filter_cons_of_pos (by simpa using hx)] at hval
        rw [fractionValue_cons, fractionValue_cons] at hval
        have hrest : fractionValue (s.filter fun y => y ≠ c) = fractionValue s := by linarith
        by_cases hnil : s.filter (fun y => y ≠ c) = []
        · have hrep : s = List.replicate s.length c := by
            refine List.eq_replicate_of_mem fun y hy => ?_
            by_contra hyc
            exact List.not_mem_nil (hnil ▸ List.mem_filter.mpr ⟨hy, by simpa using hyc⟩)
          rw [hnil, fractionValue_nil] at hrest
          refine ⟨s.length, [x], by rw [← hrep]; rfl, by simpa using Ne.symm hx, by simp,
            fun hn => ?_⟩
          have hzero : digitsValue s = 0 := by
            unfold fractionValue at hrest
            have hpow : (10 : ℚ) ^ s.length ≠ 0 := by positivity
            have := (div_eq_zero_iff.mp hrest.symm).resolve_right hpow
            exact_mod_cast this
          have hc : c ∈ s := by
            rw [hrep]
            exact List.mem_replicate.mpr ⟨hn, rfl⟩
          exact (digitsValue_eq_zero hs).mp hzero c hc
        · obtain ⟨n, ds, rfl, hds, -, hn⟩ := ih hs ⟨hnil, hrest⟩
          refine ⟨n, x :: ds, rfl, ?_, by simp, hn⟩
          simp [hds, Ne.symm hx]
  · rintro ⟨n, ds, rfl, hds, hne, hn⟩
    rw [List.filter_append, filter_ne_replicate, filter_ne_of_not_mem hds, List.append_nil]
    refine ⟨hne, ?_⟩
    by_cases h0 : n = 0
    · simp [h0]
    · rw [hn h0, fractionValue_append_replicate]

/-! ### Readings -/

/-- The parts of a numeral: its sign, the digits of the whole, and those of the fraction. -/
structure Reading where
  sign : List Char
  whole : List Char
  fraction : Option (List Char)

/-- The number without its sign. -/
def Reading.magnitude (r : Reading) : ℚ :=
  digitsValue r.whole + fractionValue (r.fraction.getD [])

def Reading.value (r : Reading) : ℚ := if r.sign = ['-'] then -r.magnitude else r.magnitude

def IsSign (s : List Char) : Prop := s = [] ∨ s = ['+'] ∨ s = ['-']

/-- Digits, or strict groups of three under the separator. -/
def IsWhole (thousands : Option Char) (body whole : List Char) : Prop :=
  (body = whole ∧ whole ≠ [] ∧ Digits whole) ∨
    ∃ sep, thousands = some sep ∧ ∃ g gs, body = g ++ gs.flatMap (fun h => sep :: h) ∧
      whole = g ++ gs.flatten ∧ (g ≠ [] ∧ g.length ≤ 3 ∧ Digits g) ∧ gs ≠ [] ∧
      ∀ h ∈ gs, h.length = 3 ∧ Digits h

/-- Nothing, or the decimal separator and digits. -/
def IsFraction (decimal : Option Char) (tail : List Char) (fraction : Option (List Char)) : Prop :=
  (tail = [] ∧ fraction = none) ∨
    ∃ sep f, decimal = some sep ∧ tail = sep :: f ∧ fraction = some f ∧ f ≠ [] ∧ Digits f

/-- The text has the reading, under the separators. -/
def Reads (decimal thousands : Option Char) (s : List Char) (r : Reading) : Prop :=
  ∃ body tail, s = r.sign ++ (body ++ tail) ∧ IsSign r.sign ∧ IsWhole thousands body r.whole ∧
    IsFraction decimal tail r.fraction

/-- A literal denotes a number: plain digits, a point before the fraction. -/
def Literal (s : String) (x : ℚ) : Prop :=
  ∃ r, Reads (some '.') none s.toList r ∧ r.value = x

lemma Reading.magnitude_nonneg (r : Reading) : 0 ≤ r.magnitude :=
  add_nonneg (Nat.cast_nonneg _) (fractionValue_nonneg _)

lemma Reading.abs_value (r : Reading) : |r.value| = r.magnitude := by
  unfold Reading.value
  split
  · rw [abs_neg, abs_of_nonneg r.magnitude_nonneg]
  · exact abs_of_nonneg r.magnitude_nonneg

lemma IsWhole.digits {thousands : Option Char} {body whole : List Char}
    (h : IsWhole thousands body whole) : whole ≠ [] ∧ Digits whole := by
  rcases h with ⟨-, hne, hd⟩ | ⟨sep, -, g, gs, -, rfl, ⟨hne, -, hd⟩, -, hgs⟩
  · exact ⟨hne, hd⟩
  · refine ⟨by simp [hne], hd.append fun c hc => ?_⟩
    obtain ⟨h, hh, hc⟩ := List.mem_flatten.mp hc
    exact (hgs h hh).2 c hc

lemma IsFraction.digits {decimal : Option Char} {tail : List Char} {fraction : Option (List Char)}
    (h : IsFraction decimal tail fraction) : Digits (fraction.getD []) := by
  rcases h with ⟨-, rfl⟩ | ⟨sep, f, -, -, rfl, -, hd⟩
  · simp [Digits]
  · exact hd

lemma Reads.digits {decimal thousands : Option Char} {s : List Char} {r : Reading}
    (h : Reads decimal thousands s r) :
    r.whole ≠ [] ∧ Digits r.whole ∧ Digits (r.fraction.getD []) := by
  obtain ⟨body, tail, -, -, hwhole, hfraction⟩ := h
  exact ⟨hwhole.digits.1, hwhole.digits.2, hfraction.digits⟩

lemma Reading.magnitude_eq {r r' : Reading} (hf : Digits (r.fraction.getD []))
    (hf' : Digits (r'.fraction.getD [])) :
    r.magnitude = r'.magnitude ↔ digitsValue r.whole = digitsValue r'.whole ∧
      fractionValue (r.fraction.getD []) = fractionValue (r'.fraction.getD []) := by
  constructor
  · exact whole_eq_of_add_eq (fractionValue_nonneg _) (fractionValue_lt_one hf)
      (fractionValue_nonneg _) (fractionValue_lt_one hf')
  · rintro ⟨hw, hfr⟩
    rw [Reading.magnitude, Reading.magnitude, hw, hfr]

/-! ### The one reading of a literal -/

lemma eq_of_sign_append {s s' u u' : List Char} (hs : IsSign s) (hs' : IsSign s')
    (hu : ∀ c ∈ u.head?, c ≠ '+' ∧ c ≠ '-') (hu' : ∀ c ∈ u'.head?, c ≠ '+' ∧ c ≠ '-')
    (h : s ++ u = s' ++ u') : s = s' ∧ u = u' := by
  have hplus : ∀ {v w : List Char}, (∀ c ∈ v.head?, c ≠ '+' ∧ c ≠ '-') → v ≠ '+' :: w :=
    fun hv hvw => (hv '+' (by rw [hvw]; rfl)).1 rfl
  have hminus : ∀ {v w : List Char}, (∀ c ∈ v.head?, c ≠ '+' ∧ c ≠ '-') → v ≠ '-' :: w :=
    fun hv hvw => (hv '-' (by rw [hvw]; rfl)).2 rfl
  rcases hs with rfl | rfl | rfl <;> rcases hs' with rfl | rfl | rfl
  · exact ⟨rfl, h⟩
  · exact absurd h (hplus hu)
  · exact absurd h (hminus hu)
  · exact absurd h.symm (hplus hu')
  · exact ⟨rfl, (List.cons.inj h).2⟩
  · exact absurd (List.cons.inj h).1 (by decide)
  · exact absurd h.symm (hminus hu')
  · exact absurd (List.cons.inj h).1 (by decide)
  · exact ⟨rfl, (List.cons.inj h).2⟩

lemma eq_of_digits_append {a a' t t' : List Char} (ha : Digits a) (ha' : Digits a')
    (ht : ∀ c ∈ t.head?, c.isDigit = false) (ht' : ∀ c ∈ t'.head?, c.isDigit = false)
    (h : a ++ t = a' ++ t') : a = a' ∧ t = t' := by
  induction a generalizing a' with
  | nil =>
    rcases a' with _ | ⟨c, a'⟩
    · exact ⟨rfl, h⟩
    · rw [List.nil_append] at h
      rw [h] at ht
      have := ht c rfl
      rw [ha' c List.mem_cons_self] at this
      cases this
  | cons c a ih =>
    rcases a' with _ | ⟨c', a'⟩
    · rw [List.nil_append] at h
      rw [← h] at ht'
      have := ht' c rfl
      rw [ha c List.mem_cons_self] at this
      cases this
    · obtain ⟨rfl, hrest⟩ := List.cons.inj h
      obtain ⟨rfl, rfl⟩ := ih (fun x hx => ha x (List.mem_cons_of_mem _ hx))
        (fun x hx => ha' x (List.mem_cons_of_mem _ hx)) hrest
      exact ⟨rfl, rfl⟩

lemma Reads.plain {s σ a t : List Char} {r : Reading} (h : Reads (some '.') none s r)
    (hs : s = σ ++ (a ++ t)) (hσ : IsSign σ) (ha : Digits a)
    (ht : ∀ c ∈ t.head?, c = '.') :
    r.sign = σ ∧ r.whole = a ∧ IsFraction (some '.') t r.fraction := by
  obtain ⟨body, tail, hread, hsign, hwhole, hfraction⟩ := h
  rcases hwhole with ⟨rfl, hne, hd⟩ | ⟨sep, hsep, -⟩
  · -- digits end at the point or at the end of the text, so both splits cut at one place
    have hnodigit : ∀ {u : List Char}, (∀ c ∈ u.head?, c = '.') →
        ∀ c ∈ u.head?, c.isDigit = false := by
      intro u hu c hc
      rw [hu c hc]
      decide
    have htail : ∀ c ∈ tail.head?, c = '.' := by
      rcases hfraction with ⟨rfl, -⟩ | ⟨sep, f, hsep, rfl, -⟩
      · simp
      · intro c hc
        cases hsep
        exact (Option.some.inj hc).symm
    have hhead : ∀ {a t : List Char}, Digits a → (∀ c ∈ t.head?, c = '.') →
        ∀ c ∈ (a ++ t).head?, c ≠ '+' ∧ c ≠ '-' := by
      intro a t ha ht c hc
      rcases a with _ | ⟨x, a⟩
      · rw [ht c hc]
        decide
      · cases hc
        have hx := ha c List.mem_cons_self
        refine ⟨?_, ?_⟩ <;> rintro rfl <;> exact absurd hx (by decide)
    rw [hread] at hs
    obtain ⟨hσ', hrest⟩ := eq_of_sign_append hsign hσ (hhead hd htail) (hhead ha ht) hs
    obtain ⟨hw, rfl⟩ := eq_of_digits_append hd ha (hnodigit htail) (hnodigit ht) hrest
    exact ⟨hσ', hw, hfraction⟩
  · cases hsep

lemma Literal.unique {s : String} {x y : ℚ} (hx : Literal s x) (hy : Literal s y) : x = y := by
  obtain ⟨r, hr, rfl⟩ := hx
  obtain ⟨r', hr', rfl⟩ := hy
  obtain ⟨body, tail, hs, hsign, hwhole, hfraction⟩ := hr
  rcases hwhole with ⟨rfl, -, hd⟩ | ⟨sep, hsep, -⟩
  · have htail : ∀ c ∈ tail.head?, c = '.' := by
      rcases hfraction with ⟨rfl, -⟩ | ⟨sep, f, hsep, rfl, -⟩
      · simp
      · intro c hc
        cases hsep
        exact (Option.some.inj hc).symm
    obtain ⟨hs', hw', hf'⟩ := hr'.plain hs hsign hd htail
    have hfr : r'.fraction = r.fraction := by
      rcases hfraction with ⟨rfl, hn⟩ | ⟨sep, f, -, rfl, hf, -⟩ <;>
        rcases hf' with ⟨ht, hn'⟩ | ⟨sep', f', -, ht, hf'', -⟩
      · rw [hn, hn']
      · cases ht
      · cases ht
      · rw [hf, hf'', (List.cons.inj ht).2]
    rw [Reading.value, Reading.value, Reading.magnitude, Reading.magnitude, hs', hw', hfr]
  · cases hsep

/-! ### Printing -/

/-- The last `len` digits of a number. -/
def fixedDigits (n : ℕ) : ℕ → List Char
  | 0 => []
  | len + 1 => fixedDigits (n / 10) len ++ [digitChar (n % 10)]

/-- The text of `k / 10 ^ scale`, with all fraction digits. -/
def fixedText (scale : ℕ) (k : ℤ) : List Char :=
  (if k < 0 then ['-'] else []) ++
    (fixedDigits (k.natAbs / 10 ^ scale) (digitCount (k.natAbs / 10 ^ scale)) ++
      '.' :: fixedDigits (k.natAbs % 10 ^ scale) scale)

lemma isDigit_digitChar {n : ℕ} (h : n < 10) :
    (digitChar n).isDigit = true ∧ digitOf (digitChar n) = n := by
  interval_cases n <;> decide

@[simp] lemma length_fixedDigits (n len : ℕ) : (fixedDigits n len).length = len := by
  induction len generalizing n with
  | zero => rfl
  | succ len ih => rw [fixedDigits, List.length_append, ih, List.length_singleton]

lemma digits_fixedDigits (n len : ℕ) : Digits (fixedDigits n len) := by
  induction len generalizing n with
  | zero => simp [fixedDigits, Digits]
  | succ len ih =>
    refine (ih (n / 10)).append fun c hc => ?_
    rw [List.mem_singleton.mp hc]
    exact (isDigit_digitChar (Nat.mod_lt n (by decide))).1

lemma digitsValue_fixedDigits (n len : ℕ) : digitsValue (fixedDigits n len) = n % 10 ^ len := by
  induction len generalizing n with
  | zero => simp [fixedDigits, digitsValue, Nat.mod_one]
  | succ len ih =>
    rw [fixedDigits, digitsValue_snoc, ih, (isDigit_digitChar (Nat.mod_lt n (by decide))).2,
      pow_succ, mul_comm (10 ^ len) 10, Nat.mod_mul]
    omega

lemma digitsValue_whole (n : ℕ) : digitsValue (fixedDigits n (digitCount n)) = n := by
  rw [digitsValue_fixedDigits, digitCount]
  exact Nat.mod_eq_of_lt (Nat.lt_pow_succ_log_self (by decide) n)

lemma magnitude_fixedText (scale : ℕ) (k : ℤ) :
    (digitsValue (fixedDigits (k.natAbs / 10 ^ scale) (digitCount (k.natAbs / 10 ^ scale))) : ℚ) +
      fractionValue (fixedDigits (k.natAbs % 10 ^ scale) scale) = k.natAbs / 10 ^ scale := by
  have hpow : (10 : ℚ) ^ scale ≠ 0 := by positivity
  rw [digitsValue_whole, fractionValue, digitsValue_fixedDigits, length_fixedDigits, Nat.mod_mod,
    eq_div_iff hpow, add_mul, div_mul_cancel₀ _ hpow]
  exact_mod_cast Nat.div_add_mod' _ _

lemma fractionValue_append (a b : List Char) :
    fractionValue (a ++ b) = fractionValue a + fractionValue b / 10 ^ a.length := by
  induction a with
  | nil => simp
  | cons c a ih =>
    have hpow : (10 : ℚ) ^ a.length ≠ 0 := by positivity
    rw [List.cons_append, fractionValue_cons, ih, fractionValue_cons, List.length_cons, pow_succ]
    field_simp
    ring

lemma floor_magnitude (w f : List Char) (hf : Digits f) (scale : ℕ) :
    ⌊((digitsValue w : ℚ) + fractionValue f) * 10 ^ scale⌋ =
      digitsValue (w ++ (f ++ List.replicate scale '0').take scale) := by
  set g := f ++ List.replicate scale '0' with hg
  have hgd : Digits g := hf.append fun c hc => by rw [List.eq_of_mem_replicate hc]; rfl
  have hlen : (g.take scale).length = scale := by
    rw [List.length_take, hg, List.length_append, List.length_replicate]
    omega
  have hvalue : fractionValue f = fractionValue (g.take scale) +
      fractionValue (g.drop scale) / 10 ^ scale := by
    have happend := fractionValue_append (g.take scale) (g.drop scale)
    rwa [List.take_append_drop, hlen, hg, fractionValue_append_replicate] at happend
  have hpow : (10 : ℚ) ^ scale ≠ 0 := by positivity
  have htake : fractionValue (g.take scale) * 10 ^ scale = digitsValue (g.take scale) := by
    rw [fractionValue, hlen, div_mul_cancel₀ _ hpow]
  -- shifted by the scale, the kept digits are whole and the rest is below one
  have hsum : ((digitsValue w : ℚ) + fractionValue f) * 10 ^ scale =
      (digitsValue (w ++ g.take scale) : ℤ) + fractionValue (g.drop scale) := by
    rw [hvalue, digitsValue_append, hlen]
    push_cast
    rw [← htake]
    field_simp
    ring
  rw [hsum, Int.floor_intCast_add]
  have hfloor : ⌊fractionValue (g.drop scale)⌋ = 0 := by
    rw [Int.floor_eq_zero_iff]
    exact ⟨fractionValue_nonneg _,
      fractionValue_lt_one fun c hc => hgd c (List.mem_of_mem_drop hc)⟩
  rw [hfloor, add_zero]

lemma exists_trailing_zeros (f : List Char) :
    ∃ n g, f = g ++ List.replicate n '0' ∧ ∀ c ∈ g.getLast?, c ≠ '0' := by
  induction f using List.reverseRecOn with
  | nil => exact ⟨0, [], rfl, by simp⟩
  | append_singleton f c ih =>
    by_cases hc : c = '0'
    · obtain ⟨n, g, rfl, hg⟩ := ih
      exact ⟨n + 1, g, by rw [hc, List.replicate_succ', List.append_assoc], hg⟩
    · exact ⟨0, f ++ [c], by simp, by simpa using hc⟩

lemma rdropWhile_zeros {l : List Char} (h : ∀ c ∈ l.getLast?, c ≠ '0') (n : ℕ) :
    (l ++ List.replicate n '0').rdropWhile (fun c => decide (c = '0')) = l := by
  induction n with
  | zero =>
    rw [List.replicate_zero, List.append_nil, List.rdropWhile_eq_self_iff]
    intro hl hlast
    exact h _ (List.getLast?_eq_some_getLast hl) (of_decide_eq_true hlast)
  | succ n ih =>
    rw [List.replicate_succ', ← List.append_assoc, List.rdropWhile_concat_pos _ _ _ (by simp), ih]

end CortexDis.Numerals
