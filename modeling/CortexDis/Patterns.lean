import Mathlib

/-!
Patterns over text, by the list of their successes: a pattern maps a text to what can be left
of it after a match at its start.
-/

namespace CortexDis.Patterns

abbrev Pattern := List Char → List (List Char)

/-- One character of a class. -/
def chr (p : Char → Bool) : Pattern
  | [] => []
  | c :: s => if p c then [s] else []

/-- One or more characters of a class. -/
def many1 (p : Char → Bool) : Pattern
  | [] => []
  | c :: s => if p c then s :: many1 p s else []

def seq (a b : Pattern) : Pattern := fun s => (a s).flatMap b

def alt (a b : Pattern) : Pattern := fun s => a s ++ b s

def opt (a : Pattern) : Pattern := fun s => a s ++ [s]

/-- `a` exactly `n` times. -/
def times (a : Pattern) : ℕ → Pattern
  | 0 => fun s => [s]
  | n + 1 => seq a (times a n)

/-- `a` one to `n` times. -/
def upTo (a : Pattern) : ℕ → Pattern
  | 0 => fun _ => []
  | n + 1 => seq a (opt (upTo a n))

/-- `a` one or more times, where each time consumes something. -/
def plus (a : Pattern) : Pattern := fun s => upTo a s.length s

/-- The pattern matches the whole text. -/
def fullMatch (a : Pattern) (s : String) : Bool := (a s.toList).any List.isEmpty

/-! ### The words of a pattern -/

/-- The pattern takes exactly the words of `L` off the start of a text. -/
def Denotes (a : Pattern) (L : List Char → Prop) : Prop :=
  ∀ s rest, rest ∈ a s ↔ ∃ u, L u ∧ s = u ++ rest

lemma denotes_chr (p : Char → Bool) : Denotes (chr p) fun u => ∃ c, p c = true ∧ u = [c] := by
  intro s rest
  cases s with
  | nil => simp [chr]
  | cons c s =>
    constructor
    · intro h
      simp only [chr] at h
      split at h
      · rw [List.mem_singleton.mp h]
        exact ⟨[c], ⟨c, ‹_›, rfl⟩, rfl⟩
      · cases h
    · rintro ⟨u, ⟨x, hx, rfl⟩, hs⟩
      obtain ⟨rfl, rfl⟩ := List.cons.inj hs
      simp [chr, hx]

lemma denotes_many1 (p : Char → Bool) :
    Denotes (many1 p) fun u => u ≠ [] ∧ ∀ c ∈ u, p c = true := by
  intro s
  induction s with
  | nil =>
    intro rest
    refine iff_of_false (by simp [many1]) ?_
    rintro ⟨u, ⟨hne, -⟩, hs⟩
    exact hne (List.append_eq_nil_iff.mp hs.symm).1
  | cons c s ih =>
    intro rest
    constructor
    · intro h
      simp only [many1] at h
      split at h
      · rename_i hc
        rcases List.mem_cons.mp h with rfl | h
        · exact ⟨[c], ⟨by simp, by simpa using hc⟩, rfl⟩
        · obtain ⟨u, ⟨-, hu⟩, rfl⟩ := (ih rest).mp h
          exact ⟨c :: u, ⟨by simp, by simpa [hc] using hu⟩, rfl⟩
      · cases h
    · rintro ⟨u, ⟨hne, hu⟩, hs⟩
      obtain ⟨x, u, rfl⟩ := List.exists_cons_of_ne_nil hne
      obtain ⟨rfl, rfl⟩ := List.cons.inj hs
      simp only [many1, hu c List.mem_cons_self, if_true, List.mem_cons]
      rcases u with _ | ⟨y, u⟩
      · exact Or.inl rfl
      · exact Or.inr ((ih rest).mpr
          ⟨y :: u, ⟨by simp, fun z hz => hu z (List.mem_cons_of_mem _ hz)⟩, rfl⟩)

variable {a b : Pattern} {L M : List Char → Prop}

lemma Denotes.congr (ha : Denotes a L) (h : ∀ u, L u ↔ M u) : Denotes a M := by
  have hLM : L = M := funext fun u => propext (h u)
  rwa [← hLM]

lemma Denotes.seq (ha : Denotes a L) (hb : Denotes b M) :
    Denotes (seq a b) fun u => ∃ v w, L v ∧ M w ∧ u = v ++ w := by
  intro s rest
  unfold Patterns.seq
  rw [List.mem_flatMap]
  constructor
  · rintro ⟨mid, hmid, hrest⟩
    obtain ⟨v, hv, rfl⟩ := (ha s mid).mp hmid
    obtain ⟨w, hw, rfl⟩ := (hb mid rest).mp hrest
    exact ⟨v ++ w, ⟨v, w, hv, hw, rfl⟩, by simp⟩
  · rintro ⟨u, ⟨v, w, hv, hw, rfl⟩, rfl⟩
    exact ⟨w ++ rest, (ha _ _).mpr ⟨v, hv, by simp⟩, (hb _ _).mpr ⟨w, hw, rfl⟩⟩

lemma Denotes.alt (ha : Denotes a L) (hb : Denotes b M) :
    Denotes (alt a b) fun u => L u ∨ M u := by
  intro s rest
  unfold Patterns.alt
  rw [List.mem_append, ha s rest, hb s rest]
  constructor
  · rintro (⟨u, hu, hs⟩ | ⟨u, hu, hs⟩)
    · exact ⟨u, Or.inl hu, hs⟩
    · exact ⟨u, Or.inr hu, hs⟩
  · rintro ⟨u, hu | hu, hs⟩
    · exact Or.inl ⟨u, hu, hs⟩
    · exact Or.inr ⟨u, hu, hs⟩

lemma Denotes.opt (ha : Denotes a L) : Denotes (opt a) fun u => L u ∨ u = [] := by
  intro s rest
  unfold Patterns.opt
  rw [List.mem_append, ha s rest, List.mem_singleton]
  constructor
  · rintro (⟨u, hu, hs⟩ | rfl)
    · exact ⟨u, Or.inl hu, hs⟩
    · exact ⟨[], Or.inr rfl, rfl⟩
  · rintro ⟨u, hu | rfl, hs⟩
    · exact Or.inl ⟨u, hu, hs⟩
    · exact Or.inr hs.symm

lemma Denotes.times (ha : Denotes a L) (n : ℕ) :
    Denotes (times a n) fun u => ∃ ws : List (List Char), ws.length = n ∧
      (∀ w ∈ ws, L w) ∧ u = ws.flatten := by
  induction n with
  | zero =>
    intro s rest
    simp only [Patterns.times, List.mem_singleton, List.length_eq_zero_iff]
    constructor
    · rintro rfl
      exact ⟨[], ⟨[], rfl, by simp, rfl⟩, rfl⟩
    · rintro ⟨u, ⟨ws, rfl, -, rfl⟩, hs⟩
      exact hs.symm
  | succ n ih =>
    intro s rest
    rw [Patterns.times, (ha.seq ih) s rest]
    constructor
    · rintro ⟨u, ⟨v, w, hv, ⟨ws, hlen, hws, rfl⟩, rfl⟩, hs⟩
      exact ⟨_, ⟨v :: ws, by simp [hlen], by simpa [hv] using hws, rfl⟩, hs⟩
    · rintro ⟨u, ⟨ws, hlen, hws, rfl⟩, hs⟩
      obtain ⟨v, ws, rfl⟩ := List.exists_cons_of_length_eq_add_one hlen
      refine ⟨_, ⟨v, ws.flatten, hws v List.mem_cons_self, ⟨ws, by simpa using hlen,
        fun w hw => hws w (List.mem_cons_of_mem _ hw), rfl⟩, rfl⟩, hs⟩

lemma Denotes.upTo (ha : Denotes a L) (n : ℕ) :
    Denotes (upTo a n) fun u => ∃ ws : List (List Char), ws ≠ [] ∧ ws.length ≤ n ∧
      (∀ w ∈ ws, L w) ∧ u = ws.flatten := by
  induction n with
  | zero =>
    intro s rest
    refine iff_of_false (by simp [Patterns.upTo]) ?_
    rintro ⟨u, ⟨ws, hne, hlen, -⟩, -⟩
    exact hne (List.length_eq_zero_iff.mp (Nat.le_zero.mp hlen))
  | succ n ih =>
    intro s rest
    rw [Patterns.upTo, (ha.seq ih.opt) s rest]
    constructor
    · rintro ⟨u, ⟨v, w, hv, ⟨ws, -, hlen, hws, rfl⟩ | rfl, rfl⟩, hs⟩
      · exact ⟨_, ⟨v :: ws, by simp, by simpa using hlen, by simpa [hv] using hws, rfl⟩, hs⟩
      · exact ⟨_, ⟨[v], by simp, by simp, by simpa using hv, by simp⟩, hs⟩
    · rintro ⟨u, ⟨ws, hne, hlen, hws, rfl⟩, hs⟩
      obtain ⟨v, ws, rfl⟩ := List.exists_cons_of_ne_nil hne
      refine ⟨_, ⟨v, ws.flatten, hws v List.mem_cons_self, ?_, rfl⟩, hs⟩
      rcases ws with _ | ⟨w, ws⟩
      · exact Or.inr rfl
      · exact Or.inl ⟨w :: ws, by simp, by simpa using hlen,
          fun x hx => hws x (List.mem_cons_of_mem _ hx), rfl⟩

lemma Denotes.plus (ha : Denotes a L) (hne : ∀ w, L w → w ≠ []) :
    Denotes (plus a) fun u => ∃ ws : List (List Char), ws ≠ [] ∧ (∀ w ∈ ws, L w) ∧
      u = ws.flatten := by
  intro s rest
  rw [Patterns.plus, (ha.upTo s.length) s rest]
  constructor
  · rintro ⟨u, ⟨ws, hws, -, hall, rfl⟩, hs⟩
    exact ⟨_, ⟨ws, hws, hall, rfl⟩, hs⟩
  · rintro ⟨u, ⟨ws, hws, hall, rfl⟩, hs⟩
    refine ⟨_, ⟨ws, hws, ?_, hall, rfl⟩, hs⟩
    have hlen : ∀ ws : List (List Char), (∀ w ∈ ws, L w) → ws.length ≤ ws.flatten.length := by
      intro ws
      induction ws with
      | nil => simp
      | cons w ws ih =>
        intro hall
        have hw := List.length_pos_iff.mpr (hne w (hall w List.mem_cons_self))
        have hrest := ih fun x hx => hall x (List.mem_cons_of_mem _ hx)
        rw [List.length_cons, List.flatten_cons, List.length_append]
        omega
    have hs' := congrArg List.length hs
    rw [List.length_append] at hs'
    have := hlen ws hall
    omega

lemma Denotes.fullMatch_iff (ha : Denotes a L) (s : String) :
    fullMatch a s = true ↔ L s.toList := by
  unfold fullMatch
  rw [List.any_eq_true]
  constructor
  · rintro ⟨rest, hrest, hnil⟩
    obtain ⟨u, hu, hs⟩ := (ha _ _).mp hrest
    rw [List.isEmpty_iff.mp hnil, List.append_nil] at hs
    rwa [hs]
  · intro h
    exact ⟨[], (ha _ _).mpr ⟨_, h, by simp⟩, rfl⟩

end CortexDis.Patterns
