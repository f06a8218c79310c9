import CortexDis.PyJson

/-!
`json.dumps`, and that `json.loads` reads back what it writes.

The writer escapes everything outside printable ASCII, a character beyond the basic plane as a
surrogate pair; the separators are a comma and a colon, each with a space behind it.
-/

namespace CortexDis.PyJson

open CortexDis.PyText CortexDis.Runs

/-! ### The writer -/

/-- A digit of `format(_, "x")`. -/
def hexChar (d : ℕ) : ℕ := if d < 10 then 48 + d else 87 + d

/-- `\uXXXX` -/
def unicodeEscape (u : ℕ) : PyStr :=
  [92, 117, hexChar (u / 4096 % 16), hexChar (u / 256 % 16), hexChar (u / 16 % 16),
    hexChar (u % 16)]

/-- `ESCAPE_DCT` -/
def shortEscape (c : ℕ) : Option ℕ :=
  if c = 92 ∨ c = 34 then some c
  else if c = 8 then some 98
  else if c = 12 then some 102
  else if c = 10 then some 110
  else if c = 13 then some 114
  else if c = 9 then some 116
  else none

def escape (c : ℕ) : PyStr :=
  match shortEscape c with
  | some e => [92, e]
  | none =>
    if 32 ≤ c ∧ c ≤ 126 then [c]
    else if c < 0x10000 then unicodeEscape c
    else unicodeEscape (0xD800 + (c - 0x10000) / 0x400) ++
      unicodeEscape (0xDC00 + (c - 0x10000) % 0x400)

/-- `encode_basestring_ascii` -/
def quote (s : PyStr) : PyStr := 34 :: s.flatMap escape ++ [34]

/-- The decimal digits of a number. -/
def decimalText (n : ℕ) : PyStr :=
  if n = 0 then [48] else ((Nat.digits 10 n).map (48 + ·)).reverse

/-- `int.__repr__` -/
def intText (n : ℤ) : PyStr := if n < 0 then 45 :: decimalText n.natAbs else decimalText n.natAbs

mutual

/-- `json.dumps`; `floatText` is `float.__repr__` of a literal. -/
def dumps (floatText : PyStr → PyStr) : Json → PyStr
  | .null => pyStr "null"
  | .bool true => pyStr "true"
  | .bool false => pyStr "false"
  | .int n => intText n
  | .float literal => floatText literal
  | .str s => quote s
  | .arr items => 91 :: [44, 32].intercalate (dumpItems floatText items) ++ [93]
  | .obj members => 123 :: [44, 32].intercalate (dumpMembers floatText members) ++ [125]

def dumpItems (floatText : PyStr → PyStr) : List Json → List PyStr
  | [] => []
  | item :: items => dumps floatText item :: dumpItems floatText items

def dumpMembers (floatText : PyStr → PyStr) : List (PyStr × Json) → List PyStr
  | [] => []
  | (key, value) :: members =>
    (quote key ++ [58, 32] ++ dumps floatText value) :: dumpMembers floatText members

end

/-! ### Strings -/

/-- A text of code points in which no high surrogate stands before a low one. -/
def Readable : PyStr → Prop
  | [] => True
  | c :: s => c < 0x110000 ∧ (isHigh c = true → ∀ l ∈ s.head?, isLow l = false) ∧ Readable s

lemma hexValue_hexChar {d : ℕ} (h : d < 16) : hexValue (hexChar d) = some d := by
  unfold hexChar hexValue
  split_ifs <;> first | omega | (congr 1; omega)

lemma hex4_escape {u : ℕ} (h : u < 0x10000) :
    hex4 (hexChar (u / 4096 % 16)) (hexChar (u / 256 % 16)) (hexChar (u / 16 % 16))
      (hexChar (u % 16)) = some u := by
  have hd : ∀ n, n % 16 < 16 := fun n => Nat.mod_lt n (by omega)
  simp only [hex4, hexValue_hexChar (hd _), Option.pure_def, Option.bind_eq_bind, Option.bind_some,
    Option.some.injEq]
  omega

/-- The units that the escape of a character is read as. -/
def unitsOf (c : ℕ) : List (ℕ × Bool) :=
  match shortEscape c with
  | some _ => [(c, false)]
  | none =>
    if 32 ≤ c ∧ c ≤ 126 then [(c, false)]
    else if c < 0x10000 then [(c, true)]
    else [(0xD800 + (c - 0x10000) / 0x400, true), (0xDC00 + (c - 0x10000) % 0x400, true)]

lemma simpleEscape_shortEscape {c e : ℕ} (h : shortEscape c = some e) :
    simpleEscape e = some c ∧ e ≠ 117 := by
  unfold shortEscape at h
  unfold simpleEscape
  split_ifs at h with h₁ h₂ h₃ h₄ h₅ h₆ <;> cases h
  · exact ⟨by rw [if_pos (by omega)], by omega⟩
  all_goals exact ⟨by simp_all, by decide⟩

lemma scanUnits_short {e c : ℕ} (he : simpleEscape e = some c) (hu : e ≠ 117) (s : PyStr) :
    scanUnits (92 :: e :: s) = (scanUnits s).map fun r => ((c, false) :: r.1, r.2) := by
  rw [scanUnits.eq_def]
  simp only [show ¬ (92 : ℕ) = 34 by decide, if_false, if_true]
  split
  · rename_i heq
    exact absurd (List.cons.inj heq).1 hu
  · rename_i heq
    obtain ⟨rfl, rfl⟩ := List.cons.inj heq
    simp only [he]
    cases scanUnits s <;> rfl
  · rename_i heq
    cases heq

lemma scanUnits_unicode {u : ℕ} (h : u < 0x10000) (s : PyStr) :
    scanUnits (unicodeEscape u ++ s) = (scanUnits s).map fun r => ((u, true) :: r.1, r.2) := by
  rw [unicodeEscape]
  simp only [List.cons_append, List.nil_append]
  rw [scanUnits.eq_def]
  simp only [show ¬ (92 : ℕ) = 34 by decide, if_false, if_true, hex4_escape h]
  cases scanUnits s <;> rfl

lemma scanUnits_plain {c : ℕ} (hshort : shortEscape c = none) (hc : 32 ≤ c) (s : PyStr) :
    scanUnits (c :: s) = (scanUnits s).map fun r => ((c, false) :: r.1, r.2) := by
  have hq : c ≠ 34 := by
    rintro rfl
    cases hshort
  have hb : c ≠ 92 := by
    rintro rfl
    cases hshort
  rw [scanUnits.eq_def]
  simp only [hq, hb, if_false, if_neg (show ¬ c < 32 by omega)]
  cases scanUnits s <;> rfl

lemma scanUnits_escape {c : ℕ} (hc : c < 0x110000) (s : PyStr) :
    scanUnits (escape c ++ s) = (scanUnits s).map fun r => (unitsOf c ++ r.1, r.2) := by
  unfold escape unitsOf
  cases hshort : shortEscape c with
  | some e =>
    obtain ⟨he, hu⟩ := simpleEscape_shortEscape hshort
    exact scanUnits_short he hu s
  | none =>
    dsimp only
    split_ifs with hprint hbasic
    · exact scanUnits_plain hshort hprint.1 s
    · exact scanUnits_unicode hbasic s
    · have hhigh : 0xD800 + (c - 0x10000) / 0x400 < 0x10000 := by omega
      have hlow : 0xDC00 + (c - 0x10000) % 0x400 < 0x10000 := by omega
      rw [List.append_assoc, scanUnits_unicode hhigh, scanUnits_unicode hlow, Option.map_map]
      rfl

lemma scanUnits_quote {s : PyStr} (h : Readable s) (rest : PyStr) :
    scanUnits (s.flatMap escape ++ 34 :: rest) = some (s.flatMap unitsOf, rest) := by
  induction s with
  | nil => rw [List.flatMap_nil, List.nil_append, scanUnits.eq_def]; rfl
  | cons c s ih =>
    rw [List.flatMap_cons, List.flatMap_cons, List.append_assoc, scanUnits_escape h.1, ih h.2.2]
    rfl

lemma joinEscapes_single {c : ℕ} {escaped : Bool} {us : List (ℕ × Bool)}
    (h : isHigh c = true → ∀ u ∈ us.head?, isLow u.1 = false) :
    joinEscapes ((c, escaped) :: us) = c :: joinEscapes us := by
  cases escaped with
  | false => rw [joinEscapes]; simp
  | true =>
    match us with
    | [] => rfl
    | (u, false) :: us => rw [joinEscapes]; simp
    | (u, true) :: us =>
      rw [joinEscapes, if_neg]
      intro hpair
      rw [Bool.and_eq_true] at hpair
      rw [h hpair.1 (u, true) rfl] at hpair
      exact absurd hpair.2 (by decide)

lemma joinEscapes_unitsOf {c : ℕ} (hc : c < 0x110000) {us : List (ℕ × Bool)}
    (h : isHigh c = true → ∀ u ∈ us.head?, isLow u.1 = false) :
    joinEscapes (unitsOf c ++ us) = c :: joinEscapes us := by
  unfold unitsOf
  split
  · exact joinEscapes_single h
  · split_ifs with hprint hbasic
    · exact joinEscapes_single h
    · exact joinEscapes_single h
    · have hhigh : isHigh (0xD800 + (c - 0x10000) / 0x400) = true := by
        simp only [isHigh, Bool.and_eq_true, decide_eq_true_eq]
        omega
      have hlow : isLow (0xDC00 + (c - 0x10000) % 0x400) = true := by
        simp only [isLow, Bool.and_eq_true, decide_eq_true_eq]
        omega
      have hjoin : joinPair (0xD800 + (c - 0x10000) / 0x400) (0xDC00 + (c - 0x10000) % 0x400) =
          c := by
        unfold joinPair
        omega
      rw [List.cons_append, List.cons_append, List.nil_append, joinEscapes,
        if_pos (by rw [hhigh, hlow]; rfl), hjoin]

lemma head_unitsOf {c : ℕ} (hc : c < 0x110000) (h : isLow c = false) (us : List (ℕ × Bool)) :
    ∀ u ∈ (unitsOf c ++ us).head?, isLow u.1 = false := by
  have hfirst : ∃ u us', unitsOf c = u :: us' ∧ isLow u.1 = false := by
    unfold unitsOf
    split
    · exact ⟨_, _, rfl, h⟩
    · split_ifs with hprint hbasic
      · exact ⟨_, _, rfl, h⟩
      · exact ⟨_, _, rfl, h⟩
      · refine ⟨_, _, rfl, ?_⟩
        simp only [isLow, Bool.and_eq_false_iff, decide_eq_false_iff_not]
        omega
  obtain ⟨u, us', heq, hu⟩ := hfirst
  rw [heq, List.cons_append, List.head?_cons]
  rintro u' hu'
  obtain rfl := Option.some.inj hu'
  exact hu

lemma joinEscapes_units {s : PyStr} (h : Readable s) : joinEscapes (s.flatMap unitsOf) = s := by
  induction s with
  | nil => rfl
  | cons c s ih =>
    obtain ⟨hc, hpair, hs⟩ := h
    rw [List.flatMap_cons, joinEscapes_unitsOf hc, ih hs]
    intro hhigh
    cases s with
    | nil => simp
    | cons l s => exact head_unitsOf hs.1 (hpair hhigh l rfl) _

lemma scanString_quote {s : PyStr} (h : Readable s) (rest : PyStr) :
    scanString (s.flatMap escape ++ 34 :: rest) = .ok (s, rest) := by
  rw [scanString, scanUnits_quote h]
  simp only [joinEscapes_units h]

/-! ### Numbers -/

/-- What may stand behind a number. -/
def Ends (rest : PyStr) : Prop :=
  ∀ c ∈ rest.head?, isDigit c = false ∧ c ≠ 46 ∧ c ≠ 101 ∧ c ≠ 69

lemma digits_decimalText (n : ℕ) : ∀ d ∈ decimalText n, isDigit d = true := by
  intro d hd
  unfold decimalText at hd
  split_ifs at hd with hn
  · obtain rfl := List.mem_singleton.mp hd
    decide
  · rw [List.mem_reverse, List.mem_map] at hd
    obtain ⟨k, hk, rfl⟩ := hd
    have := Nat.digits_lt_base (by decide) hk
    simp only [isDigit, decide_eq_true_eq]
    omega

lemma digitsValue_decimalText (n : ℕ) : digitsValue (decimalText n) = n := by
  unfold decimalText digitsValue
  split_ifs with hn
  · rw [hn]
    rfl
  · rw [List.foldl_reverse, List.foldr_map]
    conv_rhs => rw [← Nat.ofDigits_digits 10 n, Nat.ofDigits_eq_foldr]
    congr 1
    funext d m
    simp only [Nat.cast_id]
    omega

lemma decimalText_head {n : ℕ} (hn : n ≠ 0) : ∃ d ds, decimalText n = d :: ds ∧ d ≠ 48 := by
  have hne : (Nat.digits 10 n) ≠ [] := Nat.digits_ne_nil_iff_ne_zero.mpr hn
  have hlast := Nat.getLast_digit_ne_zero 10 hn
  rw [decimalText, if_neg hn, ← List.map_reverse]
  cases hrev : (Nat.digits 10 n).reverse with
  | nil => exact absurd (List.reverse_eq_nil_iff.mp hrev) hne
  | cons d ds =>
    refine ⟨48 + d, ds.map (48 + ·), rfl, ?_⟩
    have hd : (Nat.digits 10 n).getLast hne = d := by
      have := List.head_reverse (l := Nat.digits 10 n) (by simpa using hne)
      simp only [hrev, List.head_cons] at this
      exact this.symm
    rw [hd] at hlast
    omega

lemma digits_append {ds rest : PyStr} (hds : ∀ d ∈ ds, isDigit d = true) (hrest : Ends rest) :
    digits (ds ++ rest) = (ds, rest) := by
  have hstop : ∀ c ∈ rest.head?, isDigit c = false := fun c hc => (hrest c hc).1
  have hnone : rest.takeWhile isDigit = [] ∧ rest.dropWhile isDigit = rest := by
    cases rest with
    | nil => exact ⟨rfl, rfl⟩
    | cons c rest =>
      have hc := hstop c rfl
      exact ⟨List.takeWhile_cons_of_neg (by simp [hc]), List.dropWhile_cons_of_neg (by simp [hc])⟩
  rw [digits, List.takeWhile_append_of_pos hds, List.dropWhile_append_of_pos hds, hnone.1, hnone.2,
    List.append_nil]

lemma scanInteger_decimalText (n : ℕ) {rest : PyStr} (hrest : Ends rest) :
    scanInteger (decimalText n ++ rest) = some (decimalText n, rest) := by
  by_cases hn : n = 0
  · subst hn
    rfl
  · obtain ⟨d, ds, htext, hd⟩ := decimalText_head hn
    have hdigits := digits_append (digits_decimalText n) hrest
    rw [htext] at hdigits ⊢
    unfold scanInteger
    split
    · rename_i heq
      exact absurd (List.cons.inj heq).1 hd
    · rw [hdigits, if_neg (List.cons_ne_nil _ _)]

lemma scanFraction_ends {rest : PyStr} (h : Ends rest) : scanFraction rest = ([], rest) := by
  unfold scanFraction
  split
  · exact absurd rfl (h 46 rfl).2.1
  · rfl

lemma scanExponent_ends {rest : PyStr} (h : Ends rest) : scanExponent rest = ([], rest) := by
  cases rest with
  | nil => rfl
  | cons c rest =>
    obtain ⟨-, -, he, hE⟩ := h c rfl
    rw [scanExponent, if_neg (by omega)]

lemma scanMinus_decimalText (n : ℕ) (rest : PyStr) :
    scanMinus (decimalText n ++ rest) = ([], decimalText n ++ rest) := by
  unfold scanMinus
  split
  · rename_i tail heq
    have hmem : 45 ∈ decimalText n := by
      cases htext : decimalText n with
      | nil =>
        by_cases hn : n = 0
        · rw [decimalText, if_pos hn] at htext
          cases htext
        · obtain ⟨d, ds, h, -⟩ := decimalText_head hn
          rw [htext] at h
          cases h
      | cons d ds =>
        rw [htext] at heq
        rw [(List.cons.inj heq).1]
        exact List.mem_cons_self
    exact absurd (digits_decimalText n 45 hmem) (by decide)
  · rfl

lemma scanNumber_intText {n : ℤ} (hlen : (decimalText n.natAbs).length ≤ maxStrDigits)
    {rest : PyStr} (hrest : Ends rest) : scanNumber (intText n ++ rest) = .ok (.int n, rest) := by
  have hminus : scanMinus (intText n ++ rest) =
      (if n < 0 then [45] else [], decimalText n.natAbs ++ rest) := by
    unfold intText
    split_ifs
    · rfl
    · exact scanMinus_decimalText _ _
  have hvalue : (if (if n < 0 then [45] else ([] : PyStr)) = [] then
      (digitsValue (decimalText n.natAbs) : ℤ) else -(digitsValue (decimalText n.natAbs) : ℤ)) =
      n := by
    rw [digitsValue_decimalText]
    split_ifs <;> first | omega | contradiction
  simp only [scanNumber, hminus, scanInteger_decimalText _ hrest, scanFraction_ends hrest,
    scanExponent_ends hrest, and_self, if_true, if_neg (Nat.not_lt.mpr hlen), hvalue]

/-! ### Values -/

/-- A value without floats that `room` containers hold, with readable texts, distinct keys, and
integers that are not too long. -/
def Dumpable : ℕ → Json → Prop
  | _, .null => True
  | _, .bool _ => True
  | _, .int n => (decimalText n.natAbs).length ≤ maxStrDigits
  | _, .float _ => False
  | _, .str s => Readable s
  | 0, .arr _ => False
  | 0, .obj _ => False
  | room + 1, .arr items => ∀ v ∈ items, Dumpable room v
  | room + 1, .obj members =>
    (members.map Prod.fst).Nodup ∧ ∀ m ∈ members, Readable m.1 ∧ Dumpable room m.2

/-- The text opens with a character that is no white space and closes nothing. -/
def Opens (s : PyStr) : Prop :=
  ∃ c tail, s = c :: tail ∧ isWhitespace c = false ∧ c ≠ 93 ∧ c ≠ 125

lemma Opens.append {s : PyStr} (h : Opens s) (rest : PyStr) : Opens (s ++ rest) := by
  obtain ⟨c, tail, rfl, hc⟩ := h
  exact ⟨c, tail ++ rest, rfl, hc⟩

lemma Opens.skip {s : PyStr} (h : Opens s) : skip s = s := by
  obtain ⟨c, tail, rfl, hc, -⟩ := h
  exact List.dropWhile_cons_of_neg (by simp [hc])

lemma exists_digit (n : ℕ) : ∃ d ds, decimalText n = d :: ds ∧ isDigit d = true := by
  cases htext : decimalText n with
  | nil =>
    by_cases hn : n = 0
    · rw [decimalText, if_pos hn] at htext
      cases htext
    · obtain ⟨d, ds, h, -⟩ := decimalText_head hn
      rw [htext] at h
      cases h
  | cons d ds =>
    have hmem : d ∈ decimalText n := by
      rw [htext]
      exact List.mem_cons_self
    exact ⟨d, ds, rfl, digits_decimalText n d hmem⟩

lemma intText_cases (n : ℤ) : ∃ d ds, isDigit d = true ∧
    (intText n = d :: ds ∨ intText n = 45 :: d :: ds) := by
  obtain ⟨d, ds, htext, hd⟩ := exists_digit n.natAbs
  refine ⟨d, ds, hd, ?_⟩
  unfold intText
  rw [htext]
  split_ifs
  · exact Or.inr rfl
  · exact Or.inl rfl

variable {floatText : PyStr → PyStr}

lemma opens_dumps {room : ℕ} {v : Json} (h : Dumpable room v) : Opens (dumps floatText v) := by
  cases v with
  | null => exact ⟨_, _, rfl, by decide, by decide, by decide⟩
  | bool b => cases b <;> exact ⟨_, _, rfl, by decide, by decide, by decide⟩
  | int n =>
    obtain ⟨d, ds, hd, htext⟩ := intText_cases n
    rw [dumps]
    simp only [isDigit, decide_eq_true_eq] at hd
    rcases htext with htext | htext
    · refine ⟨d, ds, htext, ?_, by omega, by omega⟩
      simp only [isWhitespace, decide_eq_false_iff_not]
      omega
    · exact ⟨45, d :: ds, htext, by decide, by decide, by decide⟩
  | float literal => cases room <;> exact h.elim
  | str s => exact ⟨_, _, rfl, by decide, by decide, by decide⟩
  | arr items => exact ⟨_, _, rfl, by decide, by decide, by decide⟩
  | obj members => exact ⟨_, _, rfl, by decide, by decide, by decide⟩

lemma find_constants {s : PyStr} {d : ℕ} {ds : PyStr} (hd : isDigit d = true)
    (h : s = d :: ds ∨ s = 45 :: d :: ds) :
    (constants.find? fun e => e.1.isPrefixOf s) = none := by
  simp only [isDigit, decide_eq_true_eq] at hd
  rw [List.find?_eq_none]
  intro e he
  simp only [constants, List.mem_cons, List.not_mem_nil, or_false] at he
  rcases h with rfl | rfl
  · rcases he with rfl | rfl | rfl | rfl | rfl | rfl
    all_goals
      simp [pyStr, List.isPrefixOf]
      omega
  · rcases he with rfl | rfl | rfl | rfl | rfl | rfl
    all_goals simp [pyStr, List.isPrefixOf]
    -- the minus of `-Infinity` is not followed by a digit
    omega

lemma scanAtom_intText {n : ℤ} (hlen : (decimalText n.natAbs).length ≤ maxStrDigits) {rest : PyStr}
    (hrest : Ends rest) : scanAtom (intText n ++ rest) = .ok (.int n, rest) := by
  obtain ⟨d, ds, hd, htext⟩ := intText_cases n
  have hd' := hd
  simp only [isDigit, decide_eq_true_eq] at hd'
  have hshape : intText n ++ rest = d :: (ds ++ rest) ∨
      intText n ++ rest = 45 :: d :: (ds ++ rest) := by
    rcases htext with htext | htext
    · exact Or.inl (by rw [htext]; rfl)
    · exact Or.inr (by rw [htext]; rfl)
  have hquote : ∀ body, intText n ++ rest ≠ 34 :: body := by
    intro body heq
    rw [heq] at hshape
    rcases hshape with h | h
    · exact absurd (List.cons.inj h).1 (by omega)
    · exact absurd (List.cons.inj h).1 (by decide)
  unfold scanAtom
  split
  · rename_i body heq
    exact absurd heq (hquote body)
  · rw [find_constants hd hshape]
    exact scanNumber_intText hlen hrest

lemma scanOnce_eq_scanAtom {room : ℕ} {s : PyStr} (h : ∀ c ∈ s.head?, c ≠ 123 ∧ c ≠ 91) :
    scanOnce room s = scanAtom s := by
  cases s with
  | nil => cases room <;> rfl
  | cons c s =>
    obtain ⟨hbrace, hbracket⟩ := h c rfl
    cases room with
    | zero =>
      unfold scanOnce
      split
      · rename_i heq
        exact absurd (List.cons.inj heq).1 hbrace
      · rename_i heq
        exact absurd (List.cons.inj heq).1 hbracket
      · rfl
    | succ room =>
      unfold scanOnce
      split
      · rename_i heq
        exact absurd (List.cons.inj heq).1 hbrace
      · rename_i heq
        exact absurd (List.cons.inj heq).1 hbracket
      · rfl

lemma intercalate_cons_cons (a b : PyStr) (l : List PyStr) :
    [44, 32].intercalate (a :: b :: l) = a ++ 44 :: 32 :: [44, 32].intercalate (b :: l) := by
  simp [List.intercalate]

lemma Opens.intercalate {s : PyStr} (h : Opens s) (l : List PyStr) :
    Opens ([44, 32].intercalate (s :: l)) := by
  cases l with
  | nil => simpa [List.intercalate] using h
  | cons b l =>
    rw [intercalate_cons_cons]
    exact h.append _

lemma skip_separator {s : PyStr} (h : Opens s) (rest : PyStr) :
    skip (32 :: (s ++ rest)) = s ++ rest :=
  (List.dropWhile_cons_of_pos rfl).trans (h.append rest).skip

/-- The value reads back in front of anything that does not go on with it. -/
def ReadsBack (scan : Scanner) (floatText : PyStr → PyStr) (v : Json) : Prop :=
  ∀ rest, Ends rest → scan (dumps floatText v ++ rest) = .ok (v, rest)

lemma ends_of_mem {c : ℕ} (hc : c ∈ [44, 93, 125]) (rest : PyStr) : Ends (c :: rest) := by
  intro c' hc'
  obtain rfl := Option.some.inj hc'
  simp only [List.mem_cons, List.not_mem_nil, or_false] at hc
  rcases hc with rfl | rfl | rfl <;> decide

section Containers

variable {scan : Scanner}

lemma scanElements_dumps {items : List Json} (hne : items ≠ [])
    (hopen : ∀ v ∈ items, Opens (dumps floatText v))
    (hread : ∀ v ∈ items, ReadsBack scan floatText v) {fuel : ℕ} (hfuel : items.length ≤ fuel)
    (acc : List Json) (rest : PyStr) :
    scanElements scan fuel acc
      ([44, 32].intercalate (dumpItems floatText items) ++ 93 :: rest) =
      .ok (.arr (acc ++ items), rest) := by
  induction items generalizing fuel acc with
  | nil => exact absurd rfl hne
  | cons v items ih =>
    obtain ⟨fuel, rfl⟩ : ∃ n, fuel = n + 1 := ⟨fuel - 1, by simp at hfuel; omega⟩
    have hv := hread v List.mem_cons_self
    -- what follows the first item is the closing bracket or the separator
    cases items with
    | nil =>
      have hitem := hv (93 :: rest) (ends_of_mem (by decide) rest)
      have htext : [44, 32].intercalate (dumpItems floatText [v]) = dumps floatText v := by
        simp [dumpItems, List.intercalate]
      rw [htext, scanElements, hitem]
      rfl
    | cons v' items =>
      have htail := ih (List.cons_ne_nil _ _) (fun w hw => hopen w (List.mem_cons_of_mem _ hw))
        (fun w hw => hread w (List.mem_cons_of_mem _ hw))
        (Nat.le_of_succ_le_succ (by simpa using hfuel)) (acc ++ [v])
      have hnext : Opens ([44, 32].intercalate (dumpItems floatText (v' :: items))) :=
        (hopen v' (by simp)).intercalate _
      rw [List.append_assoc, List.singleton_append] at htail
      rw [dumpItems] at hnext htail
      rw [dumpItems, dumpItems, intercalate_cons_cons, List.append_assoc, List.cons_append,
        List.cons_append, scanElements, hv _ (ends_of_mem (by decide) _)]
      show scanElements scan fuel (acc ++ [v]) (skip (32 :: _)) = _
      rw [skip_separator hnext]
      exact htail

lemma opens_quote (s : PyStr) : Opens (quote s) :=
  ⟨34, _, rfl, by decide, by decide, by decide⟩

/-- What stands behind a member: the end of the object, or another one. -/
def behindMember (scan : Scanner) (fuel : ℕ) (members : List (PyStr × Json)) : Scanner
  | 125 :: rest => .ok (.obj members, rest)
  | 44 :: rest => scanMembers scan fuel members (skip rest)
  | _ => .error .jsonDecodeError

lemma scanMembers_first {key : PyStr} {value : Json} (hkey : Readable key)
    (hopen : Opens (dumps floatText value)) (hvalue : ReadsBack scan floatText value) {fuel : ℕ}
    {acc : List (PyStr × Json)} {rest : PyStr} (hrest : Ends rest) (hskip : skip rest = rest) :
    scanMembers scan (fuel + 1) acc (quote key ++ [58, 32] ++ dumps floatText value ++ rest) =
      behindMember scan fuel (PyDict.put key value acc) rest := by
  have htext : quote key ++ [58, 32] ++ dumps floatText value ++ rest =
      34 :: (key.flatMap escape ++ 34 :: 58 :: 32 :: (dumps floatText value ++ rest)) := by
    simp [quote]
  rw [htext, scanMembers, scanString_quote hkey]
  show (scan (skip (32 :: (dumps floatText value ++ rest))) >>= _) = _
  rw [skip_separator hopen, hvalue rest hrest]
  simp only [ok_bind, hskip]
  rfl

lemma scanMembers_dumps {members : List (PyStr × Json)} (hne : members ≠ [])
    (hkeys : ∀ m ∈ members, Readable m.1) (hopen : ∀ m ∈ members, Opens (dumps floatText m.2))
    (hread : ∀ m ∈ members, ReadsBack scan floatText m.2) {fuel : ℕ}
    (hfuel : members.length ≤ fuel) {acc : List (PyStr × Json)}
    (hnodup : ((acc ++ members).map Prod.fst).Nodup) (rest : PyStr) :
    scanMembers scan fuel acc
      ([44, 32].intercalate (dumpMembers floatText members) ++ 125 :: rest) =
      .ok (.obj (acc ++ members), rest) := by
  induction members generalizing fuel acc with
  | nil => exact absurd rfl hne
  | cons m members ih =>
    obtain ⟨fuel, rfl⟩ : ∃ n, fuel = n + 1 := ⟨fuel - 1, by simp at hfuel; omega⟩
    obtain ⟨key, value⟩ := m
    have hput : PyDict.put key value acc = acc ++ [(key, value)] := by
      refine PyDict.put_of_not_mem value fun hmem => ?_
      rw [List.map_append, List.nodup_append] at hnodup
      exact hnodup.2.2 key hmem key (by simp) rfl
    have hfirst : ∀ rest, Ends rest → skip rest = rest →
        scanMembers scan (fuel + 1) acc (quote key ++ [58, 32] ++ dumps floatText value ++ rest) =
          behindMember scan fuel (PyDict.put key value acc) rest :=
      fun rest => scanMembers_first (hkeys (key, value) List.mem_cons_self)
        (hopen (key, value) List.mem_cons_self) (hread (key, value) List.mem_cons_self)
    -- what follows the first member is the closing brace or the separator before the next one
    cases members with
    | nil =>
      have htext : [44, 32].intercalate (dumpMembers floatText [(key, value)]) =
          quote key ++ [58, 32] ++ dumps floatText value := by
        simp [dumpMembers, List.intercalate]
      rw [htext, hfirst (125 :: rest) (ends_of_mem (by decide) rest) rfl, hput]
      rfl
    | cons m' members =>
      obtain ⟨key', value'⟩ := m'
      have hnodup' : (((acc ++ [(key, value)]) ++ (key', value') :: members).map
          Prod.fst).Nodup := by
        simpa using hnodup
      have htail := ih (List.cons_ne_nil _ _) (fun m hm => hkeys m (List.mem_cons_of_mem _ hm))
        (fun m hm => hopen m (List.mem_cons_of_mem _ hm))
        (fun m hm => hread m (List.mem_cons_of_mem _ hm))
        (Nat.le_of_succ_le_succ (by simpa using hfuel)) hnodup'
      have hnext : Opens ([44, 32].intercalate
          (dumpMembers floatText ((key', value') :: members))) :=
        (((opens_quote key').append _).append _).intercalate _
      rw [List.append_assoc, List.singleton_append] at htail
      rw [dumpMembers] at hnext htail
      rw [dumpMembers, dumpMembers, intercalate_cons_cons, List.append_assoc, List.cons_append,
        List.cons_append, hfirst _ (ends_of_mem (by decide) _) rfl, hput]
      show scanMembers scan fuel _ (skip (32 :: _)) = _
      rw [skip_separator hnext]
      exact htail

end Containers

lemma length_dumpItems (items : List Json) : (dumpItems floatText items).length = items.length := by
  induction items with
  | nil => rfl
  | cons v items ih => rw [dumpItems, List.length_cons, List.length_cons, ih]

lemma length_dumpMembers (members : List (PyStr × Json)) :
    (dumpMembers floatText members).length = members.length := by
  induction members with
  | nil => rfl
  | cons m members ih => rw [dumpMembers, List.length_cons, List.length_cons, ih]

lemma length_intercalate {l : List PyStr} (h : ∀ s ∈ l, Opens s) :
    l.length ≤ ([44, 32].intercalate l).length := by
  induction l with
  | nil => simp
  | cons a l ih =>
    obtain ⟨c, tail, rfl, -⟩ := h a List.mem_cons_self
    have htail := ih fun s hs => h s (List.mem_cons_of_mem _ hs)
    cases l with
    | nil => simp [List.intercalate]
    | cons b l =>
      rw [intercalate_cons_cons]
      simp only [List.length_append, List.length_cons] at htail ⊢
      omega

lemma opens_dumpItems {items : List Json} (h : ∀ v ∈ items, Opens (dumps floatText v)) :
    ∀ s ∈ dumpItems floatText items, Opens s := by
  induction items with
  | nil => simp [dumpItems]
  | cons v items ih =>
    intro s hs
    rw [dumpItems] at hs
    rcases List.mem_cons.mp hs with rfl | hs
    · exact h v List.mem_cons_self
    · exact ih (fun w hw => h w (List.mem_cons_of_mem _ hw)) s hs

lemma opens_dumpMembers (members : List (PyStr × Json)) :
    ∀ s ∈ dumpMembers floatText members, Opens s := by
  induction members with
  | nil => simp [dumpMembers]
  | cons m members ih =>
    obtain ⟨key, value⟩ := m
    intro s hs
    rw [dumpMembers] at hs
    rcases List.mem_cons.mp hs with rfl | hs
    · exact ((opens_quote key).append _).append _
    · exact ih s hs

lemma readsBack_atom {room : ℕ} {v : Json}
    (hhead : ∀ c ∈ (dumps floatText v).head?, c ≠ 123 ∧ c ≠ 91) (hopen : Opens (dumps floatText v))
    (h : ∀ rest, Ends rest → scanAtom (dumps floatText v ++ rest) = .ok (v, rest)) :
    ReadsBack (scanOnce room) floatText v := by
  intro rest hrest
  rw [scanOnce_eq_scanAtom, h rest hrest]
  obtain ⟨c, tail, htext, -⟩ := hopen
  rw [htext] at hhead ⊢
  exact hhead

lemma scanAtom_quote {s : PyStr} (h : Readable s) (rest : PyStr) :
    scanAtom (quote s ++ rest) = .ok (.str s, rest) := by
  have htext : quote s ++ rest = 34 :: (s.flatMap escape ++ 34 :: rest) := by
    simp [quote]
  rw [htext, scanAtom, scanString_quote h]
  rfl

lemma scanOnce_bracket {room : ℕ} {s : PyStr} (h : Opens s) :
    scanOnce (room + 1) (91 :: s) = scanElements (scanOnce room) s.length [] s := by
  have hskip := h.skip
  obtain ⟨c, tail, rfl, -, hbracket, -⟩ := h
  rw [scanOnce]
  simp only [hskip]
  split
  · rename_i heq
    exact absurd (List.cons.inj heq).1 hbracket
  · rfl

lemma scanOnce_brace {room : ℕ} {s : PyStr} (h : Opens s) :
    scanOnce (room + 1) (123 :: s) = scanMembers (scanOnce room) s.length [] s := by
  have hskip := h.skip
  obtain ⟨c, tail, rfl, -, -, hbrace⟩ := h
  rw [scanOnce]
  simp only [hskip]
  split
  · rename_i heq
    exact absurd (List.cons.inj heq).1 hbrace
  · rfl

lemma scanOnce_arr {room : ℕ} {items : List Json}
    (hopen : ∀ v ∈ items, Opens (dumps floatText v))
    (hread : ∀ v ∈ items, ReadsBack (scanOnce room) floatText v) :
    ReadsBack (scanOnce (room + 1)) floatText (.arr items) := by
  intro rest _
  cases items with
  | nil => rfl
  | cons v items =>
    have hlength := length_intercalate (opens_dumpItems hopen)
    rw [length_dumpItems] at hlength
    have hopens := ((hopen v List.mem_cons_self).intercalate (dumpItems floatText items)).append
      (93 :: rest)
    rw [dumps, List.append_assoc, List.cons_append, List.singleton_append, dumpItems,
      scanOnce_bracket hopens, ← dumpItems]
    refine scanElements_dumps (List.cons_ne_nil v items) hopen hread ?_ [] rest
    rw [List.length_append]
    omega

lemma scanOnce_obj {room : ℕ} {members : List (PyStr × Json)}
    (hnodup : (members.map Prod.fst).Nodup) (hkeys : ∀ m ∈ members, Readable m.1)
    (hopen : ∀ m ∈ members, Opens (dumps floatText m.2))
    (hread : ∀ m ∈ members, ReadsBack (scanOnce room) floatText m.2) :
    ReadsBack (scanOnce (room + 1)) floatText (.obj members) := by
  intro rest _
  cases members with
  | nil => rfl
  | cons m members =>
    have hlength : (m :: members).length ≤
        ([44, 32].intercalate (dumpMembers floatText (m :: members))).length := by
      rw [← length_dumpMembers (m :: members)]
      exact length_intercalate (opens_dumpMembers (m :: members))
    have hopens : Opens ([44, 32].intercalate (dumpMembers floatText (m :: members)) ++
        125 :: rest) := by
      obtain ⟨key, value⟩ := m
      rw [dumpMembers]
      exact ((((opens_quote key).append _).append _).intercalate _).append _
    rw [dumps, List.append_assoc, List.cons_append, List.singleton_append, scanOnce_brace hopens]
    refine scanMembers_dumps (List.cons_ne_nil m members) hkeys hopen hread ?_ hnodup rest
    rw [List.length_append]
    omega

lemma readsBack_of_zero {v : Json} (h : Dumpable 0 v) (room : ℕ) :
    ReadsBack (scanOnce room) floatText v := by
  have hopen : Opens (dumps floatText v) := opens_dumps h
  cases v with
  | null => exact readsBack_atom (by simp [dumps, pyStr]) hopen fun rest _ => rfl
  | bool b => cases b <;> exact readsBack_atom (by simp [dumps, pyStr]) hopen fun rest _ => rfl
  | int n =>
    refine readsBack_atom (fun c hc => ?_) hopen fun rest hrest => scanAtom_intText h hrest
    obtain ⟨d, ds, hd, htext⟩ := intText_cases n
    simp only [isDigit, decide_eq_true_eq] at hd
    rw [dumps] at hc
    rcases htext with htext | htext
    · rw [htext] at hc
      obtain rfl := Option.some.inj hc
      omega
    · rw [htext] at hc
      obtain rfl := Option.some.inj hc
      omega
  | float literal => exact h.elim
  | str s =>
    exact readsBack_atom (by simp [dumps, quote]) hopen fun rest _ => scanAtom_quote h rest
  | arr items => exact h.elim
  | obj members => exact h.elim

/-- The scanner reads a written value back, in front of anything that does not go on with a
number. -/
theorem scanOnce_dumps {room : ℕ} {v : Json} (h : Dumpable room v) :
    ReadsBack (scanOnce room) floatText v := by
  induction room generalizing v with
  | zero => exact readsBack_of_zero h 0
  | succ room ih =>
    have hopen : ∀ v, Dumpable room v → Opens (dumps floatText v) := fun v h => opens_dumps h
    cases v with
    | arr items => exact scanOnce_arr (fun v hv => hopen v (h v hv)) fun v hv => ih (h v hv)
    | obj members =>
      exact scanOnce_obj h.1 (fun m hm => (h.2 m hm).1) (fun m hm => hopen m.2 (h.2 m hm).2)
        fun m hm => ih (h.2 m hm).2
    | null => exact readsBack_of_zero (v := .null) h _
    | bool b => exact readsBack_of_zero (v := .bool b) h _
    | int n => exact readsBack_of_zero (v := .int n) h _
    | float literal => exact h.elim
    | str s => exact readsBack_of_zero (v := .str s) h _

/-! ### Bytes -/

/-- Printable ASCII. -/
def Printable (s : PyStr) : Prop := ∀ c ∈ s, 32 ≤ c ∧ c ≤ 126

lemma Printable.append {s t : PyStr} (hs : Printable s) (ht : Printable t) :
    Printable (s ++ t) := by
  intro c hc
  rcases List.mem_append.mp hc with hc | hc
  · exact hs c hc
  · exact ht c hc

lemma Printable.cons {c : ℕ} {s : PyStr} (hc : 32 ≤ c ∧ c ≤ 126) (hs : Printable s) :
    Printable (c :: s) := by
  intro d hd
  rcases List.mem_cons.mp hd with rfl | hd
  · exact hc
  · exact hs d hd

lemma printable_unicodeEscape (u : ℕ) : Printable (unicodeEscape u) := by
  have hhex : ∀ n, 32 ≤ hexChar (n % 16) ∧ hexChar (n % 16) ≤ 126 := by
    intro n
    unfold hexChar
    split_ifs <;> omega
  intro c hc
  simp only [unicodeEscape, List.mem_cons, List.not_mem_nil, or_false] at hc
  rcases hc with rfl | rfl | rfl | rfl | rfl | rfl
  · decide
  · decide
  all_goals exact hhex _

lemma printable_escape (c : ℕ) : Printable (escape c) := by
  unfold escape
  split
  · rename_i e he
    unfold shortEscape at he
    have hprint : 32 ≤ e ∧ e ≤ 126 := by
      split_ifs at he <;> cases he <;> omega
    have he : Printable [e] := List.forall_mem_singleton.mpr hprint
    exact he.cons (by decide)
  · split_ifs with hc hbasic
    · exact List.forall_mem_singleton.mpr hc
    · exact printable_unicodeEscape c
    · exact (printable_unicodeEscape _).append (printable_unicodeEscape _)

lemma printable_quote (s : PyStr) : Printable (quote s) := by
  have hbody : Printable (s.flatMap escape) := by
    intro c hc
    obtain ⟨d, -, hc⟩ := List.mem_flatMap.mp hc
    exact printable_escape d c hc
  have hend : Printable [34] := List.forall_mem_singleton.mpr (by decide)
  exact (hbody.append hend).cons (by decide)

lemma printable_intText (n : ℤ) : Printable (intText n) := by
  have hdigits : Printable (decimalText n.natAbs) := by
    intro d hd
    have := digits_decimalText _ d hd
    simp only [isDigit, decide_eq_true_eq] at this
    omega
  unfold intText
  split_ifs
  · exact hdigits.cons (by decide)
  · exact hdigits

lemma printable_intercalate {l : List PyStr} (h : ∀ s ∈ l, Printable s) :
    Printable ([44, 32].intercalate l) := by
  induction l with
  | nil => simp [Printable, List.intercalate]
  | cons a l ih =>
    have htail := ih fun s hs => h s (List.mem_cons_of_mem _ hs)
    cases l with
    | nil => simpa [List.intercalate] using h a List.mem_cons_self
    | cons b l =>
      rw [intercalate_cons_cons]
      exact (h a List.mem_cons_self).append ((htail.cons (by decide)).cons (by decide))

lemma printable_dumpItems {items : List Json} (h : ∀ v ∈ items, Printable (dumps floatText v)) :
    ∀ s ∈ dumpItems floatText items, Printable s := by
  induction items with
  | nil => simp [dumpItems]
  | cons v items ih =>
    intro s hs
    rw [dumpItems] at hs
    rcases List.mem_cons.mp hs with rfl | hs
    · exact h v List.mem_cons_self
    · exact ih (fun w hw => h w (List.mem_cons_of_mem _ hw)) s hs

lemma printable_dumpMembers {members : List (PyStr × Json)}
    (h : ∀ m ∈ members, Printable (dumps floatText m.2)) :
    ∀ s ∈ dumpMembers floatText members, Printable s := by
  induction members with
  | nil => simp [dumpMembers]
  | cons m members ih =>
    obtain ⟨key, value⟩ := m
    intro s hs
    rw [dumpMembers] at hs
    rcases List.mem_cons.mp hs with rfl | hs
    · have hcolon : Printable [58, 32] := by simp [Printable]
      exact ((printable_quote key).append hcolon).append (h (key, value) List.mem_cons_self)
    · exact ih (fun w hw => h w (List.mem_cons_of_mem _ hw)) s hs

lemma printable_dumps {room : ℕ} {v : Json} (h : Dumpable room v) :
    Printable (dumps floatText v) := by
  induction room generalizing v with
  | zero =>
    cases v with
    | null => simp [dumps, Printable, pyStr]
    | bool b => cases b <;> simp [dumps, Printable, pyStr]
    | int n => exact printable_intText n
    | float literal => exact h.elim
    | str s => exact printable_quote s
    | arr items => exact h.elim
    | obj members => exact h.elim
  | succ room ih =>
    cases v with
    | null => simp [dumps, Printable, pyStr]
    | bool b => cases b <;> simp [dumps, Printable, pyStr]
    | int n => exact printable_intText n
    | float literal => exact h.elim
    | str s => exact printable_quote s
    | arr items =>
      have hend : Printable [93] := List.forall_mem_singleton.mpr (by decide)
      have hitems := printable_dumpItems fun v hv => ih (h v hv)
      exact ((printable_intercalate hitems).append hend).cons (by decide)
    | obj members =>
      have hend : Printable [125] := List.forall_mem_singleton.mpr (by decide)
      have hmembers := printable_dumpMembers fun m hm => ih (h.2 m hm).2
      exact ((printable_intercalate hmembers).append hend).cons (by decide)

/-- `str.encode` of ASCII text -/
def encodeAscii (s : PyStr) : Bytes := s.map UInt8.ofNat

lemma toNat_of_printable {c : ℕ} (h : 32 ≤ c ∧ c ≤ 126) : (UInt8.ofNat c).toNat = c := by
  rw [UInt8.toNat_ofNat']
  omega

lemma encodeAscii_mem {s : PyStr} (h : Printable s) :
    ∀ b ∈ encodeAscii s, 0 < b.toNat ∧ b.toNat < 0x80 := by
  intro b hb
  obtain ⟨c, hc, rfl⟩ := List.mem_map.mp hb
  have hprint := h c hc
  rw [toNat_of_printable hprint]
  omega

lemma decodeUtf8_encodeAscii {s : PyStr} (h : Printable s) :
    decodeUtf8 (encodeAscii s) = some s := by
  induction s with
  | nil => rfl
  | cons c s ih =>
    have hc := h c List.mem_cons_self
    have hlow : UInt8.ofNat c < 0x80 := by
      rw [UInt8.lt_iff_toNat_lt, toNat_of_printable hc]
      have hmark : (0x80 : UInt8).toNat = 128 := rfl
      omega
    rw [encodeAscii, List.map_cons, decodeUtf8.eq_def]
    simp only [if_pos hlow]
    rw [← encodeAscii, ih fun d hd => h d (List.mem_cons_of_mem _ hd), toNat_of_printable hc]
    rfl

lemma decode_encodeAscii {s : PyStr} (h : Printable s) : decode (encodeAscii s) = some s :=
  (decode_eq_decodeUtf8 (encodeAscii_mem h)).trans (decodeUtf8_encodeAscii h)

/-- What is written is read back. -/
theorem loads_dumps {room : ℕ} {v : Json} (h : Dumpable room v) :
    loads room (encodeAscii (dumps floatText v)) = .ok v := by
  have hread : scanOnce room (dumps floatText v ++ []) = .ok (v, []) :=
    scanOnce_dumps h [] fun c hc => by simp at hc
  rw [List.append_nil] at hread
  rw [loads, decode_encodeAscii (printable_dumps h)]
  simp only [(opens_dumps h).skip, hread]
  rfl

end CortexDis.PyJson
