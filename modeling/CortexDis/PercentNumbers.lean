import CortexDis.LocaleNumbers

/-!
`parse_percent` against the number it stands for.

The body of a percentage is read into a decimal with 18 fraction digits and 38 digits in all,
divided by a hundred in that type, printed, and rid of its trailing zeros. What the type cannot
hold comes out as null or loses its last digits, and no failure is reported.
-/

namespace CortexDis.PercentNumbers

open CortexDis.PyDecimal CortexDis.Frames CortexDis.MappingRules CortexDis.Patterns
open CortexDis.Normalize CortexDis.Numerals CortexDis.LocaleNumbers

/-- An integer next to a number, towards zero. -/
def truncate (x : ℚ) : ℤ := if 0 ≤ x then ⌊x⌋ else ⌈x⌉

/-- What is assumed of `Decimal(38, 18)`: a literal becomes its number without the digits beyond
the scale, or null where that does not fit; a hundredth drops digits in the same way, and is
printed with all 18 fraction digits. A type that rounds loses the same digits. -/
structure DecimalType (P : Polars) : Prop where
  cast : ∀ s x, Literal s x → P.castDecimal 38 18 s =
    if (truncate (x * 10 ^ 18)).natAbs < 10 ^ 38 then some (truncate (x * 10 ^ 18)) else none
  hundredth : ∀ u : ℤ, u.natAbs < 10 ^ 38 →
    P.hundredthText u = some (String.ofList (fixedText 18 (u.tdiv 100)))

/-- The text is a percentage: a numeral, with or without the sign of per cent. -/
def PercentReads (decimal thousands : Option Char) (s : List Char) (r : Reading) : Prop :=
  Reads decimal thousands s r ∨ ∃ u, s = u ++ ['%'] ∧ Reads decimal thousands u r

/-- Lossless or loud: the operation accepts the percentages, and what it makes of one is a
literal of a hundredth of its number. -/
structure Lossless (decimal thousands : Option Char) (s : String) (o : OpOutcome) : Prop where
  accepts : o.failed = false ↔ ∃ r, PercentReads decimal thousands s.toList r
  value : o.failed = false → ∃ out, o.value = some out ∧
    ∀ r, PercentReads decimal thousands s.toList r → Literal out (r.value / 100)

/-- At most 20 digits before the point, and 16 after it. -/
def Fits (x : ℚ) : Prop := |x| < 10 ^ 20 ∧ ∃ j : ℤ, x * 10 ^ 16 = j

/-! ### The decimal type -/

lemma truncate_intCast (k : ℤ) : truncate k = k := by
  unfold truncate
  split <;> simp

lemma hundredth_iff (x : ℚ) :
    (((truncate (x * 10 ^ 18)).tdiv 100 : ℤ) : ℚ) / 10 ^ 18 = x / 100 ↔
      ∃ j : ℤ, x * 10 ^ 16 = j := by
  constructor
  · intro h
    refine ⟨(truncate (x * 10 ^ 18)).tdiv 100, ?_⟩
    rw [div_eq_iff (by positivity)] at h
    rw [h]
    ring
  · rintro ⟨j, hj⟩
    have hscaled : x * 10 ^ 18 = ((100 * j : ℤ) : ℚ) := by
      push_cast
      rw [← hj]
      ring
    have hquot : (100 * j).tdiv 100 = j := Int.mul_tdiv_cancel_left j (by decide)
    rw [hscaled, truncate_intCast, hquot, ← hj]
    ring

lemma natAbs_truncate_lt_iff (x : ℚ) :
    (truncate (x * 10 ^ 18)).natAbs < 10 ^ 38 ↔ |x| < 10 ^ 20 := by
  have hpow : (0 : ℚ) < 10 ^ 18 := by positivity
  have habs : ((truncate (x * 10 ^ 18)).natAbs : ℤ) = ⌊|x| * 10 ^ 18⌋ := by
    unfold truncate
    by_cases hx : 0 ≤ x
    · have hnonneg : 0 ≤ x * 10 ^ 18 := mul_nonneg hx hpow.le
      rw [if_pos hnonneg, abs_of_nonneg hx, Int.natCast_natAbs, abs_of_nonneg]
      exact Int.floor_nonneg.mpr hnonneg
    · have hneg : x * 10 ^ 18 < 0 := mul_neg_of_neg_of_pos (not_le.mp hx) hpow
      rw [if_neg (not_le.mpr hneg), abs_of_neg (not_le.mp hx), Int.natCast_natAbs, abs_of_nonpos,
        neg_mul, Int.floor_neg]
      exact Int.ceil_nonpos.mpr hneg.le
  have hfloor : ⌊|x| * 10 ^ 18⌋ < 10 ^ 38 ↔ |x| * 10 ^ 18 < 10 ^ 38 := by
    rw [Int.floor_lt]
    norm_num
  constructor
  · intro h
    have hlt : |x| * 10 ^ 18 < 10 ^ 38 := hfloor.mp (habs ▸ by exact_mod_cast h)
    have hsplit : (10 : ℚ) ^ 38 = 10 ^ 20 * 10 ^ 18 := by norm_num
    rw [hsplit] at hlt
    exact lt_of_mul_lt_mul_right hlt hpow.le
  · intro h
    have hlt : |x| * 10 ^ 18 < 10 ^ 38 := by
      calc |x| * 10 ^ 18 < 10 ^ 20 * 10 ^ 18 := mul_lt_mul_of_pos_right h hpow
        _ = 10 ^ 38 := by norm_num
    have hint := hfloor.mpr hlt
    rw [← habs] at hint
    exact_mod_cast hint

/-! ### The printed number -/

lemma toList_dropEnd (c x : Char) {s : String} {l : List Char} (h : s.toList = l ++ [x]) :
    (dropEnd c s).toList = if x = c then l else l ++ [x] := by
  unfold dropEnd
  rw [h, List.reverse_append, List.reverse_singleton, List.singleton_append]
  dsimp only
  split
  · simp
  · exact h

lemma literal_trimmed (k : ℤ) :
    Literal (dropEnd '.' (dropZeros (String.ofList (fixedText 18 k)))) (k / 10 ^ 18) := by
  obtain ⟨n, g, hg, hlast⟩ := exists_trailing_zeros (fixedDigits (k.natAbs % 10 ^ 18) 18)
  set sg : List Char := if k < 0 then ['-'] else [] with hsg
  set w := fixedDigits (k.natAbs / 10 ^ 18) (digitCount (k.natAbs / 10 ^ 18)) with hw
  have hsign : IsSign sg := by
    rw [hsg]
    split
    · exact Or.inr (Or.inr rfl)
    · exact Or.inl rfl
  have hwd : Digits w := digits_fixedDigits _ _
  have hwne : w ≠ [] := by
    have hlen := length_fixedDigits (k.natAbs / 10 ^ 18) (digitCount (k.natAbs / 10 ^ 18))
    intro hnil
    rw [← hw, hnil] at hlen
    simp [digitCount] at hlen
  have hgd : Digits g := fun c hc =>
    digits_fixedDigits (k.natAbs % 10 ^ 18) 18 c (hg ▸ List.mem_append_left _ hc)
  have hzeros : (dropZeros (String.ofList (fixedText 18 k))).toList = sg ++ (w ++ '.' :: g) := by
    have htext : fixedText 18 k = (sg ++ (w ++ '.' :: g)) ++ List.replicate n '0' := by
      rw [fixedText, hg]
      change sg ++ (w ++ '.' :: (g ++ List.replicate n '0')) = _
      simp only [List.append_assoc, List.cons_append]
    have hend : ∀ c ∈ (sg ++ (w ++ '.' :: g)).getLast?, c ≠ '0' := by
      intro c hc
      rw [← List.append_assoc, List.getLast?_append, List.getLast?_cons] at hc
      obtain rfl : (g.getLast?).getD '.' = c := Option.some.inj hc
      cases hl : g.getLast? with
      | none => simp
      | some x => exact hlast x hl
    rw [dropZeros, String.toList_ofList, String.toList_ofList, htext]
    exact rdropWhile_zeros hend n
  have hvalue : ∀ fraction : Option (List Char),
      fractionValue (fraction.getD []) = fractionValue g →
      (⟨sg, w, fraction⟩ : Reading).value = k / 10 ^ 18 := by
    intro fraction hf
    have hfull : fractionValue g = fractionValue (fixedDigits (k.natAbs % 10 ^ 18) 18) := by
      rw [hg, fractionValue_append_replicate]
    have hmag : (⟨sg, w, fraction⟩ : Reading).magnitude = k.natAbs / 10 ^ 18 := by
      rw [Reading.magnitude, hf, hfull]
      exact magnitude_fixedText 18 k
    rw [Reading.value, hmag]
    by_cases hk : k < 0
    · have hminus : sg = ['-'] := by rw [hsg, if_pos hk]
      have hcast : ((k.natAbs : ℕ) : ℚ) = -k := by
        rw [Nat.cast_natAbs, abs_of_neg hk, Int.cast_neg]
      rw [if_pos hminus, hcast]
      ring
    · have hplain : sg ≠ ['-'] := by
        rw [hsg, if_neg hk]
        simp
      have hcast : ((k.natAbs : ℕ) : ℚ) = k := by
        rw [Nat.cast_natAbs, abs_of_nonneg (not_lt.mp hk)]
      rw [if_neg hplain, hcast]
  rcases List.eq_nil_or_concat g with hgnil | ⟨g', x, hgx⟩
  · -- all fraction digits are zeros, and the point goes too
    have hlist : (dropZeros (String.ofList (fixedText 18 k))).toList = (sg ++ w) ++ ['.'] := by
      rw [hzeros, hgnil, List.append_assoc]
    refine ⟨⟨sg, w, none⟩, ⟨w, [], ?_, hsign, Or.inl ⟨rfl, hwne, hwd⟩, Or.inl ⟨rfl, rfl⟩⟩,
      hvalue none (by rw [hgnil]; rfl)⟩
    rw [toList_dropEnd '.' '.' hlist, if_pos rfl, List.append_nil]
  · have hlist : (dropZeros (String.ofList (fixedText 18 k))).toList =
        (sg ++ (w ++ '.' :: g')) ++ [x] := by
      rw [hzeros, hgx, List.concat_eq_append]
      simp
    have hx : x ≠ '.' := by
      rintro rfl
      exact absurd (hgd '.' (by rw [hgx]; simp)) (by decide)
    refine ⟨⟨sg, w, some g⟩, ⟨w, '.' :: g, ?_, hsign, Or.inl ⟨rfl, hwne, hwd⟩,
      Or.inr ⟨'.', g, rfl, rfl, rfl, by rw [hgx]; simp, hgd⟩⟩, hvalue (some g) rfl⟩
    rw [toList_dropEnd '.' x hlist, if_neg hx, ← hlist, hzeros]

/-! ### A percentage through the operation -/

lemma fullMatch_percentPattern {P : Polars} (hP : AsciiDigits P) {s : String} (hs : Ascii s)
    (d : Char) (thousands : Option Char) :
    fullMatch (percentPattern P d thousands) s = true ↔
      ∃ r, PercentReads (some d) thousands s.toList r := by
  have hwords := ((denotes_numberPattern P (some d) thousands).seq
    (denotes_chr fun c => decide (c = '%')).opt).fullMatch_iff s
  have hpattern : percentPattern P d thousands =
      seq (numberPattern P (some d) thousands) (opt (chr fun c => decide (c = '%'))) := rfl
  rw [hpattern, hwords]
  constructor
  · rintro ⟨u, w, hu, ⟨c, hc, rfl⟩ | rfl, hs'⟩
    · have hdigit : ∀ x ∈ u, P.isDigit x = x.isDigit := fun x hx =>
        hP.isDigit_eq hs x (by rw [hs']; simp [hx])
      obtain ⟨r, hr⟩ := (words_iff_reads hdigit (some d) thousands).mp hu
      exact ⟨r, Or.inr ⟨u, by rw [hs', of_decide_eq_true hc], hr⟩⟩
    · rw [List.append_nil] at hs'
      subst hs'
      obtain ⟨r, hr⟩ := (words_iff_reads (hP.isDigit_eq hs) (some d) thousands).mp hu
      exact ⟨r, Or.inl hr⟩
  · rintro ⟨r, hr | ⟨u, hs', hr⟩⟩
    · exact ⟨s.toList, [], (words_iff_reads (hP.isDigit_eq hs) (some d) thousands).mpr ⟨r, hr⟩,
        Or.inr rfl, by simp⟩
    · have hdigit : ∀ x ∈ u, P.isDigit x = x.isDigit := fun x hx =>
        hP.isDigit_eq hs x (by rw [hs']; simp [hx])
      exact ⟨u, ['%'], (words_iff_reads hdigit (some d) thousands).mpr ⟨r, hr⟩,
        Or.inl ⟨'%', rfl, rfl⟩, hs'⟩

lemma exists_last_digit {decimal thousands : Option Char} {l : List Char} {r : Reading}
    (h : Reads decimal thousands l r) : ∃ m x, l = m ++ [x] ∧ x.isDigit = true := by
  have hlast : ∀ {f : List Char}, f ≠ [] → Digits f → ∃ m x, f = m ++ [x] ∧ x.isDigit = true := by
    intro f hne hf
    rcases List.eq_nil_or_concat f with rfl | ⟨m, x, rfl⟩
    · exact absurd rfl hne
    · exact ⟨m, x, by simp, hf x (by simp)⟩
  obtain ⟨body, tail, rfl, -, hwhole, hfraction⟩ := h
  rcases hfraction with ⟨rfl, -⟩ | ⟨sep, f, -, rfl, -, hne, hf⟩
  · rcases hwhole with ⟨rfl, hne, hd⟩ | ⟨sep, -, g, gs, rfl, -, -, hgs, hall⟩
    · obtain ⟨m, x, hm, hx⟩ := hlast hne hd
      exact ⟨r.sign ++ m, x, by rw [hm]; simp, hx⟩
    · rcases List.eq_nil_or_concat gs with rfl | ⟨gs', last, rfl⟩
      · exact absurd rfl hgs
      · obtain ⟨hlen, hd⟩ := hall last (by simp)
        obtain ⟨m, x, hm, hx⟩ := hlast (by rintro rfl; cases hlen) hd
        refine ⟨r.sign ++ (g ++ (gs'.flatMap fun h => sep :: h) ++ sep :: m), x, ?_, hx⟩
        rw [hm]
        simp
  · obtain ⟨m, x, hm, hx⟩ := hlast hne hf
    exact ⟨r.sign ++ (body ++ sep :: m), x, by rw [hm]; simp, hx⟩

variable {P : Polars} {d : Char} {thousands : Option Char} {s : String} {r : Reading}

lemma reads_body {decimal : Option Char} (h : PercentReads decimal thousands s.toList r) :
    Reads decimal thousands (dropEnd '%' s).toList r := by
  rcases h with h | ⟨u, hs, h⟩
  · obtain ⟨m, x, hm, hx⟩ := exists_last_digit h
    have hne : x ≠ '%' := by
      rintro rfl
      exact absurd hx (by decide)
    rw [toList_dropEnd '%' x hm, if_neg hne, ← hm]
    exact h
  · rw [toList_dropEnd '%' '%' hs, if_pos rfl]
    exact h

lemma literal_cleaned (hd : Apart d) (ht : ∀ c ∈ thousands, Apart c) (hsep : thousands ≠ some d)
    (h : PercentReads (some d) thousands s.toList r) :
    Literal (stripSeparators (some d) thousands (dropEnd '%' s)) r.value := by
  have hbody := reads_body h
  have hapart : ∀ c ∈ (some d : Option Char), Apart c := fun c hc => by
    rw [← Option.some.inj hc]
    exact hd
  obtain ⟨r', hr', hval⟩ := literal_of_intact (fun c hc => by rw [← Option.some.inj hc]; exact hsep)
    hbody (intact_of_apart hapart ht hbody)
  exact ⟨r', by rwa [toList_stripSeparators], hval⟩

lemma percentText_iff (hP : DecimalType P) (hd : Apart d) (ht : ∀ c ∈ thousands, Apart c)
    (hsep : thousands ≠ some d) (h : PercentReads (some d) thousands s.toList r) :
    (∃ out, percentText P d thousands s = some out ∧ Literal out (r.value / 100)) ↔
      Fits r.value := by
  have hcast := hP.cast _ _ (literal_cleaned hd ht hsep h)
  unfold Fits
  rw [← natAbs_truncate_lt_iff]
  by_cases hfit : (truncate (r.value * 10 ^ 18)).natAbs < 10 ^ 38
  · rw [if_pos hfit] at hcast
    obtain ⟨out, htext, hliteral⟩ : ∃ out, percentText P d thousands s = some out ∧
        Literal out (((truncate (r.value * 10 ^ 18)).tdiv 100 : ℤ) / 10 ^ 18) := by
      refine ⟨_, ?_, literal_trimmed ((truncate (r.value * 10 ^ 18)).tdiv 100)⟩
      rw [percentText, hcast, Option.bind_some, hP.hundredth _ hfit, Option.map_some]
    rw [and_iff_right hfit, ← hundredth_iff, htext]
    constructor
    · rintro ⟨out', hout, hlit⟩
      rw [Option.some.inj hout] at hliteral
      exact hliteral.unique hlit
    · intro heq
      rw [heq] at hliteral
      exact ⟨out, rfl, hliteral⟩
  · rw [if_neg hfit] at hcast
    have htext : percentText P d thousands s = none := by
      rw [percentText, hcast]
      rfl
    rw [htext]
    exact iff_of_false (by simp) fun h => hfit h.1

lemma lossless_iff (hdigits : AsciiDigits P) (hP : DecimalType P) (hd : Apart d)
    (ht : ∀ c ∈ thousands, Apart c) (hsep : thousands ≠ some d) (hs : Ascii s) :
    Lossless (some d) thousands s (parsePercent P d thousands (some s)) ↔
      ∀ r, PercentReads (some d) thousands s.toList r → Fits r.value := by
  have hmatch := fullMatch_percentPattern hdigits hs d thousands
  cases hm : fullMatch (percentPattern P d thousands) s with
  | false =>
    have hnone : ¬ ∃ r, PercentReads (some d) thousands s.toList r := by
      rw [← hmatch, hm]
      simp
    have hfailed : (parsePercent P d thousands (some s)).failed = true := by
      simp [parsePercent, parseNumeric, hm]
    refine iff_of_true ⟨?_, fun h => ?_⟩ fun r hr => absurd ⟨r, hr⟩ hnone
    · rw [hfailed]
      exact iff_of_false (by simp) hnone
    · rw [hfailed] at h
      cases h
  | true =>
    obtain ⟨r₀, hr₀⟩ := hmatch.mp hm
    have houtcome : parsePercent P d thousands (some s) = ⟨percentText P d thousands s, false⟩ := by
      simp [parsePercent, parseNumeric, hm, nullWhere]
    rw [houtcome]
    constructor
    · intro hlossless r hr
      obtain ⟨out, hout, hvalue⟩ := hlossless.value rfl
      exact (percentText_iff hP hd ht hsep hr).mp ⟨out, hout, hvalue r hr⟩
    · intro hfits
      refine ⟨iff_of_true rfl ⟨r₀, hr₀⟩, fun _ => ?_⟩
      obtain ⟨out, hout, hlit⟩ := (percentText_iff hP hd ht hsep hr₀).mpr (hfits r₀ hr₀)
      refine ⟨out, hout, fun r hr => ?_⟩
      -- all readings have one number, that of the cleaned body
      rw [(literal_cleaned hd ht hsep hr).unique (literal_cleaned hd ht hsep hr₀)]
      exact hlit

/-- **When a percentage is lossless**: when its number has at most 20 digits before the point and
16 after it. -/
theorem percent_lossless_iff (P : Polars) (hdigits : AsciiDigits P) (hP : DecimalType P) (d : Char)
    (thousands : Option Char) (hvalid : (NormalizeOp.parsePercent d thousands).valid P.upper = true)
    (hd : Apart d) (ht : ∀ c ∈ thousands, Apart c) (s : String) (hs : Ascii s) :
    Lossless (some d) thousands s (parsePercent P d thousands (some s)) ↔
      ∀ r, PercentReads (some d) thousands s.toList r → Fits r.value :=
  lossless_iff hdigits hP hd ht (of_decide_eq_true hvalid) hs

/-! ### A decimal type -/

/-- The number of a literal at a scale. -/
def readDecimal (precision scale : ℕ) (s : String) : Option ℤ :=
  let (negative, body) := takeSign s.toList
  let whole := body.takeWhile Char.isDigit
  let fraction := (body.dropWhile Char.isDigit).drop 1
  let n := digitsValue (whole ++ (fraction ++ List.replicate scale '0').take scale)
  if n < 10 ^ precision then some (signed negative n) else none

/-- Polars on ASCII text, with the decimal type as it is assumed. -/
def decimalPolars : Polars :=
  { Accounting.asciiPolars with
    castDecimal := readDecimal
    hundredthText := fun u => some (String.ofList (fixedText 18 (u.tdiv 100))) }

lemma takeSign_append {sg u : List Char} (hs : IsSign sg)
    (hu : ∀ c ∈ u.head?, c ≠ '+' ∧ c ≠ '-') : takeSign (sg ++ u) = (decide (sg = ['-']), u) := by
  rcases hs with rfl | rfl | rfl
  · cases u with
    | nil => rfl
    | cons c u =>
      obtain ⟨hplus, hminus⟩ := hu c rfl
      rw [List.nil_append]
      unfold takeSign
      split
      · rename_i heq
        exact absurd (List.cons.inj heq).1 hminus
      · rename_i heq
        exact absurd (List.cons.inj heq).1 hplus
      · rfl
  · rfl
  · rfl

lemma truncate_neg (x : ℚ) : truncate (-x) = -truncate x := by
  unfold truncate
  rcases lt_trichotomy x 0 with h | rfl | h
  · rw [if_pos (by linarith), if_neg (by linarith), Int.floor_neg]
  · simp
  · rw [if_neg (by linarith), if_pos h.le, Int.ceil_neg]

lemma truncate_value (r : Reading) (hf : Digits (r.fraction.getD [])) (scale : ℕ) :
    truncate (r.value * 10 ^ scale) = signed (decide (r.sign = ['-'])) (digitsValue
      (r.whole ++ (r.fraction.getD [] ++ List.replicate scale '0').take scale)) := by
  have hmag : truncate (r.magnitude * 10 ^ scale) = (digitsValue
      (r.whole ++ (r.fraction.getD [] ++ List.replicate scale '0').take scale) : ℤ) := by
    have hnonneg : 0 ≤ r.magnitude * 10 ^ scale := mul_nonneg r.magnitude_nonneg (by positivity)
    rw [truncate, if_pos hnonneg]
    exact floor_magnitude _ _ hf scale
  unfold Reading.value signed
  by_cases hs : r.sign = ['-']
  · rw [if_pos hs, neg_mul, truncate_neg, hmag, if_pos (decide_eq_true hs)]
  · rw [if_neg hs, hmag, if_neg (by simpa using hs)]

lemma natAbs_signed (negative : Bool) (n : ℕ) : (signed negative n).natAbs = n := by
  unfold signed
  split <;> simp

lemma decimalType_decimalPolars : DecimalType decimalPolars where
  cast s x := by
    rintro ⟨r, hr, rfl⟩
    obtain ⟨hne, hwd, hfd⟩ := hr.digits
    obtain ⟨body, tail, hs, hsign, hwhole, hfraction⟩ := hr
    rcases hwhole with ⟨rfl, -⟩ | ⟨sep, hsep, -⟩
    · have hhead : ∀ c ∈ (r.whole ++ tail).head?, c ≠ '+' ∧ c ≠ '-' := by
        intro c hc
        obtain ⟨x, w, hw⟩ := List.exists_cons_of_ne_nil hne
        rw [hw] at hc
        have hx := hwd x (by rw [hw]; simp)
        obtain rfl : x = c := Option.some.inj hc
        refine ⟨?_, ?_⟩ <;> rintro rfl <;> exact absurd hx (by decide)
      -- the reading stops at the point, and the fraction is what follows it
      have htail : tail.takeWhile Char.isDigit = [] ∧ tail.dropWhile Char.isDigit = tail ∧
          tail.drop 1 = r.fraction.getD [] := by
        rcases hfraction with ⟨rfl, hn⟩ | ⟨sep, f, hsep, rfl, hf, -⟩
        · rw [hn]
          exact ⟨rfl, rfl, rfl⟩
        · cases hsep
          rw [hf]
          exact ⟨rfl, rfl, rfl⟩
      have htake : (r.whole ++ tail).takeWhile Char.isDigit = r.whole := by
        rw [List.takeWhile_append_of_pos hwd, htail.1, List.append_nil]
      have hdrop : ((r.whole ++ tail).dropWhile Char.isDigit).drop 1 = r.fraction.getD [] := by
        rw [List.dropWhile_append_of_pos hwd, htail.2.1, htail.2.2]
      rw [truncate_value r hfd, natAbs_signed]
      change readDecimal 38 18 s = _
      unfold readDecimal
      rw [hs, takeSign_append hsign hhead]
      dsimp only
      rw [htake, hdrop]
    · cases hsep
  hundredth u _ := rfl

/-- Seventeen fraction digits: the last one is dropped, without a failure. -/
theorem long_percent_truncated :
    (parsePercent decimalPolars '.' none (some "0.12345678901234567%")) =
        ⟨some "0.001234567890123456", false⟩ ∧
      ¬ Lossless (some '.') none "0.12345678901234567%"
        (parsePercent decimalPolars '.' none (some "0.12345678901234567%")) := by
  refine ⟨by decide +kernel, fun h => ?_⟩
  have hfits := (lossless_iff (fun _ _ => rfl) decimalType_decimalPolars
    ⟨by decide, by decide, by decide⟩ (by simp) (by simp) (by simp [Ascii])).mp h
  have hread : PercentReads (some '.') none "0.12345678901234567%".toList
      ⟨[], ['0'], some "12345678901234567".toList⟩ := by
    refine Or.inr ⟨"0.12345678901234567".toList, by decide +kernel, ['0'],
      '.' :: "12345678901234567".toList, by decide +kernel, Or.inl rfl,
      Or.inl ⟨rfl, by simp, by simp [Digits]⟩,
      Or.inr ⟨'.', _, rfl, rfl, rfl, by simp, by simp [Digits]⟩⟩
  obtain ⟨-, j, hj⟩ := hfits _ hread
  have hvalue : (⟨[], ['0'], some "12345678901234567".toList⟩ : Reading).value =
      12345678901234567 / 10 ^ 17 := by
    have hdigits : digitsValue "12345678901234567".toList = 12345678901234567 := by decide +kernel
    have hlen : "12345678901234567".toList.length = 17 := by decide +kernel
    rw [Reading.value, Reading.magnitude, if_neg (by simp), Option.getD_some, fractionValue,
      hdigits, hlen]
    simp [digitsValue]
  rw [hvalue] at hj
  have hten : (12345678901234567 : ℚ) = 10 * j := by
    rw [← hj]
    norm_num
  have hint : (12345678901234567 : ℤ) = 10 * j := by exact_mod_cast hten
  omega

/-- A percentage of two digits becomes its hundredth. -/
theorem short_percent_exact :
    Lossless (some '.') none "12.5%" (parsePercent decimalPolars '.' none (some "12.5%")) := by
  have happly := percent_lossless_iff decimalPolars (fun _ _ => rfl) decimalType_decimalPolars '.'
    none (by decide) ⟨by decide, by decide, by decide⟩ (by simp) "12.5%" (by simp [Ascii])
  refine happly.mpr fun r hr => ?_
  -- the number is that of the cleaned body
  have hcleaned := literal_cleaned (d := '.') ⟨by decide, by decide, by decide⟩ (by simp)
    (by simp) hr
  have htext : stripSeparators (some '.') none (dropEnd '%' "12.5%") = "12.5" := by decide +kernel
  have hliteral : Literal "12.5" (25 / 2) := by
    refine ⟨⟨[], ['1', '2'], some ['5']⟩, ⟨['1', '2'], ['.', '5'], by decide +kernel, Or.inl rfl,
      Or.inl ⟨rfl, by simp, by simp [Digits]⟩,
      Or.inr ⟨'.', _, rfl, rfl, rfl, by simp, by simp [Digits]⟩⟩, ?_⟩
    simp [Reading.value, Reading.magnitude, fractionValue, digitsValue]
    norm_num
  rw [htext] at hcleaned
  rw [hcleaned.unique hliteral]
  refine ⟨?_, 125000000000000000, by norm_num⟩
  rw [abs_of_nonneg (by norm_num)]
  norm_num

end CortexDis.PercentNumbers
