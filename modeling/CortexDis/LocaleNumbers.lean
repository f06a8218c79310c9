import CortexDis.Accounting
import CortexDis.Numerals

/-!
`parse_decimal` and `parse_integer` against the declared locale.

The mask is a pattern on the text as it came; the value is made by replacing characters all
over the text. The two agree as long as no separator is also the sign or a digit of the number.
-/

namespace CortexDis.LocaleNumbers

open CortexDis.PyDecimal CortexDis.Frames CortexDis.MappingRules CortexDis.Patterns
open CortexDis.Normalize CortexDis.Numerals

/-- `\d` on ASCII. -/
def AsciiDigits (P : Polars) : Prop := ∀ c : Char, c.toNat < 128 → P.isDigit c = c.isDigit

def Ascii (s : String) : Prop := ∀ c ∈ s.toList, c.toNat < 128

lemma AsciiDigits.isDigit_eq {P : Polars} (hP : AsciiDigits P) {s : String} (hs : Ascii s) :
    ∀ c ∈ s.toList, P.isDigit c = c.isDigit := fun c hc => hP c (hs c hc)

/-- An operation follows the locale: it accepts the texts that read as numerals under the
declared separators, and what it makes of one is a literal of the number read. -/
structure Exact (decimal thousands : Option Char) (s : String) (o : OpOutcome) : Prop where
  accepts : o.failed = false ↔ ∃ r, Reads decimal thousands s.toList r
  value : o.failed = false → ∃ out, o.value = some out ∧
    ∀ r, Reads decimal thousands s.toList r → Literal out r.value

/-- No separator is a sign or a digit of the reading, where it matters: the decimal separator
nowhere, and the thousands separator as the minus sign of a number, or as a digit other than a
zero before the whole or after the fraction. -/
structure Intact (decimal thousands : Option Char) (r : Reading) : Prop where
  sign : ∀ c ∈ decimal, r.sign ≠ [c]
  point : ∀ c ∈ decimal, c ∉ r.whole ∧ ∀ f ∈ r.fraction, c ∉ f
  minus : thousands = some '-' → r.sign = ['-'] → r.value = 0
  whole : ∀ c ∈ thousands, LeadsOnly c r.whole
  fraction : ∀ c ∈ thousands, ∀ f ∈ r.fraction, TrailsOnly c f

/-! ### The mask -/

variable (P : Polars)

/-- The words of the pattern of the whole, by the digits of a class. -/
def WholeWords (p : Char → Bool) (thousands : Option Char) (body : List Char) : Prop :=
  (body ≠ [] ∧ ∀ c ∈ body, p c = true) ∨
    ∃ sep, thousands = some sep ∧ ∃ g gs, body = g ++ gs.flatMap (fun h => sep :: h) ∧
      (g ≠ [] ∧ g.length ≤ 3 ∧ ∀ c ∈ g, p c = true) ∧ gs ≠ [] ∧
      ∀ h ∈ gs, h.length = 3 ∧ ∀ c ∈ h, p c = true

def FractionWords (p : Char → Bool) (decimal : Option Char) (tail : List Char) : Prop :=
  tail = [] ∨ ∃ sep f, decimal = some sep ∧ tail = sep :: f ∧ f ≠ [] ∧ ∀ c ∈ f, p c = true

lemma words_of_chr {p : Char → Bool} {ws : List (List Char)}
    (h : ∀ w ∈ ws, ∃ c, p c = true ∧ w = [c]) :
    ws.flatten.length = ws.length ∧ ∀ c ∈ ws.flatten, p c = true := by
  induction ws with
  | nil => simp
  | cons w ws ih =>
    obtain ⟨c, hc, rfl⟩ := h w List.mem_cons_self
    obtain ⟨hlen, hall⟩ := ih fun v hv => h v (List.mem_cons_of_mem _ hv)
    refine ⟨by simp [hlen], ?_⟩
    intro x hx
    rcases List.mem_cons.mp hx with rfl | hx
    · exact hc
    · exact hall x hx

lemma chr_words {p : Char → Bool} {u : List Char} (h : ∀ c ∈ u, p c = true) :
    (∀ w ∈ u.map fun c => [c], ∃ c, p c = true ∧ w = [c]) ∧ u = (u.map fun c => [c]).flatten := by
  refine ⟨fun w hw => ?_, by rw [← List.flatMap_def, List.flatMap_singleton']⟩
  obtain ⟨c, hc, rfl⟩ := List.mem_map.mp hw
  exact ⟨c, h c hc, rfl⟩

lemma denotes_digits (p : Char → Bool) (n : ℕ) :
    Denotes (times (chr p) n) fun u => u.length = n ∧ ∀ c ∈ u, p c = true := by
  refine ((denotes_chr p).times n).congr fun u => ?_
  constructor
  · rintro ⟨ws, rfl, hws, rfl⟩
    exact words_of_chr hws
  · rintro ⟨rfl, hu⟩
    obtain ⟨hws, hflat⟩ := chr_words hu
    exact ⟨_, by simp, hws, hflat⟩

lemma denotes_firstDigits (p : Char → Bool) (n : ℕ) :
    Denotes (upTo (chr p) n) fun u => u ≠ [] ∧ u.length ≤ n ∧ ∀ c ∈ u, p c = true := by
  refine ((denotes_chr p).upTo n).congr fun u => ?_
  constructor
  · rintro ⟨ws, hne, hlen, hws, rfl⟩
    obtain ⟨hlen', hall⟩ := words_of_chr hws
    refine ⟨fun hnil => hne ?_, by omega, hall⟩
    rw [hnil] at hlen'
    exact List.length_eq_zero_iff.mp hlen'.symm
  · rintro ⟨hne, hlen, hu⟩
    obtain ⟨hws, hflat⟩ := chr_words hu
    exact ⟨_, by simpa using hne, by simpa using hlen, hws, hflat⟩

lemma denotes_numericBodyPattern (thousands : Option Char) :
    Denotes (numericBodyPattern P thousands) (WholeWords P.isDigit thousands) := by
  cases thousands with
  | none =>
    refine (denotes_many1 P.isDigit).congr fun u => ?_
    simp [WholeWords]
  | some sep =>
    have hgroup := (denotes_chr fun c => decide (c = sep)).seq (denotes_digits P.isDigit 3)
    have hgroups := hgroup.plus (by
      rintro w ⟨v, x, ⟨c, -, rfl⟩, -, rfl⟩
      simp)
    refine ((denotes_many1 P.isDigit).alt
      ((denotes_firstDigits P.isDigit 3).seq hgroups)).congr fun u => ?_
    unfold WholeWords
    refine or_congr Iff.rfl ⟨?_, ?_⟩
    · rintro ⟨g, v, hg, ⟨ws, hne, hws, rfl⟩, rfl⟩
      -- each word is the separator and a group
      have hsplit : ∀ ws : List (List Char),
          (∀ w ∈ ws, ∃ v x, (∃ c, decide (c = sep) = true ∧ v = [c]) ∧
            (x.length = 3 ∧ ∀ c ∈ x, P.isDigit c = true) ∧ w = v ++ x) →
          ∃ gs : List (List Char), gs.length = ws.length ∧
            ws.flatten = gs.flatMap (fun h => sep :: h) ∧
            ∀ h ∈ gs, h.length = 3 ∧ ∀ c ∈ h, P.isDigit c = true := by
        intro ws
        induction ws with
        | nil => exact fun _ => ⟨[], rfl, rfl, by simp⟩
        | cons w ws ih =>
          intro hws
          obtain ⟨v, x, ⟨c, hc, rfl⟩, hx, rfl⟩ := hws w List.mem_cons_self
          obtain ⟨gs, hlen, hflat, hgs⟩ := ih fun y hy => hws y (List.mem_cons_of_mem _ hy)
          have hcsep : c = sep := of_decide_eq_true hc
          subst hcsep
          exact ⟨x :: gs, by simp [hlen], by simp [hflat], List.forall_mem_cons.mpr ⟨hx, hgs⟩⟩
      obtain ⟨gs, hlen, hflat, hgs⟩ := hsplit ws hws
      refine ⟨sep, rfl, g, gs, by rw [hflat], hg, ?_, hgs⟩
      rintro rfl
      exact hne (List.length_eq_zero_iff.mp hlen.symm)
    · rintro ⟨sep', hsep, g, gs, rfl, hg, hne, hgs⟩
      cases hsep
      refine ⟨g, _, hg, ⟨gs.map fun h => sep :: h, by simpa using hne, ?_, by
        rw [List.flatMap_def]⟩, rfl⟩
      intro w hw
      obtain ⟨h, hh, rfl⟩ := List.mem_map.mp hw
      exact ⟨[sep], h, ⟨sep, by simp, rfl⟩, hgs h hh, rfl⟩

lemma denotes_sign : Denotes sign IsSign := by
  refine (denotes_chr _).opt.congr fun u => ?_
  unfold IsSign
  constructor
  · rintro (⟨c, hc, rfl⟩ | rfl)
    · rcases of_decide_eq_true hc with rfl | rfl
      · exact Or.inr (Or.inl rfl)
      · exact Or.inr (Or.inr rfl)
    · exact Or.inl rfl
  · rintro (rfl | rfl | rfl)
    · exact Or.inr rfl
    · exact Or.inl ⟨'+', by decide, rfl⟩
    · exact Or.inl ⟨'-', by decide, rfl⟩

lemma denotes_fraction (d : Char) :
    Denotes (fraction P d) (FractionWords P.isDigit (some d)) := by
  refine ((denotes_chr _).seq (denotes_many1 P.isDigit)).opt.congr fun u => ?_
  unfold FractionWords
  rw [or_comm]
  refine or_congr Iff.rfl ⟨?_, ?_⟩
  · rintro ⟨v, f, ⟨c, hc, rfl⟩, ⟨hne, hf⟩, rfl⟩
    exact ⟨d, f, rfl, by rw [of_decide_eq_true hc]; rfl, hne, hf⟩
  · rintro ⟨sep, f, hsep, rfl, hne, hf⟩
    cases hsep
    exact ⟨[d], f, ⟨d, by simp, rfl⟩, ⟨hne, hf⟩, rfl⟩

/-- The pattern of either operation; an integer has no decimal separator. -/
def numberPattern (decimal thousands : Option Char) : Pattern :=
  match decimal with
  | some d => decimalPattern P d thousands
  | none => integerPattern P thousands

lemma denotes_numberPattern (decimal thousands : Option Char) :
    Denotes (numberPattern P decimal thousands) fun u => ∃ sg body tail,
      u = sg ++ (body ++ tail) ∧ IsSign sg ∧ WholeWords P.isDigit thousands body ∧
        FractionWords P.isDigit decimal tail := by
  have hint := denotes_sign.seq (denotes_numericBodyPattern P thousands)
  cases decimal with
  | none =>
    refine hint.congr fun u => ?_
    constructor
    · rintro ⟨sg, body, hsg, hbody, rfl⟩
      exact ⟨sg, body, [], by simp, hsg, hbody, Or.inl rfl⟩
    · rintro ⟨sg, body, tail, rfl, hsg, hbody, rfl | ⟨sep, f, hsep, -⟩⟩
      · exact ⟨sg, body, hsg, hbody, by simp⟩
      · cases hsep
  | some d =>
    refine (hint.seq (denotes_fraction P d)).congr fun u => ?_
    constructor
    · rintro ⟨v, tail, ⟨sg, body, hsg, hbody, rfl⟩, htail, rfl⟩
      exact ⟨sg, body, tail, by simp, hsg, hbody, htail⟩
    · rintro ⟨sg, body, tail, rfl, hsg, hbody, htail⟩
      exact ⟨sg ++ body, tail, ⟨sg, body, hsg, hbody, rfl⟩, htail, by simp⟩

lemma words_iff_reads {P : Polars} {l : List Char}
    (hl : ∀ c ∈ l, P.isDigit c = c.isDigit) (decimal thousands : Option Char) :
    (∃ sg body tail, l = sg ++ (body ++ tail) ∧ IsSign sg ∧ WholeWords P.isDigit thousands body ∧
        FractionWords P.isDigit decimal tail) ↔
      ∃ r, Reads decimal thousands l r := by
  -- the two sides differ in the digits only, and on this text the classes agree
  have hdigits : ∀ {u : List Char}, u ⊆ l → ((∀ c ∈ u, P.isDigit c = true) ↔ Digits u) := by
    intro u hu
    refine forall₂_congr fun c hc => ?_
    rw [hl c (hu hc)]
  constructor
  · rintro ⟨sg, body, tail, hu, hsg, hbody, htail⟩
    have hbody_sub : body ⊆ l := by
      rw [hu]
      exact fun c hc => by simp [hc]
    have htail_sub : tail ⊆ l := by
      rw [hu]
      exact fun c hc => by simp [hc]
    obtain ⟨whole, hwhole⟩ : ∃ whole, IsWhole thousands body whole := by
      rcases hbody with ⟨hne, hd⟩ | ⟨sep, hsep, g, gs, rfl, ⟨hne, hlen, hd⟩, hgs, hall⟩
      · exact ⟨body, Or.inl ⟨rfl, hne, (hdigits hbody_sub).mp hd⟩⟩
      · refine ⟨_, Or.inr ⟨sep, hsep, g, gs, rfl, rfl, ⟨hne, hlen, (hdigits ?_).mp hd⟩, hgs,
          fun h hh => ⟨(hall h hh).1, (hdigits ?_).mp (hall h hh).2⟩⟩⟩
        · exact fun c hc => hbody_sub (List.mem_append_left _ hc)
        · intro c hc
          exact hbody_sub (List.mem_append_right _
            (List.mem_flatMap.mpr ⟨h, hh, List.mem_cons_of_mem _ hc⟩))
    obtain ⟨fraction, hfraction⟩ : ∃ fraction, IsFraction decimal tail fraction := by
      rcases htail with rfl | ⟨sep, f, hsep, rfl, hne, hd⟩
      · exact ⟨none, Or.inl ⟨rfl, rfl⟩⟩
      · refine ⟨some f, Or.inr ⟨sep, f, hsep, rfl, rfl, hne, (hdigits ?_).mp hd⟩⟩
        exact fun c hc => htail_sub (List.mem_cons_of_mem _ hc)
    exact ⟨⟨sg, whole, fraction⟩, body, tail, hu, hsg, hwhole, hfraction⟩
  · rintro ⟨r, body, tail, hu, hsg, hwhole, hfraction⟩
    have hbody_sub : body ⊆ l := by
      rw [hu]
      exact fun c hc => by simp [hc]
    have htail_sub : tail ⊆ l := by
      rw [hu]
      exact fun c hc => by simp [hc]
    refine ⟨r.sign, body, tail, hu, hsg, ?_, ?_⟩
    · rcases hwhole with ⟨rfl, hne, hd⟩ | ⟨sep, hsep, g, gs, rfl, -, ⟨hne, hlen, hd⟩, hgs, hall⟩
      · exact Or.inl ⟨hne, (hdigits hbody_sub).mpr hd⟩
      · refine Or.inr ⟨sep, hsep, g, gs, rfl, ⟨hne, hlen, (hdigits ?_).mpr hd⟩, hgs,
          fun h hh => ⟨(hall h hh).1, (hdigits ?_).mpr (hall h hh).2⟩⟩
        · exact fun c hc => hbody_sub (List.mem_append_left _ hc)
        · intro c hc
          exact hbody_sub (List.mem_append_right _
            (List.mem_flatMap.mpr ⟨h, hh, List.mem_cons_of_mem _ hc⟩))
    · rcases hfraction with ⟨rfl, -⟩ | ⟨sep, f, hsep, rfl, -, hne, hd⟩
      · exact Or.inl rfl
      · refine Or.inr ⟨sep, f, hsep, rfl, hne, (hdigits ?_).mpr hd⟩
        exact fun c hc => htail_sub (List.mem_cons_of_mem _ hc)

/-- **The mask accepts exactly the numerals of the locale.** -/
lemma fullMatch_numberPattern {P : Polars} {s : String}
    (hs : ∀ c ∈ s.toList, P.isDigit c = c.isDigit) (decimal thousands : Option Char) :
    fullMatch (numberPattern P decimal thousands) s = true ↔
      ∃ r, Reads decimal thousands s.toList r := by
  rw [(denotes_numberPattern P decimal thousands).fullMatch_iff, words_iff_reads hs]

/-! ### What the value becomes -/

/-- The characters that are not the thousands separator. -/
def without (thousands : Option Char) (l : List Char) : List Char :=
  l.filter fun c => thousands ≠ some c

/-- `_strip_separators`, on characters -/
def strip (decimal thousands : Option Char) (l : List Char) : List Char :=
  (without thousands l).map fun c => if decimal = some c then '.' else c

lemma toList_stripSeparators (decimal thousands : Option Char) (s : String) :
    (stripSeparators decimal thousands s).toList = strip decimal thousands s.toList := by
  have hremove : ∀ t, (removeAll t s).toList = without (some t) s.toList := by
    intro t
    simp only [removeAll, String.toList_ofList, without]
    refine List.filter_congr fun c _ => ?_
    simp [eq_comm]
  -- replacing the point by itself changes nothing
  have hdot : ∀ d u, (if d = '.' then u else dotFor d u).toList =
      u.toList.map fun c => if some d = some c then '.' else c := by
    intro d u
    by_cases hd : d = '.'
    · subst hd
      rw [if_pos rfl]
      refine (List.map_id'' (fun c => ?_) _).symm
      by_cases hc : '.' = c
      · rw [if_pos (congrArg some hc), hc]
      · rw [if_neg fun h => hc (Option.some.inj h)]
    · rw [if_neg hd, dotFor, String.toList_ofList]
      refine List.map_congr_left fun c _ => ?_
      by_cases hc : c = d
      · simp [hc]
      · simp [hc, Ne.symm hc]
  unfold stripSeparators strip
  cases thousands with
  | none => cases decimal with
    | none => simp [without]
    | some d => simpa [without] using hdot d s
  | some t => cases decimal with
    | none => simp [hremove]
    | some d =>
      dsimp only
      rw [hdot d, hremove]

lemma strip_append (decimal thousands : Option Char) (l m : List Char) :
    strip decimal thousands (l ++ m) = strip decimal thousands l ++ strip decimal thousands m := by
  simp [strip, without]

lemma strip_eq_without {decimal thousands : Option Char} {l : List Char}
    (h : ∀ c ∈ decimal, c ∉ l) : strip decimal thousands l = without thousands l := by
  unfold strip
  refine (List.map_congr_left fun c hc => ?_).trans (List.map_id _)
  rw [if_neg, id]
  intro hd
  exact h c hd (List.mem_of_mem_filter hc)

lemma without_some (t : Char) (l : List Char) : without (some t) l = l.filter fun c => c ≠ t := by
  refine List.filter_congr fun c _ => ?_
  simp [eq_comm]

lemma without_subset (thousands : Option Char) (l : List Char) : without thousands l ⊆ l :=
  List.filter_sublist.subset

lemma strip_body {decimal thousands : Option Char} {body whole : List Char}
    (h : IsWhole thousands body whole) :
    strip decimal thousands body = strip decimal thousands whole := by
  rcases h with ⟨rfl, -⟩ | ⟨sep, rfl, g, gs, rfl, rfl, -⟩
  · rfl
  · have hgroups : without (some sep) (gs.flatMap fun h => sep :: h) =
        without (some sep) gs.flatten := by
      induction gs with
      | nil => rfl
      | cons h gs ih =>
        unfold without at ih ⊢
        rw [List.flatMap_cons, List.flatten_cons, List.cons_append,
          List.filter_cons_of_neg (by simp),
          List.filter_append, List.filter_append, ih]
    rw [strip_append, strip_append, strip, strip, strip, hgroups]

/-- A point and the fraction, if there is one. -/
def pointed : Option (List Char) → List Char
  | none => []
  | some f => '.' :: f

lemma strip_tail {decimal thousands : Option Char} (hsep : ∀ c ∈ decimal, thousands ≠ some c)
    {tail : List Char} {fraction : Option (List Char)} (h : IsFraction decimal tail fraction) :
    strip decimal thousands tail = pointed (fraction.map (strip decimal thousands)) := by
  rcases h with ⟨rfl, rfl⟩ | ⟨sep, f, rfl, rfl, rfl, -⟩
  · rfl
  · have hkeep : without thousands (sep :: f) = sep :: without thousands f :=
      List.filter_cons_of_pos (by simpa using hsep sep rfl)
    rw [strip, hkeep, List.map_cons, if_pos rfl]
    rfl

lemma strip_reads {decimal thousands : Option Char} (hsep : ∀ c ∈ decimal, thousands ≠ some c)
    {s : List Char}
    {r : Reading} (h : Reads decimal thousands s r) :
    strip decimal thousands s = strip decimal thousands r.sign ++
      (strip decimal thousands r.whole ++
        pointed (r.fraction.map (strip decimal thousands))) := by
  obtain ⟨body, tail, rfl, -, hwhole, hfraction⟩ := h
  rw [strip_append, strip_append, strip_body hwhole, strip_tail hsep hfraction]

lemma without_whole_iff {thousands : Option Char} {w : List Char} (hne : w ≠ []) (hw : Digits w) :
    without thousands w ≠ [] ∧ digitsValue (without thousands w) = digitsValue w ↔
      ∀ c ∈ thousands, LeadsOnly c w := by
  cases thousands with
  | none => simp [without, hne]
  | some t =>
    rw [without_some, digitsValue_filter_iff hw]
    simp

lemma without_fraction_iff {thousands : Option Char} {f : List Char} (hne : f ≠ [])
    (hf : Digits f) :
    without thousands f ≠ [] ∧ fractionValue (without thousands f) = fractionValue f ↔
      ∀ c ∈ thousands, TrailsOnly c f := by
  cases thousands with
  | none => simp [without, hne]
  | some t =>
    rw [without_some, fractionValue_filter_iff hf]
    simp

/-! ### When the value is right -/

section Value

variable {decimal thousands : Option Char} {s : List Char} {r : Reading}

lemma strip_sign (thousands : Option Char) (hsign : IsSign r.sign)
    (h : ∀ c ∈ decimal, r.sign ≠ [c]) :
    strip decimal thousands r.sign = without thousands r.sign ∧
      IsSign (without thousands r.sign) := by
  have hpoint : ∀ c ∈ decimal, c ∉ r.sign := by
    intro c hc hmem
    rcases hsign with hs | hs | hs <;> rw [hs] at hmem
    · cases hmem
    · exact h c hc (by rw [hs, List.mem_singleton.mp hmem])
    · exact h c hc (by rw [hs, List.mem_singleton.mp hmem])
  refine ⟨strip_eq_without hpoint, ?_⟩
  unfold without
  rcases hsign with hs | hs | hs <;> rw [hs, List.filter]
  · exact Or.inl rfl
  · split
    · exact Or.inr (Or.inl rfl)
    · exact Or.inl rfl
  · split
    · exact Or.inr (Or.inr rfl)
    · exact Or.inl rfl

lemma literal_of_intact (hsep : ∀ c ∈ decimal, thousands ≠ some c) (h : Reads decimal thousands s r)
    (hr : Intact decimal thousands r) :
    ∃ r', Reads (some '.') none (strip decimal thousands s) r' ∧ r'.value = r.value := by
  obtain ⟨hne, hwd, hfd⟩ := h.digits
  have hstrip := strip_reads hsep h
  obtain ⟨body, tail, -, hsign, hwhole, hfraction⟩ := h
  obtain ⟨hss, hsign'⟩ := strip_sign thousands hsign hr.sign
  have hsw : strip decimal thousands r.whole = without thousands r.whole :=
    strip_eq_without fun c hc => (hr.point c hc).1
  have hsf : r.fraction.map (strip decimal thousands) = r.fraction.map (without thousands) :=
    Option.map_congr fun f hf => strip_eq_without fun c hc => (hr.point c hc).2 f hf
  obtain ⟨hwne, hwval⟩ := (without_whole_iff hne hwd).mpr hr.whole
  rw [hss, hsw, hsf] at hstrip
  have hfrac : IsFraction (some '.') (pointed (r.fraction.map (without thousands)))
      (r.fraction.map (without thousands)) ∧
      fractionValue ((r.fraction.map (without thousands)).getD []) =
        fractionValue (r.fraction.getD []) := by
    rcases hfraction with ⟨-, hnone⟩ | ⟨sep, f, -, -, hf, hfne, hfdig⟩
    · rw [hnone]
      exact ⟨Or.inl ⟨rfl, rfl⟩, rfl⟩
    · obtain ⟨hfne', hfval⟩ := (without_fraction_iff hfne hfdig).mpr
        fun c hc => hr.fraction c hc f hf
      rw [hf]
      exact ⟨Or.inr ⟨'.', _, rfl, rfl, rfl, hfne', hfdig.filter _⟩, hfval⟩
  let r' : Reading := ⟨without thousands r.sign, without thousands r.whole,
    r.fraction.map (without thousands)⟩
  refine ⟨r', ⟨_, _, hstrip, hsign', Or.inl ⟨rfl, hwne, hwd.filter _⟩, hfrac.1⟩, ?_⟩
  have hmag : r'.magnitude = r.magnitude := by
    unfold Reading.magnitude
    rw [hwval, hfrac.2]
  by_cases hminus : r.sign = ['-']
  · by_cases hlost : thousands = some '-'
    · -- the sign is lost, and the number is zero
      have hzero := hr.minus hlost hminus
      have habs := r.abs_value
      rw [hzero, abs_zero] at habs
      have habs' := r'.abs_value
      rw [hmag, ← habs, abs_eq_zero] at habs'
      rw [habs', hzero]
    · have hkeep : r'.sign = ['-'] := by
        change without thousands r.sign = _
        rw [hminus]
        exact List.filter_cons_of_pos (by simpa using hlost)
      rw [Reading.value, Reading.value, if_pos hkeep, if_pos hminus, hmag]
  · have hnominus : r'.sign ≠ ['-'] := by
      intro hs
      have hmem : '-' ∈ r.sign := without_subset thousands r.sign (by
        change '-' ∈ r'.sign
        rw [hs]
        exact List.mem_singleton.mpr rfl)
      rcases hsign with hs' | hs' | hs' <;> rw [hs'] at hmem
      · cases hmem
      · exact absurd (List.mem_singleton.mp hmem) (by decide)
      · exact hminus hs'
    rw [Reading.value, Reading.value, if_neg hnominus, if_neg hminus, hmag]

lemma head?_pointed (fraction : Option (List Char)) : ∀ c ∈ (pointed fraction).head?, c = '.' := by
  cases fraction with
  | none => simp [pointed]
  | some f => exact fun c hc => (Option.some.inj hc).symm

lemma not_mem_whole {sep : Char} (hsep : thousands ≠ some sep)
    (h : Reads (some sep) thousands s r) (hsign : r.sign ≠ [sep]) {r' : Reading}
    (h' : Reads (some '.') none (strip (some sep) thousands s) r') (hval : r'.value = r.value) :
    sep ∉ r.whole := by
  intro hmem
  obtain ⟨hne', -, hfrest⟩ := h'.digits
  obtain ⟨-, hwd, hfd⟩ := h.digits
  have hstrip := strip_reads (fun c hc => by rw [← Option.some.inj hc]; exact hsep) h
  obtain ⟨body, tail, -, hσ, -, -⟩ := h
  obtain ⟨hss, hσ'⟩ := strip_sign thousands hσ
    (fun c hc => by rw [← Option.some.inj hc]; exact hsign)
  -- the whole is cut at its first separator
  obtain ⟨as, bs, hsplit, has⟩ := List.eq_append_cons_of_mem hmem
  have hkeep : without thousands (sep :: bs) = sep :: without thousands bs :=
    List.filter_cons_of_pos (by simpa using hsep)
  have hwhole : strip (some sep) thousands r.whole =
      without thousands as ++ '.' :: strip (some sep) thousands bs := by
    have hnot : ∀ c ∈ (some sep : Option Char), c ∉ as := fun c hc => by
      rw [← Option.some.inj hc]
      exact has
    rw [hsplit, strip_append, strip_eq_without hnot, strip, hkeep, List.map_cons, if_pos rfl, strip]
  rw [hss, hwhole, List.append_assoc, List.cons_append] at hstrip
  rw [hsplit] at hwd
  have has_d : Digits as := fun c hc => hwd c (List.mem_append_left _ hc)
  have hbs_d : Digits bs := fun c hc => hwd c (List.mem_append_right _ (List.mem_cons_of_mem _ hc))
  obtain ⟨-, hw', hf'⟩ := h'.plain hstrip hσ' (has_d.filter _)
    (fun c hc => (Option.some.inj hc).symm)
  -- so the whole before it is smaller than the number
  have hmag : r'.magnitude = r.magnitude := by rw [← r'.abs_value, hval, r.abs_value]
  obtain ⟨hvals, -⟩ := (Reading.magnitude_eq hfrest hfd).mp hmag
  rw [hw', hsplit, digitsValue_append, digitsValue_cons, List.length_cons, pow_succ] at hvals
  have hle : digitsValue (without thousands as) ≤ digitsValue as := digitsValue_filter_le _ as
  have hpow : 1 ≤ 10 ^ bs.length := Nat.one_le_pow _ _ (by decide)
  have hzero : digitsValue as = 0 := by
    by_contra hpos
    have h1 : digitsValue as * 1 ≤ digitsValue as * 10 ^ bs.length := Nat.mul_le_mul_left _ hpow
    have h2 : digitsValue as * (10 ^ bs.length * 10) = 10 * (digitsValue as * 10 ^ bs.length) := by
      ring
    omega
  have hsep0 : digitOf sep = 0 := by
    by_contra hpos
    have h1 : 1 * 1 ≤ digitOf sep * 10 ^ bs.length :=
      Nat.mul_le_mul (Nat.one_le_iff_ne_zero.mpr hpos) hpow
    omega
  have hsepd : sep.isDigit = true := hwd sep (by simp)
  have has_nil : as = [] := by
    refine List.eq_nil_iff_forall_not_mem.mpr fun c hc => has ?_
    rw [(digitOf_eq_zero hsepd).mp hsep0, ← (digitsValue_eq_zero has_d).mp hzero c hc]
    exact hc
  rw [has_nil] at hw'
  exact hne' hw'

lemma intact_of_literal (hsep : ∀ c ∈ decimal, thousands ≠ some c) (h : Reads decimal thousands s r)
    {r' : Reading} (h' : Reads (some '.') none (strip decimal thousands s) r')
    (hval : r'.value = r.value) : Intact decimal thousands r := by
  obtain ⟨hne, hwd, hfd⟩ := h.digits
  obtain ⟨hne', -, hfrest⟩ := h'.digits
  have hstrip := strip_reads hsep h
  have hsign : ∀ c ∈ decimal, r.sign ≠ [c] := by
    intro c hc hs
    have hpoint : strip decimal thousands r.sign = ['.'] := by
      have hkeep : without thousands [c] = [c] := by
        exact List.filter_cons_of_pos (by simpa using hsep c hc)
      rw [hs, strip, hkeep, List.map_singleton]
      exact congrArg (fun x => [x]) (if_pos hc)
    rw [hpoint] at hstrip
    obtain ⟨-, hw, -⟩ := h'.plain (σ := []) (a := []) (t := '.' :: _) hstrip (Or.inl rfl)
      (by simp [Digits]) (fun c hc => (Option.some.inj hc).symm)
    exact hne' hw
  have hwhole : ∀ c ∈ decimal, c ∉ r.whole := by
    intro c hc
    obtain rfl : decimal = some c := hc
    exact not_mem_whole (hsep c rfl) h (hsign c rfl) h' hval
  have hfne : ∀ f ∈ r.fraction, f ≠ [] := by
    obtain ⟨body, tail, -, -, -, hfraction⟩ := h
    intro f hf
    rcases hfraction with ⟨-, hnone⟩ | ⟨sep, g, -, -, hg, hgne, -⟩
    · rw [hnone] at hf
      cases hf
    · rw [hg] at hf
      cases hf
      exact hgne
  have hσ : IsSign r.sign := by
    obtain ⟨body, tail, -, hσ, -, -⟩ := h
    exact hσ
  obtain ⟨hss, hσ'⟩ := strip_sign thousands hσ hsign
  rw [hss, strip_eq_without hwhole] at hstrip
  obtain ⟨hs', hw', hf'⟩ := h'.plain hstrip hσ' (hwd.filter _) (head?_pointed _)
  -- the fraction of the literal is what is left of the fraction
  have hfrac : r'.fraction = r.fraction.map (strip decimal thousands) := by
    rcases hf' with ⟨hnil, hnone⟩ | ⟨sep, f, hp, htail, hsome, -⟩
    · cases hr : r.fraction with
      | none => exact hnone
      | some f =>
        rw [hr] at hnil
        cases hnil
    · cases hr : r.fraction with
      | none =>
        rw [hr] at htail
        cases htail
      | some g =>
        rw [hr] at htail
        rw [hsome]
        exact congrArg some (List.cons.inj htail).2.symm
  have hpoint : ∀ c ∈ decimal, ∀ f ∈ r.fraction, c ∉ f := by
    intro c hc f hf hmem
    obtain rfl : decimal = some c := hc
    have hdot : '.' ∈ strip (some c) thousands f := by
      exact List.mem_map.mpr ⟨c, List.mem_filter.mpr ⟨hmem, by simpa using hsep c rfl⟩, if_pos rfl⟩
    rw [hfrac, hf] at hfrest
    exact absurd (hfrest '.' hdot) (by decide)
  have hfrac' : r'.fraction = r.fraction.map (without thousands) := by
    rw [hfrac]
    exact Option.map_congr fun f hf => strip_eq_without fun c hc => hpoint c hc f hf
  have hmag : r'.magnitude = r.magnitude := by rw [← r'.abs_value, hval, r.abs_value]
  obtain ⟨hwv, hfv⟩ := (Reading.magnitude_eq hfrest hfd).mp hmag
  rw [hw'] at hwv hne'
  refine ⟨hsign, fun c hc => ⟨hwhole c hc, hpoint c hc⟩, ?_, ?_, ?_⟩
  · rintro rfl hminus
    have hlost : r'.sign = [] := by
      rw [hs', hminus]
      rfl
    have hpos : r'.value = r'.magnitude := by
      rw [Reading.value, hlost, if_neg (by simp)]
    have hneg : r.value = -r.magnitude := by rw [Reading.value, if_pos hminus]
    have hnonneg := r.magnitude_nonneg
    linarith
  · exact (without_whole_iff hne hwd).mp ⟨hne', hwv⟩
  · intro c hc f hf
    rw [hf] at hfrac'
    have hfne' : without thousands f ≠ [] := by
      rcases hf' with ⟨-, hnone⟩ | ⟨sep, g, -, -, hsome, hgne, -⟩
      · rw [hnone] at hfrac'
        cases hfrac'
      · rw [hsome] at hfrac'
        rw [← Option.some.inj hfrac']
        exact hgne
    rw [hfrac', hf] at hfv
    have hfd_f : Digits f := by
      rw [hf] at hfd
      exact hfd
    exact (without_fraction_iff (hfne f hf) hfd_f).mp ⟨hfne', hfv⟩ c hc

end Value

/-! ### The two operations -/

/-- A separator that is no sign and no digit. -/
def Apart (c : Char) : Prop := c ≠ '+' ∧ c ≠ '-' ∧ c.isDigit = false

lemma not_mem_of_apart {c : Char} (h : Apart c) {l : List Char} (hl : Digits l) : c ∉ l := by
  intro hc
  have hd := hl c hc
  rw [h.2.2] at hd
  cases hd

lemma intact_of_apart {decimal thousands : Option Char} (hd : ∀ c ∈ decimal, Apart c)
    (ht : ∀ c ∈ thousands, Apart c) {s : List Char} {r : Reading}
    (h : Reads decimal thousands s r) : Intact decimal thousands r := by
  obtain ⟨hne, hwd, hfd⟩ := h.digits
  obtain ⟨body, tail, -, hsign, -, hfraction⟩ := h
  have hfne : ∀ f ∈ r.fraction, f ≠ [] ∧ Digits f := by
    intro f hf
    rcases hfraction with ⟨-, hnone⟩ | ⟨sep, g, -, -, hg, hgne, hgd⟩
    · rw [hnone] at hf
      cases hf
    · rw [hg] at hf
      cases hf
      exact ⟨hgne, hgd⟩
  -- nothing is stripped out of the digits, so none of them has to be shifted
  refine ⟨?_, ?_, ?_, ?_, ?_⟩
  · intro c hc hs
    rcases hsign with hs' | hs' | hs' <;> rw [hs'] at hs
    · cases hs
    · exact (hd c hc).1 (List.cons.inj hs).1.symm
    · exact (hd c hc).2.1 (List.cons.inj hs).1.symm
  · exact fun c hc => ⟨not_mem_of_apart (hd c hc) hwd,
      fun f hf => not_mem_of_apart (hd c hc) (hfne f hf).2⟩
  · intro hminus
    exact absurd rfl (ht '-' hminus).2.1
  · exact fun c hc =>
      ⟨0, r.whole, rfl, not_mem_of_apart (ht c hc) hwd, hne, fun h0 => absurd rfl h0⟩
  · exact fun c hc f hf => ⟨0, f, by simp, not_mem_of_apart (ht c hc) (hfne f hf).2, (hfne f hf).1,
      fun h0 => absurd rfl h0⟩

lemma exact_iff {P : Polars} (hP : AsciiDigits P) {s : String} (hs : Ascii s)
    {decimal thousands : Option Char} (hsep : ∀ c ∈ decimal, thousands ≠ some c) :
    Exact decimal thousands s (parseNumeric (numberPattern P decimal thousands)
        (fun s => some (stripSeparators decimal thousands s)) (some s)) ↔
      ∀ r, Reads decimal thousands s.toList r → Intact decimal thousands r := by
  have hmatch := fullMatch_numberPattern (hP.isDigit_eq hs) decimal thousands
  have hliteral : ∀ x, Literal (stripSeparators decimal thousands s) x ↔
      ∃ r', Reads (some '.') none (strip decimal thousands s.toList) r' ∧ r'.value = x := by
    intro x
    rw [Literal, toList_stripSeparators]
  cases hm : fullMatch (numberPattern P decimal thousands) s with
  | false =>
    have hnone : ¬ ∃ r, Reads decimal thousands s.toList r := by
      rw [← hmatch, hm]
      simp
    have hfailed : (parseNumeric (numberPattern P decimal thousands)
        (fun s => some (stripSeparators decimal thousands s)) (some s)).failed = true := by
      simp [parseNumeric, hm]
    refine iff_of_true ⟨?_, fun h => ?_⟩ fun r hr => absurd ⟨r, hr⟩ hnone
    · rw [hfailed]
      exact iff_of_false (by simp) hnone
    · rw [hfailed] at h
      cases h
  | true =>
    have hread := hmatch.mp hm
    have houtcome : parseNumeric (numberPattern P decimal thousands)
        (fun s => some (stripSeparators decimal thousands s)) (some s) =
        ⟨some (stripSeparators decimal thousands s), false⟩ := by
      simp [parseNumeric, hm, nullWhere]
    rw [houtcome]
    constructor
    · -- the text has one literal, and the reading has its value only when nothing was lost
      intro hexact r hr
      obtain ⟨out, hout, hvalue⟩ := hexact.value rfl
      cases hout
      obtain ⟨r', hr', hval⟩ := (hliteral _).mp (hvalue r hr)
      exact intact_of_literal hsep hr hr' hval
    · intro hintact
      refine ⟨iff_of_true rfl hread, fun _ => ⟨_, rfl, fun r hr => ?_⟩⟩
      exact (hliteral _).mpr (literal_of_intact hsep hr (hintact r hr))

/-- **When the numeric operations follow the declared locale**: on an ASCII text, exactly when no
reading of it has a separator for its sign or among its digits. -/
theorem parse_exact_iff (P : Polars) (hP : AsciiDigits P) (s : String) (hs : Ascii s) :
    (∀ d t, (NormalizeOp.parseDecimal d t).valid P.upper = true →
      (Exact (some d) t s (parseDecimal P d t (some s)) ↔
        ∀ r, Reads (some d) t s.toList r → Intact (some d) t r)) ∧
    ∀ t, (Exact none t s (parseInteger P t (some s)) ↔
      ∀ r, Reads none t s.toList r → Intact none t r) := by
  refine ⟨fun d t hvalid => ?_, fun t => ?_⟩
  · refine exact_iff hP hs fun c hc => ?_
    rw [← Option.some.inj hc]
    exact of_decide_eq_true hvalid
  · exact exact_iff hP hs (by simp)

lemma asciiDigits_asciiPolars : AsciiDigits Accounting.asciiPolars := fun _ _ => rfl

/-- A minus sign as thousands separator: minus five is accepted and becomes five. -/
theorem minus_separator_loses_sign :
    (NormalizeOp.parseDecimal '.' (some '-')).valid Accounting.asciiPolars.upper = true ∧
      parseDecimal Accounting.asciiPolars '.' (some '-') (some "-5") = ⟨some "5", false⟩ ∧
      ¬ Exact (some '.') (some '-') "-5"
        (parseDecimal Accounting.asciiPolars '.' (some '-') (some "-5")) := by
  refine ⟨by decide, by decide, fun hexact => ?_⟩
  have hintact := (exact_iff asciiDigits_asciiPolars (by simp [Ascii]) (by simp)).mp hexact
  have hread : Reads (some '.') (some '-') "-5".toList ⟨['-'], ['5'], none⟩ :=
    ⟨['5'], [], rfl, Or.inr (Or.inr rfl), Or.inl ⟨rfl, by simp, by simp [Digits]⟩,
      Or.inl ⟨rfl, rfl⟩⟩
  have hzero := (hintact _ hread).minus rfl rfl
  simp [Reading.value, Reading.magnitude, digitsValue] at hzero

/-- A price with groups keeps its number. -/
theorem grouped_price_exact :
    Exact (some '.') (some ',') "-1,299.50"
      (parseDecimal Accounting.asciiPolars '.' (some ',') (some "-1,299.50")) := by
  have happly := (parse_exact_iff Accounting.asciiPolars asciiDigits_asciiPolars "-1,299.50"
    (by simp [Ascii])).1 '.' (some ',') (by decide)
  refine happly.mpr fun r hr => intact_of_apart (fun c hc => ?_) (fun c hc => ?_) hr
  · cases hc
    exact ⟨by decide, by decide, by decide⟩
  · cases hc
    exact ⟨by decide, by decide, by decide⟩

end CortexDis.LocaleNumbers
