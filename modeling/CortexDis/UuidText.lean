import CortexDis.ObjectPath

/-!
The text of an id, and its readers.

An id has 32 lowercase hexadecimal digits in five groups. The pattern of a path reads no other
text; the constructor of Python reads many. Both return an id from its text, so that two ids
with one text are one id.
-/

namespace CortexDis.UuidText

open CortexDis.Values CortexDis.ObjectPath

/-! ### Hexadecimal digits -/

lemma hexValue_hexDigit {d : ℕ} (h : d < 16) : hexValue (hexDigit d) = some d := by
  interval_cases d <;> decide

lemma hexDigit_ne {d : ℕ} (h : d < 16) {c : Char} (hc : hexValue c = none) : hexDigit d ≠ c := by
  rintro rfl
  rw [hexValue_hexDigit h] at hc
  cases hc

lemma exists_of_mem_hexDigits {c : Char} {n len : ℕ} (h : c ∈ hexDigits n len) :
    ∃ d < 16, c = hexDigit d := by
  induction len with
  | zero => cases h
  | succ len ih =>
    rcases List.mem_cons.mp h with rfl | h
    · exact ⟨_, Nat.mod_lt _ (by decide), rfl⟩
    · exact ih h

lemma not_mem_hexDigits {c : Char} (hc : hexValue c = none) (n len : ℕ) :
    c ∉ hexDigits n len := by
  intro h
  obtain ⟨d, hd, rfl⟩ := exists_of_mem_hexDigits h
  exact hexDigit_ne hd hc rfl

@[simp] lemma length_hexDigits (n len : ℕ) : (hexDigits n len).length = len := by
  induction len with
  | zero => rfl
  | succ len ih => rw [hexDigits, List.length_cons, ih]

lemma foldlM_hexDigits (n len m : ℕ) :
    (hexDigits n len).foldlM (fun m c => (hexValue c).map fun d => 16 * m + d) m =
      some (m * 16 ^ len + n % 16 ^ len) := by
  induction len generalizing m with
  | zero => simp [hexDigits, Nat.mod_one]
  | succ len ih =>
    have hd : n / 16 ^ len % 16 < 16 := Nat.mod_lt _ (by decide)
    have hmod : n % 16 ^ (len + 1) = 16 ^ len * (n / 16 ^ len % 16) + n % 16 ^ len := by
      rw [pow_succ, Nat.mod_mul, Nat.add_comm]
    rw [hexDigits, List.foldlM_cons, hexValue_hexDigit hd, Option.map_some, Option.bind_eq_bind,
      Option.bind_some, ih, hmod]
    congr 1
    ring

lemma hexDigits_append (n a b : ℕ) :
    hexDigits (n / 16 ^ b) a ++ hexDigits n b = hexDigits n (a + b) := by
  induction a with
  | zero => simp [hexDigits]
  | succ a ih =>
    rw [show a + 1 + b = a + b + 1 by omega, hexDigits, hexDigits, List.cons_append, ih,
      Nat.div_div_eq_div_mul, ← pow_add, Nat.add_comm b a]

/-! ### Ids -/

/-- The five groups of an id. -/
def groups (u : Uuid) : List (List Char) :=
  let n := u.bits.toNat
  [hexDigits (n / 16 ^ 24) 8, hexDigits (n / 16 ^ 20) 4, hexDigits (n / 16 ^ 16) 4,
    hexDigits (n / 16 ^ 12) 4, hexDigits n 12]

lemma chars_eq (u : Uuid) : u.chars = ['-'].intercalate (groups u) := by
  simp [Uuid.chars, groups, List.intercalate, List.intersperse]

lemma not_mem_chars (u : Uuid) {c : Char} (hc : hexValue c = none) (hdash : c ≠ '-') :
    c ∉ u.chars := by
  simp [Uuid.chars, not_mem_hexDigits hc, hdash]

lemma splitOn_chars (u : Uuid) : u.chars.splitOn '-' = groups u := by
  rw [chars_eq, List.splitOn_intercalate]
  · intro l hl
    have hdash : hexValue '-' = none := by decide
    simp only [groups, List.mem_cons, List.not_mem_nil, or_false] at hl
    rcases hl with rfl | rfl | rfl | rfl | rfl <;> exact not_mem_hexDigits hdash _ _
  · simp [groups]

lemma flatten_groups (u : Uuid) : (groups u).flatten = hexDigits u.bits.toNat 32 := by
  have h20 : u.bits.toNat / 16 ^ 24 = u.bits.toNat / 16 ^ 20 / 16 ^ 4 := by
    rw [Nat.div_div_eq_div_mul, ← pow_add]
  have h16 : u.bits.toNat / 16 ^ 20 = u.bits.toNat / 16 ^ 16 / 16 ^ 4 := by
    rw [Nat.div_div_eq_div_mul, ← pow_add]
  have h12 : u.bits.toNat / 16 ^ 16 = u.bits.toNat / 16 ^ 12 / 16 ^ 4 := by
    rw [Nat.div_div_eq_div_mul, ← pow_add]
  simp only [groups, List.flatten_cons, List.flatten_nil, List.append_nil, ← List.append_assoc]
  rw [h20, hexDigits_append, h16, hexDigits_append, h12, hexDigits_append, hexDigits_append]

/-- **Reading the text of an id returns the id.** -/
theorem uuidOf_chars (u : Uuid) : uuidOf u.chars = some u := by
  have hflat := flatten_groups u
  have hread : hexOf (hexDigits u.bits.toNat 32) = some u.bits.toNat := by
    rw [hexOf, foldlM_hexDigits, Nat.zero_mul, Nat.zero_add, Nat.mod_eq_of_lt]
    exact u.bits.isLt.trans_le (by norm_num)
  have hofNat : Uuid.ofNat u.bits.toNat = u := by
    rw [Uuid.ofNat, BitVec.ofNat_toNat, BitVec.setWidth_eq]
  rw [uuidOf, splitOn_chars]
  simp only [groups, List.flatten_cons, List.flatten_nil, List.append_nil] at hflat ⊢
  rw [if_pos (by simp), List.append_assoc, List.append_assoc, List.append_assoc, hflat, hread,
    Option.map_some, hofNat]

lemma chars_injective : Function.Injective Uuid.chars := by
  intro u v h
  have huv : uuidOf u.chars = uuidOf v.chars := by rw [h]
  rw [uuidOf_chars, uuidOf_chars] at huv
  exact Option.some.inj huv

lemma str_injective : Function.Injective Uuid.str := fun _ _ h =>
  chars_injective (String.ofList_injective h)

/-! ### The constructor -/

/-- `s.replace(word, "")`, after the first `skip` characters, which are dropped. -/
def removeWord (word : List Char) : ℕ → List Char → List Char
  | _, [] => []
  | skip + 1, _ :: s => removeWord word skip s
  | 0, c :: s =>
    if word.isPrefixOf (c :: s) then removeWord word (word.length - 1) s
    else c :: removeWord word 0 s

/-- White space in ASCII, as `int` skips it. -/
def asciiSpace (c : Char) : Bool := (9 ≤ c.toNat && c.toNat ≤ 13) || c = ' '

def dropPlus (s : List Char) : List Char := if ['+'].isPrefixOf s then s.drop 1 else s

/-- The prefix `0x`, which an underscore may follow. -/
def dropHexPrefix (s : List Char) : List Char :=
  if (s.take 2).map Char.toLower = ['0', 'x'] then
    if ['_'].isPrefixOf (s.drop 2) then s.drop 3 else s.drop 2
  else s

/-- `int(s, 16)` of a text without a minus sign -/
def hexInt (decimalDigit : Char → Option ℕ) (s : List Char) : Option ℕ := do
  let ascii ← s.mapM (PyDecimal.asciiChar isSpace decimalDigit)
  let digits := dropHexPrefix (dropPlus (PyText.trim asciiSpace ascii))
  if (digits.splitOn '_').any List.isEmpty then none
  else hexOf ((digits.filter (· ≠ '_')).map Char.toLower)

/-- `UUID(text)` -/
def uuidOfText (decimalDigit : Char → Option ℕ) (s : List Char) : Option Uuid :=
  let hex := removeWord ['u', 'u', 'i', 'd', ':'] 0 (removeWord ['u', 'r', 'n', ':'] 0 s)
  let hex := (PyText.trim (fun c => c = Char.ofNat 123 || c = Char.ofNat 125) hex).filter
    (· ≠ '-')
  if hex.length = 32 then (hexInt decimalDigit hex).map Uuid.ofNat else none

lemma removeWord_eq_self {c : Char} (word : List Char) {s : List Char} (h : c ∉ s) :
    removeWord (c :: word) 0 s = s := by
  induction s with
  | nil => rfl
  | cons d s ih =>
    rw [List.mem_cons, not_or] at h
    have hne : (c :: word).isPrefixOf (d :: s) = false := by
      simp [List.isPrefixOf_cons_cons, h.1]
    rw [removeWord, hne, if_neg Bool.false_ne_true, ih h.2]

lemma trim_eq_self {p : Char → Bool} {s : List Char} (h : ∀ c ∈ s, p c = false) :
    PyText.trim p s = s := by
  have hdrop : ∀ t : List Char, (∀ c ∈ t, p c = false) → t.dropWhile p = t := by
    intro t ht
    cases t with
    | nil => rfl
    | cons c t => exact List.dropWhile_cons_of_neg (by simp [ht c])
  rw [PyText.trim, hdrop s h, hdrop s.reverse (by simpa using h), List.reverse_reverse]

lemma mapM_eq_self {α : Type*} {f : α → Option α} {s : List α} (h : ∀ c ∈ s, f c = some c) :
    s.mapM f = some s := by
  induction s with
  | nil => rfl
  | cons c s ih =>
    have hrest := ih fun d hd => h d (List.mem_cons_of_mem _ hd)
    rw [List.mapM_cons, h c List.mem_cons_self, hrest]
    rfl

lemma hexDigit_plain {d : ℕ} (h : d < 16) : 0 < (hexDigit d).toNat ∧ (hexDigit d).toNat ≤ 127 ∧
    asciiSpace (hexDigit d) = false ∧ (hexDigit d).toLower = hexDigit d := by
  interval_cases d <;> decide

lemma hexInt_hexDigits (decimalDigit : Char → Option ℕ) (n len : ℕ) :
    hexInt decimalDigit (hexDigits n (len + 1)) = some (n % 16 ^ (len + 1)) := by
  have hnot : ∀ {c : Char}, hexValue c = none → c ∉ hexDigits n (len + 1) :=
    fun hc => not_mem_hexDigits hc n (len + 1)
  have hascii : (hexDigits n (len + 1)).mapM (PyDecimal.asciiChar isSpace decimalDigit) =
      some (hexDigits n (len + 1)) := by
    refine mapM_eq_self fun c hc => ?_
    obtain ⟨d, hd, rfl⟩ := exists_of_mem_hexDigits hc
    obtain ⟨hpos, hle, -⟩ := hexDigit_plain hd
    exact if_pos ⟨hpos, hle⟩
  have htrim : PyText.trim asciiSpace (hexDigits n (len + 1)) = hexDigits n (len + 1) := by
    refine trim_eq_self fun c hc => ?_
    obtain ⟨d, hd, rfl⟩ := exists_of_mem_hexDigits hc
    exact (hexDigit_plain hd).2.2.1
  -- nothing that `int` strips or skips occurs among the digits
  have hplus : dropPlus (hexDigits n (len + 1)) = hexDigits n (len + 1) := by
    refine if_neg fun hprefix => hnot (c := '+') (by decide) ?_
    exact (List.isPrefixOf_iff_prefix.mp hprefix).subset List.mem_cons_self
  have hlower : (hexDigits n (len + 1)).map Char.toLower = hexDigits n (len + 1) := by
    conv_rhs => rw [← List.map_id (hexDigits n (len + 1))]
    refine List.map_congr_left fun c hc => ?_
    obtain ⟨d, hd, rfl⟩ := exists_of_mem_hexDigits hc
    exact (hexDigit_plain hd).2.2.2
  have hprefix : dropHexPrefix (hexDigits n (len + 1)) = hexDigits n (len + 1) := by
    refine if_neg fun heq => hnot (c := 'x') (by decide) ?_
    rw [List.map_take, hlower] at heq
    have hx : 'x' ∈ (hexDigits n (len + 1)).take 2 := by simp [heq]
    exact List.mem_of_mem_take hx
  have hunderscore : '_' ∉ hexDigits n (len + 1) := hnot (by decide)
  have hsplit : (hexDigits n (len + 1)).splitOn '_' = [hexDigits n (len + 1)] :=
    List.splitOn_eq_singleton hunderscore
  have hfilter : (hexDigits n (len + 1)).filter (· ≠ '_') = hexDigits n (len + 1) :=
    List.filter_eq_self.mpr fun c hc => decide_eq_true fun heq => hunderscore (heq ▸ hc)
  have hread : hexOf (hexDigits n (len + 1)) = some (n % 16 ^ (len + 1)) := by
    rw [hexOf, foldlM_hexDigits, Nat.zero_mul, Nat.zero_add]
  rw [hexInt, hascii, Option.bind_eq_bind, Option.bind_some, htrim, hplus, hprefix]
  dsimp only
  rw [hsplit, hfilter, hlower, hread]
  rfl

/-- **The constructor returns an id from its text.** -/
theorem uuidOfText_chars (decimalDigit : Char → Option ℕ) (u : Uuid) :
    uuidOfText decimalDigit u.chars = some u := by
  have hu : 'u' ∉ u.chars := not_mem_chars u (by decide) (by decide)
  have htrim : PyText.trim (fun c => c = Char.ofNat 123 || c = Char.ofNat 125) u.chars =
      u.chars := by
    refine trim_eq_self fun c hc => ?_
    have hopen : Char.ofNat 123 ∉ u.chars := not_mem_chars u (by decide) (by decide)
    have hclose : Char.ofNat 125 ∉ u.chars := not_mem_chars u (by decide) (by decide)
    have hne : c ≠ Char.ofNat 123 := fun heq => hopen (heq ▸ hc)
    have hne' : c ≠ Char.ofNat 125 := fun heq => hclose (heq ▸ hc)
    simp [hne, hne']
  have hdash : ∀ n len,
      (hexDigits n len).filter (fun c => !decide (c = '-')) = hexDigits n len := by
    intro n len
    refine List.filter_eq_self.mpr fun c hc => ?_
    have hne : c ≠ '-' := fun heq =>
      not_mem_hexDigits (by decide : hexValue '-' = none) n len (heq ▸ hc)
    simp [hne]
  have hfilter : u.chars.filter (· ≠ '-') = hexDigits u.bits.toNat 32 := by
    rw [← flatten_groups]
    simp [Uuid.chars, groups, List.filter_append, hdash]
  have hofNat : Uuid.ofNat (u.bits.toNat % 16 ^ 32) = u := by
    rw [Nat.mod_eq_of_lt (u.bits.isLt.trans_le (by norm_num)), Uuid.ofNat, BitVec.ofNat_toNat,
      BitVec.setWidth_eq]
  rw [uuidOfText, removeWord_eq_self _ hu, removeWord_eq_self _ hu, htrim, hfilter,
    if_pos (length_hexDigits _ _), hexInt_hexDigits, Option.map_some, hofNat]

end CortexDis.UuidText
