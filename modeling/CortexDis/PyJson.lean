import CortexDis.PyText
import CortexDis.PyDict
import CortexDis.Runs

/-!
`json.loads` over bytes.

The scanner is recursive descent with the interpreter's recursion check: `room` is the number
of containers that may still be opened. The loops over elements and members read at least one
character each time round, so the length of the text bounds them.
-/

namespace CortexDis.PyJson

open CortexDis.PyText CortexDis.Runs

/-- A decoded value. An object keeps its members as a dictionary does; a float keeps its
literal. -/
inductive Json
  | null
  | bool (b : Bool)
  | int (n : ℤ)
  | float (literal : PyStr)
  | str (s : PyStr)
  | arr (items : List Json)
  | obj (members : List (PyStr × Json))
  deriving Repr

/-- The exceptions of `json.loads`. -/
inductive LoadsError
  | jsonDecodeError
  | unicodeDecodeError
  | recursionError
  /-- a plain `ValueError`: an integer with too many digits -/
  | valueError
  deriving DecidableEq, Repr

/-- `sys.int_info.default_max_str_digits` -/
def maxStrDigits : ℕ := 4300

def isWhitespace (c : ℕ) : Bool := c = 32 ∨ c = 9 ∨ c = 10 ∨ c = 13

def isDigit (c : ℕ) : Bool := 48 ≤ c ∧ c ≤ 57

def skip (s : PyStr) : PyStr := s.dropWhile isWhitespace

/-! ### Strings -/

def hexValue (c : ℕ) : Option ℕ :=
  if 48 ≤ c ∧ c ≤ 57 then some (c - 48)
  else if 97 ≤ c ∧ c ≤ 102 then some (c - 87)
  else if 65 ≤ c ∧ c ≤ 70 then some (c - 55)
  else none

def hex4 (a b c d : ℕ) : Option ℕ := do
  return (((← hexValue a) * 16 + (← hexValue b)) * 16 + (← hexValue c)) * 16 + (← hexValue d)

/-- What a one-character escape stands for. -/
def simpleEscape (c : ℕ) : Option ℕ :=
  if c = 34 ∨ c = 92 ∨ c = 47 then some c
  else if c = 98 then some 8
  else if c = 102 then some 12
  else if c = 110 then some 10
  else if c = 114 then some 13
  else if c = 116 then some 9
  else none

/-- The body of a string after its opening quote, up to its closing one: the characters, each
with whether it was written as a `\u` escape, and the rest of the text. -/
def scanUnits : PyStr → Option (List (ℕ × Bool) × PyStr)
  | [] => none
  | c :: rest =>
    if c = 34 then some ([], rest)
    else if c = 92 then
      match rest with
      | 117 :: a :: b :: c :: d :: rest => do
        let u ← hex4 a b c d
        let (us, rest) ← scanUnits rest
        return ((u, true) :: us, rest)
      | e :: rest => do
        let u ← simpleEscape e
        let (us, rest) ← scanUnits rest
        return ((u, false) :: us, rest)
      | [] => none
    else if c < 32 then none
    else do
      let (us, rest) ← scanUnits rest
      return ((c, false) :: us, rest)

/-- Two escapes that spell a surrogate pair are one character. -/
def joinEscapes : List (ℕ × Bool) → PyStr
  | (high, true) :: (low, true) :: rest =>
    if isHigh high && isLow low then joinPair high low :: joinEscapes rest
    else high :: joinEscapes ((low, true) :: rest)
  | (c, _) :: rest => c :: joinEscapes rest
  | [] => []

/-- `scanstring` -/
def scanString (s : PyStr) : Except LoadsError (PyStr × PyStr) :=
  match scanUnits s with
  | some (us, rest) => .ok (joinEscapes us, rest)
  | none => .error .jsonDecodeError

/-! ### Numbers -/

def digits (s : PyStr) : PyStr × PyStr := (s.takeWhile isDigit, s.dropWhile isDigit)

/-- The integer part: a zero, or digits that do not start with one. -/
def scanInteger : PyStr → Option (PyStr × PyStr)
  | 48 :: rest => some ([48], rest)
  | s => if (digits s).1 = [] then none else some (digits s)

/-- The fraction, where there is one. -/
def scanFraction : PyStr → PyStr × PyStr
  | 46 :: rest =>
    if (digits rest).1 = [] then ([], 46 :: rest) else (46 :: (digits rest).1, (digits rest).2)
  | s => ([], s)

/-- The exponent, where there is one. -/
def scanExponent : PyStr → PyStr × PyStr
  | e :: rest =>
    if e = 101 ∨ e = 69 then
      let sign := rest.takeWhile fun c => c = 43 ∨ c = 45
      let body := if sign.length ≤ 1 then digits (rest.drop sign.length) else ([], [])
      if body.1 = [] then ([], e :: rest) else (e :: sign ++ body.1, body.2)
    else ([], e :: rest)
  | [] => ([], [])

def digitsValue (ds : PyStr) : ℕ := ds.foldl (fun n d => 10 * n + (d - 48)) 0

def scanMinus : PyStr → PyStr × PyStr
  | 45 :: rest => ([45], rest)
  | s => ([], s)

/-- `_match_number` -/
def scanNumber (s : PyStr) : Except LoadsError (Json × PyStr) :=
  let minus := scanMinus s
  match scanInteger minus.2 with
  | none => .error .jsonDecodeError
  | some (ds, rest) =>
    let fraction := scanFraction rest
    let exponent := scanExponent fraction.2
    if fraction.1 = [] ∧ exponent.1 = [] then
      if maxStrDigits < ds.length then .error .valueError
      else .ok (.int (if minus.1 = [] then digitsValue ds else -(digitsValue ds : ℤ)), exponent.2)
    else .ok (.float (minus.1 ++ ds ++ fraction.1 ++ exponent.1), exponent.2)

/-! ### Values -/

/-- The constants and the values they stand for. -/
def constants : List (PyStr × Json) :=
  [(pyStr "null", .null), (pyStr "true", .bool true), (pyStr "false", .bool false),
    (pyStr "NaN", .float (pyStr "nan")), (pyStr "Infinity", .float (pyStr "inf")),
    (pyStr "-Infinity", .float (pyStr "-inf"))]

abbrev Scanner := PyStr → Except LoadsError (Json × PyStr)

/-- The elements of an array from the first one on. -/
def scanElements (scan : Scanner) : ℕ → List Json → Scanner
  | 0, _, _ => .error .jsonDecodeError
  | fuel + 1, items, s => do
    let (item, rest) ← scan s
    match skip rest with
    | 93 :: rest => return (.arr (items ++ [item]), rest)
    | 44 :: rest => scanElements scan fuel (items ++ [item]) (skip rest)
    | _ => throw .jsonDecodeError

/-- The members of an object from the first one on; a key that comes again replaces its
value. -/
def scanMembers (scan : Scanner) : ℕ → List (PyStr × Json) → Scanner
  | 0, _, _ => .error .jsonDecodeError
  | fuel + 1, members, s =>
    match s with
    | 34 :: rest => do
      let (key, rest) ← scanString rest
      match skip rest with
      | 58 :: rest => do
        let (value, rest) ← scan (skip rest)
        match skip rest with
        | 125 :: rest => return (.obj (PyDict.put key value members), rest)
        | 44 :: rest => scanMembers scan fuel (PyDict.put key value members) (skip rest)
        | _ => throw .jsonDecodeError
      | _ => throw .jsonDecodeError
    | _ => .error .jsonDecodeError

/-- What a text that opens no container starts with. -/
def scanAtom (s : PyStr) : Except LoadsError (Json × PyStr) :=
  match s with
  | 34 :: rest => do
    let (text, rest) ← scanString rest
    return (.str text, rest)
  | _ =>
    match constants.find? fun e => e.1.isPrefixOf s with
    | some (name, value) => .ok (value, s.drop name.length)
    | none => scanNumber s

/-- `scan_once` -/
def scanOnce : ℕ → Scanner
  | 0, s =>
    match s with
    | 123 :: _ => .error .recursionError
    | 91 :: _ => .error .recursionError
    | _ => scanAtom s
  | room + 1, s =>
    match s with
    | 123 :: rest =>
      match skip rest with
      | 125 :: rest => .ok (.obj [], rest)
      | rest => scanMembers (scanOnce room) rest.length [] rest
    | 91 :: rest =>
      match skip rest with
      | 93 :: rest => .ok (.arr [], rest)
      | rest => scanElements (scanOnce room) rest.length [] rest
    | _ => scanAtom s

/-- `json.loads` of bytes, with `room` containers left before the recursion limit. -/
def loads (room : ℕ) (bytes : Bytes) : Except LoadsError Json :=
  match decode bytes with
  | none => .error .unicodeDecodeError
  | some s =>
    match scanOnce room (skip s) with
    | .error e => .error e
    | .ok (value, rest) => if skip rest = [] then .ok value else .error .jsonDecodeError

/-! ### The bound of the loops -/

/-- Every value takes at least one character. -/
def Consumes (scan : Scanner) : Prop := ∀ s v rest, scan s = .ok (v, rest) → rest.length < s.length

lemma length_skip_le (s : PyStr) : (skip s).length ≤ s.length :=
  (List.dropWhile_sublist _).length_le

lemma length_digits_le (s : PyStr) : (digits s).2.length ≤ s.length :=
  (List.dropWhile_sublist _).length_le

lemma length_scanUnits {s : PyStr} {us : List (ℕ × Bool)} {rest : PyStr}
    (h : scanUnits s = some (us, rest)) : rest.length < s.length := by
  fun_induction scanUnits s generalizing us rest with
  | case1 => simp at h
  | case2 s =>
    cases h
    simp
  | case3 a b c' d s hne ih =>
    simp only [Option.bind_eq_bind, Option.bind_eq_some_iff] at h
    obtain ⟨u, -, ⟨us', rest'⟩, hrest, h⟩ := h
    cases h
    have := ih hrest
    simp only [List.length_cons]
    omega
  | case4 e s hu hne ih =>
    simp only [Option.bind_eq_bind, Option.bind_eq_some_iff] at h
    obtain ⟨u, -, ⟨us', rest'⟩, hrest, h⟩ := h
    cases h
    have := ih hrest
    simp only [List.length_cons]
    omega
  | case5 => simp at h
  | case6 => simp at h
  | case7 c s hq hb hc ih =>
    simp only [Option.bind_eq_bind, Option.bind_eq_some_iff] at h
    obtain ⟨⟨us', rest'⟩, hrest, h⟩ := h
    cases h
    have := ih hrest
    simp only [List.length_cons]
    omega

lemma length_scanString {s key rest : PyStr} (h : scanString s = .ok (key, rest)) :
    rest.length < s.length := by
  unfold scanString at h
  split at h
  · rename_i us rest' hus
    cases h
    exact length_scanUnits hus
  · cases h

lemma length_scanInteger {s ds rest : PyStr} (h : scanInteger s = some (ds, rest)) :
    rest.length < s.length := by
  unfold scanInteger at h
  split at h
  · cases h
    simp
  · split_ifs at h with hne
    cases h
    have hs : s = (digits s).1 ++ (digits s).2 := List.takeWhile_append_dropWhile.symm
    have hpos := List.length_pos_iff.mpr hne
    have := congrArg List.length hs
    rw [List.length_append] at this
    change (digits s).2.length < s.length
    omega

lemma length_scanFraction_le (s : PyStr) : (scanFraction s).2.length ≤ s.length := by
  unfold scanFraction
  split
  · split_ifs
    · simp
    · rename_i rest _
      have := length_digits_le rest
      simp only [List.length_cons]
      omega
  · simp

lemma length_scanExponent_le (s : PyStr) : (scanExponent s).2.length ≤ s.length := by
  unfold scanExponent
  split
  · rename_i e rest
    simp only []
    split_ifs with he hn hs
    · simp
    · have h₁ := length_digits_le (rest.drop (rest.takeWhile fun c => c = 43 ∨ c = 45).length)
      rw [List.length_drop] at h₁
      simp only [List.length_cons]
      omega
    · simp
    · simp
    · simp
  · simp

lemma length_scanMinus_le (s : PyStr) : (scanMinus s).2.length ≤ s.length := by
  unfold scanMinus
  split <;> simp

lemma scanNumber_consumes : Consumes scanNumber := by
  intro s v rest h
  dsimp only [scanNumber] at h
  have hminus := length_scanMinus_le s
  split at h
  · cases h
  · rename_i ds r hint
    have h₁ := length_scanInteger hint
    have h₂ := length_scanFraction_le r
    have h₃ := length_scanExponent_le (scanFraction r).2
    have hrest : rest = (scanExponent (scanFraction r).2).2 := by
      split_ifs at h <;> cases h <;> rfl
    rw [hrest]
    omega

lemma scanAtom_consumes : Consumes scanAtom := by
  intro s v rest h
  unfold scanAtom at h
  split at h
  · rename_i body
    obtain ⟨⟨text, r⟩, hstr, h⟩ := of_bind_eq_ok h
    cases h
    have := length_scanString hstr
    simp only [List.length_cons]
    omega
  · split at h
    · rename_i name value hfind
      cases h
      have hpre := List.find?_some hfind
      have hname : name ≠ [] := by
        have hm := List.mem_of_find?_eq_some hfind
        rintro rfl
        simp [constants, pyStr] at hm
      have hlen : name.length ≤ s.length := (List.isPrefixOf_iff_prefix.mp hpre).length_le
      have hpos := List.length_pos_iff.mpr hname
      simp only [List.length_drop]
      omega
    · exact scanNumber_consumes s v rest h

section Loops

variable {scan : Scanner} (hscan : Consumes scan)
include hscan

lemma length_scanElements {fuel : ℕ} {items : List Json} {s : PyStr} {v : Json} {rest : PyStr}
    (h : scanElements scan fuel items s = .ok (v, rest)) : rest.length < s.length := by
  induction fuel generalizing items s with
  | zero => cases h
  | succ fuel ih =>
    obtain ⟨⟨item, r⟩, hitem, h⟩ := of_bind_eq_ok h
    have h₁ := hscan s item r hitem
    have h₂ := length_skip_le r
    simp only [] at h
    split at h
    · rename_i r' hr
      cases h
      rw [hr, List.length_cons] at h₂
      omega
    · rename_i r' hr
      have h₃ := ih h
      have h₄ := length_skip_le r'
      rw [hr, List.length_cons] at h₂
      omega
    · cases h

lemma length_scanMembers {fuel : ℕ} {members : List (PyStr × Json)} {s : PyStr} {v : Json}
    {rest : PyStr} (h : scanMembers scan fuel members s = .ok (v, rest)) :
    rest.length < s.length := by
  induction fuel generalizing members s with
  | zero => cases h
  | succ fuel ih =>
    unfold scanMembers at h
    -- each token is shorter than what it was read from
    split at h
    · rename_i body
      obtain ⟨⟨key, r₁⟩, hkey, h⟩ := of_bind_eq_ok h
      have h₁ := length_scanString hkey
      have h₂ := length_skip_le r₁
      simp only [] at h
      split at h
      · rename_i r₂ hr₂
        obtain ⟨⟨value, r₃⟩, hvalue, h⟩ := of_bind_eq_ok h
        have h₃ := hscan _ value r₃ hvalue
        have h₄ := length_skip_le r₂
        have h₅ := length_skip_le r₃
        rw [hr₂, List.length_cons] at h₂
        simp only [] at h
        simp only [List.length_cons]
        split at h
        · rename_i r₄ hr₄
          cases h
          rw [hr₄, List.length_cons] at h₅
          omega
        · rename_i r₄ hr₄
          have h₆ := ih h
          have h₇ := length_skip_le r₄
          rw [hr₄, List.length_cons] at h₅
          omega
        · cases h
      · cases h
    · cases h

variable (hnil : scan [] = .error .jsonDecodeError)
include hnil

lemma scanElements_bound {fuel : ℕ} {items : List Json} {s : PyStr} (h : s.length ≤ fuel) :
    scanElements scan (fuel + 1) items s = scanElements scan fuel items s := by
  induction fuel generalizing items s with
  | zero =>
    obtain rfl := List.length_eq_zero_iff.mp (Nat.le_zero.mp h)
    simp only [scanElements, hnil]
    rfl
  | succ fuel ih =>
    rw [scanElements, scanElements]
    cases hs : scan s with
    | error e => rfl
    | ok out =>
      obtain ⟨item, r⟩ := out
      have h₁ := hscan s item r hs
      have h₂ := length_skip_le r
      simp only [bind, Except.bind]
      split
      · rfl
      · rename_i r' hr
        have h₃ := length_skip_le r'
        rw [hr, List.length_cons] at h₂
        exact ih (by omega)
      · rfl

omit hnil in
lemma scanMembers_bound {fuel : ℕ} {members : List (PyStr × Json)} {s : PyStr}
    (h : s.length ≤ fuel) :
    scanMembers scan (fuel + 1) members s = scanMembers scan fuel members s := by
  induction fuel generalizing members s with
  | zero =>
    obtain rfl := List.length_eq_zero_iff.mp (Nat.le_zero.mp h)
    rfl
  | succ fuel ih =>
    unfold scanMembers
    split
    · rename_i body
      cases hk : scanString body with
      | error e => rfl
      | ok out =>
        obtain ⟨key, r₁⟩ := out
        have h₁ := length_scanString hk
        have h₂ := length_skip_le r₁
        simp only [bind, Except.bind]
        split
        · rename_i r₂ hr₂
          cases hv : scan (skip r₂) with
          | error e => rfl
          | ok out =>
            obtain ⟨value, r₃⟩ := out
            have h₃ := hscan _ value r₃ hv
            have h₄ := length_skip_le r₂
            have h₅ := length_skip_le r₃
            rw [hr₂, List.length_cons] at h₂
            rw [List.length_cons] at h
            dsimp only
            split
            · rfl
            · rename_i r₄ hr₄
              have h₆ := length_skip_le r₄
              rw [hr₄, List.length_cons] at h₅
              exact ih (by omega)
            · rfl
        · rfl
    · rfl

end Loops

lemma scanOnce_consumes (room : ℕ) : Consumes (scanOnce room) := by
  induction room with
  | zero =>
    intro s v rest h
    unfold scanOnce at h
    split at h
    · cases h
    · cases h
    · exact scanAtom_consumes _ v rest h
  | succ room ih =>
    intro s v rest h
    unfold scanOnce at h
    split at h
    · rename_i body
      have hskip := length_skip_le body
      simp only [List.length_cons]
      split at h
      · rename_i r hr
        cases h
        rw [hr, List.length_cons] at hskip
        omega
      · have := length_scanMembers ih h
        omega
    · rename_i body
      have hskip := length_skip_le body
      simp only [List.length_cons]
      split at h
      · rename_i r hr
        cases h
        rw [hr, List.length_cons] at hskip
        omega
      · have := length_scanElements ih h
        omega
    · exact scanAtom_consumes _ v rest h

/-- **The loops of a scan never run out of rounds**: the length of the text is as good a
bound as any greater one. -/
theorem scan_loops_bound (room : ℕ) {fuel : ℕ} {s : PyStr} (h : s.length ≤ fuel) :
    (∀ items, scanElements (scanOnce room) fuel items s =
      scanElements (scanOnce room) s.length items s) ∧
    ∀ members, scanMembers (scanOnce room) fuel members s =
      scanMembers (scanOnce room) s.length members s := by
  have hnil : scanOnce room [] = .error .jsonDecodeError := by cases room <;> rfl
  have hscan := scanOnce_consumes room
  obtain ⟨more, rfl⟩ := Nat.exists_eq_add_of_le h
  induction more with
  | zero => exact ⟨fun _ => rfl, fun _ => rfl⟩
  | succ more ih =>
    have hle : s.length ≤ s.length + more := Nat.le_add_right _ _
    exact ⟨fun items => (scanElements_bound hscan hnil hle).trans ((ih hle).1 items),
      fun members => (scanMembers_bound hscan hle).trans ((ih hle).2 members)⟩

end CortexDis.PyJson
