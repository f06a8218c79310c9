import CortexDis.PyValue

/-!
Values in a JSONB column.

A value is written with `json.dumps` and a cast, and the driver gives it back as Python
objects. A text with the character NUL or with a surrogate that has no partner is refused; a
surrogate pair is one character afterwards. The items of an object come back in an order of
the server's; no reader here asks for the order, so they are kept as written.
-/

namespace CortexDis.Jsonb

open CortexDis.PyText CortexDis.PyValue CortexDis.Runs

/-- The statement is refused: the text cannot be stored. -/
inductive StoreFault
  | untranslatable
  deriving DecidableEq, Repr

abbrev Json := Value Empty

/-- A text as it comes back. -/
def jsonbText : PyStr → Option PyStr
  | [] => some []
  | [c] => if c = 0 || isHigh c || isLow c then none else some [c]
  | c :: d :: rest =>
    if isHigh c && isLow d then (jsonbText rest).map (joinPair c d :: ·)
    else if c = 0 || isHigh c || isLow c then none
    else (jsonbText (d :: rest)).map (c :: ·)

def textToJsonb (s : PyStr) : Except StoreFault PyStr :=
  match jsonbText s with
  | some t => .ok t
  | none => .error .untranslatable

/-- The text of a key: `json.dumps` writes a scalar key as its literal. -/
def keyText : Json → Option PyStr
  | .none => some (pyStr "null")
  | .bool b => some (pyStr (if b then "true" else "false"))
  | .int n => some (pyStr (toString n))
  | .str s => some s
  | _ => none

def keyToJsonb (k : Json) : Except StoreFault Json :=
  match keyText k with
  | some s => do return .str (← textToJsonb s)
  | none => .error .untranslatable

mutual

/-- A value as it comes back from the column. -/
def toJsonb : Json → Except StoreFault Json
  | .none => .ok .none
  | .bool b => .ok (.bool b)
  | .int n => .ok (.int n)
  | .str s => do return .str (← textToJsonb s)
  | .list items => do return .list (← listToJsonb items)
  | .dict items => do return .dict (← itemsToJsonb items)
  | .other o => o.elim

def listToJsonb : List Json → Except StoreFault (List Json)
  | [] => .ok []
  | v :: items => do return (← toJsonb v) :: (← listToJsonb items)

def itemsToJsonb : List (Json × Json) → Except StoreFault (List (Json × Json))
  | [] => .ok []
  | (k, v) :: items => do return (← keyToJsonb k, ← toJsonb v) :: (← itemsToJsonb items)

end

/-! ### Texts of a value -/

/-- Every text of the value, and every key, satisfies `P`. -/
inductive AllText (P : PyStr → Prop) : Json → Prop
  | none : AllText P .none
  | bool (b : Bool) : AllText P (.bool b)
  | int (n : ℤ) : AllText P (.int n)
  | str {s : PyStr} (h : P s) : AllText P (.str s)
  | list {items : List Json} (h : ∀ v ∈ items, AllText P v) : AllText P (.list items)
  | dict {items : List (Json × Json)} (hk : ∀ e ∈ items, ∃ k, e.1 = .str k ∧ P k)
      (h : ∀ e ∈ items, AllText P e.2) : AllText P (.dict items)

variable {P Q : PyStr → Prop}

@[simp] lemma allText_none : AllText P .none := .none
@[simp] lemma allText_bool (b : Bool) : AllText P (.bool b) := .bool b
@[simp] lemma allText_int (n : ℤ) : AllText P (.int n) := .int n

@[simp] lemma allText_str (s : PyStr) : AllText P (.str s) ↔ P s :=
  ⟨fun h => by cases h; assumption, .str⟩

@[simp] lemma allText_list (items : List Json) :
    AllText P (.list items) ↔ ∀ v ∈ items, AllText P v :=
  ⟨fun h => by cases h; assumption, .list⟩

/-- The keys of a dictionary are texts that satisfy `P`, and so are the texts of its values. -/
def AllItems (P : PyStr → Prop) (items : List (Json × Json)) : Prop :=
  ∀ e ∈ items, (∃ k, e.1 = .str k ∧ P k) ∧ AllText P e.2

@[simp] lemma allText_dict (items : List (Json × Json)) :
    AllText P (.dict items) ↔ AllItems P items := by
  constructor
  · intro h
    cases h with
    | dict hk h => exact fun e he => ⟨hk e he, h e he⟩
  · intro h
    exact .dict (fun e he => (h e he).1) fun e he => (h e he).2

@[simp] lemma allItems_nil : AllItems P [] := by simp [AllItems]

@[simp] lemma allItems_cons (k : PyStr) (v : Json) (items : List (Json × Json)) :
    AllItems P ((.str k, v) :: items) ↔ (P k ∧ AllText P v) ∧ AllItems P items := by
  simp only [AllItems, List.forall_mem_cons, Value.str.injEq, exists_eq_left']

@[simp] lemma allItems_append (items items' : List (Json × Json)) :
    AllItems P (items ++ items') ↔ AllItems P items ∧ AllItems P items' :=
  List.forall_mem_append

@[simp] lemma allItems_present (k : PyStr) (v : Json) :
    AllItems P (present k v) ↔ v = .none ∨ P k ∧ AllText P v := by
  cases v <;> simp [present, Value.isNone]

/-- No surrogate: a Unicode text. -/
def Unicode (s : PyStr) : Prop := ∀ c ∈ s, isHigh c = false ∧ isLow c = false

def NulFree (s : PyStr) : Prop := 0 ∉ s

@[simp] lemma unicode_pyStr (s : String) : Unicode (pyStr s) := by
  intro c hc
  obtain ⟨ch, -, rfl⟩ := List.mem_map.mp hc
  have hv : ch.toNat < 0xd800 ∨ 0xdfff < ch.toNat ∧ ch.toNat < 0x110000 := ch.valid
  simp only [isHigh, isLow, Bool.and_eq_false_iff, decide_eq_false_iff_not]
  omega

lemma jsonbText_of_unicode {s : PyStr} (h : Unicode s) :
    jsonbText s = if 0 ∈ s then none else some s := by
  induction s with
  | nil => rfl
  | cons c s ih =>
    obtain ⟨hhigh, hlow⟩ := h c List.mem_cons_self
    have hs := ih fun d hd => h d (List.mem_cons_of_mem _ hd)
    cases s with
    | nil => by_cases hc : c = 0 <;> simp [jsonbText, hhigh, hlow, hc, eq_comm]
    | cons d rest =>
      rw [jsonbText, hhigh, hlow, hs]
      by_cases hc : c = 0
      · simp [hc]
      · have hc' : 0 ≠ c := fun h0 => hc h0.symm
        by_cases h0 : 0 ∈ d :: rest <;> simp [hc, hc', h0]

lemma textToJsonb_of_unicode {s : PyStr} (h : Unicode s) :
    textToJsonb s = if 0 ∈ s then .error .untranslatable else .ok s := by
  rw [textToJsonb, jsonbText_of_unicode h]
  by_cases h0 : 0 ∈ s <;> simp [h0]

lemma textToJsonb_eq_ok {s t : PyStr} (h : Unicode s) (ht : textToJsonb s = .ok t) : t = s := by
  rw [textToJsonb_of_unicode h] at ht
  by_cases h0 : 0 ∈ s
  · simp [h0] at ht
  · simp only [h0, if_false, Except.ok.injEq] at ht
    exact ht.symm

lemma keyToJsonb_str (s : PyStr) :
    keyToJsonb (.str s) = textToJsonb s >>= fun t => .ok (.str t) := rfl

lemma listToJsonb_eq_mapM (items : List Json) : listToJsonb items = items.mapM toJsonb := by
  induction items with
  | nil => rfl
  | cons v items ih => rw [listToJsonb, ih, List.mapM_cons]

lemma itemsToJsonb_eq_mapM (items : List (Json × Json)) :
    itemsToJsonb items =
      items.mapM fun e => keyToJsonb e.1 >>= fun k => toJsonb e.2 >>= fun v => pure (k, v) := by
  induction items with
  | nil => rfl
  | cons e items ih =>
    obtain ⟨k, v⟩ := e
    simp only [itemsToJsonb, ih, List.mapM_cons, bind_assoc, pure_bind]

lemma listToJsonb_eq_self {items items' : List Json}
    (ih : ∀ v ∈ items, ∀ w, toJsonb v = .ok w → w = v) (h : listToJsonb items = .ok items') :
    items' = items := by
  induction items generalizing items' with
  | nil =>
    cases h
    rfl
  | cons v items ihl =>
    rw [listToJsonb] at h
    obtain ⟨v', hv, h⟩ := of_bind_eq_ok h
    obtain ⟨rest, hrest, h⟩ := of_bind_eq_ok h
    cases h
    rw [ih v List.mem_cons_self v' hv, ihl (fun u hu => ih u (List.mem_cons_of_mem _ hu)) hrest]

lemma itemsToJsonb_eq_self {items items' : List (Json × Json)}
    (hk : ∀ e ∈ items, ∃ k, e.1 = .str k ∧ Unicode k)
    (ih : ∀ e ∈ items, ∀ w, toJsonb e.2 = .ok w → w = e.2)
    (h : itemsToJsonb items = .ok items') : items' = items := by
  induction items generalizing items' with
  | nil =>
    cases h
    rfl
  | cons e items ihl =>
    obtain ⟨k, v⟩ := e
    obtain ⟨s, rfl, hs⟩ := hk _ List.mem_cons_self
    rw [itemsToJsonb] at h
    obtain ⟨k', hk', h⟩ := of_bind_eq_ok h
    obtain ⟨v', hv, h⟩ := of_bind_eq_ok h
    obtain ⟨rest, hrest, h⟩ := of_bind_eq_ok h
    cases h
    obtain ⟨t, ht, hk'⟩ := of_bind_eq_ok hk'
    cases hk'
    rw [textToJsonb_eq_ok hs ht, ih _ List.mem_cons_self v' hv,
      ihl (fun e he => hk e (List.mem_cons_of_mem _ he))
        (fun e he => ih e (List.mem_cons_of_mem _ he)) hrest]

/-- A Unicode value that is stored comes back as it is. -/
theorem toJsonb_eq_self {v w : Json} (h : AllText Unicode v) (hw : toJsonb v = .ok w) :
    w = v := by
  induction h generalizing w with
  | none | bool | int =>
    cases hw
    rfl
  | str hs =>
    rw [toJsonb] at hw
    obtain ⟨t, ht, hw⟩ := of_bind_eq_ok hw
    cases hw
    rw [textToJsonb_eq_ok hs ht]
  | list _ ih =>
    rw [toJsonb] at hw
    obtain ⟨items', hitems, hw⟩ := of_bind_eq_ok hw
    cases hw
    rw [listToJsonb_eq_self (fun v hv w => ih v hv) hitems]
  | dict hk _ ih =>
    rw [toJsonb] at hw
    obtain ⟨items', hitems, hw⟩ := of_bind_eq_ok hw
    cases hw
    rw [itemsToJsonb_eq_self hk (fun e he w => ih e he) hitems]

/-- A text that is stored as it is. -/
def Clean (s : PyStr) : Prop := Unicode s ∧ NulFree s

lemma textToJsonb_of_clean {s : PyStr} (h : Clean s) : textToJsonb s = .ok s := by
  rw [textToJsonb_of_unicode h.1, if_neg h.2]

lemma listToJsonb_of_clean {items : List Json} (ih : ∀ v ∈ items, toJsonb v = .ok v) :
    listToJsonb items = .ok items := by
  induction items with
  | nil => rfl
  | cons v items ihl =>
    rw [listToJsonb, ih v List.mem_cons_self, ok_bind,
      ihl fun u hu => ih u (List.mem_cons_of_mem _ hu)]
    rfl

lemma itemsToJsonb_of_clean {items : List (Json × Json)}
    (hk : ∀ e ∈ items, ∃ k, e.1 = .str k ∧ Clean k) (ih : ∀ e ∈ items, toJsonb e.2 = .ok e.2) :
    itemsToJsonb items = .ok items := by
  induction items with
  | nil => rfl
  | cons e items ihl =>
    obtain ⟨k, v⟩ := e
    obtain ⟨s, rfl, hs⟩ := hk _ List.mem_cons_self
    have hrest := ihl (fun e he => hk e (List.mem_cons_of_mem _ he))
      fun e he => ih e (List.mem_cons_of_mem _ he)
    rw [itemsToJsonb, keyToJsonb_str, textToJsonb_of_clean hs, ih _ List.mem_cons_self, hrest]
    rfl

/-- A clean value is stored as it is. -/
theorem toJsonb_of_clean {v : Json} (h : AllText Clean v) : toJsonb v = .ok v := by
  induction h with
  | none | bool | int => rfl
  | str hs =>
    rw [toJsonb, textToJsonb_of_clean hs]
    rfl
  | list _ ih =>
    rw [toJsonb, listToJsonb_of_clean ih]
    rfl
  | dict hk _ ih =>
    rw [toJsonb, itemsToJsonb_of_clean hk ih]
    rfl

lemma textToJsonb_nulFree {s t : PyStr} (h : Unicode s) (ht : textToJsonb s = .ok t) :
    NulFree s := by
  rw [textToJsonb_of_unicode h] at ht
  intro h0
  simp [h0] at ht

/-- A Unicode value that is stored has no NUL. -/
theorem nulFree_of_toJsonb {v w : Json} (h : AllText Unicode v) (hw : toJsonb v = .ok w) :
    AllText NulFree v := by
  induction h generalizing w with
  | none | bool | int => constructor
  | str hs =>
    rw [toJsonb] at hw
    obtain ⟨t, ht, -⟩ := of_bind_eq_ok hw
    exact .str (textToJsonb_nulFree hs ht)
  | @list items _ ih =>
    rw [toJsonb] at hw
    obtain ⟨items', hitems, -⟩ := of_bind_eq_ok hw
    rw [listToJsonb_eq_mapM] at hitems
    exact .list fun v hv => by
      obtain ⟨w, hw⟩ := exists_ok_of_mem_mapM hitems v hv
      exact ih v hv hw
  | @dict items hk _ ih =>
    rw [toJsonb] at hw
    obtain ⟨items', hitems, -⟩ := of_bind_eq_ok hw
    rw [itemsToJsonb_eq_mapM] at hitems
    -- the object is stored, so each of its keys and values is
    have hitem : ∀ e ∈ items, ∃ k w, keyToJsonb e.1 = .ok k ∧ toJsonb e.2 = .ok w := by
      intro e he
      obtain ⟨e', he'⟩ := exists_ok_of_mem_mapM hitems e he
      obtain ⟨k, hk', he'⟩ := of_bind_eq_ok he'
      obtain ⟨w, hw', -⟩ := of_bind_eq_ok he'
      exact ⟨k, w, hk', hw'⟩
    refine .dict (fun e he => ?_) fun e he => ?_
    · obtain ⟨s, hs, hu⟩ := hk e he
      obtain ⟨k, w, hkey, -⟩ := hitem e he
      rw [hs, keyToJsonb_str] at hkey
      obtain ⟨t, ht, -⟩ := of_bind_eq_ok hkey
      exact ⟨s, hs, textToJsonb_nulFree hu ht⟩
    · obtain ⟨k, w, -, hw'⟩ := hitem e he
      exact ih e he hw'

lemma AllText.and {v : Json} (h : AllText P v) (h' : AllText Q v) :
    AllText (fun s => P s ∧ Q s) v := by
  induction h with
  | none | bool | int => constructor
  | str hs => exact .str ⟨hs, (allText_str _).mp h'⟩
  | list _ ih => exact .list fun v hv => ih v hv ((allText_list _).mp h' v hv)
  | dict hk _ ih =>
    have hitems := (allText_dict _).mp h'
    refine .dict (fun e he => ?_) fun e he => ih e he (hitems e he).2
    obtain ⟨s, hs, hp⟩ := hk e he
    obtain ⟨s', hs', hq⟩ := (hitems e he).1
    cases hs.symm.trans hs'
    exact ⟨s, hs, hp, hq⟩

lemma AllText.imp {v : Json} (hPQ : ∀ s, P s → Q s) (h : AllText P v) : AllText Q v := by
  induction h with
  | none | bool | int => constructor
  | str hs => exact .str (hPQ _ hs)
  | list _ ih => exact .list ih
  | dict hk _ ih => exact .dict (fun e he => (hk e he).imp fun k h => ⟨h.1, hPQ k h.2⟩) ih

end CortexDis.Jsonb
