import CortexDis.PyText
import CortexDis.Runs

/-!
Python objects as a parsed document holds them, and the operations a decoder applies to them.

Objects beyond the listed kinds (a float, a date, a tuple) are elements of a type `ω`. The
conversions `str` and `int` are the interpreter's; a decoder relies on each of them being the
identity on its own type.
-/

namespace CortexDis.PyValue

open CortexDis.PyText

/-- A Python object. A dictionary is the list of its items, in its order. -/
inductive Value (ω : Type) : Type
  | none
  | bool (b : Bool)
  | int (n : ℤ)
  | str (s : PyStr)
  | list (items : List (Value ω))
  | dict (items : List (Value ω × Value ω))
  /-- an object that is not subscriptable by a string and has no `get` -/
  | other (o : ω)

/-- The exceptions of a decoder. -/
inductive PyError
  | keyError (key : PyStr)
  | typeError
  | attributeError
  | valueError
  deriving DecidableEq, Repr

variable {ω : Type}

/-- The conversions of the interpreter. -/
structure Builtins (ω : Type) where
  str : Value ω → Except PyError PyStr
  int : Value ω → Except PyError ℤ
  /-- `bool(o)` of an object that is none of the listed kinds -/
  truth : ω → Bool
  /-- `iter(o)` of an object that is none of the listed kinds -/
  iter : ω → Except PyError (List (Value ω))
  str_str : ∀ s, str (.str s) = .ok s
  int_int : ∀ n, int (.int n) = .ok n

attribute [simp] Builtins.str_str Builtins.int_int

/-- `bool(v)` -/
def Builtins.bool (py : Builtins ω) : Value ω → Bool
  | .none => false
  | .bool b => b
  | .int n => n ≠ 0
  | .str s => !s.isEmpty
  | .list items => !items.isEmpty
  | .dict items => !items.isEmpty
  | .other o => py.truth o

/-- The objects that iterating over `v` yields: the characters of a text, the keys of a
dictionary. -/
def Builtins.items (py : Builtins ω) : Value ω → Except PyError (List (Value ω))
  | .str s => .ok (s.map fun c => .str [c])
  | .list items => .ok items
  | .dict items => .ok (items.map Prod.fst)
  | .other o => py.iter o
  | _ => .error .typeError

@[simp] lemma bool_bool (py : Builtins ω) (b : Bool) : py.bool (.bool b) = b := rfl

@[simp] lemma items_list (py : Builtins ω) (l : List (Value ω)) :
    py.items (.list l) = .ok l := rfl

def Value.isNone : Value ω → Bool
  | .none => true
  | _ => false

/-- `v == s` for a text `s` -/
def Value.isStr (s : PyStr) : Value ω → Bool
  | .str t => t = s
  | _ => false

lemma Value.isStr_iff (s : PyStr) (v : Value ω) : v.isStr s ↔ v = .str s := by
  cases v <;> simp [isStr]

/-! ### Dictionaries -/

/-- The value under a text key. -/
def find (k : PyStr) : List (Value ω × Value ω) → Option (Value ω)
  | [] => .none
  | e :: l => if e.1.isStr k then some e.2 else find k l

/-- `v[k]` -/
def Value.getItem (v : Value ω) (k : PyStr) : Except PyError (Value ω) :=
  match v with
  | .dict items =>
    match find k items with
    | some x => .ok x
    | .none => .error (.keyError k)
  | _ => .error .typeError

/-- `v.get(k, default)` -/
def Value.get (v : Value ω) (k : PyStr) (default : Value ω) : Except PyError (Value ω) :=
  match v with
  | .dict items => .ok ((find k items).getD default)
  | _ => .error .attributeError

/-- `v.items()` -/
def Value.entries : Value ω → Except PyError (List (Value ω × Value ω))
  | .dict items => .ok items
  | _ => .error .attributeError

/-- `out[k] = v` for a key that `out` has not, under `if v is not None` -/
def present (k : PyStr) (v : Value ω) : List (Value ω × Value ω) :=
  if v.isNone then [] else [(.str k, v)]

@[simp] lemma find_nil (k : PyStr) : find k ([] : List (Value ω × Value ω)) = none := rfl

@[simp] lemma find_cons_str (k k' : PyStr) (v : Value ω) (l : List (Value ω × Value ω)) :
    find k ((.str k', v) :: l) = if k' = k then some v else find k l := by
  simp [find, Value.isStr]

@[simp] lemma find_append (k : PyStr) (l l' : List (Value ω × Value ω)) :
    find k (l ++ l') = (find k l).or (find k l') := by
  induction l with
  | nil => rfl
  | cons e l ih =>
    simp only [List.cons_append, find, ih]
    split <;> rfl

@[simp] lemma find_present (k k' : PyStr) (v : Value ω) :
    find k (present k' v) = if k' = k ∧ v.isNone = false then some v else none := by
  cases v <;> simp [present, Value.isNone]

@[simp] lemma getD_unless_isNone (v : Value ω) :
    (if v.isNone = false then some v else none).getD .none = v := by
  cases v <;> simp [Value.isNone]

@[simp] lemma getItem_dict (items : List (Value ω × Value ω)) (k : PyStr) :
    (Value.dict items).getItem k =
      match find k items with
      | some x => .ok x
      | .none => .error (.keyError k) := rfl

@[simp] lemma get_dict (items : List (Value ω × Value ω)) (k : PyStr) (d : Value ω) :
    (Value.dict items).get k d = .ok ((find k items).getD d) := rfl

@[simp] lemma entries_dict (items : List (Value ω × Value ω)) :
    (Value.dict items).entries = .ok items := rfl

/-- `str` and `int` on scalars. A container prints as its `repr`, which is not needed here. -/
def scalars : Builtins Empty where
  str
    | .str s => .ok s
    | .none => .ok (pyStr "None")
    | .bool b => .ok (pyStr (if b then "True" else "False"))
    | .int n => .ok (pyStr (toString n))
    | _ => .error .valueError
  int
    | .int n => .ok n
    | .bool b => .ok b.toInt
    | _ => .error .typeError
  truth := Empty.elim
  iter := Empty.elim
  str_str _ := rfl
  int_int _ := rfl

/-! ### Literal keys -/

lemma pyStr_injective : Function.Injective pyStr := by
  intro s t h
  have hchars : s.toList = t.toList := by
    refine List.map_injective_iff.mpr ?_ h
    intro a b hab
    exact Char.toNat_inj.mp hab
  exact String.toList_inj.mp hchars

@[simp] lemma pyStr_inj (s t : String) : pyStr s = pyStr t ↔ s = t := pyStr_injective.eq_iff

end CortexDis.PyValue
