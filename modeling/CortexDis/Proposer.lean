import CortexDis.DraftIr
import CortexDis.PyDict

/-!
The proposals of the model: its reply, read and checked against the profiled columns.

Decoding is the interpreter's. A reply is kept as it parses, and the texts of a reply are Unicode
texts.
-/

namespace CortexDis.Proposer

open CortexDis.DraftIr CortexDis.PyDict

/-- A value of `json.loads`. An object is its items. -/
inductive Json
  | null
  | bool (b : Bool)
  | number (literal : String)
  | str (s : String)
  | arr (items : List Json)
  | obj (members : List (String × Json))

/-- What a loop over a value goes through; a value that is no iterable raises. -/
def Json.iter : Json → Option (List Json)
  | .arr items => some items
  | .str s => some (s.toList.map fun c => .str (String.singleton c))
  | .obj members => some (members.map fun e => .str e.1)
  | _ => none

/-- `v if isinstance(v, str) and v else None`, of the value under a key -/
def textUnder (key : String) (members : List (String × Json)) : Option String :=
  match lookup key members with
  | some (.str s) => if s = "" then none else some s
  | _ => none

def Json.text? : Json → Option String
  | .str s => some s
  | _ => none

/-- `enum_values`: the texts of a list. -/
def textsUnder (key : String) (members : List (String × Json)) : Option (List String) :=
  match lookup key members with
  | some (.arr items) => some (items.filterMap Json.text?)
  | _ => none

/-- One item of the reply; it is dropped when it names no profiled column. -/
def proposalOf (known : List String) : Json → Option ColumnProposal
  | .obj members =>
    match lookup "source_column" members with
    | some (.str source) =>
      if known.contains source then
        some
          { sourceColumn := source
            canonicalName := textUnder "name" members
            enumValues := textsUnder "enum_values" members
            pii := textUnder "pii" members
            displayName := textUnder "display_name" members
            description := textUnder "description" members }
      else none
    | _ => none
  | _ => none

/-- `parsed.get("proposals", [])`, when the reply is an object -/
def rawItems : Json → Json
  | .obj members => (lookup "proposals" members).getD (.arr [])
  | _ => .arr []

variable (loads : String → Option Json)

/-- `_parse_and_validate` -/
def parseAndValidate (text : String) (profiled : List ProfiledColumn) :
    Option (List ColumnProposal) := do
  let items ← (rawItems (← loads text)).iter
  return items.filterMap (proposalOf (profiled.map ProfiledColumn.name))

/-- `propose`: there is no reply when nothing is configured or the call fails. -/
def propose (reply : Option String) (profiled : List ProfiledColumn) : List ColumnProposal :=
  (reply.bind fun text => parseAndValidate loads text profiled).getD []

/-! ### Renames -/

/-- The name the proposals give a column. -/
def renamed (proposals : List ColumnProposal) (name : String) : Option String :=
  (proposalFor proposals name).bind ColumnProposal.canonicalName

lemma textUnder_ne_empty (key : String) (members : List (String × Json)) :
    textUnder key members ≠ some "" := by
  unfold textUnder
  split
  · split_ifs with h
    · simp
    · exact fun heq => h (Option.some.inj heq)
  · simp

lemma canonicalName_proposalOf {known : List String} {item : Json} {p : ColumnProposal}
    (h : proposalOf known item = some p) : p.canonicalName ≠ some "" := by
  unfold proposalOf at h
  split at h
  · split at h
    · split_ifs at h
      cases h
      exact textUnder_ne_empty "name" _
    · cases h
  · cases h

lemma renamed_ne_empty (reply : Option String) (profiled : List ProfiledColumn) (name : String) :
    renamed (propose loads reply profiled) name ≠ some "" := by
  intro h
  obtain ⟨p, hp, hname⟩ := Option.bind_eq_some_iff.mp h
  have hmem : p ∈ propose loads reply profiled :=
    List.mem_reverse.mp (List.mem_of_find?_eq_some hp)
  unfold propose at hmem
  cases hreply : reply.bind fun text => parseAndValidate loads text profiled with
  | none =>
    rw [hreply] at hmem
    cases hmem
  | some proposals =>
    rw [hreply] at hmem
    obtain ⟨text, -, hparse⟩ := Option.bind_eq_some_iff.mp hreply
    obtain ⟨parsed, -, hparse⟩ := Option.bind_eq_some_iff.mp hparse
    obtain ⟨items, -, hitems⟩ := Option.bind_eq_some_iff.mp hparse
    cases hitems
    obtain ⟨item, -, hitem⟩ := List.mem_filterMap.mp hmem
    exact canonicalName_proposalOf hitem hname

end CortexDis.Proposer
