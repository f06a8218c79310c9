import CortexDis.Runs

/-!
The reader of Python's `csv` module in its default dialect.

The reader is a state machine over the characters of a line and a mark at its end. A line ends
with a line feed; a carriage return has to stand before one, or before the end of the line. The
grammar of RFC 4180 is stated apart from the machine, and the machine reads every text of it.
-/

namespace CortexDis.PyCsv

open CortexDis.Runs

/-! ### The reader -/

inductive ParserState
  | startRecord | startField | inField | inQuotedField | quoteInQuotedField | eatCrnl
  deriving DecidableEq

/-- A `csv.Error` -/
inductive CsvError
  /-- a new-line character was seen in an unquoted field -/
  | newLine
  | fieldLimit
  deriving DecidableEq, Repr

structure Parser where
  state : ParserState
  field : List Char
  fields : List (List Char)
  deriving DecidableEq

/-- `parse_reset` -/
def reset : Parser := ⟨.startRecord, [], []⟩

/-- The default of `csv.field_size_limit` -/
def fieldSizeLimit : ℕ := 131072

/-- `parse_add_char` -/
def Parser.addChar (p : Parser) (c : Char) : Except CsvError Parser :=
  if p.field.length < fieldSizeLimit then .ok { p with field := p.field ++ [c] }
  else .error .fieldLimit

/-- `parse_save_field` -/
def Parser.saveField (p : Parser) (state : ParserState) : Parser :=
  ⟨state, [], p.fields ++ [p.field]⟩

/-- A character that adds to a field, which goes on in the state. -/
def Parser.addIn (p : Parser) (state : ParserState) (c : Char) : Except CsvError Parser :=
  { p with state := state }.addChar c

/-- The beginning of a field. -/
def Parser.processStart (p : Parser) : Option Char → Except CsvError Parser
  | none => .ok (p.saveField .startRecord)
  | some c =>
    if c = '\n' ∨ c = '\r' then .ok (p.saveField .eatCrnl)
    else if c = '"' then .ok { p with state := .inQuotedField }
    else if c = ',' then .ok (p.saveField .startField)
    else p.addIn .inField c

/-- `parse_process_char`; none is the end of the line. -/
def Parser.processChar (p : Parser) (c : Option Char) : Except CsvError Parser :=
  match p.state with
  | .startRecord =>
    match c with
    | none => .ok p
    | some c =>
      if c = '\n' ∨ c = '\r' then .ok { p with state := .eatCrnl }
      else p.processStart (some c)
  | .startField => p.processStart c
  | .inField =>
    match c with
    | none => .ok (p.saveField .startRecord)
    | some c =>
      if c = '\n' ∨ c = '\r' then .ok (p.saveField .eatCrnl)
      else if c = ',' then .ok (p.saveField .startField)
      else p.addIn .inField c
  | .inQuotedField =>
    match c with
    | none => .ok p
    | some c =>
      if c = '"' then .ok { p with state := .quoteInQuotedField } else p.addIn .inQuotedField c
  | .quoteInQuotedField =>
    match c with
    | none => .ok (p.saveField .startRecord)
    | some c =>
      if c = '"' then p.addIn .inQuotedField c
      else if c = ',' then .ok (p.saveField .startField)
      else if c = '\n' ∨ c = '\r' then .ok (p.saveField .eatCrnl)
      -- the dialect is not strict: what follows the closing quote belongs to the field
      else p.addIn .inField c
  | .eatCrnl =>
    match c with
    | none => .ok { p with state := .startRecord }
    | some c => if c = '\n' ∨ c = '\r' then .ok p else .error .newLine

/-- The characters of a line and the mark at its end. -/
def Parser.processLine (p : Parser) (line : List Char) : Except CsvError Parser :=
  (line.map some ++ [none]).foldlM Parser.processChar p

/-- The lines that iterating over `io.StringIO(text)` yields. -/
def lines : List Char → List (List Char)
  | [] => []
  | c :: cs =>
    if c = '\n' then [c] :: lines cs
    else
      match lines cs with
      | [] => [[c]]
      | l :: ls => (c :: l) :: ls

abbrev Record := List (List Char)

/-- The records of the remaining lines. -/
def readLines : Parser → List (List Char) → Except CsvError (List Record)
  | p, [] =>
    if p.field ≠ [] ∨ p.state = .inQuotedField then .ok [p.fields ++ [p.field]] else .ok []
  | p, l :: ls => do
    let p ← p.processLine l
    if p.state = .startRecord then return p.fields :: (← readLines reset ls)
    else readLines p ls

/-- `list(csv.reader(io.StringIO(text)))` -/
def reader (text : List Char) : Except CsvError (List Record) := readLines reset (lines text)

/-! ### A text character by character -/

/-- What is left of a text, from the middle of a line on. -/
def resume (p : Parser) : List Char → Except CsvError (List Record)
  | [] => do
    let p ← p.processChar none
    if p.state = .startRecord then return [p.fields] else readLines p []
  | c :: cs => do
    let p ← p.processChar (some c)
    if c = '\n' then do
      let p ← p.processChar none
      if p.state = .startRecord then return p.fields :: (← readLines reset (lines cs))
      else readLines p (lines cs)
    else resume p cs

lemma readLines_cons_cons (p : Parser) (c : Char) (l : List Char) (ls : List (List Char)) :
    readLines p ((c :: l) :: ls) =
      p.processChar (some c) >>= fun p => readLines p (l :: ls) := by
  rw [readLines, Parser.processLine, List.map_cons, List.cons_append, List.foldlM_cons]
  cases p.processChar (some c) with
  | error e => rfl
  | ok p' => rfl

lemma readLines_cons_nil (p : Parser) (ls : List (List Char)) :
    readLines p ([] :: ls) = p.processChar none >>= fun p =>
      if p.state = .startRecord then do return p.fields :: (← readLines reset ls)
      else readLines p ls := by
  rw [readLines, Parser.processLine, List.map_nil, List.nil_append, List.foldlM_cons]
  cases p.processChar none with
  | error e => rfl
  | ok p' => rfl

lemma lines_cons_ne_nil (c : Char) (cs : List Char) : lines (c :: cs) ≠ [] := by
  rw [lines]
  split
  · simp
  · split <;> simp

lemma readLines_lines_cons (p : Parser) (c : Char) (cs : List Char) :
    readLines p (lines (c :: cs)) = resume p (c :: cs) := by
  induction cs generalizing p c with
  | nil =>
    rw [lines, resume]
    split
    · rw [readLines_cons_cons]
      simp only [readLines_cons_nil]
    · rw [lines, readLines_cons_cons]
      simp only [readLines_cons_nil, resume]
      rfl
  | cons d cs ih =>
    rw [lines, resume]
    split
    · rw [readLines_cons_cons]
      simp only [readLines_cons_nil]
    · cases hlines : lines (d :: cs) with
      | nil => exact absurd hlines (lines_cons_ne_nil d cs)
      | cons l ls =>
        rw [readLines_cons_cons]
        refine bind_congr fun p' => ?_
        rw [← ih, hlines]

/-! ### Steps of the reader -/

section Steps

variable {p : Parser} {c : Char}

/-- A character that ends no field. -/
def Plain (c : Char) : Prop := c ≠ ',' ∧ c ≠ '\r' ∧ c ≠ '\n'

lemma resume_cons {q : Parser} (h : p.processChar (some c) = .ok q) (hc : c ≠ '\n')
    (cs : List Char) : resume p (c :: cs) = resume q cs := by
  rw [resume, h]
  exact if_neg hc

lemma resume_newLine_quoted {cs : List Char} (hstate : p.state = .inQuotedField) (hcs : cs ≠ [])
    (hlength : p.field.length < fieldSizeLimit) :
    resume p ('\n' :: cs) = resume { p with field := p.field ++ ['\n'] } cs := by
  obtain ⟨state, field, fields⟩ := p
  cases hstate
  obtain ⟨d, ds, rfl⟩ := List.exists_cons_of_ne_nil hcs
  rw [resume, Parser.processChar]
  simp only [Parser.addIn, Parser.addChar, if_pos hlength]
  exact readLines_lines_cons _ d ds

/-- The text of a quoted field, its quotes doubled. -/
def escape : List Char → List Char
  | [] => []
  | c :: cs => if c = '"' then '"' :: '"' :: escape cs else c :: escape cs

lemma resume_escape {q rest : List Char} (hstate : p.state = .inQuotedField) (hrest : rest ≠ [])
    (hlength : p.field.length + q.length ≤ fieldSizeLimit) :
    resume p (escape q ++ rest) = resume { p with field := p.field ++ q } rest := by
  induction q generalizing p with
  | nil => rw [escape, List.nil_append, List.append_nil]
  | cons c q ih =>
    obtain ⟨state, field, fields⟩ := p
    cases hstate
    rw [List.length_cons] at hlength
    have hroom : field.length < fieldSizeLimit := by dsimp only at hlength; omega
    have ih := ih (p := ⟨.inQuotedField, field ++ [c], fields⟩) rfl
      (by simp only [List.length_append, List.length_singleton]; dsimp only at hlength; omega)
    rw [List.append_assoc, List.singleton_append] at ih
    rw [← ih, escape]
    split
    · rename_i hquote
      subst hquote
      rw [List.cons_append, List.cons_append,
        resume_cons (q := ⟨.quoteInQuotedField, field, fields⟩) rfl (by decide),
        resume_cons _ (by decide)]
      simp only [Parser.processChar, Parser.addIn, Parser.addChar, if_pos hroom, if_true]
    · rename_i hquote
      rw [List.cons_append]
      by_cases hnew : c = '\n'
      · subst hnew
        exact resume_newLine_quoted rfl (by simp [hrest]) hroom
      · refine resume_cons ?_ hnew _
        simp only [Parser.processChar, if_neg hquote, Parser.addIn, Parser.addChar, if_pos hroom]

lemma resume_plain {v : List Char} (hstate : p.state = .inField) (hv : ∀ c ∈ v, Plain c)
    (hlength : p.field.length + v.length ≤ fieldSizeLimit) (rest : List Char) :
    resume p (v ++ rest) = resume { p with field := p.field ++ v } rest := by
  induction v generalizing p with
  | nil => rw [List.nil_append, List.append_nil]
  | cons c v ih =>
    obtain ⟨state, field, fields⟩ := p
    cases hstate
    rw [List.length_cons] at hlength
    have hroom : field.length < fieldSizeLimit := by dsimp only at hlength; omega
    have ih := ih (p := ⟨.inField, field ++ [c], fields⟩) rfl
      (fun d hd => hv d (List.mem_cons_of_mem _ hd))
      (by simp only [List.length_append, List.length_singleton]; dsimp only at hlength; omega)
    rw [List.append_assoc, List.singleton_append] at ih
    obtain ⟨hcomma, hcr, hnew⟩ := hv c List.mem_cons_self
    rw [← ih, List.cons_append]
    refine resume_cons ?_ hnew _
    simp only [Parser.processChar, hcomma, hcr, hnew, or_self, if_false, Parser.addIn,
      Parser.addChar, if_pos hroom]

end Steps

/-! ### RFC 4180 -/

/-- A text of a field, and its value. -/
inductive FieldText : List Char → List Char → Prop
  | bare {v : List Char} (hv : ∀ c ∈ v, Plain c ∧ c ≠ '"')
    (hlength : v.length ≤ fieldSizeLimit) : FieldText v v
  | quoted {q : List Char} (hlength : q.length ≤ fieldSizeLimit) :
    FieldText ('"' :: (escape q ++ ['"'])) q

/-- The texts of a record's fields, with commas between them. -/
inductive RecordText : List Char → Record → Prop
  | last {t v : List Char} (h : FieldText t v) : RecordText t [v]
  | cons {t v ts : List Char} {vs : Record} (h : FieldText t v) (hrest : RecordText ts vs) :
    RecordText (t ++ ',' :: ts) (v :: vs)

/-- An end of a line. -/
def LineEnd (e : List Char) : Prop := e = ['\n'] ∨ e = ['\r', '\n']

/-- What the reader makes of a record: a line without characters has no field. -/
def ofText (t : List Char) (record : Record) : Record := if t = [] then [] else record

/-- A file: records on lines of their own, the last of which may lack its end. -/
inductive FileText : List Char → List Record → Prop
  | empty : FileText [] []
  | last {t : List Char} {record : Record} (h : RecordText t record) (hne : t ≠ []) :
    FileText t [record]
  | line {t e rest : List Char} {record : Record} {records : List Record}
    (h : RecordText t record) (he : LineEnd e) (hrest : FileText rest records) :
    FileText (t ++ (e ++ rest)) (ofText t record :: records)

lemma mem_escape {q : List Char} {c : Char} (h : c ∈ q) : c ∈ escape q := by
  induction q with
  | nil => cases h
  | cons d q ih =>
    rw [escape]
    split
    · rename_i hquote
      rcases List.mem_cons.mp h with rfl | h
      · rw [hquote]
        exact List.mem_cons_self
      · exact List.mem_cons_of_mem _ (List.mem_cons_of_mem _ (ih h))
    · rcases List.mem_cons.mp h with rfl | h
      · exact List.mem_cons_self
      · exact List.mem_cons_of_mem _ (ih h)

lemma RecordText.mem {t : List Char} {record : Record} (h : RecordText t record) :
    ∀ v ∈ record, ∀ c ∈ v, c ∈ t := by
  have hfield : ∀ {t v : List Char}, FieldText t v → ∀ c ∈ v, c ∈ t := by
    intro t v h c hc
    cases h with
    | bare _ _ => exact hc
    | quoted _ => exact List.mem_cons_of_mem _ (List.mem_append_left _ (mem_escape hc))
  induction h with
  | last h =>
    intro v hv
    rw [List.mem_singleton.mp hv]
    exact hfield h
  | cons h hrest ih =>
    intro v hv c hc
    rcases List.mem_cons.mp hv with rfl | hv
    · exact List.mem_append_left _ (hfield h c hc)
    · exact List.mem_append_right _ (List.mem_cons_of_mem _ (ih v hv c hc))

lemma FileText.mem {text : List Char} {records : List Record} (h : FileText text records) :
    ∀ record ∈ records, ∀ v ∈ record, ∀ c ∈ v, c ∈ text := by
  induction h with
  | empty => simp
  | last h _ =>
    intro record hrecord
    rw [List.mem_singleton.mp hrecord]
    exact h.mem
  | line h _ _ ih =>
    intro record hrecord v hv c hc
    rcases List.mem_cons.mp hrecord with rfl | hrecord
    · rw [ofText] at hv
      split at hv
      · cases hv
      · exact List.mem_append_left _ (h.mem v hv c hc)
    · exact List.mem_append_right _ (List.mem_append_right _ (ih record hrecord v hv c hc))

section Reading

variable {p : Parser} {t v : List Char} {record : Record}

/-- A delimiter or the end of a line saves the field. -/
def Ready (p : Parser) : Prop :=
  p.state = .startField ∨ p.state = .inField ∨ p.state = .quoteInQuotedField

lemma resume_field (h : FieldText t v) (fields : List (List Char)) :
    ∃ p, Ready p ∧ p.field = v ∧ p.fields = fields ∧
      ∀ rest, resume ⟨.startField, [], fields⟩ (t ++ rest) = resume p rest := by
  cases h with
  | bare hv hlength =>
    cases t with
    | nil => exact ⟨⟨.startField, [], fields⟩, .inl rfl, rfl, rfl, fun _ => rfl⟩
    | cons c cs =>
      refine ⟨⟨.inField, c :: cs, fields⟩, .inr (.inl rfl), rfl, rfl, fun rest => ?_⟩
      obtain ⟨⟨hcomma, hcr, hnew⟩, hquote⟩ := hv c List.mem_cons_self
      rw [List.cons_append, resume_cons (q := ⟨.inField, [c], fields⟩) ?_ hnew]
      · refine resume_plain rfl (fun d hd => (hv d (List.mem_cons_of_mem _ hd)).1) ?_ rest
        rw [List.length_cons] at hlength
        simp only [List.length_singleton]
        omega
      · simp only [Parser.processChar, Parser.processStart, hcomma, hcr, hnew, hquote, or_self,
          if_false, Parser.addIn, Parser.addChar]
        rfl
  | quoted hlength =>
    refine ⟨⟨.quoteInQuotedField, v, fields⟩, .inr (.inr rfl), rfl, rfl, fun rest => ?_⟩
    rw [List.cons_append, List.append_assoc, List.singleton_append,
      resume_cons (q := ⟨.inQuotedField, [], fields⟩) rfl (by decide),
      resume_escape rfl (by simp) (by simpa using hlength)]
    exact resume_cons rfl (by decide) rest

lemma resume_comma (h : Ready p) (rest : List Char) :
    resume p (',' :: rest) = resume ⟨.startField, [], p.fields ++ [p.field]⟩ rest := by
  refine resume_cons ?_ (by decide) rest
  rcases h with h | h | h <;> simp only [Parser.processChar, h] <;> rfl

lemma resume_end (h : Ready p) : resume p [] = .ok [p.fields ++ [p.field]] := by
  rw [resume]
  rcases h with h | h | h <;> simp only [Parser.processChar, h] <;> rfl

lemma resume_lineEnd (h : Ready p) {e : List Char} (he : LineEnd e) (rest : List Char) :
    resume p (e ++ rest) = do return (p.fields ++ [p.field]) :: (← reader rest) := by
  rcases he with rfl | rfl
  · rw [List.singleton_append, resume]
    rcases h with h | h | h <;> simp only [Parser.processChar, h] <;> rfl
  · rw [List.cons_append, List.singleton_append,
      resume_cons (q := p.saveField .eatCrnl) ?_ (by decide)]
    · rfl
    · rcases h with h | h | h <;> simp only [Parser.processChar, h] <;> rfl

lemma resume_record (h : RecordText t record) {tail : List Char}
    (finish : Record → Except CsvError (List Record))
    (hfinish : ∀ p, Ready p → resume p tail = finish (p.fields ++ [p.field]))
    (fields : List (List Char)) :
    resume ⟨.startField, [], fields⟩ (t ++ tail) = finish (fields ++ record) := by
  induction h generalizing fields with
  | last h =>
    obtain ⟨p, hready, rfl, rfl, hp⟩ := resume_field h fields
    rw [hp, hfinish p hready]
  | cons h hrest ih =>
    obtain ⟨p, hready, rfl, rfl, hp⟩ := resume_field h fields
    rw [List.append_assoc, List.cons_append, hp, resume_comma hready, ih, List.append_assoc,
      List.singleton_append]

lemma head_of_recordText (h : RecordText t record) (hne : t ≠ []) :
    ∃ c cs, t = c :: cs ∧ c ≠ '\n' ∧ c ≠ '\r' := by
  have hfield : ∀ {t v : List Char}, FieldText t v → t ≠ [] →
      ∃ c cs, t = c :: cs ∧ c ≠ '\n' ∧ c ≠ '\r' := by
    intro t v h hne
    cases h with
    | bare hv _ =>
      obtain ⟨c, cs, rfl⟩ := List.exists_cons_of_ne_nil hne
      exact ⟨c, cs, rfl, (hv c List.mem_cons_self).1.2.2, (hv c List.mem_cons_self).1.2.1⟩
    | quoted _ => exact ⟨'"', _, rfl, by decide, by decide⟩
  cases h with
  | last h => exact hfield h hne
  | @cons t v ts vs h hrest =>
    by_cases ht : t = []
    · subst ht
      exact ⟨',', ts, rfl, by decide, by decide⟩
    · obtain ⟨c, cs, rfl, hc⟩ := hfield h ht
      exact ⟨c, cs ++ ',' :: ts, rfl, hc⟩

lemma reader_eq_resume (h : RecordText t record) (hne : t ≠ []) (tail : List Char) :
    reader (t ++ tail) = resume ⟨.startField, [], []⟩ (t ++ tail) := by
  obtain ⟨c, cs, rfl, hnew, hcr⟩ := head_of_recordText h hne
  rw [List.cons_append, reader, readLines_lines_cons, resume, resume]
  have hstep : reset.processChar (some c) =
      (⟨.startField, [], []⟩ : Parser).processChar (some c) := by
    simp only [reset, Parser.processChar, hnew, hcr, or_self, if_false, Parser.processStart,
      Parser.addIn, Parser.saveField]
  rw [hstep]

lemma reader_blank {e : List Char} (he : LineEnd e) (rest : List Char) :
    reader (e ++ rest) = do return [] :: (← reader rest) := by
  rcases he with rfl | rfl
  · rw [List.singleton_append, reader, readLines_lines_cons]
    rfl
  · rw [List.cons_append, List.singleton_append, reader, readLines_lines_cons,
      resume_cons (q := ⟨.eatCrnl, [], []⟩) rfl (by decide)]
    rfl

/-- **The reader reads RFC 4180.** -/
theorem reader_of_fileText {text : List Char} {records : List Record}
    (h : FileText text records) : reader text = .ok records := by
  induction h with
  | empty => rfl
  | last h hne =>
    have hread := resume_record h (fun record => .ok [record]) (fun p hp => resume_end hp) []
    rw [List.append_nil] at hread
    have hstart := reader_eq_resume h hne []
    rw [List.append_nil] at hstart
    rw [hstart, hread]
    rfl
  | @line t e rest record records h he hrest ih =>
    by_cases ht : t = []
    · subst ht
      rw [List.nil_append, reader_blank he, ih]
      rfl
    · rw [reader_eq_resume h ht,
        resume_record h (fun record => do return record :: (← reader rest))
          (fun p hp => resume_lineEnd hp he rest) [], ih, ofText, if_neg ht]
      rfl

end Reading

/-! ### What the reader refuses -/

lemma addIn_isOk {p : Parser} (hlength : p.field.length < fieldSizeLimit) (state : ParserState)
    (c : Char) : p.addIn state c = .ok ⟨state, p.field ++ [c], p.fields⟩ := by
  rw [Parser.addIn, Parser.addChar, if_pos hlength]

lemma processChar_isOk {p : Parser} {c : Char} (hstate : p.state ≠ .eatCrnl) (hcr : c ≠ '\r')
    (hlength : p.field.length < fieldSizeLimit) : ∃ p', p.processChar (some c) = .ok p' ∧
      p'.field.length ≤ p.field.length + 1 ∧ (p'.state = .eatCrnl → c = '\n') := by
  -- the field has room, so the limit is not met
  have hadd : ∀ state, state ≠ .eatCrnl → ∃ p', p.addIn state c = .ok p' ∧
      p'.field.length ≤ p.field.length + 1 ∧ (p'.state = .eatCrnl → c = '\n') :=
    fun state hne => ⟨_, addIn_isOk hlength state c, by simp, fun h => absurd h hne⟩
  have hstart : ∃ p', p.processStart (some c) = .ok p' ∧
      p'.field.length ≤ p.field.length + 1 ∧ (p'.state = .eatCrnl → c = '\n') := by
    simp only [Parser.processStart, hcr, or_false]
    split_ifs with hnew hquote hcomma
    · exact ⟨_, rfl, by simp [Parser.saveField], fun _ => hnew⟩
    · exact ⟨_, rfl, by simp, by simp⟩
    · exact ⟨_, rfl, by simp [Parser.saveField], by simp [Parser.saveField]⟩
    · exact hadd _ (by decide)
  unfold Parser.processChar
  cases h : p.state with
  | startRecord =>
    simp only [hcr, or_false]
    split_ifs with hnew
    · exact ⟨_, rfl, by simp, fun _ => hnew⟩
    · exact hstart
  | startField => exact hstart
  | inField =>
    simp only [hcr, or_false]
    split_ifs with hnew hcomma
    · exact ⟨_, rfl, by simp [Parser.saveField], fun _ => hnew⟩
    · exact ⟨_, rfl, by simp [Parser.saveField], by simp [Parser.saveField]⟩
    · exact hadd _ (by decide)
  | inQuotedField =>
    dsimp only
    split_ifs with hquote
    · exact ⟨_, rfl, by simp, by simp⟩
    · exact hadd _ (by decide)
  | quoteInQuotedField =>
    simp only [hcr, or_false]
    split_ifs with hquote hcomma hnew
    · exact hadd _ (by decide)
    · exact ⟨_, rfl, by simp [Parser.saveField], by simp [Parser.saveField]⟩
    · exact ⟨_, rfl, by simp [Parser.saveField], fun _ => hnew⟩
    · exact hadd _ (by decide)
  | eatCrnl => exact absurd h hstate

lemma processChar_none (p : Parser) : ∃ p', p.processChar none = .ok p' ∧
    (p'.state = .startRecord ∨ p' = p ∧ p.state = .inQuotedField) := by
  obtain ⟨state, field, fields⟩ := p
  cases state with
  | inQuotedField => exact ⟨_, rfl, .inr ⟨rfl, rfl⟩⟩
  | startRecord => exact ⟨_, rfl, .inl rfl⟩
  | startField => exact ⟨_, rfl, .inl rfl⟩
  | inField => exact ⟨_, rfl, .inl rfl⟩
  | quoteInQuotedField => exact ⟨_, rfl, .inl rfl⟩
  | eatCrnl => exact ⟨_, rfl, .inl rfl⟩

lemma readLines_isOk {p : Parser} {cs : List Char}
    (h : cs ≠ [] → ∃ records, resume p cs = .ok records) :
    ∃ records, readLines p (lines cs) = .ok records := by
  cases cs with
  | nil =>
    rw [lines, readLines]
    split
    · exact ⟨_, rfl⟩
    · exact ⟨_, rfl⟩
  | cons d ds =>
    rw [readLines_lines_cons]
    exact h (by simp)

lemma resume_isOk {p : Parser} {cs : List Char} (hcr : '\r' ∉ cs)
    (hlength : p.field.length + cs.length ≤ fieldSizeLimit) (hstate : p.state ≠ .eatCrnl) :
    ∃ records, resume p cs = .ok records := by
  induction cs generalizing p with
  | nil =>
    obtain ⟨p', hp', hend⟩ := processChar_none p
    rw [resume, hp']
    rcases hend with hrecord | ⟨rfl, hquoted⟩
    · exact ⟨_, if_pos hrecord⟩
    · exact ⟨[p'.fields ++ [p'.field]], by simp [Bind.bind, Except.bind, hquoted, readLines]⟩
  | cons c cs ih =>
    simp only [List.mem_cons, not_or] at hcr
    rw [List.length_cons] at hlength
    obtain ⟨p', hp', hgrow, heat⟩ :=
      processChar_isOk hstate (Ne.symm hcr.1) (show p.field.length < fieldSizeLimit by omega)
    by_cases hnew : c = '\n'
    · obtain ⟨p'', hp'', hend⟩ := processChar_none p'
      rw [resume, hp']
      simp only [Bind.bind, Except.bind, if_pos hnew, hp'']
      rcases hend with hrecord | ⟨rfl, hquoted⟩
      · rw [if_pos hrecord]
        have hrest : cs ≠ [] → ∃ records, resume reset cs = .ok records := fun _ =>
          ih hcr.2 (by simp only [reset, List.length_nil]; omega) (by decide)
        obtain ⟨records, hrecords⟩ := readLines_isOk hrest
        rw [hrecords]
        exact ⟨_, rfl⟩
      · rw [if_neg (by rw [hquoted]; decide)]
        exact readLines_isOk fun _ => ih hcr.2 (by omega) (by rw [hquoted]; decide)
    · rw [resume_cons hp' hnew]
      exact ih hcr.2 (by omega) fun h => hnew (heat h)

/-- **The reader refuses a carriage return within a line or a field over the limit only.** -/
theorem reader_isOk {text : List Char} (hcr : '\r' ∉ text)
    (hlength : text.length ≤ fieldSizeLimit) : ∃ records, reader text = .ok records := by
  cases text with
  | nil => exact ⟨[], rfl⟩
  | cons c cs =>
    rw [reader, readLines_lines_cons]
    exact resume_isOk hcr (by simpa [reset] using hlength) (by decide)

end CortexDis.PyCsv
