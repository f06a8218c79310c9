import CortexDis.UploadStream

/-!
The collector against the parts of a body.

The collector is compared with the delivered parts: it goes on as long as no part it surfaces
is repeated, too large or not UTF-8, and then it holds what the parts hold.
-/

namespace CortexDis.UploadParts

open CortexDis.PyText CortexDis.PyDict CortexDis.MultipartStream CortexDis.UploadStream

variable (m : PythonMultipart) (args : ReaderArgs)

/-- The options of a part's content disposition. -/
def options (part : Part) : Dict Bytes Bytes :=
  (m.parseOptionsHeader ((Dict.ofList (part.headers.map fun h => (lower h.1, h.2))).get?
    (ascii "content-disposition"))).2

def partName (part : Part) : Option String :=
  ((options m part).get? (ascii "name")).map Utf8.decodeReplace

def partFilename (part : Part) : Option String :=
  ((options m part).get? (ascii "filename")).map Utf8.decodeReplace

/-- What a part is to the reader. -/
inductive Role
  | file
  | text (name : String)
  | drained
  deriving DecidableEq

def role (part : Part) : Role :=
  match partName m part with
  | none => .drained
  | some name =>
    if name = args.filePart then .file
    else if args.textParts.contains name then .text name
    else .drained

/-- The roles of the parts that are not drained. -/
def roles (parts : List Part) : List Role := (parts.map (role m args)).filter (· ≠ .drained)

/-- The parts of a role. -/
def ofRole (r : Role) (parts : List Part) : List Part := parts.filter (role m args · = r)

/-- No part is repeated, too large or not UTF-8. -/
structure Accepted (d : Delivered) : Prop where
  once : (roles m args d.begun).Nodup
  fileSize : ∀ p ∈ d.begun, role m args p = .file → p.data.length ≤ args.maxFileBytes
  textSize : ∀ p ∈ d.begun, ∀ name, role m args p = .text name →
    p.data.length ≤ maxTextFieldBytes
  utf8 : ∀ p ∈ d.parts, ∀ name, role m args p = .text name → (Utf8.decode p.data).isSome = true

/-- The entry a completed text part makes. -/
def textEntry (part : Part) : Option (String × String) :=
  match role m args part with
  | .text name => (Utf8.decode part.data).map fun text => (name, text)
  | _ => none

def fileDataOf (parts : List Part) : Option Bytes :=
  (ofRole m args .file parts).getLast?.map Part.data

/-- The collector's state inside a part. -/
def CurrentAgrees (c : Collector) : Current → Prop
  | .none => c.partName = none ∧ c.headerField = [] ∧ c.headerValue = []
  | .headers done field value => c.partName = none ∧ c.headerField = field ∧
    c.headerValue = value ∧ c.headers = Dict.ofList (done.map fun h => (lower h.1, h.2)) ∧
      c.partBuffer = []
  | .data part => c.headerField = [] ∧ c.headerValue = [] ∧
    match role m args part with
    | .file => c.partName = some args.filePart ∧ c.partIsFile = true ∧ c.partBuffer = part.data
    | .text name => c.partName = some name ∧ c.partIsFile = false ∧ c.partBuffer = part.data
    | .drained => c.partName = none

/-- The collector holds what was delivered. -/
structure Agrees (c : Collector) (d : Delivered) : Prop where
  fileData : c.fileData = fileDataOf m args d.parts
  filename : c.filename = (ofRole m args .file d.begun).getLast?.bind (partFilename m)
  fields : c.fields = Dict.ofList (d.parts.filterMap (textEntry m args))
  current : CurrentAgrees m args c d.current

/-- The two errors the reader may raise. -/
def IsUploadError : ReaderError → Prop
  | .payloadTooLarge .. => True
  | .uploadRequest _ => True
  | .multipartParse => False
  | .valueError => False

variable {m args}

/-! ### Roles -/

lemma role_congr {p q : Part} (h : p.headers = q.headers) : role m args p = role m args q := by
  rw [role, role, partName, partName, options, options, h]

lemma role_cases (m : PythonMultipart) (args : ReaderArgs) (p : Part) :
    (role m args p = .file ∧ partName m p = some args.filePart) ∨
    (∃ name, role m args p = .text name ∧ partName m p = some name ∧ name ≠ args.filePart ∧
      args.textParts.contains name = true) ∨
    (role m args p = .drained ∧ partName m p ≠ some args.filePart ∧
      (partName m p).any args.textParts.contains = false) := by
  unfold role
  cases hname : partName m p with
  | none => exact .inr (.inr ⟨rfl, by simp, rfl⟩)
  | some name =>
    by_cases hfile : name = args.filePart
    · exact .inl ⟨if_pos hfile, by rw [hfile]⟩
    · simp only [if_neg hfile]
      cases hcontains : args.textParts.contains name with
      | true => exact .inr (.inl ⟨name, if_pos rfl, rfl, hfile, hcontains⟩)
      | false => exact .inr (.inr ⟨if_neg (by simp), by simpa using hfile, hcontains⟩)

lemma mem_roles {parts : List Part} {r : Role} (hr : r ≠ .drained) :
    r ∈ roles m args parts ↔ ofRole m args r parts ≠ [] := by
  rw [roles, List.mem_filter, List.mem_map, ofRole, ← List.length_pos_iff,
    List.length_filter_pos_iff]
  simp [hr]

lemma roles_append (parts : List Part) (p : Part) :
    roles m args (parts ++ [p]) =
      roles m args parts ++ if role m args p = .drained then [] else [role m args p] := by
  rw [roles, roles, List.map_append, List.filter_append]
  congr 1
  by_cases h : role m args p = .drained <;> simp [h]

lemma ofRole_append (r : Role) (parts : List Part) (p : Part) :
    ofRole m args r (parts ++ [p]) =
      ofRole m args r parts ++ if role m args p = r then [p] else [] := by
  rw [ofRole, ofRole, List.filter_append]
  congr 1
  by_cases h : role m args p = r <;> simp [h]

lemma length_ofRole {parts : List Part} (h : (roles m args parts).Nodup) {r : Role}
    (hr : r ≠ .drained) : (ofRole m args r parts).length ≤ 1 := by
  have hcount : (ofRole m args r parts).length = (roles m args parts).count r := by
    rw [ofRole, roles, List.count_filter (by simpa using hr), List.count, List.countP_map,
      ← List.countP_eq_length_filter]
    refine List.countP_congr fun p _ => ?_
    simp
  rw [hcount]
  exact List.nodup_iff_count_le_one.mp h r

/-! ### One callback -/

lemma Accepted.of_add {d d' : Delivered} {call : Callback} (hadd : d.add call = some d')
    (h : Accepted m args d') : Accepted m args d := by
  cases adds_of_add hadd with
  | partBegin parts => exact ⟨h.once, h.fileSize, h.textSize, h.utf8⟩
  | headerField parts done field value data => exact ⟨h.once, h.fileSize, h.textSize, h.utf8⟩
  | headerValue parts done field value data => exact ⟨h.once, h.fileSize, h.textSize, h.utf8⟩
  | headerEnd parts done field value => exact ⟨h.once, h.fileSize, h.textSize, h.utf8⟩
  | headersFinished parts done =>
    have honce : (roles m args (parts ++ [⟨done, []⟩])).Nodup := h.once
    rw [roles_append] at honce
    exact ⟨honce.of_append_left,
      fun p hp => h.fileSize p (List.mem_append_left _ hp),
      fun p hp => h.textSize p (List.mem_append_left _ hp), h.utf8⟩
  | partData parts part data =>
    have honce : (roles m args (parts ++ [⟨part.headers, part.data ++ data⟩])).Nodup := h.once
    have hrole : role m args ⟨part.headers, part.data ++ data⟩ = role m args part := role_congr rfl
    rw [roles_append, hrole, ← roles_append] at honce
    have hlength : part.data.length ≤ (part.data ++ data).length := by simp
    refine ⟨honce, fun p hp hfile => ?_, fun p hp name htext => ?_, h.utf8⟩
    · rcases List.mem_append.mp hp with hp | hp
      · exact h.fileSize p (List.mem_append_left _ hp) hfile
      · rw [List.mem_singleton.mp hp] at hfile ⊢
        exact hlength.trans (h.fileSize _ (List.mem_append_right _ List.mem_cons_self)
          (hrole.trans hfile))
    · rcases List.mem_append.mp hp with hp | hp
      · exact h.textSize p (List.mem_append_left _ hp) name htext
      · rw [List.mem_singleton.mp hp] at htext ⊢
        exact hlength.trans (h.textSize _ (List.mem_append_right _ List.mem_cons_self) name
          (hrole.trans htext))
  | partEnd parts part =>
    exact ⟨h.once, h.fileSize, h.textSize,
      fun p hp => h.utf8 p (List.mem_append_left _ hp)⟩

variable (m args) in
/-- What a callback does: the collector goes on, or refuses a part. -/
def Follows (d : Delivered) (result : Except ReaderError Collector) : Prop :=
  (∃ c, result = .ok c ∧ Agrees m args c d ∧ Accepted m args d) ∨
    ∃ e, result = .error e ∧ IsUploadError e ∧ ¬ Accepted m args d

lemma textEntry_eq_some {p : Part} {name text : String} :
    textEntry m args p = some (name, text) ↔
      role m args p = .text name ∧ Utf8.decode p.data = some text := by
  unfold textEntry
  split
  · rename_i n hn
    rw [hn]
    constructor
    · intro h
      obtain ⟨t, ht, heq⟩ := Option.map_eq_some_iff.mp h
      cases heq
      exact ⟨rfl, ht⟩
    · rintro ⟨hname, htext⟩
      cases hname
      rw [htext]
      rfl
  · rename_i hne
    constructor
    · intro h
      cases h
    · rintro ⟨h, -⟩
      exact absurd h (hne name)

lemma isSome_fields {c : Collector} {d : Delivered} (h : Agrees m args c d)
    (ha : Accepted m args d) (name : String) :
    (c.fields.get? name).isSome = true ↔ ofRole m args (.text name) d.parts ≠ [] := by
  rw [Option.isSome_iff_ne_none, Ne, Dict.get?_eq_none, not_not, h.fields, Dict.mem_keys_ofList,
    ← List.length_pos_iff, ofRole, List.length_filter_pos_iff, List.mem_map]
  constructor
  · rintro ⟨⟨n, text⟩, hentry, rfl⟩
    obtain ⟨p, hp, hentry⟩ := List.mem_filterMap.mp hentry
    exact ⟨p, hp, by simpa using (textEntry_eq_some.mp hentry).1⟩
  · rintro ⟨p, hp, hrole⟩
    have htext := ha.utf8 p hp name (by simpa using hrole)
    obtain ⟨text, htext⟩ := Option.isSome_iff_exists.mp htext
    exact ⟨(name, text), List.mem_filterMap.mpr
      ⟨p, hp, textEntry_eq_some.mpr ⟨by simpa using hrole, htext⟩⟩, rfl⟩

lemma isSome_fileData {c : Collector} {d : Delivered} (h : Agrees m args c d) :
    c.fileData.isSome = true ↔ ofRole m args .file d.parts ≠ [] := by
  rw [h.fileData, fileDataOf, Option.isSome_map, List.getLast?_isSome]

lemma accepted_begin {parts : List Part} {done : List (Bytes × Bytes)}
    (h : Accepted m args ⟨parts, .headers done [] []⟩) :
    Accepted m args ⟨parts, .data ⟨done, []⟩⟩ ↔ role m args ⟨done, []⟩ = .drained ∨
      ofRole m args (role m args ⟨done, []⟩) parts = [] := by
  have honce : (roles m args parts).Nodup := h.once
  have hroles : Accepted m args ⟨parts, .data ⟨done, []⟩⟩ ↔
      (roles m args (parts ++ [⟨done, []⟩])).Nodup := by
    refine ⟨fun h' => h'.once, fun h' => ⟨h', fun p hp hfile => ?_, fun p hp name htext => ?_,
      h.utf8⟩⟩
    · rcases List.mem_append.mp hp with hp | hp
      · exact h.fileSize p hp hfile
      · rw [List.mem_singleton.mp hp]
        exact Nat.zero_le _
    · rcases List.mem_append.mp hp with hp | hp
      · exact h.textSize p hp name htext
      · rw [List.mem_singleton.mp hp]
        exact Nat.zero_le _
  rw [hroles, roles_append]
  by_cases hr : role m args ⟨done, []⟩ = .drained
  · simp [hr, honce]
  · rw [if_neg hr, List.nodup_append, or_iff_right hr]
    constructor
    · rintro ⟨-, -, hne⟩
      by_contra hparts
      exact hne _ ((mem_roles hr).mpr hparts) _ List.mem_cons_self rfl
    · intro hparts
      refine ⟨honce, by simp, fun a ha b hb hab => ?_⟩
      rw [hab, List.mem_singleton.mp hb] at ha
      exact (mem_roles hr).mp ha hparts

lemma onHeadersFinished_follows {c : Collector} {parts : List Part}
    {done : List (Bytes × Bytes)} (h : Agrees m args c ⟨parts, .headers done [] []⟩)
    (ha : Accepted m args ⟨parts, .headers done [] []⟩) :
    Follows m args ⟨parts, .data ⟨done, []⟩⟩ (c.onHeadersFinished m args) := by
  obtain ⟨hname, hfield, hvalue, hheaders, hbuffer⟩ := h.current
  have hparams : (m.parseOptionsHeader (c.headers.get? (ascii "content-disposition"))).2 =
      options m ⟨done, []⟩ := by
    rw [hheaders]
    rfl
  have hbegin := accepted_begin ha
  have hfilename := h.filename
  unfold Collector.onHeadersFinished
  simp only [hparams]
  rw [← partName, ← partFilename]
  rcases role_cases m args ⟨done, []⟩ with
    ⟨hrole, hpart⟩ | ⟨name, hrole, hpart, hne, hcontains⟩ | ⟨hrole, hne, hcontains⟩
  · rw [if_pos hpart]
    rw [hrole] at hbegin
    -- a second file part is refused at its headers
    by_cases hrepeats : c.fileData.isSome = true
    · rw [if_pos hrepeats]
      refine .inr ⟨_, rfl, trivial, fun h' => ?_⟩
      exact (isSome_fileData h).mp hrepeats ((hbegin.mp h').resolve_left (by simp))
    · rw [if_neg hrepeats]
      have hnone : ofRole m args .file parts = [] := by
        by_contra hne
        exact hrepeats ((isSome_fileData h).mpr hne)
      refine .inl ⟨_, rfl, ⟨h.fileData, ?_, h.fields, hfield, hvalue, ?_⟩,
        hbegin.mpr (.inr hnone)⟩
      · have hlast : (ofRole m args .file (parts ++ [⟨done, []⟩])).getLast? =
            some ⟨done, []⟩ := by
          rw [ofRole_append, if_pos hrole, List.getLast?_concat]
        exact (congrArg (Option.bind · (partFilename m)) hlast).symm
      · rw [hrole]
        exact ⟨hpart, rfl, hbuffer⟩
  · rw [hpart, if_neg (by simpa using hne), Option.any_some, if_pos hcontains, Option.any_some]
    rw [hrole] at hbegin
    have hfiles : ofRole m args .file (parts ++ [⟨done, []⟩]) = ofRole m args .file parts := by
      rw [ofRole_append, if_neg (by simp [hrole]), List.append_nil]
    by_cases hrepeats : (c.fields.get? name).isSome = true
    · rw [if_pos hrepeats]
      refine .inr ⟨_, rfl, trivial, fun h' => ?_⟩
      exact (isSome_fields h ha name).mp hrepeats ((hbegin.mp h').resolve_left (by simp))
    · rw [if_neg hrepeats]
      have hnone : ofRole m args (.text name) parts = [] := by
        by_contra hne
        exact hrepeats ((isSome_fields h ha name).mpr hne)
      refine .inl ⟨_, rfl, ⟨h.fileData, ?_, h.fields, hfield, hvalue, ?_⟩,
        hbegin.mpr (.inr hnone)⟩
      · exact hfilename.trans (congrArg (·.getLast?.bind (partFilename m)) hfiles.symm)
      · rw [hrole]
        exact ⟨rfl, rfl, hbuffer⟩
  · rw [if_neg hne, hcontains, if_neg (by simp)]
    have hfiles : ofRole m args .file (parts ++ [⟨done, []⟩]) = ofRole m args .file parts := by
      rw [ofRole_append, if_neg (by simp [hrole]), List.append_nil]
    refine .inl ⟨_, rfl, ⟨h.fileData, ?_, h.fields, hfield, hvalue, ?_⟩,
      hbegin.mpr (.inl hrole)⟩
    · exact hfilename.trans (congrArg (·.getLast?.bind (partFilename m)) hfiles.symm)
    · rw [hrole]

lemma accepted_data {parts : List Part} {part : Part} (data : Bytes)
    (h : Accepted m args ⟨parts, .data part⟩) :
    Accepted m args ⟨parts, .data ⟨part.headers, part.data ++ data⟩⟩ ↔
      (role m args part = .file → (part.data ++ data).length ≤ args.maxFileBytes) ∧
      ∀ name, role m args part = .text name →
        (part.data ++ data).length ≤ maxTextFieldBytes := by
  have hrole : role m args ⟨part.headers, part.data ++ data⟩ = role m args part := role_congr rfl
  constructor
  · intro h'
    have hmem : (⟨part.headers, part.data ++ data⟩ : Part) ∈
        parts ++ [⟨part.headers, part.data ++ data⟩] := by simp
    exact ⟨fun hfile => h'.fileSize _ hmem (hrole.trans hfile),
      fun name htext => h'.textSize _ hmem name (hrole.trans htext)⟩
  · rintro ⟨hfile, htext⟩
    have honce : (roles m args (parts ++ [part])).Nodup := h.once
    refine ⟨?_, fun p hp hp' => ?_, fun p hp name hp' => ?_, h.utf8⟩
    · show (roles m args (parts ++ [⟨part.headers, part.data ++ data⟩])).Nodup
      rw [roles_append, hrole, ← roles_append]
      exact honce
    · rcases List.mem_append.mp hp with hp | hp
      · exact h.fileSize p (List.mem_append_left _ hp) hp'
      · rw [List.mem_singleton.mp hp] at hp' ⊢
        exact hfile (hrole.symm.trans hp')
    · rcases List.mem_append.mp hp with hp | hp
      · exact h.textSize p (List.mem_append_left _ hp) name hp'
      · rw [List.mem_singleton.mp hp] at hp' ⊢
        exact htext name (hrole.symm.trans hp')

lemma onPartData_follows {c : Collector} {parts : List Part} {part : Part} {data : Bytes}
    (h : Agrees m args c ⟨parts, .data part⟩) (ha : Accepted m args ⟨parts, .data part⟩) :
    Follows m args ⟨parts, .data ⟨part.headers, part.data ++ data⟩⟩ (c.onPartData args data) := by
  obtain ⟨hfield, hvalue, hcurrent⟩ := h.current
  have hrole : role m args ⟨part.headers, part.data ++ data⟩ = role m args part := role_congr rfl
  have hdata := accepted_data data ha
  have hfilename : c.filename = (ofRole m args .file
      (parts ++ [⟨part.headers, part.data ++ data⟩])).getLast?.bind (partFilename m) := by
    have hold : c.filename = (ofRole m args .file (parts ++ [part])).getLast?.bind
      (partFilename m) := h.filename
    rw [hold, ofRole_append, ofRole_append, hrole]
    by_cases hfile : role m args part = .file
    · rw [if_pos hfile, if_pos hfile, List.getLast?_concat, List.getLast?_concat]
      rfl
    · rw [if_neg hfile, if_neg hfile]
  unfold Collector.onPartData
  cases hr : role m args part with
  | file =>
    rw [hr] at hcurrent
    obtain ⟨hname, hisFile, hbuffer⟩ := hcurrent
    simp only [hname, hisFile, hbuffer, if_true]
    -- the limit is checked on what was buffered and this data together
    by_cases hsize : args.maxFileBytes < (part.data ++ data).length
    · rw [if_pos hsize]
      exact .inr ⟨_, rfl, trivial, fun h' => absurd ((hdata.mp h').1 hr) (by omega)⟩
    · rw [if_neg hsize]
      refine .inl ⟨_, rfl, ⟨h.fileData, hfilename, h.fields, hfield, hvalue, ?_⟩,
        hdata.mpr ⟨fun _ => by omega, fun name hname => ?_⟩⟩
      · rw [hrole, hr]
        exact ⟨rfl, rfl, rfl⟩
      · rw [hr] at hname
        cases hname
  | text name =>
    rw [hr] at hcurrent
    obtain ⟨hname, hisFile, hbuffer⟩ := hcurrent
    simp only [hname, hisFile, hbuffer, Bool.false_eq_true, if_false]
    by_cases hsize : maxTextFieldBytes < (part.data ++ data).length
    · rw [if_pos hsize]
      exact .inr ⟨_, rfl, trivial, fun h' => absurd ((hdata.mp h').2 name hr) (by omega)⟩
    · rw [if_neg hsize]
      refine .inl ⟨_, rfl, ⟨h.fileData, hfilename, h.fields, hfield, hvalue, ?_⟩,
        hdata.mpr ⟨fun hfile => ?_, fun _ _ => by omega⟩⟩
      · rw [hrole, hr]
        exact ⟨rfl, rfl, rfl⟩
      · rw [hr] at hfile
        cases hfile
  | drained =>
    rw [hr] at hcurrent
    simp only [hcurrent]
    refine .inl ⟨_, rfl, ⟨h.fileData, hfilename, h.fields, hfield, hvalue, ?_⟩,
      hdata.mpr ⟨fun hfile => ?_, fun name htext => ?_⟩⟩
    · rw [hrole, hr]
      exact hcurrent
    · rw [hr] at hfile
      cases hfile
    · rw [hr] at htext
      cases htext

lemma accepted_end {parts : List Part} {part : Part} (h : Accepted m args ⟨parts, .data part⟩) :
    Accepted m args ⟨parts ++ [part], .none⟩ ↔
      ∀ name, role m args part = .text name → (Utf8.decode part.data).isSome = true := by
  refine ⟨fun h' => h'.utf8 part (by simp), fun hutf8 => ⟨h.once, h.fileSize, h.textSize, ?_⟩⟩
  intro p hp
  rcases List.mem_append.mp hp with hp | hp
  · exact h.utf8 p hp
  · rw [List.mem_singleton.mp hp]
    exact hutf8

lemma onPartEnd_follows {c : Collector} {parts : List Part} {part : Part}
    (h : Agrees m args c ⟨parts, .data part⟩) (ha : Accepted m args ⟨parts, .data part⟩) :
    Follows m args ⟨parts ++ [part], .none⟩ c.onPartEnd := by
  obtain ⟨hfield, hvalue, hcurrent⟩ := h.current
  have hend := accepted_end ha
  have hfiles : fileDataOf m args (parts ++ [part]) =
      if role m args part = .file then some part.data else fileDataOf m args parts := by
    rw [fileDataOf, ofRole_append]
    by_cases hfile : role m args part = .file
    · rw [if_pos hfile, if_pos hfile, List.getLast?_concat]
      rfl
    · rw [if_neg hfile, if_neg hfile, List.append_nil, fileDataOf]
  have hentries : (parts ++ [part]).filterMap (textEntry m args) =
      parts.filterMap (textEntry m args) ++ (textEntry m args part).toList := by
    rw [List.filterMap_append]
    cases hentry : textEntry m args part <;> simp [hentry]
  unfold Collector.onPartEnd
  cases hr : role m args part with
  | file =>
    rw [hr] at hcurrent
    obtain ⟨hname, hisFile, hbuffer⟩ := hcurrent
    simp only [hname, hisFile, if_true]
    refine .inl ⟨_, rfl, ⟨?_, h.filename, ?_, rfl, hfield, hvalue⟩,
      hend.mpr fun name htext => ?_⟩
    · rw [hfiles, if_pos hr, hbuffer]
    · have hnone : textEntry m args part = none := by simp [textEntry, hr]
      rw [hentries, hnone, Option.toList_none, List.append_nil]
      exact h.fields
    · rw [hr] at htext
      cases htext
  | text name =>
    rw [hr] at hcurrent
    obtain ⟨hname, hisFile, hbuffer⟩ := hcurrent
    simp only [hname, hisFile, hbuffer, Bool.false_eq_true, if_false]
    -- a text part is decoded when it ends
    cases hdecode : Utf8.decode part.data with
    | none =>
      refine .inr ⟨_, rfl, trivial, fun h' => ?_⟩
      have hsome := hend.mp h' name hr
      rw [hdecode] at hsome
      cases hsome
    | some text =>
      refine .inl ⟨_, rfl, ⟨?_, h.filename, ?_, rfl, hfield, hvalue⟩,
        hend.mpr fun _ _ => by rw [hdecode]; rfl⟩
      · rw [hfiles, if_neg (by simp [hr])]
        exact h.fileData
      · have hentry : textEntry m args part = some (name, text) :=
          textEntry_eq_some.mpr ⟨hr, hdecode⟩
        rw [hentries, hentry, Option.toList_some, Dict.ofList_snoc, ← h.fields]
  | drained =>
    rw [hr] at hcurrent
    simp only [hcurrent]
    refine .inl ⟨_, rfl, ⟨?_, h.filename, ?_, hcurrent, hfield, hvalue⟩,
      hend.mpr fun name htext => ?_⟩
    · rw [hfiles, if_neg (by simp [hr])]
      exact h.fileData
    · have hnone : textEntry m args part = none := by simp [textEntry, hr]
      rw [hentries, hnone, Option.toList_none, List.append_nil]
      exact h.fields
    · rw [hr] at htext
      cases htext

lemma call_follows {c : Collector} {d d' : Delivered} {call : Callback}
    (h : Agrees m args c d) (ha : Accepted m args d) (hadd : d.add call = some d') :
    Follows m args d' (c.call m args call) := by
  cases adds_of_add hadd with
  | partBegin parts =>
    obtain ⟨hname, hfield, hvalue⟩ := h.current
    exact .inl ⟨_, rfl, ⟨h.fileData, h.filename, h.fields, hname, hfield, hvalue, rfl, rfl⟩,
      ha.once, ha.fileSize, ha.textSize, ha.utf8⟩
  | headerField parts done field value data =>
    obtain ⟨hname, hfield, hvalue, hheaders, hbuffer⟩ := h.current
    exact .inl ⟨_, rfl, ⟨h.fileData, h.filename, h.fields, hname,
      congrArg (· ++ data) hfield, hvalue, hheaders, hbuffer⟩,
      ha.once, ha.fileSize, ha.textSize, ha.utf8⟩
  | headerValue parts done field value data =>
    obtain ⟨hname, hfield, hvalue, hheaders, hbuffer⟩ := h.current
    exact .inl ⟨_, rfl, ⟨h.fileData, h.filename, h.fields, hname, hfield,
      congrArg (· ++ data) hvalue, hheaders, hbuffer⟩,
      ha.once, ha.fileSize, ha.textSize, ha.utf8⟩
  | headerEnd parts done field value =>
    obtain ⟨hname, hfield, hvalue, hheaders, hbuffer⟩ := h.current
    refine .inl ⟨_, rfl, ⟨h.fileData, h.filename, h.fields, hname, rfl, rfl, ?_, hbuffer⟩,
      ha.once, ha.fileSize, ha.textSize, ha.utf8⟩
    show c.headers.set (lower c.headerField) c.headerValue =
      Dict.ofList ((done ++ [(field, value)]).map fun h => (lower h.1, h.2))
    rw [List.map_append, List.map_singleton, Dict.ofList_snoc, hheaders, hfield, hvalue]
  | headersFinished parts done => exact onHeadersFinished_follows h ha
  | partData parts part data => exact onPartData_follows h ha
  | partEnd parts part => exact onPartEnd_follows h ha

/-! ### A run of callbacks -/

lemma Accepted.of_foldlM {calls : List Callback} {d d' : Delivered}
    (hadd : calls.foldlM Delivered.add d = some d') (h : Accepted m args d') :
    Accepted m args d := by
  induction calls generalizing d with
  | nil =>
    cases hadd
    exact h
  | cons call calls ih =>
    rw [List.foldlM_cons] at hadd
    obtain ⟨d₁, hd₁, hrest⟩ := Option.bind_eq_some_iff.mp hadd
    exact (ih hrest).of_add hd₁

lemma calls_follow {calls : List Callback} {d d' : Delivered} {c : Collector}
    (h : Agrees m args c d) (ha : Accepted m args d)
    (hadd : calls.foldlM Delivered.add d = some d') :
    Follows m args d' (calls.foldlM (Collector.call m args) c) := by
  induction calls generalizing c d with
  | nil =>
    cases hadd
    exact .inl ⟨c, rfl, h, ha⟩
  | cons call calls ih =>
    rw [List.foldlM_cons] at hadd ⊢
    obtain ⟨d₁, hd₁, hrest⟩ := Option.bind_eq_some_iff.mp hadd
    rcases call_follows h ha hd₁ with ⟨c₁, hc₁, h₁, ha₁⟩ | ⟨e, he, hupload, hrefused⟩
    · rw [hc₁]
      exact ih h₁ ha₁ hrest
    · rw [he]
      exact .inr ⟨e, rfl, hupload, fun h' => hrefused (h'.of_foldlM hrest)⟩

lemma agrees_init : Agrees m args .init .empty :=
  ⟨rfl, rfl, rfl, rfl, rfl, rfl⟩

lemma accepted_empty : Accepted m args .empty :=
  ⟨List.nodup_nil, by simp [Delivered.empty, Delivered.begun],
    by simp [Delivered.empty, Delivered.begun], by simp [Delivered.empty]⟩

end CortexDis.UploadParts
