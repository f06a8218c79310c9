import CortexDis.Stamped

/-!
Stamped rows in a table, written by concurrent transactions.

What a transaction writes are versions of rows, each under a lock that it holds until it ends.
A statement runs on the current version: the transaction's own, or else the committed row. The
conditional update passes over a row it does not see, or that carries a later stamp; the
creating statement makes the row that is not there. Where another transaction holds the row, or
is creating it, a statement that would write waits.
-/

namespace CortexDis.RowLocks

open CortexDis.Stamped

variable {T W R K : Type*} [LinearOrder T] [DecidableEq K]

/-- Registers with keys, and the register a write creates. -/
structure Store (T W R K : Type*) [LinearOrder T] extends Register T W R where
  key : R → K
  target : W → K
  create : W → R
  key_write : ∀ w r, key (write w r) = key r
  key_create : ∀ w, key (create w) = target w
  stamp_create : ∀ w, stamp (create w) = time w

/-- A statement: a write to the row of its target, and whether it may create that row. -/
structure Stmt (W : Type*) where
  creates : Bool
  write : W

/-- A transaction in progress: its statements to come, its versions, and the writes whose
statement created its row or ran while the row existed. -/
structure Tx (W R : Type*) where
  program : List (Stmt W)
  versions : List R
  seen : List W

def Tx.start (program : List (Stmt W)) : Tx W R := ⟨program, [], []⟩

/-- The committed rows, the transactions in progress, and what the committed ones have seen. -/
structure State (W R : Type*) where
  rows : List R
  txs : List (Tx W R)
  seen : List W

namespace Store

variable (S : Store T W R K)

def find (k : K) (rows : List R) : Option R := rows.find? fun r => S.key r = k

/-- `v` in place of the row of its key. -/
def replace (v u : R) : R := if S.key u = S.key v then v else u

/-- The versions with one more; it replaces the one of its key. -/
def put (v : R) (versions : List R) : List R :=
  if S.find (S.key v) versions = none then versions ++ [v] else versions.map (S.replace v)

/-- The rows under a transaction's versions. -/
def overlay (versions rows : List R) : List R :=
  (rows.map fun r => (S.find (S.key r) versions).getD r) ++
    versions.filter fun v => S.find (S.key v) rows = none

/-- The version a statement of the transaction sees. -/
def current (rows : List R) (tx : Tx W R) (k : K) : Option R :=
  (S.find k tx.versions).or (S.find k rows)

/-- A transaction holds the row. -/
def held (txs : List (Tx W R)) (k : K) : Bool := txs.any fun tx => (S.find k tx.versions).isSome

/-- The next statement of a transaction among `others`; none while it waits. -/
def exec (rows : List R) (others : List (Tx W R)) (tx : Tx W R) : Option (Tx W R) :=
  match tx.program with
  | [] => none
  | ⟨creates, w⟩ :: rest =>
    match S.current rows tx (S.target w) with
    | none =>
      if creates = false then some { tx with program := rest }
      else if S.held others (S.target w) then none
      else some ⟨rest, S.put (S.create w) tx.versions, tx.seen ++ [w]⟩
    | some r =>
      if creates = false ∧ S.time w < S.stamp r then some ⟨rest, tx.versions, tx.seen ++ [w]⟩
      else if S.held others (S.target w) then none
      else some ⟨rest, S.put (S.offer w r) tx.versions, tx.seen ++ [w]⟩

/-- One step of the table: a transaction starts, runs its next statement, commits when it has
run them all, or is rolled back. -/
inductive Step (programs : Set (List (Stmt W))) : State W R → State W R → Prop
  | start {s : State W R} {program : List (Stmt W)} (h : program ∈ programs) :
    Step programs s { s with txs := s.txs ++ [Tx.start program] }
  | run {s : State W R} {us vs : List (Tx W R)} {tx tx' : Tx W R} (h : s.txs = us ++ tx :: vs)
    (hexec : S.exec s.rows (us ++ vs) tx = some tx') :
    Step programs s { s with txs := us ++ tx' :: vs }
  | commit {s : State W R} {us vs : List (Tx W R)} {tx : Tx W R} (h : s.txs = us ++ tx :: vs)
    (hdone : tx.program = []) :
    Step programs s ⟨S.overlay tx.versions s.rows, us ++ vs, s.seen ++ tx.seen⟩
  | abort {s : State W R} {us vs : List (Tx W R)} {tx : Tx W R} (h : s.txs = us ++ tx :: vs) :
    Step programs s { s with txs := us ++ vs }

def Reaches (programs : Set (List (Stmt W))) : State W R → State W R → Prop :=
  Relation.ReflTransGen (S.Step programs)

/-! ### Rows by key -/

lemma key_of_find {k : K} {rows : List R} {r : R} (h : S.find k rows = some r) : S.key r = k := by
  simpa using List.find?_some h

lemma find_of_mem {rows : List R} (hn : (rows.map S.key).Nodup) {r : R} (h : r ∈ rows) :
    S.find (S.key r) rows = some r := by
  cases hf : S.find (S.key r) rows with
  | none => exact absurd (List.find?_eq_none.mp hf r h) (by simp)
  | some u =>
    have hu : u ∈ rows := List.mem_of_find?_eq_some hf
    rw [List.inj_on_of_nodup_map hn hu h (S.key_of_find hf)]

lemma find_eq_none {k : K} {rows : List R} : S.find k rows = none ↔ k ∉ rows.map S.key := by
  simp [find, List.find?_eq_none]

lemma find_append (k : K) (us vs : List R) :
    S.find k (us ++ vs) = (S.find k us).or (S.find k vs) := List.find?_append

lemma find_singleton (k : K) (r : R) : S.find k [r] = if S.key r = k then some r else none := by
  by_cases h : S.key r = k <;> simp [find, h]

lemma find_map {f : R → R} (hf : ∀ r, S.key (f r) = S.key r) (k : K) (rows : List R) :
    S.find k (rows.map f) = (S.find k rows).map f := by
  simp only [find, List.find?_map, Function.comp_def, hf]

lemma key_replace (v u : R) : S.key (S.replace v u) = S.key u := by
  unfold replace
  split
  · rename_i h
    exact h.symm
  · rfl

lemma find_put (v : R) (versions : List R) (k : K) :
    S.find k (S.put v versions) = if S.key v = k then some v else S.find k versions := by
  unfold put
  split
  · rename_i hnone
    rw [find_append, find_singleton]
    by_cases hk : S.key v = k
    · subst hk
      simp [hnone]
    · simp [hk]
  · rename_i hsome
    rw [S.find_map (S.key_replace v)]
    by_cases hk : S.key v = k
    · subst hk
      obtain ⟨u, hu⟩ := Option.ne_none_iff_exists'.mp hsome
      simp [hu, replace, S.key_of_find hu]
    · cases hu : S.find k versions with
      | none => simp [hk]
      | some u => simp [hk, replace, S.key_of_find hu, Ne.symm hk]

lemma nodup_put {v : R} {versions : List R} (h : (versions.map S.key).Nodup) :
    ((S.put v versions).map S.key).Nodup := by
  unfold put
  split
  · rename_i hnone
    rw [List.map_append, List.map_singleton, List.nodup_append]
    refine ⟨h, by simp, ?_⟩
    intro a ha b hb hab
    rw [List.mem_singleton.mp hb] at hab
    exact S.find_eq_none.mp hnone (hab ▸ ha)
  · have hkeys : S.key ∘ S.replace v = S.key := funext (S.key_replace v)
    rw [List.map_map, hkeys]
    exact h

lemma key_getD_find (versions : List R) (r : R) :
    S.key ((S.find (S.key r) versions).getD r) = S.key r := by
  cases hv : S.find (S.key r) versions with
  | none => rfl
  | some v => exact S.key_of_find hv

lemma find_overlay (versions rows : List R) (k : K) :
    S.find k (S.overlay versions rows) = (S.find k versions).or (S.find k rows) := by
  rw [overlay, find_append, S.find_map (S.key_getD_find versions)]
  cases hr : S.find k rows with
  | some r =>
    rw [Option.map_some, S.key_of_find hr]
    cases S.find k versions <;> rfl
  | none =>
    rw [Option.map_none, Option.none_or, Option.or_none]
    change List.find? _ (versions.filter _) = List.find? _ versions
    rw [List.find?_filter]
    congr 1
    funext v
    by_cases hv : S.key v = k
    · rw [hv, hr]
      simp
    · simp [hv]

lemma nodup_overlay {versions rows : List R} (hrows : (rows.map S.key).Nodup)
    (hversions : (versions.map S.key).Nodup) :
    ((S.overlay versions rows).map S.key).Nodup := by
  have hkeys : S.key ∘ (fun r => (S.find (S.key r) versions).getD r) = S.key :=
    funext (S.key_getD_find versions)
  rw [overlay, List.map_append, List.map_map, hkeys, List.nodup_append]
  refine ⟨hrows, hversions.sublist (List.filter_sublist.map S.key), ?_⟩
  intro a ha b hb hab
  obtain ⟨v, hv, rfl⟩ := List.mem_map.mp hb
  have hnone := (List.mem_filter.mp hv).2
  exact S.find_eq_none.mp (by simpa using hnone) (hab ▸ ha)

/-! ### Stamps -/

/-- The stamp of a row that may not be there. -/
def stampOf (r : Option R) : WithBot T := r.elim ⊥ S.stamp

/-- The latest time of the writes to a key. -/
def latest (k : K) (ws : List W) : WithBot T :=
  ((ws.filter fun w => S.target w = k).map fun w => (S.time w : WithBot T)).foldr max ⊥

lemma latest_nil (k : K) : S.latest k [] = ⊥ := rfl

lemma latest_append (k : K) (us vs : List W) :
    S.latest k (us ++ vs) = max (S.latest k us) (S.latest k vs) := by
  induction us with
  | nil => simp [latest]
  | cons u us ih =>
    by_cases hu : S.target u = k
    · simp only [latest, List.cons_append, List.filter_cons, hu, decide_true, if_true,
        List.map_cons, List.foldr_cons, max_assoc] at ih ⊢
      rw [ih]
    · simpa [latest, hu] using ih

lemma latest_singleton (k : K) (w : W) :
    S.latest k [w] = if S.target w = k then (S.time w : WithBot T) else ⊥ := by
  by_cases hw : S.target w = k <;> simp [latest, hw]

/-! ### One statement -/

/-- What a statement can do: pass over a row it does not see, pass over a later one, or leave
a version with the greater of the two stamps. -/
lemma exec_cases {rows : List R} {others : List (Tx W R)} {tx tx' : Tx W R}
    (h : S.exec rows others tx = some tx') :
    ∃ creates w rest, tx.program = ⟨creates, w⟩ :: rest ∧
      (tx' = { tx with program := rest } ∨
        (tx' = ⟨rest, tx.versions, tx.seen ++ [w]⟩ ∧
          (S.time w : WithBot T) ≤ S.stampOf (S.current rows tx (S.target w))) ∨
        ∃ v, tx' = ⟨rest, S.put v tx.versions, tx.seen ++ [w]⟩ ∧ S.key v = S.target w ∧
          S.held others (S.target w) = false ∧
          S.stamp v = max (S.stampOf (S.current rows tx (S.target w))) (S.time w)) := by
  unfold exec at h
  split at h
  · cases h
  · rename_i creates w rest hprogram
    refine ⟨creates, w, rest, hprogram, ?_⟩
    split at h
    · rename_i hcur
      split at h
      · cases h
        exact .inl rfl
      · split at h
        · cases h
        · rename_i hheld
          cases h
          refine .inr (.inr ⟨S.create w, rfl, S.key_create w, by simpa using hheld, ?_⟩)
          rw [hcur, S.stamp_create]
          exact (max_bot_left _).symm
    · -- the row is there: the statement updates it, or passes over it
      rename_i r hcur
      have hkey : S.key r = S.target w := by
        unfold current at hcur
        cases hv : S.find (S.target w) tx.versions with
        | some v =>
          rw [hv, Option.some_or] at hcur
          cases hcur
          exact S.key_of_find hv
        | none =>
          rw [hv, Option.none_or] at hcur
          exact S.key_of_find hcur
      split at h
      · rename_i hlater
        cases h
        refine .inr (.inl ⟨rfl, ?_⟩)
        rw [hcur]
        exact hlater.2.le
      · split at h
        · cases h
        · rename_i hheld
          cases h
          have hoffer : S.key (S.offer w r) = S.key r := by
            unfold Register.offer
            split
            · exact S.key_write w r
            · rfl
          refine .inr (.inr ⟨S.offer w r, rfl, hoffer.trans hkey, by simpa using hheld, ?_⟩)
          rw [hcur]
          exact S.stamp_offer w r

/-! ### The invariant -/

/-- A transaction's versions have distinct keys, and the current stamp of each key is the
greatest of the committed one and of what the transaction has seen. -/
structure TxGood (rows : List R) (tx : Tx W R) : Prop where
  nodup : (tx.versions.map S.key).Nodup
  stamp : ∀ k, S.stampOf (S.current rows tx k) =
    max (S.stampOf (S.find k rows)) (S.latest k tx.seen)

/-- No row is held by both. -/
def Apart (a b : Tx W R) : Prop := ∀ k, S.find k a.versions = none ∨ S.find k b.versions = none

/-- Keys are distinct, every committed stamp is the greatest of the first one and of what the
committed transactions have seen, and no two transactions hold one row. -/
structure Good (initial : K → WithBot T) (s : State W R) : Prop where
  nodup : (s.rows.map S.key).Nodup
  stamp : ∀ k, S.stampOf (S.find k s.rows) = max (initial k) (S.latest k s.seen)
  txs : ∀ tx ∈ s.txs, S.TxGood s.rows tx
  apart : s.txs.Pairwise S.Apart

lemma Apart.symm {a b : Tx W R} (h : S.Apart a b) : S.Apart b a := fun k => (h k).symm

lemma txGood_start (rows : List R) (program : List (Stmt W)) :
    S.TxGood rows (Tx.start program) := by
  refine ⟨List.nodup_nil, fun k => ?_⟩
  rw [show (Tx.start program : Tx W R).seen = [] from rfl, latest_nil, max_bot_right]
  rfl

lemma txGood_exec {rows : List R} {others : List (Tx W R)} {tx tx' : Tx W R}
    (hg : S.TxGood rows tx) (h : S.exec rows others tx = some tx') : S.TxGood rows tx' := by
  obtain ⟨creates, w, rest, -, hcases⟩ := S.exec_cases h
  rcases hcases with rfl | ⟨rfl, hle⟩ | ⟨v, rfl, hkey, -, hstamp⟩
  · exact ⟨hg.nodup, hg.stamp⟩
  · refine ⟨hg.nodup, fun k => ?_⟩
    change S.stampOf (S.current rows tx k) = _
    rw [latest_append, latest_singleton, ← max_assoc, ← hg.stamp k]
    by_cases hk : S.target w = k
    · subst hk
      rw [if_pos rfl, max_eq_left hle]
    · rw [if_neg hk, max_bot_right]
  · refine ⟨S.nodup_put hg.nodup, fun k => ?_⟩
    rw [latest_append, latest_singleton, ← max_assoc, ← hg.stamp k, current, find_put]
    by_cases hk : S.target w = k
    · subst hk
      rw [if_pos hkey, if_pos rfl, Option.some_or]
      exact hstamp
    · rw [if_neg fun h => hk (hkey ▸ h), if_neg hk, max_bot_right]
      rfl

lemma apart_exec {rows : List R} {others : List (Tx W R)} {tx tx' other : Tx W R}
    (hother : other ∈ others) (hapart : S.Apart tx other)
    (h : S.exec rows others tx = some tx') : S.Apart tx' other := by
  obtain ⟨creates, w, rest, -, hcases⟩ := S.exec_cases h
  rcases hcases with rfl | ⟨rfl, -⟩ | ⟨v, rfl, hkey, hfree, -⟩
  · exact hapart
  · exact hapart
  · intro k
    rw [find_put]
    by_cases hk : S.key v = k
    · right
      have hnot := List.any_eq_false.mp hfree other hother
      rw [← hk, hkey]
      simpa using hnot
    · rw [if_neg hk]
      exact hapart k

lemma find_commit (rows : List R) (tx : Tx W R) (k : K) :
    S.find k (S.overlay tx.versions rows) = S.current rows tx k := S.find_overlay _ _ _

lemma stamp_le_current {rows : List R} {tx : Tx W R} (hg : S.TxGood rows tx) (k : K) :
    S.stampOf (S.find k rows) ≤ S.stampOf (S.current rows tx k) := by
  rw [hg.stamp k]
  exact le_max_left _ _

lemma txGood_commit {rows : List R} {tx other : Tx W R} (hg : S.TxGood rows tx)
    (ho : S.TxGood rows other) (hapart : S.Apart tx other) :
    S.TxGood (S.overlay tx.versions rows) other := by
  refine ⟨ho.nodup, fun k => ?_⟩
  have hstamp := ho.stamp k
  unfold current at hstamp ⊢
  rw [find_commit]
  cases hv : S.find k other.versions with
  | some v =>
    have hnone := (hapart k).resolve_right (by simp [hv])
    rw [current, hnone, Option.none_or]
    rw [hv] at hstamp
    exact hstamp
  | none =>
    rw [hv, Option.none_or] at hstamp
    rw [Option.none_or]
    have hle : S.latest k other.seen ≤ S.stampOf (S.find k rows) := by
      rw [hstamp]
      exact le_max_right _ _
    exact (max_eq_left (hle.trans (S.stamp_le_current hg k))).symm

variable {programs : Set (List (Stmt W))}

lemma good_step {initial : K → WithBot T} {s s' : State W R} (hg : S.Good initial s)
    (h : S.Step programs s s') : S.Good initial s' := by
  -- being apart is symmetric, so the place in the list does not matter
  have hmiddle : ∀ (us vs : List (Tx W R)) (tx : Tx W R),
      (us ++ tx :: vs).Pairwise S.Apart ↔
        (∀ other ∈ us ++ vs, S.Apart tx other) ∧ (us ++ vs).Pairwise S.Apart := by
    intro us vs tx
    rw [(List.perm_middle.pairwise_iff fun h => Apart.symm S h), List.pairwise_cons]
  cases h with
  | start h =>
    refine ⟨hg.nodup, hg.stamp, fun tx htx => ?_, ?_⟩
    · rcases List.mem_append.mp htx with htx | htx
      · exact hg.txs tx htx
      · rw [List.mem_singleton.mp htx]
        exact S.txGood_start _ _
    · refine List.pairwise_append.mpr ⟨hg.apart, List.pairwise_singleton _ _, ?_⟩
      intro a _ b hb k
      rw [List.mem_singleton.mp hb]
      exact .inr rfl
  | @run us vs tx tx' h hexec =>
    have hall := hg.txs
    have hapart := hg.apart
    rw [h] at hall hapart
    obtain ⟨hone, hrest⟩ := (hmiddle us vs tx).mp hapart
    refine ⟨hg.nodup, hg.stamp, fun other hother => ?_, ?_⟩
    · rcases List.mem_append.mp hother with hu | hv
      · exact hall other (List.mem_append_left _ hu)
      · rcases List.mem_cons.mp hv with rfl | hv
        · exact S.txGood_exec (hall tx (by simp)) hexec
        · exact hall other (List.mem_append_right _ (List.mem_cons_of_mem _ hv))
    · exact (hmiddle us vs tx').mpr
        ⟨fun other hother => S.apart_exec hother (hone other hother) hexec, hrest⟩
  | @commit us vs tx h hdone =>
    have hall := hg.txs
    have hapart := hg.apart
    rw [h] at hall hapart
    obtain ⟨hone, hrest⟩ := (hmiddle us vs tx).mp hapart
    have htx := hall tx (by simp)
    refine ⟨S.nodup_overlay hg.nodup htx.nodup, fun k => ?_, fun other hother => ?_, hrest⟩
    · change S.stampOf (S.find k (S.overlay tx.versions s.rows)) = _
      rw [find_commit, htx.stamp k, hg.stamp k, latest_append, max_assoc]
    · have hmem : other ∈ us ++ tx :: vs := by
        rcases List.mem_append.mp hother with hu | hv
        · exact List.mem_append_left _ hu
        · exact List.mem_append_right _ (List.mem_cons_of_mem _ hv)
      exact S.txGood_commit htx (hall other hmem) (hone other hother)
  | @abort us vs tx h =>
    have hall := hg.txs
    have hapart := hg.apart
    rw [h] at hall hapart
    obtain ⟨-, hrest⟩ := (hmiddle us vs tx).mp hapart
    refine ⟨hg.nodup, hg.stamp, fun other hother => hall other ?_, hrest⟩
    rcases List.mem_append.mp hother with hu | hv
    · exact List.mem_append_left _ hu
    · exact List.mem_append_right _ (List.mem_cons_of_mem _ hv)

lemma good_reaches {initial : K → WithBot T} {s s' : State W R} (hg : S.Good initial s)
    (h : S.Reaches programs s s') : S.Good initial s' := by
  induction h with
  | refl => exact hg
  | tail _ hstep ih => exact S.good_step ih hstep

/-- **A committed row stays, and its stamp never decreases.** -/
lemma row_reaches {initial : K → WithBot T} {s s' : State W R} (hg : S.Good initial s)
    (h : S.Reaches programs s s') (k : K) :
    ((S.find k s.rows).isSome → (S.find k s'.rows).isSome) ∧
      S.stampOf (S.find k s.rows) ≤ S.stampOf (S.find k s'.rows) := by
  induction h with
  | refl => exact ⟨id, le_rfl⟩
  | @tail b c hreach hstep ih =>
    have hb := S.good_reaches hg hreach
    have hlast : ((S.find k b.rows).isSome → (S.find k c.rows).isSome) ∧
        S.stampOf (S.find k b.rows) ≤ S.stampOf (S.find k c.rows) := by
      cases hstep with
      | start h => exact ⟨id, le_rfl⟩
      | run h hexec => exact ⟨id, le_rfl⟩
      | abort h => exact ⟨id, le_rfl⟩
      | @commit us vs tx h hdone =>
        have htx := hb.txs tx (by simp [h])
        change (_ → (S.find k (S.overlay tx.versions b.rows)).isSome) ∧
          _ ≤ S.stampOf (S.find k (S.overlay tx.versions b.rows))
        rw [find_commit]
        refine ⟨fun hsome => ?_, S.stamp_le_current htx k⟩
        unfold current
        cases S.find k tx.versions with
        | none => simpa using hsome
        | some v => rfl
    exact ⟨fun hsome => hlast.1 (ih.1 hsome), ih.2.trans hlast.2⟩

/-! ### Rows that exist -/

/-- The rows of the table: the committed ones, and those that a transaction has created. -/
def live (s : State W R) : List R :=
  s.rows ++ s.txs.flatMap fun tx => tx.versions.filter fun v => S.find (S.key v) s.rows = none

/-- **No key has two rows.** -/
lemma nodup_live {initial : K → WithBot T} {s : State W R} (hg : S.Good initial s) :
    ((S.live s).map S.key).Nodup := by
  rw [live, List.map_append, List.nodup_append]
  refine ⟨hg.nodup, ?_, ?_⟩
  · rw [List.map_flatMap, List.nodup_flatMap]
    refine ⟨fun tx htx => (hg.txs tx htx).nodup.sublist (List.filter_sublist.map S.key), ?_⟩
    refine hg.apart.imp fun {a b} hab k hka hkb => ?_
    obtain ⟨v, hv, rfl⟩ := List.mem_map.mp hka
    obtain ⟨u, hu, hkey⟩ := List.mem_map.mp hkb
    rcases hab (S.key v) with hnone | hnone
    · exact S.find_eq_none.mp hnone (List.mem_map_of_mem (List.mem_of_mem_filter hv))
    · exact S.find_eq_none.mp hnone (hkey ▸ List.mem_map_of_mem (List.mem_of_mem_filter hu))
  · intro a ha b hb hab
    obtain ⟨v, hv, rfl⟩ := List.mem_map.mp hb
    obtain ⟨tx, -, hv⟩ := List.mem_flatMap.mp hv
    have hnone := (List.mem_filter.mp hv).2
    exact S.find_eq_none.mp (by simpa using hnone) (hab ▸ ha)

/-! ### A transaction alone -/

/-- What a statement does to a table no one else writes. -/
def apply (rows : List R) (stmt : Stmt W) : List R :=
  match S.find (S.target stmt.write) rows with
  | none => if stmt.creates then rows ++ [S.create stmt.write] else rows
  | some r => S.put (S.offer stmt.write r) rows

lemma map_replace_of_find {v : R} {rows : List R} (h : S.find (S.key v) rows = none) :
    rows.map (S.replace v) = rows := by
  have hid : ∀ u ∈ rows, S.replace v u = id u := by
    intro u hu
    have hk : S.key u ≠ S.key v := fun hk =>
      S.find_eq_none.mp h (hk ▸ List.mem_map_of_mem hu)
    simp [replace, hk]
  rw [List.map_congr_left hid, List.map_id]

lemma put_self {rows : List R} (hn : (rows.map S.key).Nodup) {r : R}
    (h : S.find (S.key r) rows = some r) : S.put r rows = rows := by
  have hid : ∀ u ∈ rows, S.replace r u = id u := by
    intro u hu
    unfold replace
    split
    · rename_i hk
      have hfind := S.find_of_mem hn hu
      rw [hk, h] at hfind
      exact Option.some.inj hfind
    · rfl
  rw [put, if_neg (by simp [h]), List.map_congr_left hid, List.map_id]

lemma overlay_put (v : R) (versions rows : List R) :
    S.overlay (S.put v versions) rows = S.put v (S.overlay versions rows) := by
  have hrows : (rows.map fun r => (S.find (S.key r) (S.put v versions)).getD r) =
      (rows.map fun r => (S.find (S.key r) versions).getD r).map (S.replace v) := by
    rw [List.map_map]
    refine List.map_congr_left fun r _ => ?_
    rw [Function.comp_apply, find_put, replace, key_getD_find]
    by_cases hk : S.key v = S.key r
    · rw [if_pos hk, if_pos hk.symm, Option.getD_some]
    · rw [if_neg hk, if_neg (Ne.symm hk)]
  have hover := S.find_overlay versions rows (S.key v)
  rw [overlay, hrows]
  -- the key is new among the versions or replaces one of them
  cases hv : S.find (S.key v) versions with
  | none =>
    rw [hv, Option.none_or] at hover
    have hput : S.put v versions = versions ++ [v] := by rw [put, if_pos hv]
    have hfilter : S.find (S.key v)
        (versions.filter fun u => S.find (S.key u) rows = none) = none :=
      S.find_eq_none.mpr fun hmem => S.find_eq_none.mp hv
        ((List.filter_sublist.map S.key).subset hmem)
    rw [hput, List.filter_append]
    cases hr : S.find (S.key v) rows with
    | none =>
      have hnone : S.find (S.key v)
          (rows.map fun r => (S.find (S.key r) versions).getD r) = none := by
        rw [S.find_map (S.key_getD_find versions), hr, Option.map_none]
      rw [put, if_pos (hover.trans hr), S.map_replace_of_find hnone, overlay,
        List.append_assoc]
      simp [hr]
    | some r =>
      rw [put, if_neg (by simp [hover, hr]), overlay, List.map_append,
        S.map_replace_of_find hfilter]
      simp [hr]
  | some u =>
    have hput : S.put v versions = versions.map (S.replace v) := by
      rw [put, if_neg (by simp [hv])]
    rw [hput, put, if_neg (by simp [hover, hv]), overlay, List.map_append, List.filter_map]
    simp only [Function.comp_def, key_replace]

/-- **A transaction that runs alone does what its statements do one after another.** -/
lemma exec_alone {rows : List R} {tx : Tx W R} (hrows : (rows.map S.key).Nodup)
    (hversions : (tx.versions.map S.key).Nodup) {stmt : Stmt W} {rest : List (Stmt W)}
    (hprogram : tx.program = stmt :: rest) :
    ∃ tx', S.exec rows [] tx = some tx' ∧ tx'.program = rest ∧
      S.overlay tx'.versions rows = S.apply (S.overlay tx.versions rows) stmt := by
  obtain ⟨creates, w⟩ := stmt
  have hfind : S.find (S.target w) (S.overlay tx.versions rows) =
      S.current rows tx (S.target w) := S.find_overlay _ _ _
  unfold exec apply
  rw [hprogram]
  dsimp only
  rw [hfind]
  cases hcur : S.current rows tx (S.target w) with
  | none =>
    cases creates with
    | false => exact ⟨_, rfl, rfl, rfl⟩
    | true =>
      refine ⟨_, rfl, rfl, ?_⟩
      rw [overlay_put, put, if_pos (by rw [S.key_create, hfind, hcur])]
      rfl
  | some r =>
    have hkey : S.key r = S.target w := S.key_of_find (hfind.trans hcur)
    by_cases hlater : creates = false ∧ S.time w < S.stamp r
    · refine ⟨_, if_pos hlater, rfl, ?_⟩
      have hself := S.put_self (S.nodup_overlay hrows hversions) (hkey ▸ hfind.trans hcur)
      dsimp only
      rw [S.offer_of_lt hlater.2, hself]
    · refine ⟨_, if_neg hlater, rfl, ?_⟩
      dsimp only
      rw [overlay_put]

lemma reaches_end_alone {rows : List R} {seen : List W} (hrows : (rows.map S.key).Nodup)
    (program : List (Stmt W)) {tx : Tx W R} (hg : S.TxGood rows tx)
    (hprogram : tx.program = program) :
    ∃ seen', S.Reaches programs ⟨rows, [tx], seen⟩
      ⟨program.foldl S.apply (S.overlay tx.versions rows), [], seen'⟩ := by
  induction program generalizing tx with
  | nil =>
    have hstep : S.Step programs ⟨rows, [] ++ tx :: [], seen⟩
        ⟨S.overlay tx.versions rows, [] ++ [], seen ++ tx.seen⟩ := Step.commit rfl hprogram
    exact ⟨_, .single hstep⟩
  | cons stmt rest ih =>
    obtain ⟨tx', hexec, hrest, hover⟩ := S.exec_alone hrows hg.nodup hprogram
    obtain ⟨seen', hreach⟩ := ih (S.txGood_exec hg hexec) hrest
    rw [hover] at hreach
    have hstep : S.Step programs ⟨rows, [] ++ tx :: [], seen⟩ ⟨rows, [] ++ tx' :: [], seen⟩ :=
      Step.run rfl hexec
    exact ⟨seen', .head hstep hreach⟩

lemma reaches_alone {rows : List R} {seen : List W} (hrows : (rows.map S.key).Nodup)
    {program : List (Stmt W)} (h : program ∈ programs) :
    ∃ seen', S.Reaches programs ⟨rows, [], seen⟩ ⟨program.foldl S.apply rows, [], seen'⟩ := by
  have hnone : S.overlay (Tx.start program : Tx W R).versions rows = rows := by
    simp [overlay, Tx.start, find]
  have hend : ∃ seen', S.Reaches programs ⟨rows, [Tx.start program], seen⟩
      ⟨program.foldl S.apply (S.overlay (Tx.start program).versions rows), [], seen'⟩ :=
    S.reaches_end_alone hrows program (S.txGood_start rows program) rfl
  obtain ⟨seen', hreach⟩ := hend
  rw [hnone] at hreach
  exact ⟨seen', .head (Step.start h) hreach⟩

end Store

end CortexDis.RowLocks
