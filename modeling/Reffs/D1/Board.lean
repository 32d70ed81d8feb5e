import Reffs.D1.Ordinary

/-!
# The board: who holds which chunk

An abstract model of the store. Of the state it keeps the chunks, the transactions and the repair
cohorts; of an operation, what it does to these three. A chunk is free, or pending under one staged
transaction, or under repair by one cohort, or marked in error; the operations move chunks between
these conditions.

`Board.Step` lists the moves with what each requires, and `Board.Inv` is what every move keeps:
pending pointers and staged transactions answer to each other, and so do repair pointers and
cohorts. Nothing here runs: that the reducers make these moves and no others is proved separately.
-/

namespace Reffs.D1

open SlotTable Table List Option RepairMember

structure Board where
  chunk : ObjectSlot → ChunkIndex → Chunk
  txns : Table maxTxns Txn
  repairs : Table maxRepairs Repair

/-- A chunk by slot and index; the chunks of an object that does not exist are blank. -/
def chunkAt (objects : Table maxObjects Object) (s : ObjectSlot) (i : ChunkIndex) : Chunk :=
  (getChunk objects s i).getD Chunk.blank

def Core.board (c : Core) : Board := ⟨chunkAt c.objects, c.txns, c.repairs⟩

/-! ## Vocabulary -/

/-- An ordinary transaction that is neither committed nor rolled back. -/
def Txn.Staged (t : Txn) : Prop := t.mode = .ordinary ∧ (t.phase = .prepared ∨ t.phase = .finalized)

instance (t : Txn) : Decidable t.Staged := inferInstanceAs (Decidable (_ ∧ _))

/-- What a staged transaction claims: a chunk, and what was visible there when it was written. -/
structure Claim where
  id : UInt64
  object : ObjectSlot
  index : ChunkIndex
  predecessor : Option UInt64

def Txn.claim (t : Txn) : Option Claim :=
  if t.Staged then some ⟨t.id, t.object, t.index, t.predecessor⟩ else none

def claimAt (txns : Table maxTxns Txn) (ti : Fin maxTxns) : Option Claim :=
  (txns ti).bind Txn.claim

/-- A cohort that holds its chunks and has not switched them. -/
def Repair.Open (r : Repair) : Prop :=
  r.phase = .admitted ∨ r.phase = .prepared ∨ r.phase = .finalized

/-- A cohort without what only says who runs it. -/
def Repair.unmoved (r : Repair) : Repair := { r with admission := 0 }

def putChunk (chunk : ObjectSlot → ChunkIndex → Chunk) (s : ObjectSlot) (i : ChunkIndex)
    (ch : Chunk) : ObjectSlot → ChunkIndex → Chunk :=
  fun s' i' => if s' = s ∧ i' = i then ch else chunk s' i'

/-- Change the chunks of one object that `l` names. -/
def mapChunks (chunk : ObjectSlot → ChunkIndex → Chunk) (s : ObjectSlot) (l : List ChunkIndex)
    (f : ChunkIndex → Chunk → Chunk) : ObjectSlot → ChunkIndex → Chunk :=
  fun s' i' => if s' = s ∧ i' ∈ l then f i' (chunk s' i') else chunk s' i'

def Board.Fresh (b : Board) (id : UInt64) : Prop :=
  id ≠ 0 ∧ (∀ ti t, b.txns ti = some t → t.id ≠ id) ∧
    ∀ ri r m, b.repairs ri = some r → m ∈ r.members → m.txn ≠ id

def OrdinaryKept (txns txns' : Table maxTxns Txn) : Prop :=
  ∀ ti t, t.mode = .ordinary → (txns' ti = some t ↔ txns ti = some t)

/-- No row is new, and what became of a row kept its number and its mode. -/
def RowsKept (txns txns' : Table maxTxns Txn) : Prop :=
  ∀ ti t', txns' ti = some t' → ∃ t, txns ti = some t ∧ t.id = t'.id ∧ t.mode = t'.mode

def RepairMember.vector (m : RepairMember) : ChunkIndex × UInt32 × UInt64 × UInt64 :=
  (m.index, m.mode, m.successor, m.txn)

/-- What kind of operation makes a move; the repair operations name their cohort. -/
inductive Act where
  | ordinary
  | control
  | repair (op : RepairOp) (cohort : UInt64)
  deriving DecidableEq, Repr

/-! ## Moves -/

inductive Board.Step (b : Board) : Act → Board → Prop where
  | idle (act : Act) : Step b act b
  | write {s : ObjectSlot} {i : ChunkIndex} {ti : Fin maxTxns} {row : Txn} {id : UInt64}
      (guard : Guard) (slot : b.txns ti = none) (number : row.id = id) (fresh : b.Fresh id)
      (at_ : row.object = s ∧ row.index = i)
      (mode : row.mode = .ordinary) (phase : row.phase = .prepared)
      (pred : row.predecessor = (b.chunk s i).visible)
      (writable : chunkWritable (b.chunk s i)) (pending : (b.chunk s i).pending = none) :
      Step b .ordinary ⟨putChunk b.chunk s i
        { b.chunk s i with guard := guard, pending := some id }, b.txns.set ti row, b.repairs⟩
  | activate {s : ObjectSlot} {i : ChunkIndex} {ti : Fin maxTxns} {row : Txn} (guard : Guard)
      (version : UInt64) (slot : b.txns ti = none) (fresh : b.Fresh row.id)
      (mode : row.mode = .ordinary) (phase : row.phase = .committed)
      (writable : chunkWritable (b.chunk s i)) (pending : (b.chunk s i).pending = none) :
      Step b .ordinary ⟨putChunk b.chunk s i
        { b.chunk s i with guard := guard, visible := some version }, b.txns.set ti row, b.repairs⟩
  | finalize {ti : Fin maxTxns} {t : Txn} (row : b.txns ti = some t) (staged : t.Staged) :
      Step b .ordinary ⟨b.chunk, b.txns.set ti { t with phase := .finalized }, b.repairs⟩
  | commit {ti : Fin maxTxns} {t : Txn} (version : UInt64) (row : b.txns ti = some t)
      (staged : t.Staged) :
      Step b .ordinary ⟨putChunk b.chunk t.object t.index
        { b.chunk t.object t.index with visible := some version, pending := none },
        b.txns.set ti { t with phase := .committed }, b.repairs⟩
  | rollback (act : Act) {ti : Fin maxTxns} {t : Txn} (row : b.txns ti = some t)
      (staged : t.Staged) :
      Step b act ⟨putChunk b.chunk t.object t.index ((b.chunk t.object t.index).dropPending t.id),
        b.txns.set ti { t with phase := .rolledBack }, b.repairs⟩
  | rollbackCommitted {s : ObjectSlot} {i : ChunkIndex} {ti : Fin maxTxns} {t : Txn}
      (version : UInt64) (row : b.txns ti = some t) (phase : t.phase = .committed)
      (writable : chunkWritable (b.chunk s i)) (pending : (b.chunk s i).pending = none) :
      Step b .ordinary ⟨putChunk b.chunk s i { b.chunk s i with visible := some version },
        b.txns.set ti { t with phase := .rolledBack }, b.repairs⟩
  | markError {s : ObjectSlot} {l : List ChunkIndex} (mark : ChunkIndex → ErrorMark)
      (uncleared : ∀ i ∈ l, (mark i).cleared = false)
      (free : ∀ i ∈ l, (b.chunk s i).error = none ∧ (b.chunk s i).pending = none ∧
        (b.chunk s i).repair = none) :
      Step b (.repair .markError 0)
        ⟨mapChunks b.chunk s l fun i ch => { ch with error := some (mark i) }, b.txns, b.repairs⟩
  | beginRepair {ri : Fin maxRepairs} {r : Repair} {txns : Table maxTxns Txn}
      (slot : b.repairs ri = none) (fresh : ∀ rj r', b.repairs rj = some r' → r'.id ≠ r.id)
      (phase : r.phase = .admitted) (nodup : (r.members.map (·.index)).Nodup)
      (free : ∀ m ∈ r.members, (b.chunk r.object m.index).repair = none ∧
        (b.chunk r.object m.index).repairLocked = false ∧
        (b.chunk r.object m.index).pending = none ∧
        (b.chunk r.object m.index).visible = some m.successor ∧
        ((b.chunk r.object m.index).error.isSome → m.mode = repairError))
      (kept : ∀ ti t, b.txns ti = some t → txns ti = some t)
      (grown : ∀ ti t, txns ti = some t → b.txns ti = some t ∨ (t.mode = .repair ∧ b.Fresh t.id))
      (unique : Table.KeyUnique Txn.id txns)
      (txn : ∀ m ∈ r.members, b.Fresh m.txn) :
      Step b (.repair .beginRepair r.id)
        ⟨mapChunks b.chunk r.object (r.members.map (·.index)) fun _ ch =>
          { ch with repair := some r.id }, txns, b.repairs.set ri r⟩
  | prepareRepair {ri : Fin maxRepairs} {r r' : Repair} {txns : Table maxTxns Txn}
      (row : b.repairs ri = some r) (phase : r.phase = .admitted)
      (same : r'.id = r.id ∧ r'.object = r.object ∧
        r'.members.map (·.vector) = r.members.map (·.vector))
      (phase' : r'.phase = .prepared) (ordinary : OrdinaryKept b.txns txns)
      (rows : RowsKept b.txns txns) :
      Step b (.repair .prepareRepair r.id) ⟨b.chunk, txns, b.repairs.set ri r'⟩
  | abortRepair (op : RepairOp) (hop : op ≠ .unlock) {ri : Fin maxRepairs} {r r' : Repair}
      {txns : Table maxTxns Txn} (row : b.repairs ri = some r)
      (phase : r.Open) (same : r'.id = r.id ∧ r'.object = r.object)
      (phase' : r'.phase = .aborted) (dropped : ∀ m ∈ r'.members, m.txn = 0)
      (nodup : (r'.members.map (·.index)).Nodup)
      (ordinary : OrdinaryKept b.txns txns) (rows : RowsKept b.txns txns) :
      Step b (.repair op r.id) ⟨mapChunks b.chunk r.object (r.members.map (·.index)) fun _ ch =>
          { ch with repair := none }, txns, b.repairs.set ri r'⟩
  | finalizeRepair {ri : Fin maxRepairs} {r : Repair} (row : b.repairs ri = some r)
      (phase : r.phase = .prepared) :
      Step b (.repair .finalizeRepair r.id)
        ⟨b.chunk, b.txns, b.repairs.set ri { r with phase := .finalized }⟩
  | commitRepair {ri : Fin maxRepairs} {r : Repair} {txns : Table maxTxns Txn}
      (version : ChunkIndex → UInt64) (row : b.repairs ri = some r) (phase : r.phase = .finalized)
      (staged : ∀ m ∈ r.members, version m.index = m.version)
      (ordinary : OrdinaryKept b.txns txns) (rows : RowsKept b.txns txns) :
      Step b (.repair .commitRepair r.id)
        ⟨mapChunks b.chunk r.object (r.members.map (·.index)) fun i ch =>
          { ch with visible := some (version i), repairLocked := true }, txns,
          b.repairs.set ri { r with phase := .committed }⟩
  | clearError {ri : Fin maxRepairs} {r : Repair} {l : List ChunkIndex}
      (row : b.repairs ri = some r) (phase : r.phase = .committed)
      (named : ∀ i ∈ l, ∃ m ∈ r.members, m.index = i ∧ m.mode = repairError)
      (marked : ∀ i ∈ l, (b.chunk r.object i).error.isSome) :
      Step b (.repair .clearError r.id) ⟨mapChunks b.chunk r.object l fun _ ch =>
          { ch with error := ch.error.map ({ · with cleared := true }) }, b.txns, b.repairs⟩
  | unlock {ri : Fin maxRepairs} {r : Repair} (row : b.repairs ri = some r)
      (phase : r.phase = .committed)
      (locked : ∀ m ∈ r.members, (b.chunk r.object m.index).repairLocked ∧
        (m.mode = repairError → (b.chunk r.object m.index).error.any (·.cleared))) :
      Step b (.repair .unlock r.id)
        ⟨mapChunks b.chunk r.object (r.members.map (·.index)) fun _ ch =>
          { ch with repairLocked := false, repair := none, error := none }, b.txns, b.repairs⟩
  | handOver {txns : Table maxTxns Txn} {repairs : Table maxRepairs Repair}
      (claims : ∀ ti, claimAt txns ti = claimAt b.txns ti)
      (rows : RowsKept b.txns txns)
      (cohorts : ∀ ri, (repairs ri).map Repair.unmoved = (b.repairs ri).map Repair.unmoved) :
      Step b .control ⟨b.chunk, txns, repairs⟩

/-! ## What every move keeps -/

variable {ch : Chunk} {chunk : ObjectSlot → ChunkIndex → Chunk} {s : ObjectSlot} {i : ChunkIndex}
  {f : ChunkIndex → Chunk → Chunk} {txns : Table maxTxns Txn} {ti : Fin maxTxns} {t row : Txn}
  {b b' : Board} {repairs : Table maxRepairs Repair} {l : List ChunkIndex} {ri : Fin maxRepairs}
  {r : Repair} {act : Act}

/-- Numbers of transactions are apart, and a number a cohort names is a repair transaction's. -/
structure Board.TxnInv (b : Board) : Prop where
  unique : Table.KeyUnique Txn.id b.txns
  live : ∀ ti t, b.txns ti = some t → t.id ≠ 0
  member : ∀ ri r m ti t, b.repairs ri = some r → m ∈ r.members → b.txns ti = some t →
    t.id = m.txn → t.mode = .repair

structure Board.PendingInv (b : Board) : Prop where
  pending : ∀ s i id, (b.chunk s i).pending = some id → chunkWritable (b.chunk s i) ∧
    ∃ ti cl, claimAt b.txns ti = some cl ∧ cl.id = id ∧ cl.object = s ∧ cl.index = i
  claimed : ∀ ti cl, claimAt b.txns ti = some cl →
    (b.chunk cl.object cl.index).pending = some cl.id ∧
      (b.chunk cl.object cl.index).visible = cl.predecessor

/-- What a chunk under repair looks like to the cohort and member that hold it. -/
def Repair.Holds (r : Repair) (m : RepairMember) (ch : Chunk) : Prop :=
  (ch.error.isSome → m.mode = repairError) ∧
    (r.Open ∧ ch.repairLocked = false ∧ ch.visible = some m.successor ∨
      r.phase = .committed ∧ ch.repairLocked = true ∧ ch.visible = some m.version)

/-- Repair pointers and cohorts answer to each other, for every cohort that has not committed. -/
structure Board.CohortInv (b : Board) : Prop where
  unique : Table.KeyUnique Repair.id b.repairs
  nodup : ∀ ri r, b.repairs ri = some r → (r.members.map (·.index)).Nodup
  phase : ∀ ri r, b.repairs ri = some r → r.Open ∨ r.phase = .committed ∨ r.phase = .aborted
  open_ : ∀ ri r m, b.repairs ri = some r → r.Open → m ∈ r.members →
    (b.chunk r.object m.index).repair = some r.id
  held : ∀ s i id, (b.chunk s i).repair = some id → ∃ ri r m, b.repairs ri = some r ∧ r.id = id ∧
    r.object = s ∧ m ∈ r.members ∧ m.index = i ∧ r.Holds m (b.chunk s i)
  locked : ∀ s i, (b.chunk s i).repairLocked = true → (b.chunk s i).repair.isSome

structure Board.Inv (b : Board) : Prop where
  txn : b.TxnInv
  pending : b.PendingInv
  cohort : b.CohortInv

attribute [grind cases] Board.TxnInv Board.PendingInv Board.CohortInv
attribute [grind =] Table.KeyUnique Txn.Staged Repair.Open Repair.Holds Board.Fresh OrdinaryKept
  RowsKept mapChunks putChunk

/-! ### Small facts -/

lemma chunkWritable_iff :
    chunkWritable ch ↔ ch.error = none ∧ ch.repair = none ∧ ch.repairLocked = false := by
  unfold chunkWritable
  rw [Bool.and_eq_true, Bool.and_eq_true, isNone_iff_eq_none, isNone_iff_eq_none,
    Bool.not_eq_true', and_assoc]

lemma putChunk_self (chunk : ObjectSlot → ChunkIndex → Chunk) (s : ObjectSlot) (i : ChunkIndex)
    (ch : Chunk) : putChunk chunk s i ch s i = ch := if_pos ⟨rfl, rfl⟩

lemma putChunk_ne {s' : ObjectSlot} {i' : ChunkIndex} (h : ¬ (s' = s ∧ i' = i)) :
    putChunk chunk s i ch s' i' = chunk s' i' := if_neg h

lemma putChunk_field {α : Type} (field : Chunk → α) (h : field ch = field (chunk s i))
    (s' : ObjectSlot)
    (i' : ChunkIndex) : field (putChunk chunk s i ch s' i') = field (chunk s' i') := by
  unfold putChunk
  split
  · next he =>
    obtain ⟨rfl, rfl⟩ := he
    exact h
  · rfl

lemma mapChunks_field {α : Type} (field : Chunk → α) (h : ∀ i ch, field (f i ch) = field ch)
    (s : ObjectSlot) (l : List ChunkIndex) (s' : ObjectSlot) (i' : ChunkIndex) :
    field (mapChunks chunk s l f s' i') = field (chunk s' i') := by
  unfold mapChunks
  split
  · exact h _ _
  · rfl

lemma claimAt_set_self (txns : Table maxTxns Txn) (ti : Fin maxTxns) (t : Txn) :
    claimAt (txns.set ti t) ti = t.claim := by
  simp [claimAt]

lemma claimAt_set_ne {tj : Fin maxTxns} (h : tj ≠ ti) :
    claimAt (txns.set ti t) tj = claimAt txns tj := by
  simp [claimAt, set_ne h]

lemma claim_staged (h : t.Staged) : t.claim = some ⟨t.id, t.object, t.index, t.predecessor⟩ :=
  if_pos h

lemma claim_phase {phase : Phase} (h : phase ≠ .prepared ∧ phase ≠ .finalized) :
    ({ t with phase := phase } : Txn).claim = none := by
  refine if_neg fun hs => ?_
  rcases hs.2 with hp | hp
  · exact h.1 hp
  · exact h.2 hp

lemma claimAt_row (h : txns ti = some t) : claimAt txns ti = t.claim := by simp [claimAt, h]

lemma claimAt_some {cl : Claim} (h : claimAt txns ti = some cl) : ∃ t, txns ti = some t ∧ t.Staged ∧
      cl = ⟨t.id, t.object, t.index, t.predecessor⟩ := by
  obtain ⟨t, ht, hc⟩ := bind_eq_some_iff.mp h
  unfold Txn.claim at hc
  split at hc
  · next hs => exact ⟨t, ht, hs, (some.inj hc).symm⟩
  · cases hc

lemma OrdinaryKept.claimAt_eq {txns' : Table maxTxns Txn} (h : OrdinaryKept txns txns')
    (ti : Fin maxTxns) : claimAt txns' ti = claimAt txns ti := by
  have key : ∀ cl, claimAt txns' ti = some cl ↔ claimAt txns ti = some cl := by
    intro cl
    constructor
    · intro hcl
      obtain ⟨t, ht, hs, rfl⟩ := claimAt_some hcl
      rw [claimAt_row ((h ti t hs.1).mp ht), claim_staged hs]
    · intro hcl
      obtain ⟨t, ht, hs, rfl⟩ := claimAt_some hcl
      rw [claimAt_row ((h ti t hs.1).mpr ht), claim_staged hs]
  exact ext key

lemma Board.TxnInv.claim_eq (h : b.TxnInv) {tj : Fin maxTxns} {cl cl' : Claim}
    (hi : claimAt b.txns ti = some cl) (hj : claimAt b.txns tj = some cl') (hid : cl.id = cl'.id) :
    ti = tj := by
  obtain ⟨t, ht, -, rfl⟩ := claimAt_some hi
  obtain ⟨t', ht', -, rfl⟩ := claimAt_some hj
  exact h.unique ti tj t t' ht ht' hid

lemma board_inv_blank : Board.Inv ⟨fun _ _ => Chunk.blank, empty, empty⟩ where
  txn := ⟨keyUnique_empty _, fun _ _ h => (nomatch h), fun _ _ _ _ _ h => (nomatch h)⟩
  pending := ⟨fun _ _ _ h => (nomatch h), fun _ _ h => (nomatch h)⟩
  cohort := ⟨keyUnique_empty _, fun _ _ h => (nomatch h), fun _ _ h => (nomatch h),
    fun _ _ _ h => (nomatch h), fun _ _ _ h => (nomatch h), fun _ _ h => (nomatch h)⟩

/-! ### Rules -/

lemma Board.TxnInv.rows (h : b.TxnInv) (hrows : RowsKept b.txns txns)
    (hmember : ∀ ri r m, repairs ri = some r → m ∈ r.members →
      m.txn = 0 ∨ ∃ rj r' m', b.repairs rj = some r' ∧ m' ∈ r'.members ∧ m'.txn = m.txn) :
    Board.TxnInv ⟨chunk, txns, repairs⟩ := by
  constructor
  · grind
  · grind
  · grind

lemma Board.PendingInv.frame (h : b.PendingInv)
    (hclaims : ∀ ti, claimAt b'.txns ti = claimAt b.txns ti)
    (hpending : ∀ s i, (b'.chunk s i).pending = (b.chunk s i).pending)
    (hsame : ∀ s i, (b.chunk s i).pending ≠ none → b'.chunk s i = b.chunk s i) : b'.PendingInv := by
  constructor
  · grind
  · grind

lemma Board.CohortInv.frame (h : b.CohortInv) (hchunk : ∀ s i, chunk s i = b.chunk s i ∨
      (b.chunk s i).repair = none ∧ (chunk s i).repair = none ∧ (chunk s i).repairLocked = false) :
    Board.CohortInv ⟨chunk, txns, b.repairs⟩ := by
  refine { h with open_ := ?_, held := ?_, locked := ?_ }
  · grind
  · grind
  · grind

/-! ### Ordinary moves -/

lemma Board.CohortInv.put (h : b.CohortInv) (hw : chunkWritable (b.chunk s i))
    (hch : ch.repair = none ∧ ch.repairLocked = false) :
    Board.CohortInv ⟨putChunk b.chunk s i ch, txns, b.repairs⟩ := by
  refine h.frame fun s' i' => ?_
  by_cases he : s' = s ∧ i' = i
  · obtain ⟨rfl, rfl⟩ := he
    rw [putChunk_self]
    exact .inr ⟨(chunkWritable_iff.mp hw).2.1, hch⟩
  · exact .inl (putChunk_ne he)

lemma rowsKept_set {t' : Txn} (h : txns ti = some t) (hid : t'.id = t.id)
    (hmode : t'.mode = t.mode) : RowsKept txns (txns.set ti t') := by
  intro tj u hu
  by_cases hj : tj = ti
  · grind
  · rw [set_ne hj] at hu
    exact ⟨u, hu, rfl, rfl⟩

lemma Board.TxnInv.set (h : b.TxnInv) {t' : Txn} (ht : b.txns ti = some t) (hid : t'.id = t.id)
    (hmode : t'.mode = t.mode) (chunk : ObjectSlot → ChunkIndex → Chunk) :
    Board.TxnInv ⟨chunk, b.txns.set ti t', b.repairs⟩ :=
  h.rows (rowsKept_set ht hid hmode) fun ri r m hr hm => .inr ⟨ri, r, m, hr, hm, rfl⟩

lemma Board.TxnInv.add (h : b.TxnInv) (fresh : b.Fresh row.id)
    (chunk : ObjectSlot → ChunkIndex → Chunk) :
    Board.TxnInv ⟨chunk, b.txns.set ti row, b.repairs⟩ := by
  obtain ⟨hlive, hrow, hmem⟩ := fresh
  refine ⟨h.unique.set fun j t hj _ => hrow j t hj, ?_, ?_⟩
  · grind
  · grind

lemma Board.PendingInv.write (h : b.PendingInv) (guard : Guard) (slot : b.txns ti = none)
    (at_ : row.object = s ∧ row.index = i) (staged : row.Staged)
    (pred : row.predecessor = (b.chunk s i).visible) (writable : chunkWritable (b.chunk s i))
    (pending : (b.chunk s i).pending = none) : Board.PendingInv ⟨putChunk b.chunk s i
      { b.chunk s i with guard := guard, pending := some row.id }, b.txns.set ti row,
        b.repairs⟩ := by
  obtain ⟨rfl, rfl⟩ := at_
  have hti : claimAt b.txns ti = none := by simp [claimAt, slot]
  constructor
  · intro s i id hp
    by_cases he : s = row.object ∧ i = row.index
    · obtain ⟨rfl, rfl⟩ := he
      simp only [putChunk_self] at hp ⊢
      cases hp
      exact ⟨chunkWritable_iff.mpr (chunkWritable_iff.mp writable), ti, _,
        (claimAt_set_self _ _ _).trans (claim_staged staged), rfl, rfl, rfl⟩
    · simp only [putChunk_ne he] at hp ⊢
      obtain ⟨hw, tj, cl, hcl, hrest⟩ := h.pending s i id hp
      refine ⟨hw, tj, cl, ?_, hrest⟩
      rw [claimAt_set_ne, hcl]
      rintro rfl
      rw [hti] at hcl
      cases hcl
  · intro tj cl hcl
    by_cases hj : tj = ti
    · subst hj
      rw [claimAt_set_self, claim_staged staged] at hcl
      cases hcl
      dsimp only
      rw [putChunk_self]
      exact ⟨rfl, pred.symm⟩
    · grind [claimAt_set_ne, pending, putChunk_ne]

/-- A chunk that no transaction claims may change its guard and its visible pointer, and a
transaction that claims nothing may change. -/
lemma Board.PendingInv.unclaimed (h : b.PendingInv) (hti : claimAt b.txns ti = none)
    (hrow : row.claim = none) (pending : (b.chunk s i).pending = none) (hch : ch.pending = none) :
    Board.PendingInv ⟨putChunk b.chunk s i ch, b.txns.set ti row, b.repairs⟩ := by
  refine h.frame ?_ ?_ ?_
  · intro tj
    by_cases hj : tj = ti
    · grind [claimAt_set_self]
    · exact claimAt_set_ne hj
  · grind [pending, putChunk_ne, putChunk_self]
  · intro s' i' hp
    by_cases he : s' = s ∧ i' = i
    · obtain ⟨rfl, rfl⟩ := he
      exact absurd pending hp
    · exact putChunk_ne he

lemma Board.PendingInv.release (h : b.PendingInv) (ht : b.TxnInv) (slot : b.txns ti = some t)
    (staged : t.Staged) (hrow : row.claim = none) (hch : ch.pending = none) :
    Board.PendingInv ⟨putChunk b.chunk t.object t.index ch, b.txns.set ti row, b.repairs⟩ := by
  have hclaim : claimAt b.txns ti = some ⟨t.id, t.object, t.index, t.predecessor⟩ := by
    rw [claimAt_row slot, claim_staged staged]
  constructor
  · intro s i id hp
    by_cases he : s = t.object ∧ i = t.index
    · obtain ⟨rfl, rfl⟩ := he
      simp only [putChunk_self, hch] at hp
      cases hp
    · simp only [putChunk_ne he] at hp ⊢
      obtain ⟨hw, tj, cl, hcl, hid, hs, hi⟩ := h.pending s i id hp
      refine ⟨hw, tj, cl, ?_, hid, hs, hi⟩
      rw [claimAt_set_ne, hcl]
      rintro rfl
      rw [hclaim] at hcl
      cases hcl
      exact he ⟨hs.symm, hi.symm⟩
  · intro tj cl hcl
    by_cases hj : tj = ti
    · subst hj
      rw [claimAt_set_self, hrow] at hcl
      cases hcl
    · rw [claimAt_set_ne hj] at hcl
      have hcl' := h.claimed tj cl hcl
      have he : ¬ (cl.object = t.object ∧ cl.index = t.index) := by
        rintro ⟨ho, hi⟩
        have hpend := (h.claimed ti _ hclaim).1
        rw [ho, hi, hpend] at hcl'
        exact hj (ht.claim_eq hcl hclaim (some.inj hcl'.1).symm)
      simp only [putChunk_ne he]
      exact hcl'

lemma Board.Inv.staged_chunk (h : b.Inv) (row : b.txns ti = some t) (staged : t.Staged) :
    (b.chunk t.object t.index).pending = some t.id ∧
      (b.chunk t.object t.index).visible = t.predecessor ∧
      chunkWritable (b.chunk t.object t.index) := by
  have hcl := h.pending.claimed ti _ ((claimAt_row row).trans (claim_staged staged))
  exact ⟨hcl.1, hcl.2, (h.pending.pending _ _ _ hcl.1).1⟩

/-! ### Repair moves -/

lemma mapChunks_in (h : i ∈ l) : mapChunks chunk s l f s i = f i (chunk s i) := if_pos ⟨rfl, h⟩

lemma mapChunks_out {s' : ObjectSlot} (h : ¬ (s' = s ∧ i ∈ l)) :
    mapChunks chunk s l f s' i = chunk s' i := if_neg h

lemma Board.PendingInv.map (h : b.PendingInv) (hclaims : ∀ ti, claimAt txns ti = claimAt b.txns ti)
    (hf : ∀ i ch, (f i ch).pending = ch.pending) (hfree : ∀ i ∈ l, (b.chunk s i).pending = none) :
    Board.PendingInv ⟨mapChunks b.chunk s l f, txns, repairs⟩ := by
  refine h.frame hclaims ?_ ?_
  · grind [mapChunks_in, mapChunks_out]
  · intro s' i hp
    refine mapChunks_out fun he => hp ?_
    rw [he.1]
    exact hfree i he.2

lemma Board.PendingInv.not_pending (h : b.PendingInv) (hw : chunkWritable (b.chunk s i) ≠ true) :
    (b.chunk s i).pending = none := by
  cases hp : (b.chunk s i).pending with
  | none => rfl
  | some id => exact absurd (h.pending s i id hp).1 hw

lemma repair_not_writable {id : UInt64} (h : ch.repair = some id) : chunkWritable ch ≠ true := by
  intro hw
  rw [(chunkWritable_iff.mp hw).2.1] at h
  cases h

lemma locked_not_writable (h : ch.repairLocked) : chunkWritable ch ≠ true := by
  intro hw
  rw [(chunkWritable_iff.mp hw).2.2] at h
  cases h

lemma Board.CohortInv.cohort_eq (h : b.CohortInv) {rj : Fin maxRepairs} {r' : Repair}
    (hr : b.repairs ri = some r) (hr' : b.repairs rj = some r') (hid : r.id = r'.id) :
    ri = rj ∧ r = r' :=
  ⟨h.unique ri rj r r' hr hr' hid, h.unique.row_eq hr hr' hid⟩

lemma member_eq (h : (r.members.map (·.index)).Nodup) {m m' : RepairMember} (hm : m ∈ r.members)
    (hm' : m' ∈ r.members) (hi : m.index = m'.index) : m = m' :=
  inj_on_of_nodup_map h hm hm' hi

namespace Board.CohortInv

variable (h : b.CohortInv)

include h

section

variable (hr : b.repairs ri = some r)

include hr

lemma open_chunk {m : RepairMember}
    (ho : r.Open) (hm : m ∈ r.members) : (b.chunk r.object m.index).repair = some r.id ∧
      ((b.chunk r.object m.index).error.isSome → m.mode = repairError) ∧
      (b.chunk r.object m.index).repairLocked = false ∧
      (b.chunk r.object m.index).visible = some m.successor := by
  have hrep := h.open_ ri r m hr ho hm
  obtain ⟨rj, r', m', hr', hid, -, hm', hi, hmode, hcase⟩ := h.held _ _ _ hrep
  obtain ⟨rfl, rfl⟩ := h.cohort_eq hr hr' hid.symm
  obtain rfl := member_eq (h.nodup ri r hr) hm hm' hi.symm
  refine ⟨hrep, hmode, ?_⟩
  rcases hcase with ⟨-, hl, hv⟩ | ⟨hc, -⟩
  · exact ⟨hl, hv⟩
  · rcases ho with ho | ho | ho <;> rw [hc] at ho <;> cases ho

/-- A cohort moves on: only chunks it holds change, and those it still holds afterwards look as its
new phase says. -/
lemma update {r' : Repair}
    (hid : r'.id = r.id) (hobj : r'.object = r.object) (hnodup : (r'.members.map (·.index)).Nodup)
    (hphase : r'.Open ∨ r'.phase = .committed ∨ r'.phase = .aborted)
    (hother : ∀ s i, (b.chunk s i).repair ≠ some r.id → chunk s i = b.chunk s i)
    (hopen : r'.Open → ∀ m ∈ r'.members, (chunk r.object m.index).repair = some r.id)
    (hmine : ∀ s i, (b.chunk s i).repair = some r.id →
      (chunk s i).repair = none ∧ (chunk s i).repairLocked = false ∨
      (chunk s i).repair = some r.id ∧
        ∃ m ∈ r'.members, r.object = s ∧ m.index = i ∧ r'.Holds m (chunk s i)) :
    Board.CohortInv ⟨chunk, txns, b.repairs.set ri r'⟩ := by
  have hrow : ∀ {rj q}, b.repairs.set ri r' rj = some q → rj = ri ∧ q = r' ∨
      rj ≠ ri ∧ b.repairs rj = some q ∧ q.id ≠ r.id := by grind
  constructor
  · exact h.unique.set_same hr hid
  · grind
  · grind
  · intro rj q m hq ho hm
    rcases hrow hq with ⟨-, rfl⟩ | ⟨-, hq, hne⟩
    · rw [hobj, hid]
      exact hopen ho m hm
    · have hrep := h.open_ rj q m hq ho hm
      refine (congrArg Chunk.repair (hother _ _ ?_)).trans hrep
      rw [hrep]
      exact fun he => hne (some.inj he)
  · intro s i id hrep
    have hrep : (chunk s i).repair = some id := hrep
    by_cases hmy : (b.chunk s i).repair = some r.id
    · grind
    · grind
  · intro s i hl
    have hl : (chunk s i).repairLocked := hl
    show (chunk s i).repair.isSome
    by_cases hmy : (b.chunk s i).repair = some r.id
    · grind
    · rw [hother s i hmy] at hl ⊢
      exact h.locked s i hl

lemma held_member (hrep : (b.chunk s i).repair = some r.id) :
    r.object = s ∧ ∃ m ∈ r.members, m.index = i ∧ r.Holds m (b.chunk s i) := by
  grind

lemma map_other (ho : r.Open) (f : ChunkIndex → Chunk → Chunk) (s : ObjectSlot) (i : ChunkIndex)
    (hne : (b.chunk s i).repair ≠ some r.id) :
    mapChunks b.chunk r.object (r.members.map (·.index)) f s i = b.chunk s i := by
  grind

end

lemma begin_ (slot : b.repairs ri = none)
    (fresh : ∀ rj r', b.repairs rj = some r' → r'.id ≠ r.id) (phase : r.phase = .admitted)
    (nodup : (r.members.map (·.index)).Nodup)
    (free : ∀ m ∈ r.members, (b.chunk r.object m.index).repair = none ∧
      (b.chunk r.object m.index).repairLocked = false ∧ (b.chunk r.object m.index).pending = none ∧
      (b.chunk r.object m.index).visible = some m.successor ∧
      ((b.chunk r.object m.index).error.isSome → m.mode = repairError)) :
    Board.CohortInv ⟨mapChunks b.chunk r.object (r.members.map (·.index)) fun _ ch =>
      { ch with repair := some r.id }, txns, b.repairs.set ri r⟩ := by
  have hopen : r.Open := .inl phase
  have hrow : ∀ {rj q}, b.repairs.set ri r rj = some q → rj = ri ∧ q = r ∨
      rj ≠ ri ∧ b.repairs rj = some q := by grind
  -- A chunk that was under repair is none of the new cohort's.
  have hold : ∀ s i, (b.chunk s i).repair ≠ none → mapChunks b.chunk r.object
      (r.members.map (·.index)) (fun _ ch => { ch with repair := some r.id }) s i =
        b.chunk s i := by
    intro s i hne
    refine mapChunks_out ?_
    rintro ⟨rfl, hi⟩
    obtain ⟨m, hm, rfl⟩ := List.mem_map.mp hi
    exact hne (free m hm).1
  constructor
  · exact h.unique.set fun j q hq _ => fresh j q hq
  · grind
  · grind
  · grind [List.mem_map_of_mem, mapChunks_in]
  · intro s i id hrep
    by_cases hin : s = r.object ∧ i ∈ r.members.map (·.index)
    · obtain ⟨rfl, hi⟩ := hin
      obtain ⟨m, hm, rfl⟩ := List.mem_map.mp hi
      dsimp only at hrep ⊢
      rw [mapChunks_in hi] at hrep ⊢
      cases hrep
      obtain ⟨-, hl, -, hv, hmode⟩ := free m hm
      exact ⟨ri, r, m, Table.set_self _ _ _, rfl, rfl, hm, rfl, hmode, .inl ⟨hopen, hl, hv⟩⟩
    · dsimp only at hrep ⊢
      rw [mapChunks_out hin] at hrep ⊢
      obtain ⟨rj, q, m, hq, hrest⟩ := h.held s i id hrep
      have hj : rj ≠ ri := by
        rintro rfl
        rw [slot] at hq
        cases hq
      exact ⟨rj, q, m, (Table.set_ne hj).trans hq, hrest⟩
  · grind [mapChunks_in, mapChunks_out]

lemma unlock (hlocked : ∀ i ∈ l, (b.chunk s i).repairLocked) :
    Board.CohortInv ⟨mapChunks b.chunk s l fun _ ch =>
      { ch with repairLocked := false, repair := none, error := none }, txns, b.repairs⟩ := by
  refine { h with open_ := ?_, held := ?_, locked := ?_ }
  · intro ri r m hr ho hm
    have hch := h.open_chunk hr ho hm
    have hout : ¬ (r.object = s ∧ m.index ∈ l) := by grind
    exact (congrArg Chunk.repair (mapChunks_out hout)).trans hch.1
  · grind [mapChunks_in, mapChunks_out]
  · grind [mapChunks_in, mapChunks_out]

lemma errors {f : ErrorMark → ErrorMark} :
    Board.CohortInv ⟨mapChunks b.chunk s l fun _ ch => { ch with error := ch.error.map f }, txns,
      b.repairs⟩ := by
  have hsame : ∀ s' i, ∃ e, e.isSome = (b.chunk s' i).error.isSome ∧
      mapChunks b.chunk s l (fun _ ch => { ch with error := ch.error.map f }) s' i =
        { b.chunk s' i with error := e } := by
    intro s' i
    by_cases hin : s' = s ∧ i ∈ l
    · obtain ⟨rfl, hi⟩ := hin
      exact ⟨_, isSome_map, mapChunks_in hi⟩
    · exact ⟨_, rfl, mapChunks_out hin⟩
  refine { h with open_ := ?_, held := ?_, locked := ?_ }
  · intro ri r m hr ho hm
    obtain ⟨e, -, he⟩ := hsame r.object m.index
    exact (congrArg Chunk.repair he).trans (h.open_ ri r m hr ho hm)
  · intro s' i id hrep
    obtain ⟨e, hsome, he⟩ := hsame s' i
    dsimp only at hrep ⊢
    rw [he] at hrep ⊢
    obtain ⟨ri, r, m, hr, hid, hobj, hm, hi, hmode, hcase⟩ := h.held s' i id hrep
    refine ⟨ri, r, m, hr, hid, hobj, hm, hi, fun hs => hmode ?_, hcase⟩
    rw [← hsome]
    exact hs
  · intro s' i hl
    obtain ⟨e, -, he⟩ := hsame s' i
    dsimp only at hl ⊢
    rw [he] at hl ⊢
    exact h.locked s' i hl

lemma handOver
    (cohorts : ∀ ri, (repairs ri).map Repair.unmoved = (b.repairs ri).map Repair.unmoved) :
    Board.CohortInv ⟨b.chunk, txns, repairs⟩ := by
  -- Every row has its counterpart, which differs in the admission only.
  have hback : ∀ ri r', repairs ri = some r' → ∃ r, b.repairs ri = some r ∧
      r'.id = r.id ∧ r'.object = r.object ∧ r'.phase = r.phase ∧ r'.members = r.members := by
    intro ri r' hr'
    have hc := cohorts ri
    rw [hr'] at hc
    obtain ⟨r, hr, he⟩ := map_eq_some_iff.mp hc.symm
    simp only [Repair.unmoved, Repair.mk.injEq] at he
    exact ⟨r, hr, he.1.symm, he.2.1.symm, he.2.2.2.1.symm, he.2.2.2.2.symm⟩
  have hforth : ∀ ri r, b.repairs ri = some r → ∃ r', repairs ri = some r' ∧
      r'.id = r.id ∧ r'.object = r.object ∧ r'.phase = r.phase ∧ r'.members = r.members := by
    intro ri r hr
    have hc := cohorts ri
    rw [hr] at hc
    obtain ⟨r', hr', he⟩ := map_eq_some_iff.mp hc
    simp only [Repair.unmoved, Repair.mk.injEq] at he
    exact ⟨r', hr', he.1, he.2.1, he.2.2.2.1, he.2.2.2.2⟩
  constructor
  · grind
  · grind
  · grind
  · grind
  · grind
  · exact h.locked

end Board.CohortInv

/-! ## Every move keeps the invariant -/

lemma Board.Step.txn (h : b.TxnInv) (hs : b.Step act b') : b'.TxnInv := by
  have hmember : ∀ ri r m, b.repairs ri = some r → m ∈ r.members →
      m.txn = 0 ∨ ∃ rj r' m', b.repairs rj = some r' ∧ m' ∈ r'.members ∧ m'.txn = m.txn :=
    fun ri r m hr hm => .inr ⟨ri, r, m, hr, hm, rfl⟩
  have hself : RowsKept b.txns b.txns := fun ti t ht => ⟨t, ht, rfl, rfl⟩
  -- A cohort whose row changed, its transactions being the old ones or none.
  have hset : ∀ {ri : Fin maxRepairs} {r r' : Repair}, b.repairs ri = some r →
      (∀ m ∈ r'.members, m.txn = 0 ∨ ∃ m' ∈ r.members, m'.txn = m.txn) →
      ∀ rj q m, b.repairs.set ri r' rj = some q → m ∈ q.members →
        m.txn = 0 ∨ ∃ rk r' m', b.repairs rk = some r' ∧ m' ∈ r'.members ∧ m'.txn = m.txn := by
          grind
  cases hs with
  | idle => exact h
  | write guard slot number fresh => exact h.add (number ▸ fresh) _
  | activate guard version slot fresh => exact h.add fresh _
  | finalize row staged | commit version row staged
  | rollbackCommitted version row => refine h.set row ?_ ?_ _ <;> rfl
  | rollback _ row staged => refine h.set row ?_ ?_ _ <;> rfl
  | markError | clearError | unlock => exact h.rows hself hmember
  | beginRepair slot fresh phase nodup free kept grown unique txn =>
    refine ⟨unique, ?_, ?_⟩
    · grind
    · grind
  | prepareRepair row phase same phase' ordinary rows =>
    refine h.rows rows (hset row fun m hm => .inr ?_)
    have hv : m.vector ∈ map vector _ := same.2.2 ▸ List.mem_map_of_mem hm
    obtain ⟨m', hm', he⟩ := mem_map.mp hv
    exact ⟨m', hm', congrArg (·.2.2.2) he⟩
  | abortRepair op hop row phase same phase' dropped nodup ordinary rows =>
    exact h.rows rows (hset row fun m hm => .inl (dropped m hm))
  | finalizeRepair row phase =>
    exact h.rows hself (hset row fun m hm => .inr ⟨m, hm, rfl⟩)
  | commitRepair version row phase staged ordinary rows =>
    exact h.rows rows (hset row fun m hm => .inr ⟨m, hm, rfl⟩)
  | handOver claims rows cohorts =>
    refine h.rows rows fun ri q m hq hm => .inr ?_
    have hc := cohorts ri
    rw [hq] at hc
    obtain ⟨r, hr, he⟩ := map_eq_some_iff.mp hc.symm
    refine ⟨ri, r, m, hr, ?_, rfl⟩
    have he : r.unmoved.members = q.unmoved.members := congrArg Repair.members he
    exact he ▸ hm

lemma Board.Step.pending (h : b.Inv) (hs : b.Step act b') : b'.PendingInv := by
  have hp := h.pending
  cases hs with
  | idle => exact hp
  | write guard slot number fresh at_ mode phase pred writable pending =>
    subst number
    exact hp.write guard slot at_ ⟨mode, .inl phase⟩ pred writable pending
  | @activate s i ti row guard version slot fresh mode phase writable pending =>
    refine hp.unclaimed (by simp [claimAt, slot]) ?_ pending pending
    exact if_neg fun hst => by rcases hst.2 with h | h <;> rw [phase] at h <;> cases h
  | @finalize ti t row staged =>
    refine hp.frame (fun tj => ?_) (fun _ _ => rfl) (fun _ _ _ => rfl)
    by_cases hj : tj = ti
    · subst hj
      rw [claimAt_set_self, claimAt_row row, claim_staged staged,
        claim_staged (t := { t with phase := .finalized }) ⟨staged.1, .inr rfl⟩]
    · exact claimAt_set_ne hj
  | commit version row staged =>
    exact hp.release h.txn row staged (claim_phase (by decide)) rfl
  | @rollback _ ti t row staged =>
    refine hp.release h.txn row staged (claim_phase (by decide)) ?_
    have hpend := (h.staged_chunk row staged).1
    simp [Chunk.dropPending, hpend]
  | @rollbackCommitted s i ti t version row phase writable pending =>
    refine hp.unclaimed ?_ (claim_phase (by decide)) pending pending
    rw [claimAt_row row]
    exact if_neg fun hst => by rcases hst.2 with h | h <;> rw [phase] at h <;> cases h
  | markError mark uncleared free =>
    exact hp.map (fun _ => rfl) (fun _ _ => rfl) fun i hi => (free i hi).2.1
  | @beginRepair ri r txns slot fresh phase nodup free kept grown unique txn =>
    have hord : OrdinaryKept b.txns txns := by grind
    refine hp.map hord.claimAt_eq (fun _ _ => rfl) fun i hi => ?_
    obtain ⟨m, hm, rfl⟩ := mem_map.mp hi
    exact (free m hm).2.2.1
  | prepareRepair row phase same phase' ordinary rows =>
    exact hp.frame ordinary.claimAt_eq (fun _ _ => rfl) (fun _ _ _ => rfl)
  | abortRepair op hop row phase same phase' dropped nodup ordinary rows =>
    refine hp.map ordinary.claimAt_eq (fun _ _ => rfl) fun i hi => ?_
    obtain ⟨m, hm, rfl⟩ := mem_map.mp hi
    exact hp.not_pending (repair_not_writable (h.cohort.open_ _ _ m row phase hm))
  | finalizeRepair row phase => exact hp.frame (fun _ => rfl) (fun _ _ => rfl) (fun _ _ _ => rfl)
  | commitRepair version row phase staged ordinary rows =>
    refine hp.map ordinary.claimAt_eq (fun _ _ => rfl) fun i hi => ?_
    obtain ⟨m, hm, rfl⟩ := mem_map.mp hi
    exact hp.not_pending (repair_not_writable (h.cohort.open_ _ _ m row (.inr (.inr phase)) hm))
  | clearError row phase named marked =>
    refine hp.map (fun _ => rfl) (fun _ _ => rfl) fun i hi => hp.not_pending fun hw => ?_
    have := marked i hi
    rw [(chunkWritable_iff.mp hw).1] at this
    cases this
  | unlock row phase locked =>
    refine hp.map (fun _ => rfl) (fun _ _ => rfl) fun i hi => ?_
    obtain ⟨m, hm, rfl⟩ := mem_map.mp hi
    exact hp.not_pending (locked_not_writable (locked m hm).1)
  | handOver claims rows cohorts => exact hp.frame claims (fun _ _ => rfl) (fun _ _ _ => rfl)

lemma Board.Step.cohort (h : b.Inv) (hs : b.Step act b') : b'.CohortInv := by
  have hc := h.cohort
  cases hs with
  | idle => exact hc
  | write guard slot number fresh at_ mode phase pred writable pending
  | activate guard version slot fresh mode phase writable pending
  | rollbackCommitted version row phase writable pending =>
    exact hc.put writable (chunkWritable_iff.mp writable).2
  | finalize row staged => exact hc.frame fun _ _ => .inl rfl
  | commit version row staged | rollback _ row staged =>
    have hw := (h.staged_chunk row staged).2.2
    exact hc.put hw (chunkWritable_iff.mp hw).2
  | @markError s l mark uncleared free =>
    refine hc.frame fun s' i => ?_
    by_cases hin : s' = s ∧ i ∈ l
    · grind [mapChunks_in]
    · exact .inl (mapChunks_out hin)
  | beginRepair slot fresh phase nodup free kept grown unique txn =>
    exact hc.begin_ slot fresh phase nodup free
  | @prepareRepair ri r r' txns row phase same phase' ordinary rows =>
    have hidx : r'.members.map (·.index) = r.members.map (·.index) := by
      have := congrArg (map Prod.fst) same.2.2
      simpa [Function.comp_def, vector] using this
    refine hc.update row same.1 same.2.1 ?_ (.inl (.inr (.inl phase'))) (fun _ _ _ => rfl) ?_ ?_
    · rw [hidx]
      exact hc.nodup ri r row
    · intro _ m hm
      have hi : m.index ∈ r.members.map (·.index) := hidx ▸ List.mem_map_of_mem hm
      obtain ⟨m', hm', he⟩ := mem_map.mp hi
      rw [← he]
      exact hc.open_ ri r m' row (.inl phase) hm'
    · intro s i hrep
      refine .inr ⟨hrep, ?_⟩
      obtain ⟨hs, m, hm, hi, hmode, hcase⟩ := hc.held_member row hrep
      have hv : m.vector ∈ r'.members.map vector := by grind
      obtain ⟨m', hm', he⟩ := mem_map.mp hv
      simp only [vector, Prod.mk.injEq] at he
      refine ⟨m', hm', hs, he.1.trans hi, fun hsome => he.2.1.trans (hmode hsome), .inl ?_⟩
      rcases hcase with ⟨-, hl, hvis⟩ | ⟨hcom, -⟩
      · exact ⟨.inr (.inl phase'), hl, by rw [hvis, he.2.2.1]⟩
      · rw [phase] at hcom
        cases hcom
  | @abortRepair op hop ri r r' txns row phase same phase' dropped nodup ordinary rows =>
    refine hc.update row same.1 same.2 nodup (.inr (.inr phase'))
      (fun s i hne => hc.map_other row phase _ s i hne) ?_ ?_
    · intro ho
      rcases ho with ho | ho | ho <;> rw [phase'] at ho <;> cases ho
    · grind [List.mem_map_of_mem, mapChunks_in]
  | @finalizeRepair ri r row phase =>
    have hopen : r.Open := .inr (.inl phase)
    refine hc.update row rfl rfl (hc.nodup ri r row) (.inl (.inr (.inr rfl)))
      (fun _ _ _ => rfl) (fun _ m hm => hc.open_ ri r m row hopen hm) ?_
    intro s i hrep
    obtain ⟨hs, m, hm, hi, hmode, hcase⟩ := hc.held_member row hrep
    refine .inr ⟨hrep, m, hm, hs, hi, hmode, .inl ?_⟩
    rcases hcase with ⟨-, hrest⟩ | ⟨hcom, -⟩
    · exact ⟨.inr (.inr rfl), hrest⟩
    · rw [phase] at hcom
      cases hcom
  | @commitRepair ri r txns version row phase staged ordinary rows =>
    have hopen : r.Open := .inr (.inr phase)
    refine hc.update row rfl rfl (hc.nodup ri r row) (.inr (.inl rfl))
      (fun s i hne => hc.map_other row hopen _ s i hne) ?_ ?_
    · rintro (ho | ho | ho) <;> cases ho
    · intro s i hrep
      obtain ⟨rfl, m, hm, rfl, hmode, -⟩ := hc.held_member row hrep
      rw [mapChunks_in (List.mem_map_of_mem hm)]
      refine .inr ⟨hrep, m, hm, rfl, rfl, hmode, .inr ⟨rfl, rfl, ?_⟩⟩
      rw [staged m hm]
  | clearError row phase named marked => exact hc.errors
  | unlock row phase locked =>
    refine hc.unlock fun i hi => ?_
    obtain ⟨m, hm, rfl⟩ := mem_map.mp hi
    exact (locked m hm).1
  | handOver claims rows cohorts => exact hc.handOver cohorts

theorem Board.Step.inv (h : b.Inv) (hs : b.Step act b') : b'.Inv :=
  ⟨hs.txn h.txn, hs.pending h, hs.cohort h⟩

end Reffs.D1
