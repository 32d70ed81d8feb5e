import Reffs.D1.Journal
import Reffs.Lib.Machine

/-!
# The journal over whole runs

A journal is appended to, flushed, rolled back and made to adopt a log, in any order and with any
fault armed in between. `Ledger` keeps what those calls returned: the records that a flush has
claimed, and the records appended since. `Holds` says that the buffer spells exactly the ledger, and
every call keeps it, so a reader of the durable bytes finds the claimed records and a clean end.
-/

namespace Reffs.D1

open ByteCodec ByteCodec.Dec List Nat UInt64

/-! ## Logs as lists of records -/

structure Written where
  type : RecordType
  incarnation : UInt64
  body : Bytes
  deriving DecidableEq, Repr

/-- The bytes of records that follow the record with LSN `last`. -/
def frames (uuid : Uuid) : Nat → List Written → Bytes
  | _, [] => []
  | last, r :: rs =>
    recordFrame uuid (UInt64.ofNat (last + 1)) r.incarnation r.type r.body ++ frames uuid
      (last + 1) rs

def stamped : Nat → List Written → List JournalRecord
  | _, [] => []
  | last, r :: rs =>
    ⟨r.type, UInt64.ofNat (last + 1), r.incarnation, r.body⟩ :: stamped (last + 1) rs

lemma frames_append (uuid : Uuid) (rs rs' : List Written) : ∀ last,
    frames uuid last (rs ++ rs') = frames uuid last rs ++ frames uuid (last + rs.length) rs' := by
  induction rs with
  | nil => intro last; rfl
  | cons r rs ih =>
    intro last
    rw [cons_append, frames, frames, ih, append_assoc, length_cons,
      add_right_comm, add_assoc]

lemma frames_concat (uuid : Uuid) (rs : List Written) (r : Written) (last : Nat) :
    frames uuid last (rs ++ [r]) = frames uuid last rs ++
      recordFrame uuid (ofNat (last + rs.length + 1)) r.incarnation r.type r.body := by
  rw [frames_append, frames, frames, append_nil]

lemma stamped_concat (rs : List Written) (r : Written) : ∀ last, stamped last (rs ++ [r]) =
    stamped last rs ++ [⟨r.type, ofNat (last + rs.length + 1), r.incarnation, r.body⟩] := by
  induction rs with
  | nil => intro last; rfl
  | cons r' rs ih =>
    intro last
    rw [cons_append, stamped, stamped, ih, length_cons, cons_append,
      add_right_comm last 1, add_assoc last]

lemma stamped_length (rs : List Written) : ∀ last, (stamped last rs).length = rs.length := by
  induction rs with
  | nil => intro last; rfl
  | cons r rs ih =>
    intro last
    rw [stamped, length_cons, length_cons, ih]

variable {n : Nat} {type : RecordType} {rs : List Written}

lemma stamped_lsns (rs : List Written) : ∀ last, last + rs.length = n → n < 2 ^ 64 →
    (stamped last rs).map (·.lsn.toNat) = range' (last + 1) rs.length := by
  induction rs with
  | nil => intro last _ _; rfl
  | cons r rs ih =>
    intro last hn hlt
    rw [length_cons] at hn
    rw [stamped, map_cons, ih (last + 1) (by omega) hlt, length_cons, range'_succ]
    have hlast : last + 1 < 2 ^ 64 := by omega
    have hlsn : (ofNat (last + 1)).toNat = last + 1 := toNat_ofNat_of_lt' hlast
    rw [hlsn]

/-! ## Reading -/

/-- Read record after record; the flag says that the end was clean. -/
def journalReadFrom : Nat → JournalCursor → List JournalRecord × Bool
  | 0, _ => ([], false)
  | fuel + 1, c => match journalNext c with
    | .cleanEnd => ([], true)
    | .corrupt => ([], false)
    | .record r next =>
      let (rs, clean) := journalReadFrom fuel next
      (r :: rs, clean)

/-- A record has at least its header, so a log of `n` bytes has fewer than `n` records. -/
def journalReadAll (uuid : Uuid) (log : Bytes) : List JournalRecord × Bool :=
  journalReadFrom (log.length + 1) (journalCursorInit log uuid)

section

variable (uuid : Uuid) (rs : List Written)

lemma length_le_frames : ∀ last, 60 * rs.length ≤ (frames uuid last rs).length := by
  induction rs with
  | nil => intro last; exact le_refl _
  | cons r rs ih =>
    intro last
    have hrest := ih (last + 1)
    rw [frames, length_append, length_cons, recordFrame_length]
    have : journalHeaderBytes = 56 := rfl
    have : journalTrailerBytes = 4 := rfl
    omega

lemma journalReadFrom_frames (hfits : ∀ r ∈ rs, recordFits r.body)
    (fuel : Nat) (rest : Bytes) : ∀ last,
    journalReadFrom (fuel + rs.length) ⟨frames uuid last rs ++ rest, uuid, ofNat last⟩ =
      (stamped last rs ++ (journalReadFrom fuel ⟨rest, uuid, ofNat (last + rs.length)⟩).1,
        (journalReadFrom fuel ⟨rest, uuid, ofNat (last + rs.length)⟩).2) := by
  induction rs with
  | nil => intro last; rfl
  | cons r rs ih =>
    intro last
    have hr := hfits r mem_cons_self
    have hlsn : ofNat (last + 1) = ofNat last + 1 := ofNat_add last 1
    have hnext := ih (fun s hs => hfits s (mem_cons_of_mem _ hs)) (last + 1)
    rw [length_cons, ← add_assoc, journalReadFrom, frames, append_assoc,
      journalNext_frame _ _ _ _ _ hr _ hlsn]
    dsimp only
    rw [hnext, add_right_comm last 1, add_assoc last]
    rfl

theorem journalReadAll_frames (hfits : ∀ r ∈ rs, recordFits r.body) :
    journalReadAll uuid (frames uuid 0 rs) = (stamped 0 rs, true) := by
  have hlen := length_le_frames uuid rs 0
  have hread :=
    journalReadFrom_frames uuid rs hfits ((frames uuid 0 rs).length - rs.length + 1) [] 0
  rw [append_nil, show (frames uuid 0 rs).length - rs.length + 1 + rs.length =
    (frames uuid 0 rs).length + 1 by omega] at hread
  unfold journalReadAll journalCursorInit
  refine hread.trans ?_
  have hend : journalReadFrom ((frames uuid 0 rs).length - rs.length + 1)
      ⟨[], uuid, ofNat (0 + rs.length)⟩ = ([], true) := rfl
  rw [hend, append_nil]

end

/-- A header is read back as the length it was written for, so two equal headers are of records of
one length. -/
lemma recordHeader_length_inj {uuid : Uuid} {lsn lsn' inc inc' : UInt64} {type' : RecordType}
    {len len' : Nat} (hlen : journalHeaderBytes + len + journalTrailerBytes ≤ journalRecordMax)
    (hlen' : journalHeaderBytes + len' + journalTrailerBytes ≤ journalRecordMax)
    (h : recordHeader uuid lsn inc type len = recordHeader uuid lsn' inc' type' len') :
    len = len' := by
  have hread := reads_recordHeader uuid lsn inc type hlen hlen []
  rw [h, reads_recordHeader uuid lsn' inc' type' hlen' hlen' []] at hread
  have hheader := (Prod.mk.inj (Option.some.inj hread)).1
  have htotal : UInt32.ofNat (journalHeaderBytes + len' + journalTrailerBytes) =
      UInt32.ofNat (journalHeaderBytes + len + journalTrailerBytes) :=
    congrArg RecordHeader.total hheader
  have hnat := congrArg UInt32.toNat htotal
  rw [total_toNat hlen, total_toNat hlen'] at hnat
  omega

theorem journalNext_cut {uuid : Uuid} {lsn inc last : UInt64} {body cut : Bytes}
    (hfits : journalHeaderBytes + body.length + journalTrailerBytes ≤ journalRecordMax)
    (hcut : cut <+: recordFrame uuid lsn inc type body) (hne : cut ≠ [])
    (hshort : cut.length < (recordFrame uuid lsn inc type body).length) :
    journalNext ⟨cut, uuid, last⟩ = .corrupt := by
  rw [recordFrame_length] at hshort
  unfold journalNext
  rw [if_neg hne]
  by_cases hhead : cut.length < journalHeaderBytes + journalTrailerBytes
  · rw [if_pos hhead]
  rw [if_neg hhead]
  cases hrun : (decRecordHeader uuid cut.length).run cut with
  | none => rfl
  | some p =>
    -- the header is whole, so it names the length of the whole record, which is more than is left
    exfalso
    obtain ⟨used, hused, len, rfl, htotal, hmax, hrem⟩ :=
      accepts_recordHeader uuid cut.length cut p.1 p.2 hrun
    have htake : recordHeader uuid p.1.lsn p.1.incarnation p.1.type len =
        recordHeader uuid lsn inc type body.length := by
      have hleft : cut.take journalHeaderBytes = recordHeader uuid p.1.lsn p.1.incarnation p.1.type
          len := by
        rw [hused, ← recordHeader_length uuid p.1.lsn p.1.incarnation p.1.type len, take_left]
      have hright : cut.take journalHeaderBytes = recordHeader uuid lsn inc type body.length := by
        obtain ⟨more, hmore⟩ := hcut
        have hle : journalHeaderBytes ≤ cut.length := by omega
        have hsame : (cut ++ more).take journalHeaderBytes = cut.take journalHeaderBytes :=
          take_append_of_le_length hle
        rw [← hsame, hmore, recordFrame, recordPrologue, append_assoc,
          ← recordHeader_length uuid lsn inc type body.length, take_left]
      exact hleft.symm.trans hright
    have hlen := recordHeader_length_inj (by omega) hfits htake
    omega

lemma journalReadAll_stops (uuid : Uuid) (hfits : ∀ r ∈ rs, recordFits r.body) {bad : Bytes}
    (hbad : journalNext ⟨bad, uuid, ofNat rs.length⟩ = .corrupt) :
    journalReadAll uuid (frames uuid 0 rs ++ bad) = (stamped 0 rs, false) := by
  have hsize := length_le_frames uuid rs 0
  have hread := journalReadFrom_frames uuid rs hfits
    ((frames uuid 0 rs).length - rs.length + bad.length + 1) bad 0
  have hend : journalReadFrom ((frames uuid 0 rs).length - rs.length + bad.length + 1)
      ⟨bad, uuid, ofNat (0 + rs.length)⟩ = ([], false) := by
    rw [zero_add, journalReadFrom, hbad]
  rw [hend, append_nil, show (frames uuid 0 rs).length - rs.length + bad.length + 1 + rs.length =
    (frames uuid 0 rs).length + bad.length + 1 by omega] at hread
  rw [journalReadAll, length_append]
  exact hread

/-- Where record `k` of a log ends. -/
def boundary (uuid : Uuid) (rs : List Written) (k : Nat) : Nat := (frames uuid 0 (rs.take k)).length

lemma frames_around (uuid : Uuid) {k : Nat} {r : Written} (hr : rs[k]? = some r) :
    let frame := recordFrame uuid (ofNat (k + 1)) r.incarnation r.type r.body
    frames uuid 0 rs = frames uuid 0 (rs.take k) ++
      (frame ++ frames uuid (k + 1) (rs.drop (k + 1))) ∧
      boundary uuid rs (k + 1) = boundary uuid rs k + frame.length := by
  obtain ⟨hk, -⟩ := List.getElem?_eq_some_iff.mp hr
  have hnext : rs.take (k + 1) = rs.take k ++ [r] := by
    rw [take_add_one, hr]
    rfl
  have hsplit := frames_concat uuid (rs.take k) r 0
  rw [← hnext, length_take_of_le hk.le, zero_add] at hsplit
  have hdrop := frames_append uuid (rs.take (k + 1)) (rs.drop (k + 1)) 0
  rw [take_append_drop, length_take_of_le hk, zero_add, hsplit, append_assoc] at hdrop
  refine ⟨hdrop, ?_⟩
  rw [boundary, hsplit, length_append, boundary]

/-- **A log that ends inside a record reads as the records before it and is then corrupt.** -/
theorem journalReadAll_cut (uuid : Uuid) (hfits : ∀ r ∈ rs, recordFits r.body) {k : Nat}
    (hk : k < rs.length) (hlow : boundary uuid rs k < n) (hhigh : n < boundary uuid rs (k + 1)) :
    journalReadAll uuid ((frames uuid 0 rs).take n) = (stamped 0 (rs.take k), false) := by
  obtain ⟨r, hr⟩ : ∃ r, rs[k]? = some r := ⟨_, getElem?_eq_getElem hk⟩
  obtain ⟨hall, hnext⟩ := frames_around uuid hr
  -- the cut falls into the frame of record `k`
  obtain ⟨m, rfl⟩ := Nat.exists_eq_add_of_lt hlow
  rw [hnext] at hhigh
  rw [hall, Nat.add_assoc, boundary, take_length_add_append, take_append_of_le_length (by omega)]
  refine journalReadAll_stops uuid (fun r hr => hfits r (mem_of_mem_take hr)) ?_
  rw [length_take_of_le hk.le]
  refine journalNext_cut (hfits r (mem_of_getElem? hr)) (List.take_prefix _ _) ?_ ?_
  · rw [Ne, take_eq_nil_iff]
    intro hnil
    have := recordFrame_length uuid (ofNat (k + 1)) r.incarnation r.type r.body
    grind
  · rw [length_take_of_le (by omega)]
    omega

lemma inside_record (uuid : Uuid) (rs : List Written) (hn : n < (frames uuid 0 rs).length) :
    ∃ k < rs.length, boundary uuid rs k ≤ n ∧ n < boundary uuid rs (k + 1) := by
  -- among the first `m` records, for as long as they end after `n`
  have hupto : ∀ m, n < boundary uuid rs m → ∃ k < m, boundary uuid rs k ≤ n ∧
      n < boundary uuid rs (k + 1) := by
    intro m
    induction m with
    | zero => exact fun h => absurd h (not_lt_zero n)
    | succ m ih => grind
  refine hupto rs.length ?_
  rwa [boundary, take_length]

/-! ## Runs -/

/-- An existing durable prefix: records that a journal accepted, in no more bytes than a buffer can
have. -/
structure DurableLog where
  records : List Written
  fits : ∀ r ∈ records, recordFits r.body
  small : ∀ uuid, (frames uuid 0 records).length < 2 ^ 64

inductive JournalCall where
  /-- The type is the caller's, known or not. -/
  | append (code : UInt32) (body : Bytes)
  | flush
  | rollback
  /-- Adopt a log of this store and continue its LSNs. -/
  | adopt (log : DurableLog)
  | setIncarnation (incarnation : UInt64)
  | failAppendIn (n : UInt32)
  | failNextFlush

/-- `d1_journal_append` before its type is known to be one: the countdown is looked at first. -/
def journalAppendCode (j : Journal) (code : UInt32) (body : Bytes) : Bool × Journal :=
  match if code ≤ 4 then RecordType.ofCode code.toUInt16 else none with
  | some type => journalAppend j type body
  | none =>
    (false, { j with failAppendIn := if j.failAppendIn = 0 then 0 else j.failAppendIn - 1 })

/-- What the calls so far have returned: the records claimed by a flush, and those appended since.
-/
structure Ledger where
  flushed : List Written
  pending : List Written

abbrev Booked := Journal × Ledger

def journalCall (p : Booked) : JournalCall → Booked
  | .append code body =>
    let (ok, j) := journalAppendCode p.1 code body
    match ok, RecordType.ofCode code.toUInt16 with
    | true, some type => (j, { p.2 with pending := p.2.pending ++ [⟨type, p.1.incarnation, body⟩] })
    | _, _ => (j, p.2)
  | .flush =>
    let (ok, j) := journalFlush p.1
    (j, if ok then ⟨p.2.flushed ++ p.2.pending, []⟩ else p.2)
  | .rollback => (journalRollback p.1, { p.2 with pending := [] })
  | .adopt log => match journalAdopt p.1 (frames p.1.storeUuid 0 log.records)
        (UInt64.ofNat (log.records.length + 1)) with
    | some j => (j, ⟨log.records, []⟩)
    | none => p
  | .setIncarnation incarnation => ({ p.1 with incarnation := incarnation }, p.2)
  | .failAppendIn n => ({ p.1 with failAppendIn := n }, p.2)
  | .failNextFlush => ({ p.1 with failNextFlush := true }, p.2)

def bookedInit (uuid : Uuid) : Booked := (journalInit uuid, ⟨[], []⟩)

structure Holds (uuid : Uuid) (p : Booked) : Prop where
  store : p.1.storeUuid = uuid
  buf : p.1.buf = frames uuid 0 (p.2.flushed ++ p.2.pending)
  durable : p.1.durable = (frames uuid 0 p.2.flushed).length
  next : p.1.nextLsn.toNat = p.2.flushed.length + p.2.pending.length + 1
  durableLsn : p.1.durableLsn.toNat = p.2.flushed.length + 1
  fits : ∀ r ∈ p.2.flushed ++ p.2.pending, recordFits r.body

lemma bookedInit_holds (uuid : Uuid) : Holds uuid (bookedInit uuid) :=
  ⟨rfl, rfl, rfl, rfl, rfl, nofun⟩

section Step

variable {uuid : Uuid} {p : Booked}

lemma Holds.appended (h : Holds uuid p) {body : Bytes} {n : UInt32}
    (hroom : p.1.nextLsn ≠ 0xffffffffffffffff) (hfits : recordFits body) :
    Holds uuid ({ p.1 with
        failAppendIn := n
        buf := p.1.buf ++ recordFrame p.1.storeUuid p.1.nextLsn p.1.incarnation type body
        nextLsn := p.1.nextLsn + 1 },
      { p.2 with pending := p.2.pending ++ [⟨type, p.1.incarnation, body⟩] }) := by
  have hlsn : p.1.nextLsn = UInt64.ofNat (0 + (p.2.flushed ++ p.2.pending).length + 1) := by
    rw [length_append, Nat.zero_add, ← h.next, UInt64.ofNat_toNat]
  refine ⟨h.store, ?_, h.durable, ?_, h.durableLsn, ?_⟩
  · dsimp only
    rw [← append_assoc, frames_concat, h.buf, h.store, hlsn]
  · have hmax : p.1.nextLsn.toNat ≠ 2 ^ 64 - 1 := by
      intro heq
      exact hroom (UInt64.toNat_inj.mp heq)
    have hlt := p.1.nextLsn.toNat_lt
    have hsucc : (p.1.nextLsn + 1).toNat = p.1.nextLsn.toNat + 1 := by
      grind [UInt64.toNat_add, UInt64.toNat_one]
    rw [hsucc, h.next, length_append]
    rfl
  · intro r hr
    rw [← append_assoc, mem_append, mem_singleton] at hr
    rcases hr with hr | rfl
    · exact h.fits r hr
    · exact hfits

lemma Holds.durableBytes (h : Holds uuid p) : p.1.durableBytes = frames uuid 0 p.2.flushed := by
  rw [Journal.durableBytes, h.buf, h.durable, frames_append, take_left]

lemma Holds.rolledBack (h : Holds uuid p) :
    Holds uuid (journalRollback p.1, { p.2 with pending := [] }) := by
  have hkept : ∀ r ∈ p.2.flushed, recordFits r.body :=
    fun r hr => h.fits r (mem_append_left _ hr)
  refine ⟨h.store, ?_, h.durable, h.durableLsn, h.durableLsn, ?_⟩
  · exact h.durableBytes.trans (by rw [append_nil])
  · rwa [append_nil]

lemma Holds.adopted (h : Holds uuid p) (log : DurableLog) {j : Journal}
    (hj : journalAdopt p.1 (frames p.1.storeUuid 0 log.records)
      (ofNat (log.records.length + 1)) = some j) : Holds uuid (j, ⟨log.records, []⟩) := by
  have hlsn : (ofNat (log.records.length + 1)).toNat = log.records.length + 1 := by
    have hlen := length_le_frames uuid log.records 0
    have hsmall := log.small uuid
    have hcount : log.records.length + 1 < 2 ^ 64 := by omega
    exact toNat_ofNat_of_lt' hcount
  unfold journalAdopt at hj
  split at hj
  · cases hj
  cases hj
  refine ⟨h.store, ?_, ?_, hlsn, hlsn, ?_⟩
  · rw [append_nil, h.store]
  · rw [h.store]
  · rw [append_nil]
    exact log.fits

lemma journalCall_append (p : Booked) (code : UInt32) (body : Bytes) :
    (∃ n, journalCall p (.append code body) = ({ p.1 with failAppendIn := n }, p.2)) ∨
      ∃ n type, recordFits body ∧ p.1.nextLsn ≠ 0xffffffffffffffff ∧
        journalCall p (.append code body) = ({ p.1 with
            failAppendIn := n
            buf := p.1.buf ++ recordFrame p.1.storeUuid p.1.nextLsn p.1.incarnation type body
            nextLsn := p.1.nextLsn + 1 },
          { p.2 with pending := p.2.pending ++ [⟨type, p.1.incarnation, body⟩] }) := by
  unfold journalCall journalAppendCode
  dsimp only
  cases htype : if code ≤ 4 then RecordType.ofCode code.toUInt16 else none with
  | none => exact .inl ⟨_, rfl⟩
  | some type =>
    have hcode : RecordType.ofCode code.toUInt16 = some type := by grind
    dsimp only
    rw [hcode]
    rcases journalAppend_cases p.1 type body with ⟨n, he⟩ | ⟨n, hfits, hroom, he⟩
    · rw [he]
      exact .inl ⟨n, rfl⟩
    · rw [he]
      exact .inr ⟨n, type, hfits, hroom, rfl⟩

theorem Holds.step (h : Holds uuid p) (call : JournalCall) : Holds uuid (journalCall p call) := by
  cases call with
  | append code body =>
    rcases journalCall_append p code body with ⟨n, he⟩ | ⟨n, type, hfits, hroom, he⟩
    · rw [he]
      exact ⟨h.store, h.buf, h.durable, h.next, h.durableLsn, h.fits⟩
    · rw [he]
      exact h.appended hroom hfits
  | flush =>
    unfold journalCall journalFlush
    dsimp only
    split
    · exact ⟨h.store, h.buf, h.durable, h.next, h.durableLsn, h.fits⟩
    · dsimp only
      rw [if_pos rfl]
      have hall : (p.2.flushed ++ p.2.pending) ++ [] = p.2.flushed ++ p.2.pending :=
        append_nil _
      refine ⟨h.store, ?_, ?_, ?_, ?_, ?_⟩
      · exact h.buf.trans (by rw [hall])
      · exact congrArg length h.buf
      · exact h.next.trans (by rw [length_append, length_nil])
      · exact h.next.trans (by rw [length_append])
      · rw [hall]
        exact h.fits
  | rollback => exact h.rolledBack
  | adopt log =>
    unfold journalCall
    dsimp only
    split
    · next hj => exact h.adopted log hj
    · exact h
  | setIncarnation incarnation =>
    exact ⟨h.store, h.buf, h.durable, h.next, h.durableLsn, h.fits⟩
  | failAppendIn n | failNextFlush =>
    exact ⟨h.store, h.buf, h.durable, h.next, h.durableLsn, h.fits⟩

lemma Holds.durable_le (h : Holds uuid p) (call : JournalCall) :
    p.1.durable ≤ (journalCall p call).1.durable := by
  cases call with
  | append code body =>
    rcases journalCall_append p code body with ⟨n, he⟩ | ⟨n, type, -, -, he⟩ <;>
      exact le_of_eq (congrArg (·.1.durable) he).symm
  | flush => grind [length_append, frames_append, h.buf, h.durable, journalCall, journalFlush]
  | rollback | setIncarnation incarnation | failAppendIn n | failNextFlush => exact le_refl _
  | adopt log =>
    unfold journalCall journalAdopt
    dsimp only
    by_cases hbuf : p.1.buf = []
    · have hzero : (frames uuid 0 p.2.flushed).length = 0 := by
        have hlen := congrArg length (h.buf.symm.trans hbuf)
        rw [frames_append, length_append, length_nil] at hlen
        omega
      rw [h.durable, hzero]
      exact zero_le _
    · rw [if_pos hbuf]

end Step

lemma run_holds (uuid : Uuid) (calls : List JournalCall) :
    Holds uuid (Machine.run journalCall (bookedInit uuid) calls) :=
  Machine.run_invariant (fun _ call h => h.step call) (bookedInit_holds uuid) calls

/-- **What a journal has claimed is what a reader finds.** After any calls, with any faults armed in
between, the durable bytes read as the records that a flush has claimed, in order, with LSNs from
one, and end cleanly. Cut anywhere but between two records, they read as the records before the cut
and are then corrupt. No call makes the durable length smaller. -/
theorem journal_claims_read (uuid : Uuid) (calls : List JournalCall) :
    let p := Machine.run journalCall (bookedInit uuid) calls
    let log := p.1.durableBytes
    journalReadAll uuid log = (stamped 0 p.2.flushed, true) ∧
      (stamped 0 p.2.flushed).map (·.lsn.toNat) = List.range' 1 p.2.flushed.length ∧
      (∀ n ≤ log.length, (∀ k ≤ p.2.flushed.length, n ≠ boundary uuid p.2.flushed k) →
        ∃ k < p.2.flushed.length, boundary uuid p.2.flushed k < n ∧
          n < boundary uuid p.2.flushed (k + 1) ∧
          journalReadAll uuid (log.take n) = (stamped 0 (p.2.flushed.take k), false)) ∧
      ∀ call, p.1.durable ≤ (journalCall p call).1.durable := by
  intro p log
  have h : Holds uuid p := run_holds uuid calls
  have hlog : log = frames uuid 0 p.2.flushed := h.durableBytes
  have hfits : ∀ r ∈ p.2.flushed, recordFits r.body :=
    fun r hr => h.fits r (List.mem_append_left _ hr)
  refine ⟨?_, ?_, ?_, h.durable_le⟩
  · rw [hlog]
    exact journalReadAll_frames uuid p.2.flushed hfits
  · have hlt := p.1.durableLsn.toNat_lt
    rw [h.durableLsn] at hlt
    exact stamped_lsns p.2.flushed 0 rfl (by omega)
  · intro n hn hinside
    rw [hlog] at hn ⊢
    have hend : n ≠ (frames uuid 0 p.2.flushed).length := by
      have := hinside _ (Nat.le_refl _)
      rwa [boundary, List.take_length] at this
    obtain ⟨k, hk, hlow, hhigh⟩ := inside_record uuid p.2.flushed (Nat.lt_of_le_of_ne hn hend)
    have hlt := Nat.lt_of_le_of_ne hlow (hinside k hk.le).symm
    exact ⟨k, hk, hlt, hhigh, journalReadAll_cut uuid hfits hk hlt hhigh⟩

end Reffs.D1
