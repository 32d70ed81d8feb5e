import Reffs.Proxy.Quiesce
import Reffs.Proxy.Pipeline

/-!
# Handlers of one listener that run at the same time

Every thread serves one `WRITE`, `COMMIT` or `CLOSE`. It passes the quiesce gate, finds or makes the
write buffer of its stateid and file (a `COMMIT` takes the first buffer of its file that it meets),
works on it under the buffer's mutex, and gives its reference back; a `CLOSE`, and a `COMMIT` that
leaves nothing dirty, give back the table's reference with their own. A buffer whose count becomes
zero is unlinked from the table by the thread that brought it there. A stop of the listener destroys
the table once the gate is closed and nobody is inside.

A lookup in the table, `urcu_ref_get_unless_zero`, an insertion, a lock, the work under the lock,
each `urcu_ref_put` and each unlinking are steps of their own; the lookup of a `COMMIT` goes through
the buffers of the file that the table had when it began. What memory and the upstream calls answer
is an input of each step (`Choice`). The boot generation of the listener does not change, as nothing
in the program changes it.
-/

namespace Reffs.Proxy

/-! ## Requests and answers -/

abbrev StateidOther := Vector UInt8 12

abbrev FileHandle := List UInt8

inductive Request where
  | write (stateid : StateidOther) (fh : FileHandle) (offset : UInt64) (stable : UInt32)
      (data : List UInt8)
  | commit (fh : FileHandle) (offset : UInt64) (count : UInt32)
  | close (stateid : StateidOther) (fh : FileHandle)
  deriving DecidableEq

def maxFhSize : Nat := 128

def Request.fh : Request → FileHandle
  | .write _ fh _ _ _ | .commit fh _ _ | .close _ fh => fh

def Request.isWrite : Request → Bool
  | .write _ _ _ _ _ => true
  | _ => false

/-- The checks before the gate; a request that fails them is answered with an error and touches
nothing. -/
def Request.valid (r : Request) : Bool :=
  (r.fh != []) && decide (r.fh.length ≤ maxFhSize) &&
  match r with
  | .write _ _ _ stable data =>
    (data != []) && decide (stable ≤ 2) && decide (data.length ≤ bufferMax)
  | .commit _ offset count =>
    !(decide (count > 0) && decide (offset.toNat > 2 ^ 64 - 1 - count.toNat))
  | .close _ _ => true

inductive HandlerError where
  | errno (err : Errno)
  | enomem
  deriving DecidableEq, Repr

inductive Reply where
  | wrote (r : WriteReply)
  | committed (verifier : UInt64)
  | closed
  | failed (err : HandlerError)
  deriving DecidableEq, Repr

/-! ## Work under the mutex -/

/-- What a step meets: memory for a new buffer, for its growth and for the list of stripes to flush,
and the upstream calls with the memory for the record of a stripe. -/
structure Choice where
  memory : Bool
  growMemory : Bool
  listMemory : Bool
  calls : Calls
  closeErr : Int
  closeTorn : Nat → Bool

variable (c : Choice) (bootGen : UInt64) (buf : Buffer) (up : Content)

structure Work where
  reply : Reply
  content : Buffer
  up : Content
  /-- The handler gives the buffer up. -/
  drops : Bool

structure FlushWork where
  err : Option HandlerError
  buf : Buffer
  up : Content

/-- `pwb_flush_range_locked`, with the list of stripes allocated. -/
def flushWork (start count : Nat) : FlushWork :=
  if c.listMemory = false ∧ buf.dirty ≠ [] then ⟨some .enomem, buf, up⟩
  else
    let r := flushRange c.calls buf up start count
    ⟨r.err.map .errno, r.buf, r.up⟩

def writeWork (offset : UInt64) (stable : UInt32) (data : List UInt8) : Work :=
  let need := (offset.toNat + data.length) % 2 ^ 64
  if need > bufferMax then ⟨.failed (.errno .eagain), buf, up, false⟩
  else if c.growMemory = false ∧ buf.capacity < need then
    ⟨.failed .enomem, buf, up, false⟩
  -- the sum has wrapped: the copy goes to where the buffer is not
  else if offset.toNat + data.length ≥ 2 ^ 64 then
    ⟨.failed (.errno .wild), buf, up, false⟩
  else
    let buf := buf.write offset.toNat data c.calls.memory
    if stable ≠ 0 then
      let r := flushWork c buf up offset.toNat data.length
      match r.err with
      | some err => ⟨.failed err, r.buf, r.up, false⟩
      | none =>
        ⟨.wrote ⟨data.length, stable, composeWriteVerf bootGen r.buf.mdsVerf⟩, r.buf, r.up, false⟩
    else
      ⟨.wrote ⟨data.length, stable, composeWriteVerf bootGen buf.mdsVerf⟩, buf, up, false⟩

def commitWork (offset : UInt64) (count : UInt32) : Work :=
  let r := flushWork c buf up offset.toNat count.toNat
  match r.err with
  | some err => ⟨.failed err, r.buf, r.up, false⟩
  | none =>
    ⟨.committed (composeWriteVerf bootGen none), r.buf, r.up, decide (r.buf.dirty = [])⟩

def closeWork : Work :=
  let up' : Content := fun b =>
    if b < paddedLen buf ∧ (c.closeErr = 0 ∨ c.closeTorn b = true) then wholeFile buf b else up b
  ⟨if c.closeErr = 0 then .closed else .failed (.errno .eio), buf, up', true⟩

def work : Request → Work
  | .write _ _ offset stable data => writeWork c bootGen buf up offset stable data
  | .commit _ offset count => commitWork c bootGen buf up offset count
  | .close _ _ => closeWork c buf up

/-! ## The system -/

/-- The reference count of a buffer (`pwb_ref`), whether its node is in the hash table, whether its
release has been called, and how often the table's reference has been given back. -/
structure Count where
  refs : Int
  linked : Bool
  released : Bool
  tablePuts : Nat
  deriving DecidableEq, Repr

/-- Where a handler is between its enter and its leave. Buffers are numbered in the order of their
insertion. -/
inductive Body where
  | ready
  /-- A lookup has found the node. -/
  | found (b : Nat)
  /-- A `WRITE` has found no buffer to use, and will make one. -/
  | missed
  /-- Another buffer was in the table when the new one was to be inserted. -/
  | existing (b : Nat)
  /-- A `COMMIT` goes through the buffers of its file. -/
  | scanning (todo : List Nat)
  | holding (b : Nat)
  /-- The handler has the mutex of the buffer. -/
  | inside (b : Nat)
  /-- The reference of the handler is to be given back, and the table's behind it if the handler
  drops the buffer. -/
  | leaving (b : Nat) (drops : Bool)
  | dropping (b : Nat)
  /-- The count has become zero, and the buffer is to be unlinked. -/
  | releasing (b : Nat) (drops : Bool)
  | finished
  deriving DecidableEq, Repr

structure System (ι : Type) where
  gate : Gate ι
  nbufs : Nat
  key : Nat → StateidOther × FileHandle
  count : Nat → Count
  mutex : Nat → Option ι
  content : Nat → Buffer
  upstream : FileHandle → Content
  bootGen : UInt64
  body : ι → Body
  reply : ι → Option Reply
  /-- The buffer that the destruction of the table has unlinked and has in hand. -/
  walk : Option Nat

inductive Act (ι : Type) where
  | gate (a : GateAct ι)
  | handler (i : ι) (c : Choice)
  /-- `ps_write_buffer_table_destroy` unlinks a buffer. -/
  | unlink (b : Nat)
  /-- It gives the table's reference of the buffer back. -/
  | unref

namespace System

variable {ι : Type} [DecidableEq ι]

def init (bootGen : UInt64) (upstream : FileHandle → Content) : System ι where
  gate := .init
  nbufs := 0
  key := fun _ => (Vector.replicate 12 0, [])
  count := fun _ => ⟨0, false, false, 0⟩
  mutex := fun _ => none
  content := fun _ => .fresh
  upstream := upstream
  bootGen := bootGen
  body := fun _ => .ready
  reply := fun _ => none
  walk := none

def setBody (s : System ι) (i : ι) (body : Body) : System ι :=
  { s with body := Function.update s.body i body }

def setCount (s : System ι) (b : Nat) (count : Count) : System ι :=
  { s with count := Function.update s.count b count }

def finish (s : System ι) (i : ι) (reply : Reply) : System ι :=
  { s.setBody i .finished with reply := Function.update s.reply i (some reply) }

/-- `cds_lfht_lookup`. -/
def lookup (s : System ι) (stateid : StateidOther) (fh : FileHandle) : Option Nat :=
  (List.range s.nbufs).find? fun b => (s.count b).linked && decide (s.key b = (stateid, fh))

def ofFile (s : System ι) (fh : FileHandle) : List Nat :=
  (List.range s.nbufs).filter fun b => (s.count b).linked && decide ((s.key b).2 = fh)

/-- `urcu_ref_get_unless_zero`, and where the handler goes if it fails. -/
def get (s : System ι) (i : ι) (b : Nat) (orElse : System ι) : System ι :=
  if (s.count b).refs = 0 then orElse
  else
    (s.setCount b { s.count b with refs := (s.count b).refs + 1 }).setBody i (.holding b)

/-- The new buffer: one reference for the table and one for the handler. -/
def insert (s : System ι) (i : ι) (stateid : StateidOther) (fh : FileHandle) : System ι :=
  { s.setBody i (.holding s.nbufs) with
    nbufs := s.nbufs + 1
    key := Function.update s.key s.nbufs (stateid, fh)
    count := Function.update s.count s.nbufs ⟨2, true, false, 0⟩
    mutex := Function.update s.mutex s.nbufs none
    content := Function.update s.content s.nbufs .fresh }

/-- The work of handler `i` on buffer `b`, whose mutex it has, and the end of the critical section.
-/
def doWork (req : ι → Request) (s : System ι) (i : ι) (b : Nat) (c : Choice) : System ι :=
  let w := work c s.bootGen (s.content b) (s.upstream (s.key b).2) (req i)
  { s.setBody i (.leaving b w.drops) with
    mutex := Function.update s.mutex b none
    content := Function.update s.content b w.content
    upstream := Function.update s.upstream (s.key b).2 w.up
    reply := Function.update s.reply i (some w.reply) }

/-- `urcu_ref_put`: the thread that brings the count to zero calls the release. -/
def put (s : System ι) (b : Nat) (table : Bool) : System ι :=
  s.setCount b { s.count b with
    refs := (s.count b).refs - 1
    released := (s.count b).released || decide ((s.count b).refs = 1)
    tablePuts := (s.count b).tablePuts + table.toNat }

def handlerNext (req : ι → Request) (s : System ι) (i : ι) (c : Choice) : Option (System ι) :=
  match s.body i with
  | .ready =>
    match req i with
    | .write stateid fh _ _ _ =>
      some (s.setBody i (match s.lookup stateid fh with | some b => .found b | none => .missed))
    | .close stateid fh =>
      match s.lookup stateid fh with
      | some b => some (s.setBody i (.found b))
      | none => some (s.finish i .closed)
    | .commit fh _ _ => some (s.setBody i (.scanning (s.ofFile fh)))
  | .found b =>
    some (s.get i b (if (req i).isWrite then s.setBody i .missed else s.finish i .closed))
  | .missed =>
    match req i with
    | .write stateid fh _ _ _ =>
      if c.memory = false then some (s.finish i (.failed (.errno .eagain)))
      else
        match s.lookup stateid fh with
        | some b => some (s.setBody i (.existing b))
        | none => some (s.insert i stateid fh)
    | _ => none
  | .existing b => some (s.get i b (s.finish i (.failed (.errno .eagain))))
  | .scanning [] => some (s.finish i (.committed (composeWriteVerf s.bootGen none)))
  | .scanning (b :: rest) => some (s.get i b (s.setBody i (.scanning rest)))
  | .holding b =>
    if s.mutex b = none then
      some { s.setBody i (.inside b) with mutex := Function.update s.mutex b (some i) }
    else none
  | .inside b => some (s.doWork req i b c)
  | .leaving b drops =>
    some ((s.put b false).setBody i
      (if (s.count b).refs = 1 then .releasing b drops else if drops then .dropping b
        else .finished))
  | .dropping b =>
    some ((s.put b true).setBody i (if (s.count b).refs = 1 then .releasing b false else .finished))
  | .releasing b drops =>
    some ((s.setCount b { s.count b with linked := false }).setBody i
      (if drops then .dropping b else .finished))
  | .finished => none

/-- Steps of the gate: a handler enters once, leaves when it has finished, and the stop goes on from
the destruction of the table when the table is empty. -/
def gateOpen (req : ι → Request) (s : System ι) : GateAct ι → Bool
  | .count i => (req i).valid && decide (s.body i = .ready)
  | .uncount i => decide (s.gate.place i = .refused) || decide (s.body i = .finished)
  | .stop => decide (s.gate.stop ≠ .destroying) ||
      (decide (s.walk = none) && (List.range s.nbufs).all fun b => !(s.count b).linked)
  | _ => true

def next (req : ι → Request) (s : System ι) : Act ι → Option (System ι)
  | .gate a =>
    if s.gateOpen req a then
      (s.gate.next a).map fun gate => { s with gate := gate }
    else none
  | .handler i c => if s.gate.place i = .admitted then s.handlerNext req i c else none
  | .unlink b =>
    if s.gate.stop = .destroying ∧ s.walk = none ∧ b < s.nbufs ∧ (s.count b).linked then
      some { s.setCount b { s.count b with linked := false } with walk := some b }
    else none
  | .unref => s.walk.map fun b => { s.put b true with walk := none }

def step (req : ι → Request) (s : System ι) (a : Act ι) : System ι := (s.next req a).getD s

end System

end Reffs.Proxy
