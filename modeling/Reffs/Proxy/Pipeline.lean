import Reffs.Proxy.DirtyMap

/-!
# The proxy's write pipeline

`ps_proxy_pipeline_write`, `ps_proxy_pipeline_commit` and `ps_proxy_pipeline_close` for the one
write buffer of a stateid and a file: a `WRITE` copies its bytes into a buffer that grows by
doubling and marks the stripes they are in; a `COMMIT`, or a `WRITE` that asks for stable storage,
writes the dirty stripes of its range upstream, merged with what upstream has where only some shards
are dirty; a `CLOSE` writes the buffer from its start to its high-water mark as the whole file.

Upstream is the bytes of the striped file; what its calls answer is an input (`Calls`). A call that
fails may have replaced some of its bytes. There may be no memory for the record of a dirty stripe,
which a `WRITE` does not look at; the allocations that a request fails for are taken to succeed, and
the listener is running and is the one that the buffer was made under.
-/

namespace Reffs.Proxy

/-- `phase4a_geom`. -/
def geom : Geom := ⟨4, 2, 4096, by decide, by decide, by decide⟩

/-- `REFFS_PS_WRITE_BUFFER_MAX`. -/
def bufferMax : Nat := 2 ^ 30

abbrev Content := Nat → UInt8

def overlay (content : Content) (offset : Nat) (data : List UInt8) : Content := fun b =>
  if offset ≤ b ∧ b < offset + data.length then data.getD (b - offset) 0 else content b

/-- `struct ps_write_buffer`. What is added to the data when it grows is zero, and so is `data`
beyond the capacity. -/
structure Buffer where
  data : Content
  capacity : Nat
  highWater : Nat
  dirty : DirtyTable
  mdsVerf : Option UInt64

def Buffer.fresh : Buffer := ⟨fun _ => 0, 0, 0, [], none⟩

inductive Errno where
  | einval | efbig | eagain | eio
  /-- An upstream call failed. -/
  | upstream (err : Int)
  /-- The call wrote outside the buffer; what comes after it is not defined. -/
  | wild
  deriving DecidableEq, Repr

/-- The upstream calls of a request: the results of reading and writing a stripe (zero for success),
which bytes a failed write has replaced, and the verifier a write has brought back. With them, for
which stripes there is memory for a record. -/
structure Calls where
  readErr : Nat → Int
  writeErr : Nat → Int
  torn : Nat → Bool
  verf : Nat → Option UInt64
  memory : Nat → Bool

/-! ## The buffer -/

variable (calls : Calls) (buf : Buffer) (up : Content) (s : Nat)

/-- The loop of `pwb_ensure_capacity`. -/
def growTo (need : Nat) : Nat → Nat → Nat
  | 0, cap => cap
  | fuel + 1, cap =>
    if cap < need then
      if cap > bufferMax / 2 then need else growTo need fuel (cap * 2)
    else cap

def ensureCapacity (need : Nat) : Buffer :=
  if buf.capacity ≥ need then buf
  else
    { buf with capacity := growTo need 64 (if buf.capacity = 0 then 4096 else buf.capacity) }

/-- What a `WRITE` that fits does to the buffer; that a stripe could not be marked is not looked at.
-/
def Buffer.write (offset : Nat) (data : List UInt8) (memory : Nat → Bool) : Buffer :=
  let need := offset + data.length
  let buf := ensureCapacity buf need
  { buf with
    data := overlay buf.data offset data
    highWater := if need > buf.highWater then need else buf.highWater
    dirty := markDirtyWith geom memory buf.dirty offset data.length }

/-! ## Flushing -/

def stripeOf (b : Nat) : Nat := b / geom.stripeSize

def shardOf (b : Nat) : Nat := b % geom.stripeSize / geom.shardSize

/-- `ec_write_stripe_with_file`: the bytes of the stripe, or some of them if it fails. -/
def writeStripe (bytes : Content) : Content := fun b =>
  if stripeOf b = s ∧ (calls.writeErr s = 0 ∨ calls.torn b = true) then bytes b else up b

structure Flushed where
  err : Option Errno
  buf : Buffer
  up : Content

def writtenStripe (bytes : Content) : Flushed :=
  if calls.writeErr s ≠ 0 then
    ⟨some (.upstream (calls.writeErr s)), buf, writeStripe calls up s bytes⟩
  else
    ⟨none, { buf with
        dirty := buf.dirty.remove s
        mdsVerf := (calls.verf s).or buf.mdsVerf },
      writeStripe calls up s bytes⟩

def flushStripe : Flushed :=
  let base := s * geom.stripeSize
  match buf.dirty.lookup s with
  | none => ⟨none, buf, up⟩
  | some ds => match ds.mask with
    | some _ =>
      -- read the stripe, and put the dirty shards over what is there
      if calls.readErr s ≠ 0 then ⟨some (.upstream (calls.readErr s)), buf, up⟩
      else if (List.range geom.k).any fun i => shardIsDirty geom ds i &&
          decide (base + i * geom.shardSize + geom.shardSize > buf.capacity) then
        ⟨some .eio, buf, up⟩
      else writtenStripe calls buf up s fun b =>
        if shardIsDirty geom ds (shardOf b) then buf.data b else up b
    | none =>
      if base + geom.stripeSize > buf.highWater then ⟨some .eio, buf, up⟩
      else writtenStripe calls buf up s buf.data

def flushStripes (calls : Calls) : List Nat → Buffer → Content → Flushed
  | [], buf, up => ⟨none, buf, up⟩
  | s :: rest, buf, up =>
    let r := flushStripe calls buf up s
    match r.err with
    | some _ => r
    | none => flushStripes calls rest r.buf r.up

/-- The stripes a flush takes: all that are dirty, or those that meet the range. -/
def flushList (t : DirtyTable) (start count : Nat) : List Nat :=
  (t.filter fun ds =>
    let base := ds.stripeNo * geom.stripeSize
    let stop := base + geom.stripeSize
    let rangeEnd := (start + count) % 2 ^ 64
    !(decide (count > 0) && (decide (stop ≤ start) || decide (base ≥ rangeEnd)))).map
    DirtyStripe.stripeNo

/-- `pwb_flush_range_locked`. -/
def flushRange (start count : Nat) : Flushed :=
  flushStripes calls (flushList buf.dirty start count) buf up

/-! ## Requests -/

structure World where
  buf : Option Buffer
  upstream : Content
  bootGen : UInt64

/-- `ps_compose_write_verf`. -/
def composeWriteVerf (bootGen : UInt64) (mdsVerf : Option UInt64) : UInt64 :=
  match mdsVerf with
  | none => bootGen
  | some verf => bootGen ^^^ verf

structure WriteReply where
  count : Nat
  committed : UInt32
  verifier : UInt64
  deriving DecidableEq, Repr

def pipelineWrite (w : World) (offset : UInt64) (stable : UInt32) (data : List UInt8)
    (calls : Calls) : Except Errno WriteReply × World :=
  if data.length = 0 ∨ stable > 2 then (.error .einval, w)
  else if data.length > bufferMax then (.error .efbig, w)
  else
    let buf := w.buf.getD .fresh
    let need := (offset.toNat + data.length) % 2 ^ 64
    if need > bufferMax then (.error .eagain, { w with buf := some buf })
    -- the sum has wrapped: the copy goes to where the buffer is not
    else if offset.toNat + data.length ≥ 2 ^ 64 then (.error .wild, { w with buf := some buf })
    else
      let buf := buf.write offset.toNat data calls.memory
      if stable ≠ 0 then
        let r := flushRange calls buf w.upstream offset.toNat data.length
        match r.err with
        | some err => (.error err, { w with buf := some r.buf, upstream := r.up })
        | none =>
          (.ok ⟨data.length, stable, composeWriteVerf w.bootGen r.buf.mdsVerf⟩,
            { w with buf := some r.buf, upstream := r.up })
      else
        (.ok ⟨data.length, stable, composeWriteVerf w.bootGen buf.mdsVerf⟩,
          { w with buf := some buf })

/-- A commit that leaves nothing dirty gives the buffer up. -/
def pipelineCommit (w : World) (offset : UInt64) (count : UInt32) (calls : Calls) :
    Except Errno UInt64 × World :=
  if count > 0 ∧ offset.toNat > 2 ^ 64 - 1 - count.toNat then (.error .einval, w)
  else match w.buf with
    | none => (.ok (composeWriteVerf w.bootGen none), w)
    | some buf =>
      let r := flushRange calls buf w.upstream offset.toNat count.toNat
      match r.err with
      | some err => (.error err, { w with buf := some r.buf, upstream := r.up })
      | none =>
        (.ok (composeWriteVerf w.bootGen none),
          { w with buf := if r.buf.dirty = [] then none else some r.buf, upstream := r.up })

/-- The file as `ec_write_encoding_with_file` writes it: the data, and zeros to the end of its last
stripe. -/
def wholeFile : Content := fun b => if b < buf.highWater then buf.data b else 0

def paddedLen : Nat :=
  (buf.highWater + geom.stripeSize - 1) / geom.stripeSize * geom.stripeSize

def pipelineClose (w : World) (err : Int) (torn : Nat → Bool) : Except Errno Unit × World :=
  match w.buf with
  | none => (.ok (), w)
  | some buf =>
    let up := fun b =>
      if b < paddedLen buf ∧ (err = 0 ∨ torn b = true) then wholeFile buf b else w.upstream b
    (if err = 0 then .ok () else .error .eio, { w with buf := none, upstream := up })

inductive Event where
  | write (offset : UInt64) (stable : UInt32) (data : List UInt8) (calls : Calls)
  | commit (offset : UInt64) (count : UInt32) (calls : Calls)
  | close (err : Int) (torn : Nat → Bool)

def Event.error (w : World) : Event → Option Errno
  | .write offset stable data calls => match (pipelineWrite w offset stable data calls).1 with
    | .ok _ => none
    | .error err => some err
  | .commit offset count calls => match (pipelineCommit w offset count calls).1 with
    | .ok _ => none
    | .error err => some err
  | .close err torn => match (pipelineClose w err torn).1 with
    | .ok _ => none
    | .error err => some err

/-- Every stripe of the request can be marked. -/
def Event.HasMemory : Event → Prop
  | .write _ _ _ calls => ∀ s, calls.memory s = true
  | _ => True

def World.step (w : World) : Event → World
  | .write offset stable data calls => (pipelineWrite w offset stable data calls).2
  | .commit offset count calls => (pipelineCommit w offset count calls).2
  | .close err torn => (pipelineClose w err torn).2

end Reffs.Proxy
