import Reffs.Lib.Machine
import Reffs.Locks.List

/-!
# The two lock servers

`nfs4_op_lock`, `nfs4_op_lockt` and `nfs4_op_locku`, and `reffs_nlm4_lock`, `reffs_nlm4_unlock` and
`reffs_nlm4_test` with the checks of their operation handlers, as requests to the locks of one file.
A request first finds its owner: an NFSv4 one through a stateid or in the list of its client, an NLM
one by its name. What remains is a range with a mode (`Ask`), which is put to the list of locks.

`lo_match` is handed the argument of the request as untyped memory. `LOCK` passes it the `locker4`
where it expects a `lock_owner4`, and it is also asked about owners of the other protocol, which are
another structure. What it then reads is not what it was given for; `alias` stands for the answer.

The owner objects of NFSv4 are counted. A lock under the stateid of an earlier one gets no
reference, and every lock puts one when it goes, so a count can come to zero with the object still
in use. What the list of locks then reads as is not defined; `wreck` stands for it. Nor do the
servers look at what `reffs_lock_remove` returns, so an unlock that has no memory for a split is
granted. A lock that has no memory is refused before it does anything, and is left out.
-/

namespace Reffs.Locks

open ByteCodec

variable {s : LockState} {cx : Compound} {a : Ask} {r : Request}

inductive Stateid where
  | openId (cookie seqid : UInt32)
  | lockId (cookie seqid : UInt32) (owner : Owner)
  | other (tag cookie seqid : UInt32)
  deriving DecidableEq, Repr

def tagOpen : UInt32 := 0
def tagLock : UInt32 := 2

structure WireStateid where
  seqid : UInt32
  id : UInt32
  type : UInt32
  cookie : UInt32
  deriving DecidableEq, Repr

structure LockState where
  locks : List Lock
  /-- The lock owners of each client. -/
  owners : Nat → List Owner
  nextObject : Nat
  /-- The references to each owner object. -/
  refs : Nat → Nat
  stateids : UInt32 → Option Stateid
  /-- The locks that are read when an owner object has been freed. -/
  wreck : List Lock

/-- What the compound has set up: the client, whether there is a file handle, whether the server is
in its grace period, and the current stateid. -/
structure Compound where
  client : Nat
  fileHandle : Bool
  inGrace : Bool
  current : Option WireStateid
  deriving DecidableEq, Repr

inductive LockType where
  | read | write | readw | writew
  deriving DecidableEq, Repr

def LockType.exclusive : LockType → Bool
  | .read => false
  | .write => true
  | .readw => false
  | .writew => true

inductive Locker where
  /-- A new lock owner under an open stateid; `none` names the current stateid. -/
  | newOwner (openStateid : Option WireStateid) (clientid : UInt64) (owner : Bytes)
  | existing (lockStateid : WireStateid)
  deriving DecidableEq, Repr

inductive Refusal where
  | nofilehandle | grace | badStateid | badSeqid | failed
  deriving DecidableEq, Repr

inductive Reply where
  | granted
  | conflict (lock : Lock)
  | refused (why : Refusal)
  deriving DecidableEq, Repr

/-! ## Owners -/

/-- Count the references to an owner; those of NLM are balanced. -/
def LockState.count (s : LockState) (f : Nat → Nat) : Owner → LockState
  | .nfs4 object _ _ => { s with refs := Function.update s.refs object (f (s.refs object)) }
  | .nlm _ _ _ => s

/-- Every owner object that was made has a reference: that of its client's list, if no other. -/
def LockState.Live (s : LockState) : Prop := ∀ object < s.nextObject, s.refs object ≠ 0

instance (s : LockState) : Decidable s.Live :=
  inferInstanceAs (Decidable (∀ object < s.nextObject, _))

/-- `nfs4_lock_owner_match` on an owner of its own kind. -/
def nfs4OwnerMatch (clientid : UInt64) (name : Bytes) : Owner → Bool
  | .nfs4 _ c n => c == clientid && n == name
  | .nlm _ _ _ => false

def nfs4FindLockOwner (s : LockState) (client : Nat) (clientid : UInt64) (name : Bytes) :
    Option Owner := (s.owners client).find? (nfs4OwnerMatch clientid name)

def nfs4GetLockOwner (s : LockState) (client : Nat) (clientid : UInt64) (name : Bytes) :
    Owner × LockState :=
  match nfs4FindLockOwner s client clientid name with
  | some o => (o, s.count getRef o)
  | none =>
    let o := Owner.nfs4 s.nextObject clientid name
    -- one reference for the list and one for the caller
    (o, { s with
      owners := Function.update s.owners client (o :: s.owners client)
      nextObject := s.nextObject + 1
      refs := Function.update s.refs s.nextObject 2 })

/-- `nfs4_lock_owner_match` for the owner of a `LOCKT`. -/
def nfs4Match (clientid : UInt64) (name : Bytes) (alias_ : Owner → Bool) : Owner → Bool
  | .nfs4 _ c n => c == clientid && n == name
  | .nlm svid oh caller => alias_ (.nlm svid oh caller)

/-- `nlm4_owner_match_op`. -/
def nlmMatch (svid : UInt32) (oh caller : Bytes) (alias_ : Owner → Bool) : Owner → Bool
  | .nlm s h c => s == svid && h == oh && c == caller
  | .nfs4 object clientid name => alias_ (.nfs4 object clientid name)

/-! ## NFSv4 -/

/-- The owner a `LOCK` is for, with a reference to it. A new owner is made even if the lock is then
denied. -/
def resolveLocker (s : LockState) (cx : Compound) : Locker → Option (Owner × LockState)
  | .newOwner openStateid clientid name => match openStateid.or cx.current with
    | none => none
    | some wire =>
      if wire.type ≠ tagOpen then none
      else match s.stateids wire.id with
        | some (.openId cookie _) =>
          if cookie ≠ wire.cookie then none
          else some (nfs4GetLockOwner s cx.client clientid name)
        | _ => none
  | .existing wire =>
    if wire.type ≠ tagLock then none
    else match s.stateids wire.id with
      | some (.lockId cookie _ owner) =>
        if cookie ≠ wire.cookie then none else some (owner, s.count getRef owner)
      | _ => none

/-- A new stateid keeps the reference to its owner, and its lock gets another; under an old one the
reference is put again. -/
def Locker.keep : Locker → Nat → Nat
  | .newOwner _ _ _ => getRef
  | .existing _ => putRef

/-- The stateid of a granted `LOCK`: a new one, with the number and the cookie that `stateid_assign`
gave it, or the old one with its sequence number counted up. -/
def lockedStateid (s : LockState) (owner : Owner) (fresh : UInt32 × UInt32) :
    Locker → UInt32 → Option Stateid
  | .newOwner _ _ _ => Function.update s.stateids fresh.1 (some (.lockId fresh.2 1 owner))
  | .existing wire => match s.stateids wire.id with
    | some (.lockId cookie seqid owner) =>
      Function.update s.stateids wire.id (some (.lockId cookie (seqid + 1) owner))
    | _ => s.stateids

structure LockArgs where
  locktype : LockType
  reclaim : Bool
  offset : UInt64
  length : UInt64
  locker : Locker
  deriving DecidableEq, Repr

def nfs4OpLock (s : LockState) (cx : Compound) (args : LockArgs) (fresh : UInt32 × UInt32)
    (alias_ : Owner → Bool) : Reply × LockState :=
  if !cx.fileHandle then (.refused .nofilehandle, s)
  else if cx.inGrace && !args.reclaim then (.refused .grace, s)
  else match resolveLocker s cx args.locker with
    | none => (.refused .badStateid, s)
    | some (owner, s) =>
      let exclusive := args.locktype.exclusive
      match findConflict s.locks args.offset args.length exclusive (some owner) alias_ with
      -- a new stateid goes, with its reference to the owner
      | some conflict => (.conflict conflict, s.count putRef owner)
      | none => (.granted, { s.count args.locker.keep owner with
          locks := lockAdd s.locks ⟨owner, args.offset, args.length, exclusive⟩
          stateids := lockedStateid s owner fresh args.locker })

structure LocktArgs where
  locktype : LockType
  offset : UInt64
  length : UInt64
  clientid : UInt64
  owner : Bytes
  deriving DecidableEq, Repr

def nfs4OpLockt (s : LockState) (cx : Compound) (args : LocktArgs) (alias_ : Owner → Bool) :
    Reply × LockState :=
  if !cx.fileHandle then (.refused .nofilehandle, s)
  else if cx.inGrace then (.refused .grace, s)
  else
    let lo := nfs4FindLockOwner s cx.client args.clientid args.owner
    match findConflict s.locks args.offset args.length args.locktype.exclusive lo
        (nfs4Match args.clientid args.owner alias_) with
    | some conflict => (.conflict conflict, s)
    | none => (.granted, s)

structure LockuArgs where
  /-- `none` names the current stateid. -/
  lockStateid : Option WireStateid
  offset : UInt64
  length : UInt64
  deriving DecidableEq, Repr

/-- The locks of the file, each with the allocator's answer. -/
def LockState.entries (s : LockState) (memory : Nat → Bool) : List (Lock × Bool) :=
  s.locks.zipIdx.map fun p => (p.1, memory p.2)

def nfs4OpLocku (s : LockState) (cx : Compound) (args : LockuArgs) (memory : Nat → Bool) :
    Reply × LockState :=
  if !cx.fileHandle then (.refused .nofilehandle, s)
  else match args.lockStateid.or cx.current with
    | none => (.refused .badStateid, s)
    | some wire =>
      if wire.type ≠ tagLock then (.refused .badStateid, s)
      else match s.stateids wire.id with
        | some (.lockId cookie seqid owner) =>
          if cookie ≠ wire.cookie then (.refused .badStateid, s)
          else if wire.seqid ≠ 0 ∧ wire.seqid ≠ seqid then (.refused .badSeqid, s)
          else (.granted,
            { s.count (removeRefs args.offset args.length owner (s.entries memory)) owner with
              locks := (lockRemoveWith args.offset args.length owner (s.entries memory)).2
              stateids := Function.update s.stateids wire.id
                (some (.lockId cookie (seqid + 1) owner)) })
        | _ => (.refused .badStateid, s)

/-! ## NLM -/

/-- A request of NLM: its owner and range, whether the server is in its grace period and whether the
file handle names the file. -/
structure NlmArgs where
  svid : UInt32
  oh : Bytes
  caller : Bytes
  offset : UInt64
  len : UInt64
  inGrace : Bool
  fileHandle : Bool
  deriving DecidableEq, Repr

def NlmArgs.owner (args : NlmArgs) : Owner := .nlm args.svid args.oh args.caller

def nlm4Lock (s : LockState) (args : NlmArgs) (exclusive reclaim : Bool) (alias_ : Owner → Bool) :
    Reply × LockState :=
  if args.inGrace && !reclaim then (.refused .grace, s)
  else if !args.fileHandle then (.refused .failed, s)
  else match findConflict s.locks args.offset args.len exclusive (some args.owner)
      (nlmMatch args.svid args.oh args.caller alias_) with
    | some conflict => (.conflict conflict, s)
    | none => (.granted, { s with
        locks := lockAdd s.locks ⟨args.owner, args.offset, args.len, exclusive⟩ })

def nlm4Unlock (s : LockState) (args : NlmArgs) (memory : Nat → Bool) : Reply × LockState :=
  if !args.fileHandle then (.refused .failed, s)
  else (.granted,
    { s with locks := (lockRemoveWith args.offset args.len args.owner (s.entries memory)).2 })

def nlm4Test (s : LockState) (args : NlmArgs) (exclusive : Bool) (alias_ : Owner → Bool) :
    Reply × LockState :=
  if args.inGrace then (.refused .grace, s)
  else if !args.fileHandle then (.refused .failed, s)
  else match findConflict s.locks args.offset args.len exclusive (some args.owner)
      (nlmMatch args.svid args.oh args.caller alias_) with
    | some conflict => (.conflict conflict, s)
    | none => (.granted, s)

/-! ## Requests -/

inductive Request where
  | lock (cx : Compound) (args : LockArgs) (fresh : UInt32 × UInt32) (alias_ : Owner → Bool)
  | lockt (cx : Compound) (args : LocktArgs) (alias_ : Owner → Bool)
  | locku (cx : Compound) (args : LockuArgs) (memory : Nat → Bool)
  | nlmLock (args : NlmArgs) (exclusive reclaim : Bool) (alias_ : Owner → Bool)
  | nlmUnlock (args : NlmArgs) (memory : Nat → Bool)
  | nlmTest (args : NlmArgs) (exclusive : Bool) (alias_ : Owner → Bool)

def handle (s : LockState) : Request → Reply × LockState
  | .lock cx args fresh alias_ => nfs4OpLock s cx args fresh alias_
  | .lockt cx args alias_ => nfs4OpLockt s cx args alias_
  | .locku cx args memory => nfs4OpLocku s cx args memory
  | .nlmLock args exclusive reclaim alias_ => nlm4Lock s args exclusive reclaim alias_
  | .nlmUnlock args memory => nlm4Unlock s args memory
  | .nlmTest args exclusive alias_ => nlm4Test s args exclusive alias_

def serve (s : LockState) (r : Request) : Reply × LockState :=
  let after := (handle s r).2
  ((handle s r).1, if after.Live then after else { after with locks := after.wreck })

inductive AskKind where
  | lock | unlock | test
  deriving DecidableEq, Repr

/-- A request whose owner is known. A test by an owner the server has no object for has none. -/
structure Ask where
  kind : AskKind
  owner : Option Owner
  offset : UInt64
  len : UInt64
  exclusive : Bool
  isMatch : Owner → Bool
  memory : Nat → Bool
  /-- In the protocol of the request its length means to the end of the file. -/
  toEnd : Bool
  toEnd_of_zero : len = 0 → toEnd = true

/-- All ones means to the end of the file in NFSv4; the server takes zero for it too. -/
def nfs4ToEnd (length : UInt64) : Bool := length == 0 || length == allOnes

lemma nfs4ToEnd_of_zero {length : UInt64} (h : length = 0) : nfs4ToEnd length := by
  rw [h]
  rfl

/-- What a request asks of the list of locks; nothing if it is refused before that. -/
def Request.ask (s : LockState) : Request → Option Ask
  | .lock cx args _ alias_ =>
    if !cx.fileHandle || (cx.inGrace && !args.reclaim) then none
    else (resolveLocker s cx args.locker).map fun p =>
      ⟨.lock, some p.1, args.offset, args.length, args.locktype.exclusive, alias_,
        fun _ => true, nfs4ToEnd args.length, nfs4ToEnd_of_zero⟩
  | .lockt cx args alias_ =>
    if !cx.fileHandle || cx.inGrace then none
    else some ⟨.test, nfs4FindLockOwner s cx.client args.clientid args.owner, args.offset,
      args.length, args.locktype.exclusive, nfs4Match args.clientid args.owner alias_,
      fun _ => true, nfs4ToEnd args.length, nfs4ToEnd_of_zero⟩
  | .locku cx args memory =>
    if !cx.fileHandle then none
    else (args.lockStateid.or cx.current).bind fun wire =>
      if wire.type ≠ tagLock then none
      else match s.stateids wire.id with
        | some (.lockId cookie seqid owner) =>
          if cookie ≠ wire.cookie ∨ (wire.seqid ≠ 0 ∧ wire.seqid ≠ seqid) then none
          else some ⟨.unlock, some owner, args.offset, args.length, false, fun _ => false,
            memory, nfs4ToEnd args.length, nfs4ToEnd_of_zero⟩
        | _ => none
  | .nlmLock args exclusive reclaim alias_ =>
    if (args.inGrace && !reclaim) || !args.fileHandle then none
    else some ⟨.lock, some args.owner, args.offset, args.len, exclusive,
      nlmMatch args.svid args.oh args.caller alias_, fun _ => true, args.len == 0, beq_iff_eq.mpr⟩
  | .nlmUnlock args memory =>
    if !args.fileHandle then none
    else some ⟨.unlock, some args.owner, args.offset, args.len, false, fun _ => false,
      memory, args.len == 0, beq_iff_eq.mpr⟩
  | .nlmTest args exclusive alias_ =>
    if args.inGrace || !args.fileHandle then none
    else some ⟨.test, some args.owner, args.offset, args.len, exclusive,
      nlmMatch args.svid args.oh args.caller alias_, fun _ => true, args.len == 0, beq_iff_eq.mpr⟩

/-- What an ask does to the list of locks, and what it is answered. -/
inductive Answered (s : LockState) (a : Ask) : Reply → List Lock → Prop where
  | conflict {l : Lock} (kind : a.kind ≠ .unlock)
      (found : findConflict s.locks a.offset a.len a.exclusive a.owner a.isMatch = some l) :
      Answered s a (.conflict l) s.locks
  | locked {owner : Owner} (kind : a.kind = .lock) (whose : a.owner = some owner)
      (found : findConflict s.locks a.offset a.len a.exclusive a.owner a.isMatch = none) :
      Answered s a .granted (lockAdd s.locks ⟨owner, a.offset, a.len, a.exclusive⟩)
  | unlocked {owner : Owner} (kind : a.kind = .unlock) (whose : a.owner = some owner) :
      Answered s a .granted (lockRemoveWith a.offset a.len owner (s.entries a.memory)).2
  | tested (kind : a.kind = .test)
      (found : findConflict s.locks a.offset a.len a.exclusive a.owner a.isMatch = none) :
      Answered s a .granted s.locks

@[simp] lemma LockState.count_locks (s : LockState) (f : Nat → Nat) (o : Owner) :
    (s.count f o).locks = s.locks := by
  cases o <;> rfl

lemma LockState.entries_fst (s : LockState) (memory : Nat → Bool) :
    (s.entries memory).map Prod.fst = s.locks := by
  rw [entries, List.map_map]
  exact List.zipIdx_map_fst 0 s.locks

lemma nfs4GetLockOwner_locks (s : LockState) (client : Nat) (clientid : UInt64) (name : Bytes) :
    (nfs4GetLockOwner s client clientid name).2.locks = s.locks := by
  unfold nfs4GetLockOwner
  split <;> simp

lemma resolveLocker_locks {t : LockState} {locker : Locker} {owner : Owner}
    (h : resolveLocker s cx locker = some (owner, t)) : t.locks = s.locks := by
  cases locker <;> grind [resolveLocker, nfs4GetLockOwner_locks, LockState.count_locks]

lemma handle_answered (s : LockState) (r : Request) : match r.ask s with
    | some a => Answered s a (handle s r).1 (handle s r).2.locks
    | none => (handle s r).2.locks = s.locks ∧ ∃ why, (handle s r).1 = .refused why := by
  cases r with
  | lock cx args fresh alias_ =>
    by_cases hserved : !cx.fileHandle || (cx.inGrace && !args.reclaim)
    · grind [handle, Request.ask, nfs4OpLock]
    cases hresolve : resolveLocker s cx args.locker with
    | none => grind [handle, Request.ask, nfs4OpLock]
    | some p =>
      obtain ⟨owner, t⟩ := p
      have hlocks := resolveLocker_locks hresolve
      simp only [handle, Request.ask, nfs4OpLock, if_neg hserved, hresolve, Option.map_some]
      rw [if_neg (by simp_all), if_neg (by simp_all), hlocks]
      cases hfound : findConflict s.locks args.offset args.length args.locktype.exclusive
        (some owner) alias_ with
      | some l =>
        -- a denied lock leaves at most an owner behind
        dsimp only
        rw [LockState.count_locks, hlocks]
        exact .conflict nofun hfound
      | none => exact .locked rfl rfl hfound
  | lockt cx args alias_ => grind [handle, Request.ask, nfs4OpLockt, Answered]
  | locku cx args memory =>
    cases hwire : args.lockStateid.or cx.current with
    | none => grind [handle, Request.ask, nfs4OpLocku]
    | some wire =>
      by_cases hgranted : cx.fileHandle ∧ wire.type = tagLock ∧ ∃ seqid owner,
          s.stateids wire.id = some (.lockId wire.cookie seqid owner) ∧
            (wire.seqid = 0 ∨ wire.seqid = seqid)
      · obtain ⟨hfile, htype, seqid, owner, hstateid, hseqid⟩ := hgranted
        have hseqid : ¬ (wire.seqid ≠ 0 ∧ wire.seqid ≠ seqid) := by tauto
        simp [handle, Request.ask, nfs4OpLocku, hwire, hfile, htype, hstateid, hseqid]
        exact .unlocked rfl rfl
      · grind [handle, Request.ask, nfs4OpLocku]
  | nlmLock args exclusive reclaim alias_ =>
    by_cases hserved : (args.inGrace && !reclaim) || !args.fileHandle
    · grind [handle, Request.ask, nlm4Lock]
    simp only [handle, Request.ask, nlm4Lock, if_neg hserved]
    rw [if_neg (by simp_all), if_neg (by simp_all)]
    split
    · exact .conflict nofun ‹_›
    · exact .locked rfl rfl ‹_›
  | nlmUnlock args memory =>
    by_cases hfile : args.fileHandle
    · simp only [handle, Request.ask, nlm4Unlock, hfile]
      exact .unlocked rfl rfl
    · grind [handle, Request.ask, nlm4Unlock]
  | nlmTest args exclusive alias_ => grind [handle, Request.ask, nlm4Test, Answered]

section

/-- The request leaves every owner object a reference. -/
def SparesOwners (s : LockState) (r : Request) : Prop := (handle s r).2.Live

variable (hlive : SparesOwners s r)

include hlive

lemma serve_eq : serve s r = handle s r := Prod.ext rfl (if_pos hlive)

/-- **A request that gets past the checks** is answered from the list of locks. -/
theorem serve_answered (h : r.ask s = some a) : Answered s a (serve s r).1 (serve s r).2.locks := by
  have hanswer := handle_answered s r
  rw [h] at hanswer
  rw [serve_eq hlive]
  exact hanswer

lemma serve_refused (h : r.ask s = none) :
    (serve s r).2.locks = s.locks ∧ ∃ why, (serve s r).1 = .refused why := by
  have hanswer := handle_answered s r
  rw [h] at hanswer
  rw [serve_eq hlive]
  exact hanswer

end

/-! ## Share reservations

The shares of one inode: what each owner may do with the file and what it denies to others, as
masks of reading and writing. `reffs_share_add` and `reffs_share_remove` under the NLM calls that
reach them. -/

structure Share where
  owner : Owner
  mode : UInt32
  access : UInt32
  deriving DecidableEq, Repr

def shareConflict (s1 s2 : Share) : Bool := s2.access &&& s1.mode != 0 || s1.access &&& s2.mode != 0

/-- Change the last entry of the owner, if there is one. -/
def shareUpdate (share : Share) : List Share → Option (List Share)
  | [] => none
  | se :: rest => match shareUpdate share rest with
    | some rest' => some (se :: rest')
    | none =>
      if se.owner =
        share.owner then some ({ se with mode := share.mode, access := share.access } :: rest)
      else none

/-- `none` for `-EACCES`. -/
def shareAdd (shares : List Share) (share : Share) : Option (List Share) :=
  if shares.any fun se => se.owner != share.owner && shareConflict se share then none
  else some ((shareUpdate share shares).getD (share :: shares))

def shareRemove (shares : List Share) (owner : Owner) : List Share :=
  shares.filter (·.owner ≠ owner)

inductive ShareStat where
  | granted
  | denied
  | deniedNolocks
  deriving DecidableEq, Repr

/-- `found` says whether the call gets what it needs first: its owner and, to add a share, memory, a
reference to the inode and its host. -/
inductive ShareCall where
  | share (args : Share) (found : Bool)
  | unshare (owner : Owner) (found : Bool)
  /-- A host has restarted, and all its owners lose their shares. -/
  | freeAll (gone : Owner → Bool)

def shareCall (shares : List Share) : ShareCall → ShareStat × List Share
  | .share args found =>
    if !found then (.deniedNolocks, shares)
    else match shareAdd shares args with
      | some shares => (.granted, shares)
      | none => (.denied, shares)
  | .unshare owner found =>
    if !found then (.deniedNolocks, shares) else (.granted, shareRemove shares owner)
  | .freeAll gone => (.granted, shares.filter fun se => !gone se.owner)

/-- Each owner has one share at most, and none with access that another denies. -/
structure Compatible (shares : List Share) : Prop where
  nodup : (shares.map Share.owner).Nodup
  apart : ∀ s ∈ shares, ∀ t ∈ shares, s.owner ≠ t.owner → s.access &&& t.mode = 0

variable {shares shares' : List Share} {share : Share}

lemma Compatible.filter (h : Compatible shares) (p : Share → Bool) :
    Compatible (shares.filter p) where
  nodup := h.nodup.sublist (List.filter_sublist.map _)
  apart := fun s hs t ht => h.apart s (List.mem_of_mem_filter hs) t (List.mem_of_mem_filter ht)

lemma shareUpdate_some (h : shareUpdate share shares = some shares') :
    shares'.map Share.owner = shares.map Share.owner ∧ ∀ t ∈ shares', t = share ∨ t ∈ shares := by
  cases share
  induction shares generalizing shares' with
  | nil => cases h
  | cons se rest ih => grind [shareUpdate]

lemma shareUpdate_none (h : shareUpdate share shares = none) :
    share.owner ∉ shares.map Share.owner := by
  induction shares with
  | nil => exact List.not_mem_nil
  | cons se rest ih => grind [shareUpdate]

lemma Compatible.shareAdd (h : Compatible shares) (hadd : shareAdd shares share = some shares') :
    Compatible shares' := by
  obtain ⟨hfree, hshares⟩ := Option.ite_none_left_eq_some.mp hadd
  obtain rfl := Option.some.inj hshares
  have hnone : ∀ se ∈ shares, se.owner ≠ share.owner → share.access &&& se.mode = 0 ∧
      se.access &&& share.mode = 0 := by
    simpa [shareConflict] using hfree
  -- a new entry and a changed one alike
  have hentries : (((shareUpdate share shares).getD (share :: shares)).map Share.owner).Nodup ∧
      ∀ t ∈ (shareUpdate share shares).getD (share :: shares), t = share ∨ t ∈ shares := by
    cases hupdate : shareUpdate share shares with
    | none =>
      exact ⟨List.nodup_cons.mpr ⟨shareUpdate_none hupdate, h.nodup⟩, fun t => List.mem_cons.mp⟩
    | some shares' =>
      obtain ⟨howners, hmem⟩ := shareUpdate_some hupdate
      exact ⟨howners ▸ h.nodup, hmem⟩
  refine ⟨hentries.1, fun s hs t ht hne => ?_⟩
  rcases hentries.2 s hs with rfl | hs' <;> rcases hentries.2 t ht with rfl | ht'
  · exact absurd rfl hne
  · exact (hnone t ht' hne.symm).1
  · exact (hnone s hs' hne).2
  · exact h.apart s hs' t ht' hne

lemma Compatible.call (h : Compatible shares) (call : ShareCall) :
    Compatible (shareCall shares call).2 := by
  cases call with
  | share args found =>
    simp only [shareCall]
    split
    · exact h
    · split
      · next hadd => exact h.shareAdd hadd
      · exact h
  | unshare owner found =>
    simp only [shareCall]
    split
    · exact h
    · exact h.filter _
  | freeAll gone => exact h.filter _

/-- **Shares stay compatible** over all calls, and a call that is not granted changes nothing. -/
theorem shares_compatible (calls : List ShareCall) :
    let shares := Machine.run (fun shares call => (shareCall shares call).2) [] calls
    Compatible shares ∧
      ∀ call, (shareCall shares call).1 ≠ .granted → (shareCall shares call).2 = shares := by
  have hsame : ∀ shares call, (shareCall shares call).1 ≠ .granted →
      (shareCall shares call).2 = shares := by
    intro shares call
    cases call <;> grind [shareCall]
  exact ⟨Machine.run_invariant (fun _ call h => h.call call) ⟨List.nodup_nil, nofun⟩ calls, hsame _⟩

end Reffs.Locks
