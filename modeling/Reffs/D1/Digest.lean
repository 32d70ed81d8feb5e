import Reffs.D1.Types

/-!
# Checksums and request digests

`d1_digest.c`: the two reflected CRCs, SHA-256 and the domain-separated digest of a request. Nothing
about the digest is assumed: where a result needs two requests to differ in their digest it says so.
-/

namespace Reffs.D1

open ByteCodec

/-! ## CRC -/

def crcBit (poly crc : UInt32) : UInt32 := (crc >>> 1) ^^^ (poly &&& (~~~(crc &&& 1) + 1))

def crcByte (poly crc : UInt32) (b : UInt8) : UInt32 :=
  (crcBit poly)^[8] (crc ^^^ b.toUInt32)

def crcReflected (poly : UInt32) (data : Bytes) : UInt32 :=
  data.foldl (crcByte poly) 0xffffffff ^^^ 0xffffffff

def crc32 (data : Bytes) : UInt32 := crcReflected 0xedb88320 data
def crc32c (data : Bytes) : UInt32 := crcReflected 0x82f63b78 data

/-! ## SHA-256 -/

def sha256K : List UInt32 := [
  0x428a2f98, 0x71374491, 0xb5c0fbcf, 0xe9b5dba5, 0x3956c25b, 0x59f111f1, 0x923f82a4, 0xab1c5ed5,
  0xd807aa98, 0x12835b01, 0x243185be, 0x550c7dc3, 0x72be5d74, 0x80deb1fe, 0x9bdc06a7, 0xc19bf174,
  0xe49b69c1, 0xefbe4786, 0x0fc19dc6, 0x240ca1cc, 0x2de92c6f, 0x4a7484aa, 0x5cb0a9dc, 0x76f988da,
  0x983e5152, 0xa831c66d, 0xb00327c8, 0xbf597fc7, 0xc6e00bf3, 0xd5a79147, 0x06ca6351, 0x14292967,
  0x27b70a85, 0x2e1b2138, 0x4d2c6dfc, 0x53380d13, 0x650a7354, 0x766a0abb, 0x81c2c92e, 0x92722c85,
  0xa2bfe8a1, 0xa81a664b, 0xc24b8b70, 0xc76c51a3, 0xd192e819, 0xd6990624, 0xf40e3585, 0x106aa070,
  0x19a4c116, 0x1e376c08, 0x2748774c, 0x34b0bcb5, 0x391c0cb3, 0x4ed8aa4a, 0x5b9cca4f, 0x682e6ff3,
  0x748f82ee, 0x78a5636f, 0x84c87814, 0x8cc70208, 0x90befffa, 0xa4506ceb, 0xbef9a3f7, 0xc67178f2]

def ror (v n : UInt32) : UInt32 := (v >>> n) ||| (v <<< (32 - n))

structure ShaWords where
  a : UInt32
  b : UInt32
  c : UInt32
  d : UInt32
  e : UInt32
  f : UInt32
  g : UInt32
  h : UInt32

/-- The message schedule, newest word first: sixteen words of the block, then 48 derived ones. -/
def shaSchedule : Nat → List UInt32 → List UInt32
  | 0, w => w
  | k + 1, w =>
    let at' (i : Nat) : UInt32 := w.getD (i - 1) 0
    let s0 := ror (at' 15) 7 ^^^ ror (at' 15) 18 ^^^ (at' 15 >>> 3)
    let s1 := ror (at' 2) 17 ^^^ ror (at' 2) 19 ^^^ (at' 2 >>> 10)
    shaSchedule k ((at' 16 + s0 + at' 7 + s1) :: w)

def shaRound (v : ShaWords) (kw : UInt32 × UInt32) : ShaWords :=
  let s1 := ror v.e 6 ^^^ ror v.e 11 ^^^ ror v.e 25
  let ch := (v.e &&& v.f) ^^^ (~~~v.e &&& v.g)
  let t1 := v.h + s1 + ch + kw.1 + kw.2
  let s0 := ror v.a 2 ^^^ ror v.a 13 ^^^ ror v.a 22
  let maj := (v.a &&& v.b) ^^^ (v.a &&& v.c) ^^^ (v.b &&& v.c)
  ⟨t1 + (s0 + maj), v.a, v.b, v.c, v.d + t1, v.e, v.f, v.g⟩

def blockWords : Bytes → List UInt32
  | b0 :: b1 :: b2 :: b3 :: rest =>
    ((b0.toUInt32 <<< 24) ||| (b1.toUInt32 <<< 16) ||| (b2.toUInt32 <<< 8) ||| b3.toUInt32) ::
      blockWords rest
  | _ => []

def sha256Block (h : ShaWords) (block : Bytes) : ShaWords :=
  let w := (shaSchedule 48 (blockWords block).reverse).reverse
  let v := (sha256K.zip w).foldl shaRound h
  ⟨h.a + v.a, h.b + v.b, h.c + v.c, h.d + v.d, h.e + v.e, h.f + v.f, h.g + v.g, h.h + v.h⟩

structure Sha256Ctx where
  h : ShaWords
  bits : UInt64
  block : Bytes

def sha256Init : Sha256Ctx where
  h :=
    ⟨0x6a09e667, 0xbb67ae85, 0x3c6ef372, 0xa54ff53a, 0x510e527f, 0x9b05688c, 0x1f83d9ab, 0x5be0cd19⟩
  bits := 0
  block := []

/-- Add one byte to the block, and compress the block when it is full. -/
def sha256Byte (ctx : Sha256Ctx) (b : UInt8) : Sha256Ctx :=
  let block := ctx.block ++ [b]
  if block.length = 64 then { ctx with h := sha256Block ctx.h block, block := [] }
  else { ctx with block := block }

def sha256Update (ctx : Sha256Ctx) (data : Bytes) : Sha256Ctx :=
  data.foldl sha256Byte { ctx with bits := ctx.bits + UInt64.ofNat (data.length * 8) }

/-- Pad with the marker byte, zero bytes up to offset 56 and the bit count. -/
def sha256Final (ctx : Sha256Ctx) : Digest :=
  let marked := sha256Update ctx [0x80]
  let zeroCount := (56 + 64 - marked.block.length) % 64
  let padded := sha256Update marked (List.replicate zeroCount 0)
  let v := (sha256Update padded (encU64 ctx.bits)).h
  fixedOfBytes 32 ([v.a, v.b, v.c, v.d, v.e, v.f, v.g, v.h].flatMap encU32)

def sha256 (data : Bytes) : Digest := sha256Final (sha256Update sha256Init data)

/-- The bytes of `D1_DIGEST_DOMAIN`, `FFV2-D1-REQ-v1`. -/
def digestDomain : Bytes :=
  [0x46, 0x46, 0x56, 0x32, 0x2d, 0x44, 0x31, 0x2d, 0x52, 0x45, 0x51, 0x2d, 0x76, 0x31]

@[irreducible] def requestDigest (data : Bytes) : Digest :=
  sha256Final (sha256Update (sha256Update sha256Init digestDomain) data)

/-! ## Payload checksums -/

def checksumCompute (alg : UInt32) (data : Bytes) : Option Checksum :=
  if alg = cksumCrc32 then some ⟨alg, 4, fixedOfBytes 4 (encU32 (crc32 data))⟩
  else if alg = cksumCrc32c then some ⟨alg, 4, fixedOfBytes 4 (encU32 (crc32c data))⟩
  else none

def checksumVerify (sum : Checksum) (data : Bytes) : Bool :=
  if sum.len ≠ 4 then false
  else match checksumCompute sum.alg data with
    | none => false
    | some want => want.digest == sum.digest

end Reffs.D1
