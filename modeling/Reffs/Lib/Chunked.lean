import Mathlib.Data.List.Basic
import Mathlib.Data.List.Range

/-!
# Files kept in chunks

A file is kept in chunks of `size` bytes; chunk `i` may hold fewer, and what it does not hold reads
as `blank`. `Chunked.bytes` is what the file reads as from an offset on, byte by byte. A reader goes
chunk by chunk (`bytes_span`), and a range may be read in pieces (`bytes_add`).
-/

namespace Chunked

open List

variable {α : Type} {size : Nat} {chunk : Nat → List α} {blank : α}

def byte (size : Nat) (chunk : Nat → List α) (blank : α) (offset : Nat) : α :=
  (chunk (offset / size)).getD (offset % size) blank

/-- `len` bytes of the file from an offset on. -/
def bytes (size : Nat) (chunk : Nat → List α) (blank : α) (offset len : Nat) : List α :=
  (List.range len).map fun k => byte size chunk blank (offset + k)

@[simp] lemma bytes_zero (offset : Nat) : bytes size chunk blank offset 0 = [] := rfl

lemma bytes_add (offset m n : Nat) : bytes size chunk blank offset (m + n) =
    bytes size chunk blank offset m ++ bytes size chunk blank (offset + m) n := by
  unfold bytes
  rw [range_add, map_append, map_map]
  congr 1
  apply map_congr_left
  intro k _
  rw [Function.comp_apply, Nat.add_assoc]

lemma bytes_congr {chunk' : Nat → List α} {offset len : Nat}
    (h : ∀ k < len, chunk' ((offset + k) / size) = chunk ((offset + k) / size)) :
    bytes size chunk' blank offset len = bytes size chunk blank offset len := by
  apply map_congr_left
  intro k hk
  unfold byte
  rw [h k (mem_range.mp hk)]

/-- `span` bytes of a chunk from `within` on, filled up with blanks. -/
def span (content : List α) (blank : α) (within span : Nat) : List α :=
  let got := (content.drop within).take span
  got ++ List.replicate (span - got.length) blank

lemma span_eq (content : List α) (within n : Nat) :
    span content blank within n = (range n).map fun k => content.getD (within + k) blank := by
  unfold span
  apply ext_getElem
  · grind
  · grind

lemma bytes_span {offset n : Nat} (hin : offset % size + n ≤ size) :
    span (chunk (offset / size)) blank (offset % size) n = bytes size chunk blank offset n := by
  rw [span_eq]
  apply map_congr_left
  intro k hk
  have hk := mem_range.mp hk
  have hsize : 0 < size := by omega
  have hsplit : offset + k = offset % size + k + size * (offset / size) := by
    have := Nat.mod_add_div offset size
    omega
  have hlt : offset % size + k < size := by omega
  unfold byte
  rw [hsplit, Nat.add_mul_div_left _ _ hsize, Nat.add_mul_mod_self_left, Nat.div_eq_of_lt hlt,
    Nat.mod_eq_of_lt hlt, Nat.zero_add]

end Chunked
