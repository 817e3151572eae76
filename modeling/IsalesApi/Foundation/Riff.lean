import Mathlib.Tactic
import Mathlib.Data.Nat.Digits.Defs

/-!
# Chunks of bytes

Numbers with the low byte first, and the chunks of a RIFF file: a name of four
bytes, the size of the data, the data, and one more byte after data of odd size.
A reader that meets the end of the file inside a chunk takes what there is, so
the last byte of padding can be left out.
-/

namespace IsalesApi.Foundation

abbrev Bytes := List UInt8

/-! ## Numbers -/

/-- `n` in `width` bytes. -/
def toLE : Nat → Nat → Bytes
  | 0, _ => []
  | width + 1, n => UInt8.ofNat n :: toLE width (n / 256)

def ofLE (bs : Bytes) : Nat := Nat.ofDigits 256 (bs.map UInt8.toNat)

@[simp] theorem length_toLE (width n : Nat) : (toLE width n).length = width := by
  induction width generalizing n with
  | zero => rfl
  | succ width ih => rw [toLE, List.length_cons, ih]

theorem ofLE_toLE {width n : Nat} (h : n < 256 ^ width) : ofLE (toLE width n) = n := by
  induction width generalizing n with
  | zero =>
    rw [pow_zero, Nat.lt_one_iff] at h
    rw [h]
    rfl
  | succ width ih =>
    rw [pow_succ] at h
    have hrest : ofLE (toLE width (n / 256)) = n / 256 :=
      ih (Nat.div_lt_of_lt_mul (by rwa [Nat.mul_comm]))
    have hbyte : (UInt8.ofNat n).toNat = n % 256 := UInt8.toNat_ofNat'
    rw [ofLE] at hrest
    rw [ofLE, toLE, List.map_cons, Nat.ofDigits_cons, hrest, hbyte]
    exact Nat.mod_add_div n 256

/-! ## Chunks -/

structure Chunk where
  name : Bytes
  data : Bytes
deriving DecidableEq

/-- The sizes the format allows. -/
structure Chunk.Fits (c : Chunk) : Prop where
  name : c.name.length = 4
  data : c.data.length < 256 ^ 4

/-- The chunk without padding. -/
def Chunk.write (c : Chunk) : Bytes := c.name ++ (toLE 4 c.data.length ++ c.data)

/-- One byte after data of odd size. -/
def Chunk.padding (c : Chunk) : Bytes := List.replicate (c.data.length % 2) 0

/-- The first chunk, and what follows it. -/
def readChunk (bs : Bytes) : Option (Chunk × Bytes) :=
  if bs.length < 8 then none
  else
    let size := ofLE ((bs.drop 4).take 4)
    some (⟨bs.take 4, (bs.drop 8).take size⟩, (bs.drop 8).drop (size + size % 2))

/-- The chunks of a file, of which no more than `limit` are read. -/
def readChunks : Nat → Bytes → List Chunk
  | 0, _ => []
  | limit + 1, bs =>
    match readChunk bs with
    | none => []
    | some (c, rest) => c :: readChunks limit rest

variable {c : Chunk}

/-- What a reader meets behind the name and the size. -/
theorem readChunk_write_append (h : c.Fits) (rest : Bytes) :
    readChunk (c.write ++ rest) =
      some (⟨c.name, (c.data ++ rest).take c.data.length⟩,
        (c.data ++ rest).drop (c.data.length + c.data.length % 2)) := by
  obtain ⟨name, data⟩ := c
  obtain ⟨hname, hdata⟩ := h
  have hsize : (toLE 4 data.length).length = 4 := length_toLE 4 _
  have htail : (name ++ (toLE 4 data.length ++ (data ++ rest))).drop 4 =
      toLE 4 data.length ++ (data ++ rest) := List.drop_left' hname
  have hdrop : (name ++ (toLE 4 data.length ++ (data ++ rest))).drop 8 = data ++ rest := by
    rw [show 8 = 4 + 4 from rfl, ← List.drop_drop, htail, List.drop_left' hsize]
  have hlong : ¬ (name ++ (toLE 4 data.length ++ (data ++ rest))).length < 8 := by
    rw [List.length_append, List.length_append, hname, hsize]
    omega
  simp only [Chunk.write, List.append_assoc]
  rw [readChunk, if_neg hlong, htail, hdrop, List.take_left' hsize, List.take_left' hname,
    ofLE_toLE hdata]

/-- A chunk that is padded is read off, whatever follows. -/
theorem readChunk_padded (h : c.Fits) (rest : Bytes) :
    readChunk (c.write ++ (c.padding ++ rest)) = some (c, rest) := by
  rw [readChunk_write_append h, List.take_left' rfl, ← List.append_assoc, List.drop_left']
  rw [List.length_append, Chunk.padding, List.length_replicate]

/-- The last chunk needs no padding. -/
theorem readChunk_last (h : c.Fits) : readChunk c.write = some (c, []) := by
  have hlast := readChunk_write_append h []
  rwa [List.append_nil, List.append_nil, List.take_length,
    List.drop_of_length_le (Nat.le_add_right _ _)] at hlast

theorem readChunks_cons (h : c.Fits) (limit : Nat) (rest : Bytes) :
    readChunks (limit + 1) (c.write ++ (c.padding ++ rest)) = c :: readChunks limit rest := by
  rw [readChunks, readChunk_padded h]

theorem readChunks_last (h : c.Fits) (limit : Nat) :
    readChunks (limit + 1) c.write = [c] := by
  rw [readChunks, readChunk_last h]
  cases limit <;> rfl

end IsalesApi.Foundation
