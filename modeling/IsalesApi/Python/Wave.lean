import IsalesApi.Foundation.Riff

/-!
# `io.BytesIO` and `wave.Wave_write`

The writer of `wave` over a file in memory. The header is written before the
first frames, with the number of whole frames that are about to come, and it is
corrected when the bytes written turn out to be more.
-/

namespace IsalesApi.Python

open Foundation

/-- `s.encode("ascii")`. -/
def ascii (s : String) : Bytes := s.toList.map fun c => UInt8.ofNat c.toNat

/-! ## `io.BytesIO` -/

structure BytesIO where
  buf : Bytes
  pos : Nat

namespace BytesIO

/-- A write behind the end fills the gap with zeros. -/
def write (f : BytesIO) (data : Bytes) : BytesIO where
  buf := f.buf.take f.pos ++ List.replicate (f.pos - f.buf.length) 0 ++ data ++
    f.buf.drop (f.pos + data.length)
  pos := f.pos + data.length

def seek (f : BytesIO) (pos : Nat) : BytesIO := { f with pos }

/-- A write at the end appends. -/
theorem write_end {buf : Bytes} {pos : Nat} (h : buf.length = pos) (data : Bytes) :
    write ⟨buf, pos⟩ data = ⟨buf ++ data, pos + data.length⟩ := by
  subst h
  simp [write]

/-- A write over bytes of the same number replaces them. -/
theorem write_over {before old data : Bytes} {pos : Nat} (h : before.length = pos)
    (hsize : data.length = old.length) (after : Bytes) :
    write ⟨before ++ (old ++ after), pos⟩ data =
      ⟨before ++ (data ++ after), pos + data.length⟩ := by
  subst h
  have hdrop : (before ++ (old ++ after)).drop (before.length + data.length) = after := by
    rw [← List.drop_drop, List.drop_left' rfl, hsize, List.drop_left' rfl]
  simp [write, hdrop]

end BytesIO

/-! ## `wave.Wave_write` -/

/-- `wave.Error` and `struct.error`. -/
inductive WaveError where
  | error (msg : String)
  | structError

/-- `struct.pack("<L", n)`. -/
def packL (n : Nat) : Option Bytes := if n < 256 ^ 4 then some (toLE 4 n) else none

/-- `struct.pack("<H", n)`. -/
def packH (n : Nat) : Option Bytes := if n < 256 ^ 2 then some (toLE 2 n) else none

theorem packL_eq_some {n : Nat} {bs : Bytes} : packL n = some bs ↔ n < 256 ^ 4 ∧ bs = toLE 4 n := by
  unfold packL
  split <;> simp_all [eq_comm]

theorem packH_eq_some {n : Nat} {bs : Bytes} : packH n = some bs ↔ n < 256 ^ 2 ∧ bs = toLE 2 n := by
  unfold packH
  split <;> simp_all [eq_comm]

structure WaveWrite where
  file : BytesIO
  nchannels : Nat
  sampwidth : Nat
  framerate : Nat
  nframes : Nat
  nframeswritten : Nat
  datawritten : Nat
  datalength : Nat
  formLengthPos : Nat
  dataLengthPos : Nat
  headerwritten : Bool

namespace WaveWrite

/-- What a method leaves; when it raises, the state it raised in. -/
abbrev Result := Except (WaveError × WaveWrite) WaveWrite

/-- `wave.open(buf, "wb")`. -/
def opened : WaveWrite := ⟨⟨[], 0⟩, 0, 0, 0, 0, 0, 0, 0, 0, 0, false⟩

def setnchannels (w : WaveWrite) (nchannels : Int) : Result :=
  if w.datawritten ≠ 0 then
    .error (.error "cannot change parameters after starting to write", w)
  else if nchannels < 1 then .error (.error "bad # of channels", w)
  else .ok { w with nchannels := nchannels.toNat }

def setsampwidth (w : WaveWrite) (sampwidth : Int) : Result :=
  if w.datawritten ≠ 0 then
    .error (.error "cannot change parameters after starting to write", w)
  else if sampwidth < 1 ∨ 4 < sampwidth then .error (.error "bad sample width", w)
  else .ok { w with sampwidth := sampwidth.toNat }

/-- The frame rate is an `int` here, so rounding leaves it alone. -/
def setframerate (w : WaveWrite) (framerate : Int) : Result :=
  if w.datawritten ≠ 0 then
    .error (.error "cannot change parameters after starting to write", w)
  else if framerate ≤ 0 then .error (.error "bad frame rate", w)
  else .ok { w with framerate := framerate.toNat }

/-- The part of the header between `RIFF` and the size of the data. -/
def packHeader (w : WaveWrite) : Option Bytes := do
  let total ← packL (36 + w.datalength)
  let nchannels ← packH w.nchannels
  let framerate ← packL w.framerate
  let byterate ← packL (w.nchannels * w.framerate * w.sampwidth)
  let framesize ← packH (w.nchannels * w.sampwidth)
  let bits ← packH (w.sampwidth * 8)
  some (total ++ (ascii "WAVE" ++ (ascii "fmt " ++ (toLE 4 16 ++ (toLE 2 1 ++ (nchannels ++
    (framerate ++ (byterate ++ (framesize ++ (bits ++ ascii "data"))))))))))

/-- `_write_header`. -/
def writeHeader (w : WaveWrite) (initlength : Nat) : Result :=
  let file := w.file.write (ascii "RIFF")
  let nframes := if w.nframes = 0 then initlength / (w.nchannels * w.sampwidth) else w.nframes
  let w := { w with
    file := file
    nframes := nframes
    datalength := nframes * w.nchannels * w.sampwidth
    formLengthPos := file.pos }
  match w.packHeader with
  | none => .error (.structError, w)
  | some header =>
    let file := w.file.write header
    let w := { w with file := file, dataLengthPos := file.pos }
    match packL w.datalength with
    | none => .error (.structError, w)
    | some length => .ok { w with file := w.file.write length, headerwritten := true }

/-- `_ensure_header_written`. -/
def ensureHeaderWritten (w : WaveWrite) (datasize : Nat) : Result :=
  if w.headerwritten then .ok w
  else if w.nchannels = 0 then .error (.error "# channels not specified", w)
  else if w.sampwidth = 0 then .error (.error "sample width not specified", w)
  else if w.framerate = 0 then .error (.error "sampling rate not specified", w)
  else w.writeHeader datasize

/-- `_patchheader`. -/
def patchheader (w : WaveWrite) : Result :=
  if w.datawritten = w.datalength then .ok w
  else
    let curpos := w.file.pos
    let w := { w with file := w.file.seek w.formLengthPos }
    match packL (36 + w.datawritten) with
    | none => .error (.structError, w)
    | some total =>
      let w := { w with file := (w.file.write total).seek w.dataLengthPos }
      match packL w.datawritten with
      | none => .error (.structError, w)
      | some length =>
        .ok { w with file := (w.file.write length).seek curpos, datalength := w.datawritten }

def writeframesraw (w : WaveWrite) (data : Bytes) : Result :=
  (w.ensureHeaderWritten data.length).map fun w =>
    { w with
      file := w.file.write data
      datawritten := w.datawritten + data.length
      nframeswritten := w.nframeswritten + data.length / (w.sampwidth * w.nchannels) }

def writeframes (w : WaveWrite) (data : Bytes) : Result :=
  (w.writeframesraw data).bind fun w =>
    if w.datalength ≠ w.datawritten then w.patchheader else .ok w

def close (w : WaveWrite) : Result :=
  (w.ensureHeaderWritten 0).bind fun w =>
    if w.datalength ≠ w.datawritten then w.patchheader else .ok w

end WaveWrite

end IsalesApi.Python
