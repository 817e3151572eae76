import IsalesApi.Python.Wave

/-!
# PCM to WAV

`pcm16_to_wav` wraps 16-bit samples in a RIFF file. It succeeds exactly when the
numbers of the header have room in their fields (`Fits`), and then the file has a
header of 44 bytes and the samples as they are, so that a reader of the format
gets back what was given (`readWave`).
-/

namespace IsalesApi.Common

open Foundation Python

/-! ## `common/wav.py` -/

/-- The body of the `with` statement. -/
def writeWav (pcm : Bytes) (sampleRate channels : Int) : WaveWrite.Result :=
  (WaveWrite.opened.setnchannels channels).bind fun w =>
  (w.setsampwidth 2).bind fun w =>
  (w.setframerate sampleRate).bind fun w =>
  w.writeframes pcm

/-- `pcm16_to_wav`. Leaving the `with` statement closes the writer, also after an
exception, and closing may raise another one. -/
def pcm16ToWav (pcm : Bytes) (sampleRate : Int) (channels : Int) : Except WaveError Bytes :=
  match writeWav pcm sampleRate channels with
  | .ok w => (w.close.mapError Prod.fst).map fun w => w.file.buf
  | .error (e, w) => (w.close.mapError Prod.fst).bind fun _ => .error e

/-! ## The format -/

/-- What a WAV file says: the format of its samples, and their bytes. -/
structure Wave where
  channels : Nat
  sampleRate : Nat
  byteRate : Nat
  blockAlign : Nat
  bitsPerSample : Nat
  data : Bytes
deriving DecidableEq

/-- The `fmt ` chunk of PCM data. -/
def Wave.fmtChunk (w : Wave) : Chunk :=
  ⟨ascii "fmt ", toLE 2 1 ++ (toLE 2 w.channels ++ (toLE 4 w.sampleRate ++ (toLE 4 w.byteRate ++
    (toLE 2 w.blockAlign ++ toLE 2 w.bitsPerSample))))⟩

def Wave.dataChunk (w : Wave) : Chunk := ⟨ascii "data", w.data⟩

/-- The file, without padding at its end. -/
def Wave.riff (w : Wave) : Chunk :=
  ⟨ascii "RIFF", ascii "WAVE" ++ (w.fmtChunk.write ++ w.dataChunk.write)⟩

/-- The first chunk with a name. -/
def chunkNamed (name : String) (cs : List Chunk) : Option Bytes :=
  (cs.find? fun c => c.name = ascii name).map Chunk.data

/-- The fields of a `fmt ` chunk. -/
def Wave.ofChunks (fmt data : Bytes) : Wave where
  channels := ofLE ((fmt.drop 2).take 2)
  sampleRate := ofLE ((fmt.drop 4).take 4)
  byteRate := ofLE ((fmt.drop 8).take 4)
  blockAlign := ofLE ((fmt.drop 12).take 2)
  bitsPerSample := ofLE ((fmt.drop 14).take 2)
  data := data

/-- A reader of the format: the first `fmt ` and the first `data` chunk of a RIFF
file of the kind `WAVE`. -/
def readWave (bs : Bytes) : Option Wave := do
  let (riff, _) ← readChunk bs
  guard (riff.name = ascii "RIFF" ∧ riff.data.take 4 = ascii "WAVE")
  let chunks := readChunks riff.data.length (riff.data.drop 4)
  let fmt ← chunkNamed "fmt " chunks
  let data ← chunkNamed "data" chunks
  guard (16 ≤ fmt.length ∧ ofLE (fmt.take 2) = 1)
  some (.ofChunks fmt data)

/-- The numbers have room in their fields. -/
structure Wave.Fits (w : Wave) : Prop where
  channels : w.channels < 256 ^ 2
  sampleRate : w.sampleRate < 256 ^ 4
  byteRate : w.byteRate < 256 ^ 4
  blockAlign : w.blockAlign < 256 ^ 2
  bitsPerSample : w.bitsPerSample < 256 ^ 2
  data : 36 + w.data.length < 256 ^ 4

section Format

variable {w : Wave}

theorem length_fmtChunk (w : Wave) : w.fmtChunk.data.length = 16 := by
  simp [Wave.fmtChunk]

theorem length_fmtName (w : Wave) : w.fmtChunk.name.length = 4 :=
  show (ascii "fmt ").length = 4 by decide

theorem length_dataName (w : Wave) : w.dataChunk.name.length = 4 :=
  show (ascii "data").length = 4 by decide

theorem length_riff (w : Wave) : w.riff.data.length = 36 + w.data.length := by
  have hwave : (ascii "WAVE").length = 4 := by decide
  simp only [Wave.riff, Chunk.write, List.length_append, length_toLE, length_fmtChunk,
    length_fmtName, length_dataName, hwave]
  show 4 + (4 + (4 + 16) + (4 + (4 + w.data.length))) = _
  omega

theorem Wave.Fits.fmtChunk (w : Wave) : w.fmtChunk.Fits :=
  ⟨length_fmtName w, by rw [length_fmtChunk]; norm_num⟩

theorem Wave.Fits.dataChunk (h : w.Fits) : w.dataChunk.Fits :=
  ⟨length_dataName w, lt_of_le_of_lt (Nat.le_add_left _ _) h.data⟩

theorem Wave.Fits.riff (h : w.Fits) : w.riff.Fits :=
  ⟨show (ascii "RIFF").length = 4 by decide, by rw [length_riff]; exact h.data⟩

/-- The chunks inside the file. -/
theorem chunks_riff (h : w.Fits) :
    readChunks w.riff.data.length (w.riff.data.drop 4) = [w.fmtChunk, w.dataChunk] := by
  have hpadding : w.fmtChunk.padding = [] := by
    rw [Chunk.padding, length_fmtChunk]
    rfl
  have hbody : w.riff.data.drop 4 =
      w.fmtChunk.write ++ (w.fmtChunk.padding ++ w.dataChunk.write) := by
    rw [hpadding]
    exact List.drop_left' (by decide)
  have hlimit : w.riff.data.length = 34 + w.data.length + 1 + 1 := by
    rw [length_riff]
    omega
  rw [hbody, hlimit, readChunks_cons (Wave.Fits.fmtChunk w), readChunks_last h.dataChunk]

theorem ofChunks_fmtChunk (h : w.Fits) : .ofChunks w.fmtChunk.data w.data = w := by
  show Wave.mk (ofLE (toLE 2 w.channels)) (ofLE (toLE 4 w.sampleRate)) (ofLE (toLE 4 w.byteRate))
    (ofLE (toLE 2 w.blockAlign)) (ofLE (toLE 2 w.bitsPerSample)) w.data = w
  rw [ofLE_toLE h.channels, ofLE_toLE h.sampleRate, ofLE_toLE h.byteRate, ofLE_toLE h.blockAlign,
    ofLE_toLE h.bitsPerSample]

/-- **What is written is read back.** -/
theorem readWave_write (h : w.Fits) : readWave w.riff.write = some w := by
  have hkind : w.riff.name = ascii "RIFF" ∧ w.riff.data.take 4 = ascii "WAVE" :=
    ⟨rfl, List.take_left' (by decide)⟩
  have hfmt : chunkNamed "fmt " [w.fmtChunk, w.dataChunk] = some w.fmtChunk.data := rfl
  have hdata : chunkNamed "data" [w.fmtChunk, w.dataChunk] = some w.data := rfl
  have htag : 16 ≤ w.fmtChunk.data.length ∧ ofLE (w.fmtChunk.data.take 2) = 1 :=
    ⟨(length_fmtChunk w).ge, rfl⟩
  simp only [readWave, readChunk_last h.riff, chunks_riff h, Option.bind_eq_bind, Option.bind_some,
    hkind, guard, hfmt, hdata, htag, ofChunks_fmtChunk h]
  rfl

end Format

/-! ## What `pcm16_to_wav` writes -/

/-- The samples as a file of 16-bit samples. -/
def pcm16 (pcm : Bytes) (sampleRate channels : Nat) : Wave where
  channels := channels
  sampleRate := sampleRate
  byteRate := channels * sampleRate * 2
  blockAlign := channels * 2
  bitsPerSample := 16
  data := pcm

section Writer

variable {pcm : Bytes} {c r n : Nat} {w : WaveWrite}

/-- The writer when its parameters are set. -/
def fresh (c r : Nat) : WaveWrite :=
  { WaveWrite.opened with nchannels := c, sampwidth := 2, framerate := r }

/-- The header between its two sizes. -/
def middle (c r : Nat) : Bytes :=
  ascii "WAVE" ++ (ascii "fmt " ++ (toLE 4 16 ++ (toLE 2 1 ++ (toLE 2 c ++ (toLE 4 r ++
    (toLE 4 (c * r * 2) ++ (toLE 2 (c * 2) ++ (toLE 2 16 ++ ascii "data"))))))))

theorem length_middle : (middle c r).length = 32 := by
  have hwave : (ascii "WAVE").length = 4 := by decide
  have hfmt : (ascii "fmt ").length = 4 := by decide
  have hdata : (ascii "data").length = 4 := by decide
  simp [middle, hwave, hfmt, hdata]

theorem riff_write (pcm : Bytes) (c r : Nat) :
    (pcm16 pcm r c).riff.write = ascii "RIFF" ++ (toLE 4 (36 + pcm.length) ++
      (middle c r ++ (toLE 4 pcm.length ++ pcm))) := by
  rw [Chunk.write, length_riff]
  simp only [Wave.riff, Chunk.write, length_fmtChunk, middle, List.append_assoc]
  rfl

/-- The numbers of the header but for the sizes. -/
def HeaderFits (c r : Nat) : Prop :=
  c < 256 ^ 2 ∧ r < 256 ^ 4 ∧ c * r * 2 < 256 ^ 4 ∧ c * 2 < 256 ^ 2

theorem fits_pcm16 : (pcm16 pcm r c).Fits ↔ HeaderFits c r ∧ 36 + pcm.length < 256 ^ 4 := by
  constructor
  · intro h
    exact ⟨⟨h.channels, h.sampleRate, h.byteRate, h.blockAlign⟩, h.data⟩
  · rintro ⟨⟨hc, hr, hrate, halign⟩, hdata⟩
    exact ⟨hc, hr, hrate, halign, by show 16 < 256 ^ 2; norm_num, hdata⟩

theorem packHeader_eq_some (hw : w.nchannels = c ∧ w.sampwidth = 2 ∧ w.framerate = r)
    {header : Bytes} : w.packHeader = some header ↔
      (HeaderFits c r ∧ 36 + w.datalength < 256 ^ 4) ∧
        header = toLE 4 (36 + w.datalength) ++ middle c r := by
  obtain ⟨rfl, hwidth, rfl⟩ := hw
  simp only [WaveWrite.packHeader, Option.bind_eq_bind, Option.bind_eq_some_iff, packL_eq_some,
    packH_eq_some, hwidth, HeaderFits, middle, Option.some.injEq]
  constructor
  · rintro ⟨_, ⟨htotal, rfl⟩, _, ⟨hc, rfl⟩, _, ⟨hr, rfl⟩, _, ⟨hrate, rfl⟩, _, ⟨halign, rfl⟩, _,
      ⟨_, rfl⟩, rfl⟩
    exact ⟨⟨⟨hc, hr, hrate, halign⟩, htotal⟩, rfl⟩
  · rintro ⟨⟨⟨hc, hr, hrate, halign⟩, htotal⟩, rfl⟩
    exact ⟨_, ⟨htotal, rfl⟩, _, ⟨hc, rfl⟩, _, ⟨hr, rfl⟩, _, ⟨hrate, rfl⟩, _, ⟨halign, rfl⟩, _,
      ⟨by norm_num, rfl⟩, rfl⟩

/-- The bytes of whole frames among `n`. -/
def whole (c n : Nat) : Nat := n / (c * 2) * c * 2

theorem whole_le : whole c n ≤ n := by
  rw [whole, Nat.mul_assoc]
  exact Nat.div_mul_le_self n (c * 2)

/-- The state after the header. -/
def headed (c r n : Nat) : WaveWrite where
  file := ⟨ascii "RIFF" ++ (toLE 4 (36 + whole c n) ++ (middle c r ++ toLE 4 (whole c n))), 44⟩
  nchannels := c
  sampwidth := 2
  framerate := r
  nframes := n / (c * 2)
  nframeswritten := 0
  datawritten := 0
  datalength := whole c n
  formLengthPos := 4
  dataLengthPos := 40
  headerwritten := true

/-- The state after the first four bytes. -/
def begun (c r n : Nat) : WaveWrite :=
  { fresh c r with
    file := ⟨ascii "RIFF", 4⟩, nframes := n / (c * 2), datalength := whole c n, formLengthPos := 4 }

theorem writeHeader_begun : (fresh c r).writeHeader n =
    match (begun c r n).packHeader with
    | none => .error (.structError, begun c r n)
    | some header =>
      match packL (whole c n) with
      | none => .error (.structError, { begun c r n with
          file := (begun c r n).file.write header
          dataLengthPos := ((begun c r n).file.write header).pos })
      | some length => .ok { begun c r n with
          file := ((begun c r n).file.write header).write length
          dataLengthPos := ((begun c r n).file.write header).pos
          headerwritten := true } := rfl

/-- The header as it is written in the beginning. -/
theorem writeHeader_fresh :
    (fresh c r).writeHeader n = .ok w ↔
      (HeaderFits c r ∧ 36 + whole c n < 256 ^ 4) ∧ w = headed c r n := by
  have hpack : ∀ {header}, (begun c r n).packHeader = some header ↔
      (HeaderFits c r ∧ 36 + whole c n < 256 ^ 4) ∧
        header = toLE 4 (36 + whole c n) ++ middle c r := packHeader_eq_some ⟨rfl, rfl, rfl⟩
  rw [writeHeader_begun]
  by_cases hfits : HeaderFits c r ∧ 36 + whole c n < 256 ^ 4
  · rw [hpack.mpr ⟨hfits, rfl⟩, packL_eq_some.mpr ⟨by omega, rfl⟩]
    -- what was written so far ends where the next write begins
    have hlength : (ascii "RIFF" ++ (toLE 4 (36 + whole c n) ++ middle c r)).length = 40 := by
      rw [List.length_append, List.length_append, length_toLE, length_middle]
      rfl
    have hheader : (begun c r n).file.write (toLE 4 (36 + whole c n) ++ middle c r) =
        ⟨ascii "RIFF" ++ (toLE 4 (36 + whole c n) ++ middle c r), 40⟩ := by
      have hriff : (ascii "RIFF").length = 4 := by decide
      show BytesIO.write ⟨ascii "RIFF", 4⟩ _ = _
      rw [ BytesIO.write_end hriff, List.length_append, length_toLE, length_middle]
    simp only [hheader, BytesIO.write_end hlength, length_toLE, List.append_assoc,
      Except.ok.injEq]
    exact (and_iff_right hfits).symm.trans (and_congr_right fun _ => eq_comm)
  · refine iff_of_false ?_ fun h => hfits h.1
    cases hheader : (begun c r n).packHeader with
    | none => simp
    | some header => exact absurd (hpack.mp hheader).1 hfits

/-- The state after the frames, with a header that says `n` bytes. -/
def framed (c r n : Nat) (pcm : Bytes) : WaveWrite where
  file := ⟨ascii "RIFF" ++ (toLE 4 (36 + n) ++ (middle c r ++ (toLE 4 n ++ pcm))), 44 + pcm.length⟩
  nchannels := c
  sampwidth := 2
  framerate := r
  nframes := pcm.length / (c * 2)
  nframeswritten := pcm.length / (2 * c)
  datawritten := pcm.length
  datalength := n
  formLengthPos := 4
  dataLengthPos := 40
  headerwritten := true

theorem writeframesraw_fresh (hc : c ≠ 0) (hr : r ≠ 0) :
    (fresh c r).writeframesraw pcm = .ok w ↔
      (HeaderFits c r ∧ 36 + whole c pcm.length < 256 ^ 4) ∧
        w = framed c r (whole c pcm.length) pcm := by
  have hensure : (fresh c r).ensureHeaderWritten pcm.length =
      (fresh c r).writeHeader pcm.length := by
    simp [WaveWrite.ensureHeaderWritten, fresh, WaveWrite.opened, hc, hr]
  have hlength : (ascii "RIFF" ++ (toLE 4 (36 + whole c pcm.length) ++
      (middle c r ++ toLE 4 (whole c pcm.length)))).length = 44 := by
    simp only [List.length_append, length_toLE, length_middle]
    rfl
  rw [WaveWrite.writeframesraw, hensure]
  by_cases hfits : HeaderFits c r ∧ 36 + whole c pcm.length < 256 ^ 4
  · rw [writeHeader_fresh.mpr ⟨hfits, rfl⟩]
    simp only [Except.map, headed, BytesIO.write_end hlength, List.append_assoc, Nat.zero_add,
      Except.ok.injEq]
    exact (and_iff_right hfits).symm.trans (and_congr_right fun _ => eq_comm)
  · refine iff_of_false ?_ fun h => hfits h.1
    cases hheader : (fresh c r).writeHeader pcm.length with
    | error e =>
      intro h
      cases h
    | ok w => exact absurd (writeHeader_fresh.mp hheader).1 hfits

/-- The two sizes of the header are written over. -/
theorem patchheader_framed (h : n ≠ pcm.length) :
    (framed c r n pcm).patchheader = .ok w ↔
      36 + pcm.length < 256 ^ 4 ∧ w = framed c r pcm.length pcm := by
  have hne : (framed c r n pcm).datawritten ≠ (framed c r n pcm).datalength := Ne.symm h
  have hriff : (ascii "RIFF").length = 4 := by decide
  have hsize : ∀ m k, (toLE 4 m).length = (toLE 4 k).length := by simp
  have hbefore : (ascii "RIFF" ++ (toLE 4 (36 + pcm.length) ++ middle c r)).length = 40 := by
    simp only [List.length_append, length_toLE, length_middle, hriff]
  -- each size is written over four bytes that are there
  have hfirst : BytesIO.write ⟨ascii "RIFF" ++ (toLE 4 (36 + n) ++
      (middle c r ++ (toLE 4 n ++ pcm))), 4⟩ (toLE 4 (36 + pcm.length)) =
      ⟨ascii "RIFF" ++ (toLE 4 (36 + pcm.length) ++ (middle c r ++ (toLE 4 n ++ pcm))), 8⟩ := by
    rw [ BytesIO.write_over hriff (hsize _ _), length_toLE]
  have hsecond : BytesIO.write ⟨ascii "RIFF" ++ (toLE 4 (36 + pcm.length) ++
      (middle c r ++ (toLE 4 n ++ pcm))), 40⟩ (toLE 4 pcm.length) =
      ⟨ascii "RIFF" ++ (toLE 4 (36 + pcm.length) ++
        (middle c r ++ (toLE 4 pcm.length ++ pcm))), 44⟩ := by
    have hover := BytesIO.write_over hbefore (hsize pcm.length n) pcm
    simp only [List.append_assoc, length_toLE] at hover
    exact hover
  rw [WaveWrite.patchheader, if_neg hne]
  by_cases hfits : 36 + pcm.length < 256 ^ 4
  · have htotal : packL (36 + (framed c r n pcm).datawritten) =
        some (toLE 4 (36 + pcm.length)) := packL_eq_some.mpr ⟨hfits, rfl⟩
    have hdata : packL (framed c r n pcm).datawritten = some (toLE 4 pcm.length) :=
      packL_eq_some.mpr ⟨by show pcm.length < _; omega, rfl⟩
    simp only [htotal, hdata]
    simp only [framed, BytesIO.seek, hfirst, hsecond, Except.ok.injEq]
    exact (and_iff_right hfits).symm.trans (and_congr_right fun _ => eq_comm)
  · have htotal : packL (36 + (framed c r n pcm).datawritten) = none := if_neg hfits
    simp only [htotal]
    exact iff_of_false (by simp) fun h => hfits h.1

/-- All frames are written exactly when the numbers fit. -/
theorem writeframes_fresh (hc : c ≠ 0) (hr : r ≠ 0) :
    (fresh c r).writeframes pcm = .ok w ↔
      (pcm16 pcm r c).Fits ∧ w = framed c r pcm.length pcm := by
  have hle : whole c pcm.length ≤ pcm.length := whole_le
  rw [fits_pcm16, WaveWrite.writeframes]
  by_cases hheader : HeaderFits c r ∧ 36 + whole c pcm.length < 256 ^ 4
  · rw [(writeframesraw_fresh hc hr).mpr ⟨hheader, rfl⟩]
    show (if whole c pcm.length ≠ pcm.length then _ else _) = _ ↔ _
    -- a last frame that is not whole makes the header too small at first
    by_cases hwhole : whole c pcm.length = pcm.length
    · rw [if_neg (not_not.mpr hwhole), hwhole]
      rw [hwhole] at hheader
      rw [Except.ok.injEq, and_iff_right hheader, eq_comm]
    · rw [if_pos hwhole, patchheader_framed hwhole, and_iff_right hheader.1]
  · refine iff_of_false ?_ ?_
    · cases hraw : (fresh c r).writeframesraw pcm with
      | error e =>
        intro h
        cases h
      | ok w => exact absurd ((writeframesraw_fresh hc hr).mp hraw).1 hheader
    · rintro ⟨⟨hnumbers, hdata⟩, _⟩
      exact hheader ⟨hnumbers, by omega⟩

/-- Nothing is left to do on closing. -/
theorem close_framed : (framed c r pcm.length pcm).close = .ok (framed c r pcm.length pcm) := by
  simp [WaveWrite.close, WaveWrite.ensureHeaderWritten, framed, Except.bind]

end Writer

section Pcm

variable {pcm bytes : Bytes} {sampleRate channels : Int}

theorem writeWav_fresh (hc : 0 < channels) (hr : 0 < sampleRate) :
    writeWav pcm sampleRate channels =
      (fresh channels.toNat sampleRate.toNat).writeframes pcm := by
  have hc' : ¬ channels < 1 := by omega
  have hr' : ¬ sampleRate ≤ 0 := by omega
  simp [writeWav, WaveWrite.setnchannels, WaveWrite.setsampwidth, WaveWrite.setframerate,
    WaveWrite.opened, fresh, hc', hr', Except.bind]

/-- A parameter that is not positive is refused. -/
theorem not_writeWav (h : ¬ (0 < channels ∧ 0 < sampleRate)) {w : WaveWrite} :
    writeWav pcm sampleRate channels ≠ .ok w := by
  by_cases hc : channels < 1
  · simp [writeWav, WaveWrite.setnchannels, WaveWrite.opened, hc, Except.bind]
  · have hr : sampleRate ≤ 0 := by
      by_contra hr
      exact h ⟨by omega, by omega⟩
    simp [writeWav, WaveWrite.setnchannels, WaveWrite.setsampwidth, WaveWrite.setframerate,
      WaveWrite.opened, hc, hr, Except.bind]

/-- An exception is not lost on closing. -/
theorem pcm16ToWav_ok : pcm16ToWav pcm sampleRate channels = .ok bytes ↔
    ∃ w w', writeWav pcm sampleRate channels = .ok w ∧ w.close = .ok w' ∧ w'.file.buf = bytes := by
  unfold pcm16ToWav
  cases writeWav pcm sampleRate channels with
  | ok w =>
    cases hclose : w.close with
    | ok w' => simp [Except.mapError, Except.map, hclose]
    | error e => simp [Except.mapError, Except.map, hclose]
  | error e =>
    obtain ⟨e, w⟩ := e
    cases hclose : w.close with
    | ok w' => simp [Except.mapError, Except.bind, hclose]
    | error e => simp [Except.mapError, Except.bind, hclose]

/-- What `pcm16_to_wav` returns, and when. -/
theorem pcm16ToWav_eq_ok : pcm16ToWav pcm sampleRate channels = .ok bytes ↔
    0 < channels ∧ 0 < sampleRate ∧ (pcm16 pcm sampleRate.toNat channels.toNat).Fits ∧
      bytes = (pcm16 pcm sampleRate.toNat channels.toNat).riff.write := by
  rw [pcm16ToWav_ok]
  by_cases hparams : 0 < channels ∧ 0 < sampleRate
  · obtain ⟨hc, hr⟩ := hparams
    rw [writeWav_fresh hc hr]
    simp only [writeframes_fresh (by omega : channels.toNat ≠ 0) (by omega : sampleRate.toNat ≠ 0)]
    constructor
    · rintro ⟨_, w', ⟨hfits, rfl⟩, hclose, rfl⟩
      rw [close_framed] at hclose
      cases hclose
      exact ⟨hc, hr, hfits, (riff_write _ _ _).symm⟩
    · rintro ⟨_, _, hfits, rfl⟩
      exact ⟨_, _, ⟨hfits, rfl⟩, close_framed, (riff_write _ _ _).symm⟩
  · refine iff_of_false ?_ fun h => hparams ⟨h.1, h.2.1⟩
    rintro ⟨w, _, hw, _⟩
    exact not_writeWav hparams hw

theorem riff_write_drop (pcm : Bytes) (c r : Nat) :
    (pcm16 pcm r c).riff.write.length = 44 + pcm.length ∧
      (pcm16 pcm r c).riff.write.drop 44 = pcm := by
  have hlength : (ascii "RIFF" ++ (toLE 4 (36 + pcm.length) ++
      (middle c r ++ toLE 4 pcm.length))).length = 44 := by
    simp only [List.length_append, length_toLE, length_middle]
    rfl
  have hsplit : (pcm16 pcm r c).riff.write = (ascii "RIFF" ++ (toLE 4 (36 + pcm.length) ++
      (middle c r ++ toLE 4 pcm.length))) ++ pcm := by
    rw [riff_write]
    simp only [List.append_assoc]
  rw [hsplit, List.length_append, hlength]
  exact ⟨rfl, List.drop_left' hlength⟩

/-- **PCM goes through WAV and back.** `pcm16_to_wav` succeeds exactly when the
numbers of the header fit, then adds 44 bytes in front, and a reader of the
format gets the parameters and the samples back. -/
theorem pcm16_roundTrip (pcm bytes : Bytes) (sampleRate channels : Int) :
    (pcm16ToWav pcm sampleRate channels = .ok bytes ↔
      0 < channels ∧ 0 < sampleRate ∧ (pcm16 pcm sampleRate.toNat channels.toNat).Fits ∧
        bytes = (pcm16 pcm sampleRate.toNat channels.toNat).riff.write) ∧
    (pcm16ToWav pcm sampleRate channels = .ok bytes →
      readWave bytes = some (pcm16 pcm sampleRate.toNat channels.toNat) ∧
        bytes.length = 44 + pcm.length ∧ bytes.drop 44 = pcm) := by
  refine ⟨pcm16ToWav_eq_ok, fun h => ?_⟩
  obtain ⟨_, _, hfits, rfl⟩ := pcm16ToWav_eq_ok.mp h
  exact ⟨readWave_write hfits, riff_write_drop _ _ _⟩

/-- Three bytes of mono at 16 kHz: the header says three, and there is no
padding. -/
example : pcm16ToWav [1, 2, 3] 16000 1 = .ok (ascii "RIFF" ++ [39, 0, 0, 0] ++ ascii "WAVEfmt " ++
    [16, 0, 0, 0, 1, 0, 1, 0, 128, 62, 0, 0, 0, 125, 0, 0, 2, 0, 16, 0] ++ ascii "data" ++
    [3, 0, 0, 0, 1, 2, 3]) := rfl

end Pcm

end IsalesApi.Common
