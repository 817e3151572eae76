import IsalesApi.Common.Wav
import IsalesApi.Http

/-!
# The preview of a greeting

`tts_preview` collects the chunks a vendor streams and answers with one WAV file.
Each way the vendor can fail has its own answer, and a provider that was built is
closed whatever happens.
-/

namespace IsalesApi.Campaigns

open Foundation Common

/-- What the awaited code can raise: the two exceptions the handler names, of
which the first is one of the second, and any other. -/
inductive Raised where
  | providerInvalidRequest
  | providerError
  | other
deriving DecidableEq

/-- The chunks a stream yields before it ends or raises. -/
structure Synthesis where
  chunks : List Bytes
  raised : Option Raised

/-- A TTS provider; `aclose` tells what closing it raises. -/
structure Provider where
  sampleRate : Int
  synthesizeStream : String → String → Synthesis
  aclose : Option Raised

structure TtsPreviewRequest where
  text : String
  voiceId : String

/-- The bounds of the fields. -/
def TtsPreviewRequest.Valid (payload : TtsPreviewRequest) : Prop :=
  (1 ≤ payload.text.length ∧ payload.text.length ≤ 200) ∧
    1 ≤ payload.voiceId.length ∧ payload.voiceId.length ≤ 128

instance (payload : TtsPreviewRequest) : Decidable payload.Valid :=
  inferInstanceAs (Decidable (_ ∧ _))

/-- The answers: the schema refuses the payload with 422, the handler raises, or
it returns `audio/wav`. -/
inductive Preview where
  | invalid
  | error (e : HttpException)
  | wav (content : Bytes)
deriving DecidableEq

/-- What the vendor's client is asked to do. -/
inductive VendorCall where
  | build
  | synthesize (text voiceId : String)
  | aclose
deriving DecidableEq

/-- `except … finally …`, and what follows: a failure to close replaces the
exception of the stream. -/
def previewOf (synthesis : Synthesis) (sampleRate : Int) (aclose : Option Raised) : Preview :=
  let pcm := synthesis.chunks.foldl (· ++ ·) []
  match aclose with
  | some _ => .error internalServerError
  | none =>
    match synthesis.raised with
    | some .providerInvalidRequest => .error ⟨400, "tts_invalid_voice_or_text"⟩
    | some .providerError => .error ⟨502, "tts_synthesis_failed"⟩
    | some .other => .error internalServerError
    | none =>
      if pcm = [] then .error ⟨502, "tts_empty_audio"⟩
      else
        match pcm16ToWav pcm sampleRate 1 with
        | .ok content => .wav content
        | .error _ => .error internalServerError

section Handler

variable {S : Type}

/-- `tts_preview`, with the calls to the vendor's client. -/
def ttsPreview (fromDb : Except Raised S) (buildVolcengineTts : S → Except Raised Provider)
    (payload : TtsPreviewRequest) : Preview × List VendorCall :=
  if ¬ payload.Valid then (.invalid, [])
  else
    match fromDb with
    | .error _ => (.error internalServerError, [])
    | .ok store =>
      match buildVolcengineTts store with
      | .error .providerInvalidRequest =>
        (.error ⟨400, "tts_credential_not_configured"⟩, [.build])
      | .error _ => (.error internalServerError, [.build])
      | .ok provider =>
        (previewOf (provider.synthesizeStream payload.text payload.voiceId) provider.sampleRate
          provider.aclose, [.build, .synthesize payload.text payload.voiceId, .aclose])

/-! ## The answers -/

/-- The bytes of a stream, in one piece. -/
def Synthesis.pcm (synthesis : Synthesis) : Bytes := synthesis.chunks.flatten

theorem foldl_append (chunks : List Bytes) (pcm : Bytes) :
    chunks.foldl (· ++ ·) pcm = pcm ++ chunks.flatten := by
  induction chunks generalizing pcm with
  | nil => simp
  | cons chunk chunks ih => rw [List.foldl_cons, ih, List.flatten_cons, List.append_assoc]

/-- The stream of a provider that is closed well becomes audio exactly when it
ends, has bytes, and these fit in a file. -/
theorem previewOf_eq_wav {synthesis : Synthesis} {sampleRate : Int} {aclose : Option Raised}
    {content : Bytes} : previewOf synthesis sampleRate aclose = .wav content ↔
      aclose = none ∧ synthesis.raised = none ∧ synthesis.pcm ≠ [] ∧
        pcm16ToWav synthesis.pcm sampleRate 1 = .ok content := by
  have hpcm : synthesis.chunks.foldl (· ++ ·) [] = synthesis.pcm := by
    rw [foldl_append, List.nil_append, Synthesis.pcm]
  unfold previewOf
  simp only [hpcm]
  cases aclose with
  | some e => simp
  | none =>
    cases synthesis.raised with
    | some e => cases e <;> simp
    | none =>
      by_cases hempty : synthesis.pcm = []
      · simp [hempty]
      · cases hwav : pcm16ToWav synthesis.pcm sampleRate 1 with
        | error e => simp [hempty]
        | ok content' => simp [hempty]

theorem previewOf_ne_invalid {synthesis : Synthesis} {sampleRate : Int}
    {aclose : Option Raised} : previewOf synthesis sampleRate aclose ≠ .invalid := by
  unfold previewOf
  dsimp only
  split
  · simp
  · split
    · simp
    · simp
    · simp
    · split
      · simp
      · split <;> simp

/-- What a request comes to: no vendor is called for a payload out of bounds, a
provider that was asked is closed once and in the end, and audio is answered
exactly for a stream that has ended with bytes that fit; a reader of the file
gets them back in one piece. -/
structure Previewed (fromDb : Except Raised S) (buildVolcengineTts : S → Except Raised Provider)
    (payload : TtsPreviewRequest) (answer : Preview) (calls : List VendorCall) : Prop where
  invalid : answer = .invalid ↔ ¬ payload.Valid
  uncalled : ¬ payload.Valid → calls = []
  closed : ∀ text voiceId, .synthesize text voiceId ∈ calls →
    calls.count .aclose = 1 ∧ calls.getLast? = some .aclose
  wav : ∀ content, answer = .wav content ↔ payload.Valid ∧ ∃ store provider, fromDb = .ok store ∧
    buildVolcengineTts store = .ok provider ∧ provider.aclose = none ∧
    (provider.synthesizeStream payload.text payload.voiceId).raised = none ∧
    (provider.synthesizeStream payload.text payload.voiceId).pcm ≠ [] ∧
    pcm16ToWav (provider.synthesizeStream payload.text payload.voiceId).pcm provider.sampleRate 1 =
      .ok content
  read : ∀ content, answer = .wav content → ∃ store provider, fromDb = .ok store ∧
    buildVolcengineTts store = .ok provider ∧
    readWave content = some (pcm16
      (provider.synthesizeStream payload.text payload.voiceId).pcm provider.sampleRate.toNat 1)

theorem readWave_pcm16ToWav {pcm content : Bytes} {sampleRate : Int}
    (h : pcm16ToWav pcm sampleRate 1 = .ok content) :
    readWave content = some (pcm16 pcm sampleRate.toNat 1) := by
  obtain ⟨_, _, hfits, rfl⟩ := pcm16ToWav_eq_ok.mp h
  exact readWave_write hfits

/-- A request without a provider. -/
theorem previewed_error {fromDb : Except Raised S}
    {buildVolcengineTts : S → Except Raised Provider} {payload : TtsPreviewRequest}
    (hvalid : payload.Valid) {e : HttpException} {calls : List VendorCall}
    (hcalls : calls = [] ∨ calls = [.build])
    (h : ∀ store provider, fromDb = .ok store → buildVolcengineTts store ≠ .ok provider) :
    Previewed fromDb buildVolcengineTts payload (.error e) calls where
  invalid := by simp [hvalid]
  uncalled := fun hinvalid => absurd hvalid hinvalid
  closed := by rcases hcalls with rfl | rfl <;> simp
  wav := by
    intro content
    refine iff_of_false (by simp) ?_
    rintro ⟨_, store, provider, hstore, hprovider, _⟩
    exact h store provider hstore hprovider
  read := by simp

/-- **The preview is the stream in one file**, or one of the errors. -/
theorem ttsPreview_previewed (fromDb : Except Raised S)
    (buildVolcengineTts : S → Except Raised Provider) (payload : TtsPreviewRequest) :
    Previewed fromDb buildVolcengineTts payload
      (ttsPreview fromDb buildVolcengineTts payload).1
      (ttsPreview fromDb buildVolcengineTts payload).2 := by
  unfold ttsPreview
  by_cases hvalid : payload.Valid
  · rw [if_neg (not_not.mpr hvalid)]
    cases hstore : fromDb with
    | error e => exact previewed_error hvalid (.inl rfl) (by simp)
    | ok store =>
      dsimp only
      cases hprovider : buildVolcengineTts store with
      | error e =>
        -- without a provider nothing was asked for, and nothing has to be closed
        have hnone : ∀ store' provider, (.ok store : Except Raised S) = .ok store' →
            buildVolcengineTts store' ≠ .ok provider := by
          rintro _ provider ⟨⟩
          rw [hprovider]
          simp
        cases e <;> exact previewed_error hvalid (.inr rfl) hnone
      | ok provider =>
        dsimp only
        have hwav : ∀ content, previewOf (provider.synthesizeStream payload.text payload.voiceId)
            provider.sampleRate provider.aclose = .wav content ↔ _ :=
          fun content => previewOf_eq_wav
        refine ⟨?_, fun h => absurd hvalid h, ?_, fun content => ?_, fun content h => ?_⟩
        · exact iff_of_false previewOf_ne_invalid (not_not.mpr hvalid)
        · intro text voiceId _
          exact ⟨by simp, rfl⟩
        · rw [hwav, and_iff_right hvalid]
          constructor
          · intro h
            exact ⟨store, provider, rfl, hprovider, h⟩
          · rintro ⟨_, provider', ⟨⟩, hprovider', h⟩
            rw [hprovider] at hprovider'
            cases hprovider'
            exact h
        · have hread := readWave_pcm16ToWav ((hwav content).mp h).2.2.2
          exact ⟨store, provider, rfl, hprovider, hread⟩
  · rw [if_pos hvalid]
    refine ⟨by simp [hvalid], fun _ => rfl, by simp, fun content => ?_, by simp⟩
    exact iff_of_false (by simp) fun h => hvalid h.1

end Handler

end IsalesApi.Campaigns
