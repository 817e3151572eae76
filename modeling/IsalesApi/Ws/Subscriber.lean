import Mathlib

/-!
# The pub/sub side of a subscriber

What `make_subscriber_factory` reads off Redis: one channel per campaign, and
frames of which only those of type `message` carry an event. Everything the
subscriber does with the manager is in `Ws.Manager`.
-/

namespace IsalesApi.Ws

abbrev CampaignId := Int

/-- `channel_for`. -/
def channelFor (campaignId : CampaignId) : String :=
  s!"engine:events:campaign:{campaignId}"

/-- Two campaigns never share a channel. -/
theorem channelFor_inj {c d : CampaignId} : channelFor c = channelFor d ↔ c = d := by
  constructor
  · intro h
    unfold channelFor at h
    have hdigits : toString c = toString d := by simpa [toString] using h
    exact Int.repr_inj.mp hdigits
  · rintro rfl
    rfl

/-- `message["data"]`: text, or bytes when the client does not decode. -/
inductive Data where
  | str (s : String)
  | bytes (b : ByteArray)

/-- One dict yielded by `pubsub.listen()`. -/
structure Frame where
  type : String
  data : Data

/-- The text handed to `fan_out`; `none` when `raw.decode()` raises. -/
def Data.raw : Data → Option String
  | .str s => some s
  | .bytes b => String.fromUTF8? b

/-- The payload a frame contributes to the event stream. Subscription
confirmations and other control frames contribute nothing. -/
def Frame.payload (f : Frame) : Option String :=
  if f.type = "message" then f.data.raw else none

/-- `_run` gets past the frame: it is skipped or its data decodes. -/
def Frame.readable (f : Frame) : Prop :=
  f.type = "message" → f.data.raw ≠ none

end IsalesApi.Ws
