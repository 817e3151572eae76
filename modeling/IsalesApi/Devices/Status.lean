import IsalesApi.Auth.Tokens
import IsalesApi.Foundation.Pages

/-!
# Which devices are online

`/edge-devices/status` goes once over all devices. A device is online when it has
been seen within the last 120 seconds; the heartbeats that move `last_seen_at`
come from elsewhere.
-/

namespace IsalesApi.Devices

open Foundation Auth

/-- The columns of `device` that are shown; `status` is `str(row.status)`. -/
structure Device where
  id : Int
  name : String
  status : String
  lastSeenAt : Option DateTime
deriving DecidableEq

instance : Keyed Device Int := ⟨Device.id⟩

structure EdgeDeviceStatus where
  id : Int
  name : String
  status : String
  lastSeenAt : Option DateTime
  online : Bool
deriving DecidableEq

structure EdgeDeviceStatusList where
  thresholdSeconds : Int
  onlineCount : Nat
  offlineCount : Nat
  items : List EdgeDeviceStatus
deriving DecidableEq

/-! ## `routers/edge_devices.py` -/

/-- `ONLINE_THRESHOLD_SECONDS`. -/
def onlineThresholdSeconds : Int := 120

/-- `_is_online`. -/
def isOnline (lastSeenAt : Option DateTime) (now : DateTime) : Except PyError Bool :=
  match lastSeenAt with
  | none => .ok false
  | some t => (now.add (-(onlineThresholdSeconds * 1000000))).map fun since =>
      since.micros ≤ t.micros

/-- One pass of the loop: the items and `online`. -/
def addRow (now : DateTime) (acc : List EdgeDeviceStatus × Nat) (row : Device) :
    Except PyError (List EdgeDeviceStatus × Nat) := do
  let online ← isOnline row.lastSeenAt now
  return (acc.1 ++ [⟨row.id, row.name, row.status, row.lastSeenAt, online⟩],
    if online then acc.2 + 1 else acc.2)

/-- `edge_device_status`. -/
def edgeDeviceStatus (scan : Scan Device) (now : DateTime) (devices : Table Device) :
    Except PyError EdgeDeviceStatusList := do
  let (items, online) ← (scan.orderBy Device.id devices.rows).foldlM (addRow now) ([], 0)
  return ⟨onlineThresholdSeconds, online, items.length - online, items⟩

/-! ## What is shown -/

/-- The device has been seen within the last 120 seconds. -/
def Device.SeenSince (now : DateTime) (row : Device) : Prop :=
  ∃ t ∈ row.lastSeenAt, now.micros - 120000000 ≤ t.micros

instance (now : DateTime) (row : Device) : Decidable (row.SeenSince now) :=
  inferInstanceAs (Decidable (∃ t, t ∈ row.lastSeenAt ∧ _))

def Device.item (now : DateTime) (row : Device) : EdgeDeviceStatus :=
  ⟨row.id, row.name, row.status, row.lastSeenAt, row.SeenSince now⟩

theorem isOnline_ok {row : Device} {now : DateTime} {online : Bool}
    (h : isOnline row.lastSeenAt now = .ok online) : online = decide (row.SeenSince now) := by
  obtain ⟨id, name, status, lastSeenAt⟩ := row
  cases lastSeenAt with
  | none =>
    cases h
    simp [Device.SeenSince]
  | some t =>
    simp only [isOnline, DateTime.add] at h
    split at h
    · cases h
      simp [Device.SeenSince, onlineThresholdSeconds, sub_eq_add_neg]
    · cases h

/-- The loop shows every row it meets and counts those that are online. -/
theorem foldlM_addRow {now : DateTime} {rows : List Device} {acc out : List EdgeDeviceStatus × Nat}
    (h : rows.foldlM (addRow now) acc = .ok out) :
    out = (acc.1 ++ rows.map (Device.item now),
      acc.2 + rows.countP fun r => r.SeenSince now) := by
  induction rows generalizing acc with
  | nil =>
    cases h
    simp
  | cons row rows ih =>
    rw [List.foldlM_cons] at h
    cases honline : isOnline row.lastSeenAt now with
    | error e =>
      simp only [addRow, honline] at h
      cases h
    | ok online =>
      simp only [addRow, honline] at h
      rw [ih h]
      obtain rfl := isOnline_ok honline
      by_cases hseen : row.SeenSince now <;>
        simp [Device.item, hseen, Nat.add_assoc, Nat.add_comm]

/-- What is shown of the devices at a time. -/
structure Snapshot (now : DateTime) (devices : Table Device) (shown : EdgeDeviceStatusList) :
    Prop where
  items : ∀ item, item ∈ shown.items ↔ ∃ row ∈ devices, row.item now = item
  sorted : shown.items.Pairwise fun a b => a.id < b.id
  online : shown.onlineCount = shown.items.countP fun item => item.online
  total : shown.onlineCount + shown.offlineCount = shown.items.length

/-- **The snapshot is complete and its counts are right.** -/
theorem snapshot_of_ok {scan : Scan Device} {now : DateTime} {devices : Table Device}
    {shown : EdgeDeviceStatusList} (h : edgeDeviceStatus scan now devices = .ok shown) :
    Snapshot now devices shown := by
  unfold edgeDeviceStatus at h
  cases hloop : (scan.orderBy Device.id devices.rows).foldlM (addRow now) ([], 0) with
  | error e =>
    rw [hloop] at h
    cases h
  | ok out =>
    rw [hloop] at h
    cases h
    obtain rfl := foldlM_addRow hloop
    have hcount : (scan.orderBy Device.id devices.rows).countP (fun r => r.SeenSince now) =
        ((scan.orderBy Device.id devices.rows).map (Device.item now)).countP
          fun item => item.online := by
      rw [List.countP_map]
      rfl
    refine ⟨fun item => ?_, ?_, ?_, ?_⟩
    · simp only [List.nil_append, List.mem_map, (scan.orderBy_perm _ _).mem_iff]
      rfl
    · rw [List.nil_append, List.pairwise_map]
      exact scan.orderBy_pairwise_lt (fun a ha b hb => Table.eq_of_key_eq ha hb)
        (List.Nodup.of_map key devices.unique)
    · simp only [Nat.zero_add, List.nil_append]
      exact hcount
    · simp only [Nat.zero_add, List.nil_append, hcount]
      exact Nat.add_sub_cancel' List.countP_le_length

/-- A device that is not seen again does not come back online. -/
theorem not_seenSince_of_le {row : Device} {now later : DateTime} (h : now.micros ≤ later.micros)
    (hoffline : ¬ row.SeenSince now) : ¬ row.SeenSince later := by
  rintro ⟨t, ht, hseen⟩
  exact hoffline ⟨t, ht, by omega⟩

end IsalesApi.Devices
