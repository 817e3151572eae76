import IsalesApi.Foundation.Pages
import IsalesApi.Foundation.Replies
import IsalesApi.Http

/-!
# Devices of a campaign

`/campaigns/{id}/devices` lists the devices of a campaign, binds a device to it
and takes the bindings of a device away. What the requests were answered tells
which devices are bound: the last one that succeeded on a campaign and a device
decides.
-/

namespace IsalesApi.Campaigns

open Foundation

/-! ## The table -/

structure CampaignDevice where
  id : Int
  campaignId : Int
  deviceId : Int
deriving DecidableEq

instance : Keyed CampaignDevice Int := ⟨CampaignDevice.id⟩

/-- The row binds the device to the campaign. -/
def CampaignDevice.Binds (campaignId deviceId : Int) (row : CampaignDevice) : Bool :=
  row.campaignId = campaignId && row.deviceId = deviceId

/-- The campaigns there are, and the bindings with the constraints of their
table, which are not part of this repository. -/
structure Bindings where
  campaigns : List Int
  constraints : Table CampaignDevice → Bool
  rows : Table CampaignDevice

def Bindings.campaign (id : Int) (s : Bindings) : Option Int := s.campaigns.find? (· = id)

inductive BindingWrite where
  | insert (row : CampaignDevice)
  | delete (id : Int)

/-- The row a write locks, by its id. -/
def BindingWrite.rowId : BindingWrite → Int
  | .insert row => row.id
  | .delete id => id

/-- The statement is refused when it breaks a constraint. -/
def Bindings.store (s : Bindings) (rows : Table CampaignDevice) : Option Bindings :=
  if s.constraints rows then some { s with rows := rows } else none

def Bindings.apply (s : Bindings) : BindingWrite → Option Bindings
  | .insert row => (s.rows.insert row).bind s.store
  | .delete id => some { s with rows := s.rows.delete fun r => r.id = id }

instance : Store Bindings BindingWrite Int HttpException where
  apply w s := s.apply w
  lock := BindingWrite.rowId
  refused := internalServerError

/-! ## `routers/campaigns.py` -/

abbrev DeviceHandler (α : Type) := Prog Bindings BindingWrite HttpException α

section Handlers

variable {D : Type} (modelValidate : CampaignDevice → Except HttpException D)

/-- `CampaignDeviceRead.model_validate(row)`, of one row or of several. -/
def validated {α : Type} : Except HttpException α → DeviceHandler α
  | .ok read => .done read
  | .error exc => .raise exc

/-- `list_campaign_devices`. -/
def listCampaignDevices (scan : Scan CampaignDevice) (campaignId : Int) : DeviceHandler (List D) :=
  (Prog.select fun s => scan.orderBy CampaignDevice.id
    (s.rows.select fun r => r.campaignId = campaignId)).bind fun rows =>
  validated (rows.mapM modelValidate)

/-- `attach_campaign_device`; `id` is drawn by the database. -/
def attachCampaignDevice (id campaignId deviceId : Int) : DeviceHandler D :=
  (getOr404 (Bindings.campaign campaignId) "campaign_not_found").bind fun _ =>
  (Prog.exec (.insert ⟨id, campaignId, deviceId⟩)).bind fun _ =>
  validated (modelValidate ⟨id, campaignId, deviceId⟩)

/-- `delete(CampaignDevice).where(…)`: the number of rows comes with the statement,
here it is looked up before, with no other request in between. -/
def deleteBindings (campaignId deviceId : Int) : DeviceHandler Nat :=
  (Prog.select fun s => s.rows.select (CampaignDevice.Binds campaignId deviceId)).bind fun rows =>
  (Prog.execAll (rows.map fun r => .delete r.id)).bind fun _ =>
  .done rows.length

/-- `detach_campaign_device`. -/
def detachCampaignDevice (campaignId deviceId : Int) : DeviceHandler Unit :=
  (deleteBindings campaignId deviceId).bind fun rowcount =>
  Prog.raiseIf (rowcount == 0) (notFound "binding_not_found")

end Handlers

/-! ## Requests -/

inductive DeviceRequest where
  | list (scan : Scan CampaignDevice) (campaignId : Int)
  | attach (id campaignId deviceId : Int)
  | detach (campaignId deviceId : Int)

inductive DeviceAnswer (D : Type) where
  | devices (reads : List D)
  | device (read : D)
  | noContent

variable {D : Type} {modelValidate : CampaignDevice → Except HttpException D} {s s' : Bindings}
  {c d : Int}

def DeviceRequest.handler (modelValidate : CampaignDevice → Except HttpException D) :
    DeviceRequest → DeviceHandler (DeviceAnswer D)
  | .list scan campaignId =>
    (listCampaignDevices modelValidate scan campaignId).bind fun reads => .done (.devices reads)
  | .attach id campaignId deviceId =>
    (attachCampaignDevice modelValidate id campaignId deviceId).bind fun read =>
    .done (.device read)
  | .detach campaignId deviceId =>
    (detachCampaignDevice campaignId deviceId).bind fun _ => .done .noContent

/-- One request, alone: the answer and the bindings it leaves. -/
def respondDevices (modelValidate : CampaignDevice → Except HttpException D) (s : Bindings)
    (r : DeviceRequest) : Except HttpException (DeviceAnswer D) × Bindings :=
  (r.handler modelValidate).session s

/-- The device is bound to the campaign. -/
def Bindings.Bound (s : Bindings) (c d : Int) : Prop := ∃ r ∈ s.rows, r.Binds c d = true

instance : Decidable (s.Bound c d) := inferInstanceAs (Decidable (∃ r ∈ s.rows.rows, _))

/-- What the request makes of the binding when it succeeds. -/
def DeviceRequest.sets (c d : Int) : DeviceRequest → Option Bool
  | .list .. => none
  | .attach _ campaignId deviceId => if campaignId = c ∧ deviceId = d then some true else none
  | .detach campaignId deviceId => if campaignId = c ∧ deviceId = d then some false else none

/-- What the last request that succeeded has made of the binding. -/
def lastSet {α : Type} (c d : Int) : List (DeviceRequest × Except HttpException α) → Option Bool
  | [] => none
  | (r, answer) :: log => (lastSet c d log).or (if answer.isOk then r.sets c d else none)

/-! ## What a request leaves -/

theorem binds_iff {row : CampaignDevice} :
    row.Binds c d = true ↔ row.campaignId = c ∧ row.deviceId = d := by
  simp [CampaignDevice.Binds]

theorem run_validated {α : Type} {x : Except HttpException α} {a : α} :
    (validated x).run s = .ok (a, s') ↔ x = .ok a ∧ s' = s := by
  cases x <;> simp [validated, eq_comm]

theorem bound_insert {row : CampaignDevice} (h : s.apply (.insert row) = some s') :
    s'.Bound c d ↔ row.Binds c d = true ∨ s.Bound c d := by
  obtain ⟨rows, hrows, hstore⟩ := Option.bind_eq_some_iff.mp h
  unfold Bindings.store at hstore
  split at hstore
  · cases hstore
    unfold Bindings.Bound
    simp only [Table.mem_insert hrows, or_and_right, exists_or, exists_eq_left]
    exact or_comm
  · cases hstore

theorem mem_deleteAll {ids : List Int}
    (h : applyAll (ids.map BindingWrite.delete) s = some s') (r : CampaignDevice) :
    r ∈ s'.rows ↔ r ∈ s.rows ∧ r.id ∉ ids := by
  induction ids generalizing s with
  | nil =>
    cases h
    simp
  | cons id ids ih =>
    obtain ⟨m, hm, hrest⟩ := applyAll_cons.mp h
    cases hm
    rw [ih hrest, Table.mem_delete, decide_eq_false_iff_not, List.mem_cons, not_or, and_assoc]

theorem exists_deleteAll (ids : List Int) (s : Bindings) :
    ∃ s', applyAll (ids.map BindingWrite.delete) s = some s' := by
  induction ids generalizing s with
  | nil => exact ⟨s, rfl⟩
  | cons id ids ih => exact ih _

theorem bound_deleteAll
    (h : applyAll (((s.rows.select (CampaignDevice.Binds c d)).map CampaignDevice.id).map
      BindingWrite.delete) s = some s') (c' d' : Int) :
    s'.Bound c' d' ↔ s.Bound c' d' ∧ ¬ (c' = c ∧ d' = d) := by
  unfold Bindings.Bound
  simp only [mem_deleteAll h]
  constructor
  · rintro ⟨r, ⟨hr, hkept⟩, hbinds⟩
    refine ⟨⟨r, hr, hbinds⟩, ?_⟩
    rintro ⟨rfl, rfl⟩
    exact hkept (List.mem_map_of_mem (Table.mem_select.mpr ⟨hr, hbinds⟩))
  · rintro ⟨⟨r, hr, hbinds⟩, hne⟩
    refine ⟨r, ⟨hr, fun hid => ?_⟩, hbinds⟩
    obtain ⟨r', hr', hsame⟩ := List.mem_map.mp hid
    obtain ⟨hr', hbinds'⟩ := Table.mem_select.mp hr'
    obtain rfl := Table.eq_of_key_eq hr' hr hsame
    obtain ⟨rfl, rfl⟩ := binds_iff.mp hbinds
    exact hne (binds_iff.mp hbinds')

theorem run_deleteBindings {n : Nat} :
    (deleteBindings c d).run s = .ok (n, s') ↔
      n = (s.rows.select (CampaignDevice.Binds c d)).length ∧
        applyAll (((s.rows.select (CampaignDevice.Binds c d)).map CampaignDevice.id).map
          BindingWrite.delete) s = some s' := by
  unfold deleteBindings
  rw [Prog.run_select_bind, Prog.run_map_ok, List.map_map]
  simp only [exists_const, Prog.run_execAll_ok]
  exact and_comm

theorem rowcount_eq_zero :
    (s.rows.select (CampaignDevice.Binds c d)).length = 0 ↔ ¬ s.Bound c d := by
  rw [List.length_eq_zero_iff, List.eq_nil_iff_forall_not_mem]
  simp only [Table.mem_select, not_and]
  constructor
  · rintro h ⟨r, hr, hbinds⟩
    exact h r hr hbinds
  · intro h r hr hbinds
    exact h ⟨r, hr, hbinds⟩

/-- A device that is bound is taken away. -/
theorem run_detach_ok {u : Unit} :
    (detachCampaignDevice c d).run s = .ok (u, s') ↔ s.Bound c d ∧
      applyAll (((s.rows.select (CampaignDevice.Binds c d)).map CampaignDevice.id).map
        BindingWrite.delete) s = some s' := by
  unfold detachCampaignDevice
  rw [Prog.run_bind_ok]
  constructor
  · rintro ⟨n, m, hdelete, hraise⟩
    obtain ⟨rfl, happly⟩ := run_deleteBindings.mp hdelete
    obtain ⟨hcount, hs⟩ := Prog.run_raiseIf_ok.mp hraise
    cases hs
    refine ⟨not_not.mp fun hbound => ?_, happly⟩
    rw [rowcount_eq_zero.mpr hbound] at hcount
    cases hcount
  · rintro ⟨hbound, happly⟩
    refine ⟨_, s', run_deleteBindings.mpr ⟨rfl, happly⟩, Prog.run_raiseIf_ok.mpr ⟨?_, rfl⟩⟩
    rw [beq_eq_false_iff_ne]
    exact fun hcount => rowcount_eq_zero.mp hcount hbound

/-- A request that succeeds makes of a binding what it says, and leaves the other
bindings alone. -/
theorem bound_of_run {r : DeviceRequest} {answer : DeviceAnswer D}
    (h : (r.handler modelValidate).run s = .ok (answer, s')) (c d : Int) :
    s'.Bound c d ↔ (r.sets c d).getD (decide (s.Bound c d)) = true := by
  cases r with
  | list scan campaignId =>
    obtain ⟨reads, hread, _⟩ := Prog.run_map_ok.mp h
    have hsame : s' = s := (run_validated.mp hread).2
    rw [hsame]
    exact decide_eq_true_iff.symm
  | attach id campaignId deviceId =>
    obtain ⟨read, hattach, _⟩ := Prog.run_map_ok.mp h
    obtain ⟨_, _, hattach⟩ := run_getOr404.mp hattach
    obtain ⟨_, m, hinsert, hvalidate⟩ := Prog.run_bind_ok.mp hattach
    -- the row is inserted whatever the campaign had before
    have hsame : s' = m := (run_validated.mp hvalidate).2
    rw [hsame, bound_insert (Prog.run_exec_ok.mp hinsert), binds_iff]
    simp only [DeviceRequest.sets]
    by_cases hpair : campaignId = c ∧ deviceId = d <;> simp [hpair]
  | detach campaignId deviceId =>
    obtain ⟨_, hdetach, _⟩ := Prog.run_map_ok.mp h
    obtain ⟨_, happly⟩ := run_detach_ok.mp hdetach
    rw [bound_deleteAll happly]
    simp only [DeviceRequest.sets]
    by_cases hpair : campaignId = c ∧ deviceId = d
    · obtain ⟨rfl, rfl⟩ := hpair
      simp
    · rw [if_neg hpair, and_iff_left fun h => hpair ⟨h.1.symm, h.2.symm⟩]
      exact decide_eq_true_iff.symm

theorem bound_respond (modelValidate : CampaignDevice → Except HttpException D) (s : Bindings)
    (r : DeviceRequest) (c d : Int) :
    (respondDevices modelValidate s r).2.Bound c d ↔
      (if (respondDevices modelValidate s r).1.isOk then r.sets c d else none).getD
        (decide (s.Bound c d)) = true := by
  unfold respondDevices Prog.session
  cases hrun : (r.handler modelValidate).run s with
  | error e => exact decide_eq_true_iff.symm
  | ok p => exact bound_of_run hrun c d

/-- Only a device that is bound can be taken away. -/
theorem detach_answer (c d : Int) :
    (respondDevices modelValidate s (.detach c d)).1 =
      if s.Bound c d then .ok .noContent else .error (notFound "binding_not_found") := by
  obtain ⟨s', happly⟩ := exists_deleteAll
    ((s.rows.select (CampaignDevice.Binds c d)).map CampaignDevice.id) s
  unfold respondDevices Prog.session DeviceRequest.handler
  by_cases hbound : s.Bound c d
  · rw [if_pos hbound, Prog.run_bind, (run_detach_ok (u := ())).mpr ⟨hbound, happly⟩]
    rfl
  · have hrun : (detachCampaignDevice c d).run s = .error (notFound "binding_not_found") := by
      -- the DELETE has found no row
      refine Prog.run_bind_error.mpr (.inr ⟨_, s', run_deleteBindings.mpr ⟨rfl, happly⟩, ?_⟩)
      exact Prog.run_raiseIf_error.mpr ⟨beq_iff_eq.mpr (rowcount_eq_zero.mpr hbound), rfl⟩
    rw [if_neg hbound, Prog.run_bind, hrun]
    rfl

/-- The rows of a campaign, in the order they were bound. -/
theorem list_answer (modelValidate : CampaignDevice → Except HttpException D) (s : Bindings)
    (scan : Scan CampaignDevice) (c : Int) :
    ∃ rows : List CampaignDevice,
      (respondDevices modelValidate s (.list scan c)).1 =
        (rows.mapM modelValidate).map DeviceAnswer.devices ∧
      rows.Pairwise (fun a b => a.id < b.id) ∧
      ∀ r, r ∈ rows ↔ r ∈ s.rows ∧ r.campaignId = c := by
  refine ⟨scan.orderBy CampaignDevice.id (s.rows.select fun r => r.campaignId = c), ?_, ?_, ?_⟩
  · unfold respondDevices Prog.session DeviceRequest.handler listCampaignDevices
    rw [Prog.run_bind, Prog.run_select_bind]
    cases (scan.orderBy CampaignDevice.id (s.rows.select fun r => r.campaignId = c)).mapM
      modelValidate <;> rfl
  · refine scan.orderBy_pairwise_lt (fun a ha b hb => ?_)
      ((List.Nodup.of_map key s.rows.unique).sublist List.filter_sublist)
    exact Table.eq_of_key_eq (Table.mem_select.mp ha).1 (Table.mem_select.mp hb).1
  · intro r
    rw [(scan.orderBy_perm _ _).mem_iff, Table.mem_select, decide_eq_true_iff]

/-! ## Whole runs -/

/-- Whether the device is bound, by what the requests were answered. -/
def told {α : Type} (s : Bindings) (log : List (DeviceRequest × Except HttpException α))
    (c d : Int) : Bool := (lastSet c d log).getD (decide (s.Bound c d))

theorem bound_iff_told (rs : List DeviceRequest) (c d : Int) :
    (converse (respondDevices modelValidate) s rs).2.Bound c d ↔
      told s (rs.zip (converse (respondDevices modelValidate) s rs).1) c d = true := by
  induction rs generalizing s with
  | nil => exact decide_eq_true_iff.symm
  | cons r rs ih =>
    simp only [converse, List.zip_cons_cons, told, lastSet]
    have hstep := Bool.eq_iff_iff.mpr (decide_eq_true_iff.trans
      (bound_respond modelValidate s r c d))
    rw [ih, told, Option.getD_or, hstep]

/-- **The answers tell which devices are bound.** After every run of requests a
device can be taken away from a campaign when the last request on the two that
succeeded has bound it, or none has succeeded and it was bound before; and the
list shows these devices. -/
theorem devices_told {D : Type} (modelValidate : CampaignDevice → Except HttpException D)
    (s : Bindings) (rs : List DeviceRequest) (c : Int) (scan : Scan CampaignDevice) :
    let after := (converse (respondDevices modelValidate) s rs).2
    let bound := told s (rs.zip (converse (respondDevices modelValidate) s rs).1) c
    (∀ d, (respondDevices modelValidate after (.detach c d)).1 =
      if bound d then .ok .noContent else .error (notFound "binding_not_found")) ∧
    ∃ rows : List CampaignDevice,
      (respondDevices modelValidate after (.list scan c)).1 =
        (rows.mapM modelValidate).map DeviceAnswer.devices ∧
      rows.Pairwise (fun a b => a.id < b.id) ∧ (∀ r ∈ rows, r.campaignId = c) ∧
      ∀ d, d ∈ rows.map CampaignDevice.deviceId ↔ bound d = true := by
  intro after bound
  have hbound : ∀ d, after.Bound c d ↔ bound d = true := bound_iff_told rs c
  constructor
  · intro d
    rw [detach_answer]
    exact if_congr (hbound d) rfl rfl
  · obtain ⟨rows, hanswer, hsorted, hrows⟩ :=
      list_answer modelValidate after scan c
    refine ⟨rows, hanswer, hsorted, fun r hr => ((hrows r).mp hr).2, fun d => ?_⟩
    rw [← hbound, List.mem_map]
    constructor
    · rintro ⟨r, hr, rfl⟩
      exact ⟨r, ((hrows r).mp hr).1, binds_iff.mpr ⟨((hrows r).mp hr).2, rfl⟩⟩
    · rintro ⟨r, hr, hbinds⟩
      exact ⟨r, (hrows r).mpr ⟨hr, (binds_iff.mp hbinds).1⟩, (binds_iff.mp hbinds).2⟩

end IsalesApi.Campaigns
