import IsalesApi.Foundation.ReadCommitted
import IsalesApi.Holidays.Handlers

/-!
# Overlapping writes of holidays

However requests overlap, every stored holiday has a name and a region within
the bounds of the payloads, also where a row is inserted by one request and
renamed by another. No handler checks them; the payloads carry them.
-/

namespace IsalesApi.Holidays

open Foundation Listings

/-! ## Bounds -/

/-- The bounds of the two texts of a holiday. -/
structure Holiday.Sized (row : Holiday) : Prop where
  name : Bounded 128 row.name
  region : Bounded 32 row.region

def Sized (db : Database) : Prop := ∀ row ∈ db.holidays, Holiday.Sized row

/-- What a column is set to, if anything, is within the bound. -/
def Fits (limit : Nat) (v : Option (Option String)) : Prop :=
  ∀ s, v = some (some s) → Bounded limit s

def Write.Sized : Write → Prop
  | .insert row => Holiday.Sized row
  | .update _ set _ => Fits 128 set.name ∧ Fits 32 set.region
  | .delete _ => True

variable {db db' : Database} {isPrintable : Char → Bool}

theorem Fits.getD {limit : Nat} {v : Option (Option String)} {s : String} (h : Fits limit v)
    (hs : Bounded limit s) : Bounded limit ((v.getD none).getD s) := by
  rcases v with _ | _ | t
  · exact hs
  · exact hs
  · exact h t rfl

theorem Fits.changed {limit : Nat} {v : Option (Option String)} (h : Fits limit v)
    (s : Option String) : Fits limit (changed v s) := by
  intro t ht
  exact h t (Option.eq_some_of_filter_eq_some ht)

/-- A write within the bounds leaves every row within them. -/
theorem Sized.apply {w : Write} (hw : w.Sized) (hdb : Sized db) (h : db.apply w = some db') :
    Sized db' := by
  cases w with
  | insert row =>
    obtain ⟨t, ht, hstore⟩ := Option.bind_eq_some_iff.mp h
    intro x hx
    rw [holidays_of_store hstore, Table.mem_insert ht] at hx
    rcases hx with hx | rfl
    · exact hdb x hx
    · exact hw
  | update id set touched =>
    simp only [Database.apply] at h
    split at h
    · intro x hx
      rw [holidays_of_store h] at hx
      obtain ⟨row, hrow, rfl⟩ := Table.mem_update.mp hx
      have hsized := hdb row hrow
      split
      · exact ⟨hw.1.getD hsized.name, hw.2.getD hsized.region⟩
      · exact hsized
    · cases h
  | delete id =>
    intro x hx
    rw [holidays_of_store h] at hx
    exact hdb x (Table.mem_delete.mp hx).1

/-! ## What the requests commit -/

theorem ends_refreshed {id : Int} {read : HolidayRead} {ws : List Write}
    (h : (refreshed id).Ends read ws) : ws = [] := by
  obtain ⟨d, h⟩ := Prog.ends_select_bind.mp h
  split at h
  · exact absurd h Prog.not_ends_raise
  · exact (Prog.ends_done.mp h).2

theorem ends_createHoliday {filled : Filled} {payload : HolidayCreate} {read : HolidayRead}
    {ws : List Write} (h : (createHoliday isPrintable filled payload).Ends read ws) :
    ∃ d, ws = [.insert ⟨filled.id, d, payload.name, payload.region, filled.createdAt,
      filled.updatedAt⟩] := by
  unfold createHoliday at h
  split at h
  · exact absurd h Prog.not_ends_raise
  · rename_i d _
    obtain ⟨_, us, vs, hinsert, hread, rfl⟩ := Prog.ends_bind.mp h
    obtain rfl := Prog.ends_exec.mp hinsert
    obtain rfl := ends_refreshed hread
    exact ⟨d, rfl⟩

theorem ends_flushHoliday {row : Holiday} {set : HolidaySet} {touched : Auth.DateTime}
    {ws : List Write} (h : (flushHoliday row set touched).Ends () ws) :
    ws = [] ∧ (set.against row).isEmpty = true ∨
      ws = [.update row.id (set.against row) touched] := by
  unfold flushHoliday at h
  split at h
  · rename_i hempty
    exact Or.inl ⟨(Prog.ends_done.mp h).2, hempty⟩
  · exact Or.inr (Prog.ends_exec.mp h)

theorem ends_updateHoliday {touched : Auth.DateTime} {id : Int} {payload : HolidayUpdate}
    {read : HolidayRead} {ws : List Write}
    (h : (updateHoliday isPrintable touched id payload).Ends read ws) :
    ws = [] ∨ ∃ (obj : Holiday) (date : Option Python.Date), ws =
      [.update obj.id (HolidaySet.against ⟨date, payload.name, payload.region⟩ obj) touched] := by
  obtain ⟨_, obj, _, h⟩ := ends_getOr404.mp h
  split at h
  · exact absurd h Prog.not_ends_raise
  · rename_i date _
    obtain ⟨_, us, vs, hflush, hread, rfl⟩ := Prog.ends_bind.mp h
    obtain rfl := ends_refreshed hread
    rw [List.append_nil]
    exact (ends_flushHoliday hflush).imp And.left fun hws => ⟨obj, date, hws⟩

theorem ends_deleteHoliday {id : Int} {ws : List Write} (h : (deleteHoliday id).Ends () ws) :
    ∃ obj : Holiday, ws = [.delete obj.id] := by
  obtain ⟨_, obj, _, h⟩ := ends_getOr404.mp h
  exact ⟨obj, Prog.ends_exec.mp h⟩

/-! ## Overlapping requests -/

/-- The routes that write. -/
inductive Request where
  | createHoliday (filled : Filled) (payload : HolidayCreate)
  | updateHoliday (touched : Auth.DateTime) (holidayId : Int) (payload : HolidayUpdate)
  | deleteHoliday (holidayId : Int)

/-- The handler of a request; a `DELETE` answers without a body. -/
def Request.handler (isPrintable : Char → Bool) : Request → Handler (Option HolidayRead)
  | .createHoliday filled payload =>
    (Holidays.createHoliday isPrintable filled payload).bind fun read => .done (some read)
  | .updateHoliday touched holidayId payload =>
    (Holidays.updateHoliday isPrintable touched holidayId payload).bind fun read =>
    .done (some read)
  | .deleteHoliday holidayId => (Holidays.deleteHoliday holidayId).bind fun _ => .done none

/-- The payloads carry the bounds to the writes. -/
theorem Request.sized {r : Request} {a : Option HolidayRead} {ws : List Write}
    (hends : (r.handler isPrintable).Ends a ws) : ∀ w ∈ ws, w.Sized := by
  cases r with
  | createHoliday filled payload =>
    obtain ⟨_, hends, _⟩ := Prog.ends_map.mp hends
    obtain ⟨d, rfl⟩ := ends_createHoliday hends
    rintro _ (_ | ⟨_, ⟨⟩⟩)
    exact ⟨payload.name_len, payload.region_len⟩
  | updateHoliday touched holidayId payload =>
    obtain ⟨_, hends, _⟩ := Prog.ends_map.mp hends
    rcases ends_updateHoliday hends with rfl | ⟨obj, date, rfl⟩
    · rintro _ ⟨⟩
    · rintro _ (_ | ⟨_, ⟨⟩⟩)
      have hname : Fits 128 payload.name := payload.name_len
      have hregion : Fits 32 payload.region := payload.region_len
      exact ⟨hname.changed _, hregion.changed _⟩
  | deleteHoliday holidayId =>
    obtain ⟨_, hends, _⟩ := Prog.ends_map.mp hends
    obtain ⟨obj, rfl⟩ := ends_deleteHoliday hends
    rintro _ (_ | ⟨_, ⟨⟩⟩)
    trivial

/-- **Every stored holiday stays within the bounds**, whatever requests overlap,
and in any interleaving. -/
theorem sized_always {ι : Type} [DecidableEq ι] [Fintype ι] (isPrintable : Char → Bool)
    (r : ι → Request) (db : Database) (hdb : Sized db) (as : List (ServerAction ι)) :
    Always Server.step (fun s => Sized s.committed)
      (Server.start db fun i => (r i).handler isPrintable) as :=
  always_of_writes (fun _ _ _ hends => Request.sized hends)
    (fun _ _ _ hw hm happly => Sized.apply hw hm happly) hdb as

def labourDay : Holiday :=
  ⟨1, ⟨2027, 5, 1, by decide, by decide, by decide⟩, "Labour", "CN",
    ⟨1776470400000001, by decide, by decide⟩, ⟨1776470400000001, by decide, by decide⟩⟩

def oneHoliday : Database where
  constraints := fun _ => true
  holidays := ⟨[labourDay], List.nodup_singleton _⟩

def mayDay : HolidayUpdate where
  date := none
  name := some (some "May Day")
  region := some (some "HK")
  name_len := by
    rintro _ ⟨⟩
    decide
  region_len := by
    rintro _ ⟨⟩
    decide

/-- The holiday is renamed and moved while another one is created. -/
def renameAndCreate (i : Fin 2) : Request :=
  if i.val = 0 then .updateHoliday labourDay.updatedAt 1 mayDay
  else .createHoliday ⟨2, labourDay.createdAt, labourDay.updatedAt⟩
    { date := "2027-05-02".toList, name := "Labour", name_len := by decide }

theorem sized_always_renameAndCreate :
    Always Server.step (fun s => Sized s.committed)
      (Server.start oneHoliday fun i => (renameAndCreate i).handler fun _ => true)
      [.advance 0, .advance 1, .advance 1, .advance 0, .advance 1, .advance 0, .advance 0] := by
  refine sized_always (fun _ => true) renameAndCreate oneHoliday ?_ _
  intro row hrow
  obtain rfl : row = labourDay := List.mem_singleton.mp hrow
  exact ⟨by decide, by decide⟩

end IsalesApi.Holidays
