import IsalesApi.Holidays.Handlers

/-!
# What an update makes of a holiday

An update replaces what its payload supplies, or it is refused for its date, as
long as nothing is `null` and the date is written with dashes. A `null` ends the
request with an exception. A date in one of the other ISO formats is stored, and
reads back in another form than it was sent.
-/

namespace IsalesApi.Holidays

open Foundation Listings Python

variable {db db' : Database} {row : Holiday} {set : HolidaySet} {touched : Auth.DateTime}

/-! ## The flush -/

/-- The columns are the assigned ones, or else those of the loaded row. -/
structure Assigned (set : HolidaySet) (row new : Holiday) : Prop where
  id : new.id = row.id
  date : new.date = set.date.getD row.date
  name : new.name = (set.name.getD none).getD row.name
  region : new.region = (set.region.getD none).getD row.region
  createdAt : new.createdAt = row.createdAt

theorem getD_changed {v : Option (Option String)} {s : String} :
    ((changed v (some s)).getD none).getD s = (v.getD none).getD s := by
  rcases v with _ | _ | t
  · rfl
  · rfl
  · by_cases h : t = s <;> simp [changed, Option.filter, h]

theorem changed_eq_null {v : Option (Option String)} {s : String} :
    changed v (some s) = some none ↔ v = some none := by
  rcases v with _ | _ | t
  · simp [changed]
  · simp [changed, Option.filter]
  · simp [changed, Option.filter]

theorem notNull_against : (set.against row).NotNull ↔ set.NotNull :=
  and_congr (not_congr changed_eq_null) (not_congr changed_eq_null)

/-- Sending the changed columns only has the effect of sending all. -/
theorem assigned_against : Assigned set row ((set.against row).applyTo touched row) where
  id := rfl
  date := changed_getD _ _
  name := getD_changed
  region := getD_changed
  createdAt := rfl

theorem assigned_of_isEmpty (h : (set.against row).isEmpty = true) : Assigned set row row := by
  simp only [HolidaySet.isEmpty, Bool.and_eq_true, Option.isNone_iff_eq_none] at h
  obtain ⟨⟨hdate, hname⟩, hregion⟩ := h
  have hkept : (set.against row).applyTo row.updatedAt row = row := by
    simp only [HolidaySet.applyTo, hdate, hname, hregion, Option.getD_none]
  have hsent : Assigned set row ((set.against row).applyTo row.updatedAt row) := assigned_against
  rwa [hkept] at hsent

/-- A pending `None` differs from what is stored. -/
theorem notNull_of_isEmpty (h : (set.against row).isEmpty = true) : set.NotNull := by
  simp only [HolidaySet.isEmpty, Bool.and_eq_true, Option.isNone_iff_eq_none] at h
  have hnull : (set.against row).NotNull := by simp [HolidaySet.NotNull, h]
  exact notNull_against.mp hnull

theorem apply_update {id : Int} : db.apply (.update id set touched) = some db' ↔
    set.NotNull ∧ db.constraints (db.updated id set touched) = true ∧
      db' = { db with holidays := db.updated id set touched } := by
  unfold Database.apply Database.store
  by_cases hnull : set.NotNull
  · by_cases hconstraints : db.constraints (db.updated id set touched) = true
    · simp [hnull, hconstraints, eq_comm]
    · simp [hnull, hconstraints]
  · simp [hnull]

theorem get?_updated (hrow : db.holiday row.id = some row) (id : Int) :
    (db.updated row.id set touched).get? id =
      if id = row.id then some (set.applyTo touched row) else db.holiday id := by
  refine (Table.get?_update (k := row.id) (set.key_applyTo touched)
    (fun r => decide_eq_true_iff) id).trans ?_
  split
  · rename_i hid
    rw [hid]
    show (db.holiday row.id).map _ = _
    rw [hrow]
    rfl
  · rfl

/-- Nothing differs from the stored row, or the table takes what does. -/
def Database.Admits (db : Database) (row : Holiday) (set : HolidaySet) (touched : Auth.DateTime) :
    Prop :=
  (set.against row).isEmpty = true ∨
    db.constraints (db.updated row.id (set.against row) touched) = true

theorem run_flushHoliday (hrow : db.holiday row.id = some row) (hnull : set.NotNull)
    (hadmits : db.Admits row set touched) :
    ∃ new db', (flushHoliday row set touched).run db = .ok ((), db') ∧ Assigned set row new ∧
      ∀ id, db'.holiday id = if id = row.id then some new else db.holiday id := by
  unfold flushHoliday
  by_cases hempty : (set.against row).isEmpty = true
  · rw [if_pos hempty]
    refine ⟨row, db, rfl, assigned_of_isEmpty hempty, fun id => ?_⟩
    split
    · rename_i hid
      rw [hid, hrow]
    · rfl
  · rw [if_neg hempty]
    have happly := apply_update.mpr
      ⟨notNull_against.mpr hnull, hadmits.resolve_left hempty, rfl⟩
    exact ⟨_, _, Prog.run_exec_ok.mpr happly, assigned_against, get?_updated hrow⟩

theorem run_flushHoliday_refused (h : ¬ (set.NotNull ∧ db.Admits row set touched)) :
    (flushHoliday row set touched).run db = .error internalServerError := by
  have hempty : ¬ (set.against row).isEmpty = true := fun hempty =>
    h ⟨notNull_of_isEmpty hempty, Or.inl hempty⟩
  have hnone : db.apply (.update row.id (set.against row) touched) = none := by
    refine Option.eq_none_iff_forall_ne_some.mpr fun db' happly => h ?_
    obtain ⟨hnull, hconstraints, _⟩ := apply_update.mp happly
    exact ⟨notNull_against.mp hnull, Or.inr hconstraints⟩
  rw [flushHoliday, if_neg hempty]
  exact Prog.run_exec_refused hnone

/-! ## The handlers -/

theorem run_refreshed {id : Int} (h : db.holiday id = some row) :
    (refreshed id).run db = .ok (row.toRead, db) := by
  rw [refreshed, Prog.run_select_bind, h]
  rfl

variable {isPrintable : Char → Bool} {payload : HolidayUpdate} {date : Option Date}

theorem run_updateHoliday (hrow : db.holiday row.id = some row)
    (hdate : assignedDate isPrintable payload.date = .ok date)
    (hnull : payload.name ≠ some none ∧ payload.region ≠ some none)
    (hadmits : db.Admits row ⟨date, payload.name, payload.region⟩ touched) :
    ∃ new db', (updateHoliday isPrintable touched row.id payload).run db = .ok (new.toRead, db') ∧
      Assigned ⟨date, payload.name, payload.region⟩ row new ∧
      ∀ id, db'.holiday id = if id = row.id then some new else db.holiday id := by
  have hnotNull : HolidaySet.NotNull ⟨date, payload.name, payload.region⟩ := hnull
  obtain ⟨new, db', hflush, hassigned, hrows⟩ := run_flushHoliday hrow hnotNull hadmits
  refine ⟨new, db', ?_, hassigned, hrows⟩
  rw [updateHoliday, run_getOr404_some hrow, hdate]
  exact Prog.run_bind_ok.mpr ⟨(), db', hflush, run_refreshed ((hrows row.id).trans (if_pos rfl))⟩

theorem run_updateHoliday_unread {exc : HttpException} (hrow : db.holiday row.id = some row)
    (hdate : assignedDate isPrintable payload.date = .error exc) :
    (updateHoliday isPrintable touched row.id payload).run db = .error exc := by
  rw [updateHoliday, run_getOr404_some hrow, hdate]
  rfl

theorem run_updateHoliday_refused (hrow : db.holiday row.id = some row)
    (hdate : assignedDate isPrintable payload.date = .ok date)
    (h : ¬ ((payload.name ≠ some none ∧ payload.region ≠ some none) ∧
      db.Admits row ⟨date, payload.name, payload.region⟩ touched)) :
    (updateHoliday isPrintable touched row.id payload).run db = .error internalServerError := by
  rw [updateHoliday, run_getOr404_some hrow, hdate]
  exact Prog.run_bind_error.mpr (Or.inl (run_flushHoliday_refused h))

/-! ## Dates -/

/-- `fromisoformat` raises a `ValueError`. -/
def Unread (isPrintable : Char → Bool) (s : Str) : Prop :=
  ∀ d, fromisoformat isPrintable s ≠ .ok d

/-- The request answers 422 and leaves the table as it was. -/
def Rejects {α : Type} (request : Handler α) (db : Database) : Prop :=
  ∃ detail, request.session db = (.error (unprocessable detail), db)

theorem rejects_iff {α : Type} {request : Handler α} :
    Rejects request db ↔ ∃ detail, request.run db = .error (unprocessable detail) := by
  simp only [Rejects, Prog.session_error, and_true]

theorem not_rejects_of_ok {α : Type} {request : Handler α} {r : α × Database}
    (h : request.run db = .ok r) : ¬ Rejects request db := by
  rw [rejects_iff, h]
  exact nofun

theorem not_rejects_of_internal {α : Type} {request : Handler α}
    (h : request.run db = .error internalServerError) : ¬ Rejects request db := by
  rw [rejects_iff, h]
  exact nofun

theorem readDate_cases (isPrintable : Char → Bool) (s : Str) :
    (∃ d, fromisoformat isPrintable s = .ok d ∧ readDate isPrintable s = .ok d) ∨
      Unread isPrintable s ∧ ∃ detail, readDate isPrintable s = .error (unprocessable detail) := by
  unfold readDate Unread
  cases fromisoformat isPrintable s with
  | error msg => exact Or.inr ⟨nofun, _, rfl⟩
  | ok d => exact Or.inl ⟨d, rfl, rfl⟩

/-- What becomes of the date of a payload. -/
theorem assignedDate_cases (isPrintable : Char → Bool) (v : Option (Option Str)) :
    (v = some none ∧ assignedDate isPrintable v = .error internalServerError) ∨
    (∃ s detail, v = some (some s) ∧ Unread isPrintable s ∧
      assignedDate isPrintable v = .error (unprocessable detail)) ∨
    ∃ date, assignedDate isPrintable v = .ok date ∧ (v = none ∧ date = none ∨
      ∃ s d, v = some (some s) ∧ date = some d ∧ fromisoformat isPrintable s = .ok d) := by
  rcases v with _ | _ | s
  · exact Or.inr (Or.inr ⟨none, rfl, Or.inl ⟨rfl, rfl⟩⟩)
  · exact Or.inl ⟨rfl, rfl⟩
  · rcases readDate_cases isPrintable s with ⟨d, hread, hd⟩ | ⟨hunread, detail, hd⟩
    · refine Or.inr (Or.inr ⟨some d, ?_, Or.inr ⟨s, d, rfl, rfl, hread⟩⟩)
      rw [assignedDate, hd]
      rfl
    · refine Or.inr (Or.inl ⟨s, detail, rfl, hunread, ?_⟩)
      rw [assignedDate, hd]
      rfl

/-- Once its date is read, a new holiday is stored with it, or refused by the
table. -/
theorem run_createHoliday {filled : Filled} {payload : HolidayCreate} {d : Date}
    (hd : fromisoformat isPrintable payload.date = .ok d) :
    (createHoliday isPrintable filled payload).run db = .error internalServerError ∨
      ∃ read db', (createHoliday isPrintable filled payload).run db = .ok (read, db') ∧
        read.date = d.isoformat := by
  let row : Holiday :=
    ⟨filled.id, d, payload.name, payload.region, filled.createdAt, filled.updatedAt⟩
  have hread : readDate isPrintable payload.date = .ok d := by rw [readDate, hd]; rfl
  rw [createHoliday, hread]
  cases happly : db.apply (.insert row) with
  | none => exact Or.inl (Prog.run_bind_error.mpr (Or.inl (Prog.run_exec_refused happly)))
  | some m =>
    obtain ⟨t, ht, hstore⟩ := Option.bind_eq_some_iff.mp happly
    have hrow : m.holiday filled.id = some row := by
      rw [Database.holiday, holidays_of_store hstore, Table.get?_insert ht]
      exact if_pos rfl
    exact Or.inr ⟨row.toRead, m, Prog.run_bind_ok.mpr
      ⟨(), m, Prog.run_exec_ok.mpr happly, run_refreshed hrow⟩, rfl⟩

theorem date_of_created {filled : Filled} {payload : HolidayCreate} {read : HolidayRead}
    (h : (createHoliday isPrintable filled payload).run db = .ok (read, db')) :
    read.date = payload.date ↔ Dashed payload.date := by
  rcases readDate_cases isPrintable payload.date with ⟨d, hd, _⟩ | ⟨_, detail, hd⟩
  · rcases run_createHoliday hd with hrun | ⟨read', db'', hrun, hdate⟩
    · rw [hrun] at h
      cases h
    · rw [hrun] at h
      cases h
      rw [hdate, ← fromisoformat_dashed_iff]
      exact and_iff_right hd
  · rw [createHoliday, hd] at h
    cases h

theorem rejects_createHoliday_iff {filled : Filled} {payload : HolidayCreate} :
    Rejects (createHoliday isPrintable filled payload) db ↔ Unread isPrintable payload.date := by
  rcases readDate_cases isPrintable payload.date with ⟨d, hread, _⟩ | ⟨hunread, detail, hd⟩
  · refine iff_of_false ?_ fun hunread => hunread d hread
    rcases run_createHoliday hread with hrun | ⟨read, db', hrun, _⟩
    · exact not_rejects_of_internal hrun
    · exact not_rejects_of_ok hrun
  · refine iff_of_true (rejects_iff.mpr ⟨detail, ?_⟩) hunread
    rw [createHoliday, hd]
    rfl

/-! ## Merging -/

/-- The row with what is supplied replaced, and nothing else. -/
structure Merged (payload : HolidayUpdate) (old new : Holiday) : Prop where
  id : new.id = old.id
  date : some new.date.isoformat = payload.date.getD (some old.date.isoformat)
  name : some new.name = payload.name.getD (some old.name)
  region : some new.region = payload.region.getD (some old.region)
  createdAt : new.createdAt = old.createdAt

/-- The columns a payload assigns once its date is read. -/
def HolidayUpdate.assigns (isPrintable : Char → Bool) (payload : HolidayUpdate) : HolidaySet where
  date := (assignedDate isPrintable payload.date).toOption.join
  name := payload.name
  region := payload.region

/-- The update returns the merged row, and the table has it. -/
def Merges (isPrintable : Char → Bool) (touched : Auth.DateTime) (db : Database) (old : Holiday)
    (payload : HolidayUpdate) : Prop :=
  ∃ new db', (updateHoliday isPrintable touched old.id payload).session db =
      (.ok new.toRead, db') ∧
    Merged payload old new ∧
    ∀ id, db'.holiday id = if id = old.id then some new else db.holiday id

/-- The date is a text that `fromisoformat` refuses. -/
def UnreadDate (isPrintable : Char → Bool) (payload : HolidayUpdate) : Prop :=
  ∃ s, payload.date = some (some s) ∧ Unread isPrintable s

/-- Nothing is `null`, a date is written with dashes, and the table takes the row. -/
structure Mergeable (isPrintable : Char → Bool) (touched : Auth.DateTime) (db : Database)
    (old : Holiday) (payload : HolidayUpdate) : Prop where
  date : ∀ v, payload.date = some v → ∃ s, v = some s ∧ Dashed s
  name : payload.name ≠ some none
  region : payload.region ≠ some none
  admits : db.Admits old (payload.assigns isPrintable) touched

theorem merged_name {v : Option (Option String)} {s t : String} (hnull : v ≠ some none)
    (h : t = (v.getD none).getD s) : some t = v.getD (some s) := by
  rcases v with _ | _ | u
  · rw [h]
    rfl
  · exact absurd rfl hnull
  · rw [h]
    rfl

theorem ne_null_of_merged {v : Option (Option String)} {s t : String}
    (h : some t = v.getD (some s)) : v ≠ some none := by
  rintro rfl
  cases h

theorem merged_of_assigned {old new : Holiday} {date : Option Date}
    (h : Assigned ⟨date, payload.name, payload.region⟩ old new)
    (hdate : payload.date = date.map fun d => some d.isoformat) (hname : payload.name ≠ some none)
    (hregion : payload.region ≠ some none) : Merged payload old new where
  id := h.id
  date := by
    rw [hdate, h.date]
    cases date with
    | none => rfl
    | some d => rfl
  name := merged_name hname h.name
  region := merged_name hregion h.region
  createdAt := h.createdAt

theorem assigns_eq (hdate : assignedDate isPrintable payload.date = .ok date) :
    payload.assigns isPrintable = ⟨date, payload.name, payload.region⟩ := by
  rw [HolidayUpdate.assigns, hdate]
  rfl

section Update

variable {old : Holiday} (hrow : db.holiday old.id = some old)

include hrow

theorem rejects_updateHoliday_iff :
    Rejects (updateHoliday isPrintable touched old.id payload) db ↔
      UnreadDate isPrintable payload := by
  rcases assignedDate_cases isPrintable payload.date with
    ⟨hnull, hdate⟩ | ⟨s, detail, hs, hunread, hdate⟩ | ⟨date, hdate, hread⟩
  · refine iff_of_false (not_rejects_of_internal (run_updateHoliday_unread hrow hdate)) ?_
    rintro ⟨s, hs, _⟩
    rw [hnull] at hs
    cases hs
  · exact iff_of_true (rejects_iff.mpr ⟨detail, run_updateHoliday_unread hrow hdate⟩)
      ⟨s, hs, hunread⟩
  · refine iff_of_false ?_ ?_
    · by_cases hstored : (payload.name ≠ some none ∧ payload.region ≠ some none) ∧
          db.Admits old ⟨date, payload.name, payload.region⟩ touched
      · obtain ⟨new, db', hrun, _⟩ := run_updateHoliday hrow hdate hstored.1 hstored.2
        exact not_rejects_of_ok hrun
      · exact not_rejects_of_internal (run_updateHoliday_refused hrow hdate hstored)
    · rintro ⟨s, hs, hunread⟩
      rcases hread with ⟨hnone, _⟩ | ⟨s', d, hs', _, hd⟩
      · rw [hnone] at hs
        cases hs
      · rw [hs'] at hs
        cases hs
        exact hunread d hd

theorem merges_of_mergeable (hread : ¬ UnreadDate isPrintable payload)
    (h : Mergeable isPrintable touched db old payload) :
    Merges isPrintable touched db old payload := by
  rcases assignedDate_cases isPrintable payload.date with
    ⟨hnull, _⟩ | ⟨s, detail, hs, hunread, _⟩ | ⟨date, hdate, hcase⟩
  · obtain ⟨s, hs⟩ := h.date none hnull
    cases hs.1
  · exact absurd ⟨s, hs, hunread⟩ hread
  · have hsubmitted : payload.date = date.map fun d => some d.isoformat := by
      rcases hcase with ⟨hnone, rfl⟩ | ⟨s, d, hs, rfl, hd⟩
      · exact hnone
      · obtain ⟨_, ⟨⟩, hdashed⟩ := h.date _ hs
        rw [hs, ← fromisoformat_dashed_iff.mp ⟨hd, hdashed⟩]
        rfl
    obtain ⟨new, db', hrun, hassigned, hrows⟩ :=
      run_updateHoliday hrow hdate ⟨h.name, h.region⟩ (assigns_eq hdate ▸ h.admits)
    exact ⟨new, db', Prog.session_ok.mpr hrun,
      merged_of_assigned hassigned hsubmitted h.name h.region, hrows⟩

theorem mergeable_of_merges (h : Merges isPrintable touched db old payload) :
    Mergeable isPrintable touched db old payload := by
  obtain ⟨new, db', hsession, hmerged, _⟩ := h
  have hrun := Prog.session_ok.mp hsession
  have hname := ne_null_of_merged hmerged.name
  have hregion := ne_null_of_merged hmerged.region
  rcases assignedDate_cases isPrintable payload.date with
    ⟨_, hdate⟩ | ⟨s, detail, _, _, hdate⟩ | ⟨date, hdate, hcase⟩
  · rw [run_updateHoliday_unread hrow hdate] at hrun
    cases hrun
  · rw [run_updateHoliday_unread hrow hdate] at hrun
    cases hrun
  · refine ⟨fun v hv => ?_, hname, hregion, ?_⟩
    · rcases hcase with ⟨hnone, _⟩ | ⟨s, d, hs, rfl, hd⟩
      · rw [hnone] at hv
        cases hv
      · rw [hs] at hv
        cases hv
        have htext : some new.date.isoformat = some s := by
          rw [hmerged.date, hs]
          rfl
        have hdashed : fromisoformat isPrintable s = .ok new.date ∧ Dashed s :=
          fromisoformat_dashed_iff.mpr (Option.some.inj htext)
        exact ⟨s, rfl, hdashed.2⟩
    · rw [assigns_eq hdate]
      by_contra hadmits
      rw [run_updateHoliday_refused hrow hdate fun hstored => hadmits hstored.2] at hrun
      cases hrun

end Update

/-! ## The result -/

/-- **An update merges or rejects exactly when** its date is refused, or nothing
is `null`, the date is written with dashes and the table takes the row. The dates
`create_holiday` refuses are the same, and it reads those with dashes back
unchanged. -/
theorem update_merges_iff (isPrintable : Char → Bool) (touched : Auth.DateTime) (db : Database)
    (old : Holiday) (hold : old ∈ db.holidays) (payload : HolidayUpdate) :
    (Merges isPrintable touched db old payload ∨
        Rejects (updateHoliday isPrintable touched old.id payload) db ↔
      UnreadDate isPrintable payload ∨ Mergeable isPrintable touched db old payload) ∧
    ∀ (filled : Filled) (created : HolidayCreate), payload.date = some (some created.date) →
      (Rejects (createHoliday isPrintable filled created) db ↔
        Rejects (updateHoliday isPrintable touched old.id payload) db) ∧
      ∀ read db', (createHoliday isPrintable filled created).session db = (.ok read, db') →
        (read.date = created.date ↔ Dashed created.date) := by
  have hrow : db.holiday old.id = some old := Database.holiday_eq_some.mpr ⟨hold, rfl⟩
  constructor
  · rw [rejects_updateHoliday_iff hrow]
    constructor
    · rintro (h | h)
      · exact Or.inr (mergeable_of_merges hrow h)
      · exact Or.inl h
    · rintro (h | h)
      · exact Or.inr h
      · by_cases hread : UnreadDate isPrintable payload
        · exact Or.inr hread
        · exact Or.inl (merges_of_mergeable hrow hread h)
  · intro filled created hdate
    refine ⟨?_, fun read db' hsession => ?_⟩
    · rw [rejects_createHoliday_iff, rejects_updateHoliday_iff hrow]
      constructor
      · exact fun hunread => ⟨created.date, hdate, hunread⟩
      · rintro ⟨s, hs, hunread⟩
        rw [hdate] at hs
        cases hs
        exact hunread
    · exact date_of_created (Prog.session_ok.mp hsession)

def loaded : Auth.DateTime := ⟨1759276800000000, by decide, by decide⟩

def october : Date := ⟨2025, 10, 1, by decide, by decide, by decide⟩

def storedRow : Holiday := ⟨5, october, "国庆", "CN", loaded, loaded⟩

/-- One holiday, in a table that takes every row. -/
def stored : Database where
  constraints := fun _ => true
  holidays := ⟨[storedRow], List.nodup_singleton _⟩

theorem storedRow_mem : storedRow ∈ stored.holidays := List.mem_singleton_self _

/-- `{"date": "2025-10-02", "name": "国庆节"}`. -/
def nationalDay : HolidayUpdate where
  date := some (some "2025-10-02".toList)
  name := some (some "国庆节")
  region := none
  name_len := by
    rintro _ ⟨⟩
    decide
  region_len := nofun

theorem update_merges_nationalDay : storedRow ∈ stored.holidays ∧
    (Merges (fun _ => true) loaded stored storedRow nationalDay ∨
      Rejects (updateHoliday (fun _ => true) loaded storedRow.id nationalDay) stored) := by
  refine ⟨storedRow_mem, (update_merges_iff (fun _ => true) loaded stored storedRow storedRow_mem
    nationalDay).1.mpr (Or.inr ?_)⟩
  exact {
    date := by
      rintro _ ⟨⟩
      exact ⟨_, rfl, by decide⟩
    name := nofun
    region := nofun
    admits := Or.inr rfl }

/-- `{"date": null}`. -/
def nullDate : HolidayUpdate where
  date := some none
  name := none
  region := none
  name_len := nofun
  region_len := nofun

/-- `{"date": "20251002"}`. -/
def basicDate : HolidayUpdate where
  date := some (some "20251002".toList)
  name := none
  region := none
  name_len := nofun
  region_len := nofun

/-- The one ends with a 500, the other is stored and answered as `2025-10-02`. -/
theorem updates_neither_merge_nor_reject :
    ¬ (Merges (fun _ => true) loaded stored storedRow nullDate ∨
        Rejects (updateHoliday (fun _ => true) loaded storedRow.id nullDate) stored) ∧
      ¬ (Merges (fun _ => true) loaded stored storedRow basicDate ∨
        Rejects (updateHoliday (fun _ => true) loaded storedRow.id basicDate) stored) := by
  have hrow : stored.holiday storedRow.id = some storedRow :=
    Database.holiday_eq_some.mpr ⟨storedRow_mem, rfl⟩
  constructor
  · rintro (h | h)
    · obtain ⟨s, hs, _⟩ := (mergeable_of_merges hrow h).date none rfl
      cases hs
    · obtain ⟨s, hs, _⟩ := (rejects_updateHoliday_iff hrow).mp h
      cases hs
  · rintro (h | h)
    · obtain ⟨_, ⟨⟩, hdashed⟩ := (mergeable_of_merges hrow h).date _ rfl
      exact absurd hdashed (by decide)
    · obtain ⟨_, ⟨⟩, hunread⟩ := (rejects_updateHoliday_iff hrow).mp h
      refine hunread ⟨2025, 10, 2, by decide, by decide, by decide⟩ ?_
      exact fromisoformat_eq_ok.mpr ⟨by decide, by decide⟩

end IsalesApi.Holidays
