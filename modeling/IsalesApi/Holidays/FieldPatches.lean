import IsalesApi.Foundation.Merging
import IsalesApi.Holidays.Overlap

/-!
# Patches of different fields of a holiday

`PATCH /holidays/{id}` sends the columns whose value differs from the loaded
one. A `null` for `name` or `region` ends the request, so it sets nothing that
is ever committed. `updated_at` is no field here: every `UPDATE` touches it.
-/

namespace IsalesApi.Holidays

open Foundation Listings Python

/-! ## Fields -/

inductive Field where
  | date
  | name
  | region
  | createdAt
deriving DecidableEq

def Field.Value : Field → Type
  | .date => Date
  | .name => String
  | .region => String
  | .createdAt => Auth.DateTime

def field (row : Holiday) : (f : Field) → f.Value
  | .date => row.date
  | .name => row.name
  | .region => row.region
  | .createdAt => row.createdAt

/-- The columns an `UPDATE` sets to a value. -/
def HolidaySet.field (set : HolidaySet) : (f : Field) → Option f.Value
  | .date => set.date
  | .name => set.name.join
  | .region => set.region.join
  | .createdAt => none

/-- The fields of holiday `k` a request sets. -/
def Request.sets (isPrintable : Char → Bool) (r : Request) (k : Int) (f : Field) :
    Option f.Value :=
  match r with
  | .updateHoliday _ id payload =>
    if id = k then
      HolidaySet.field ⟨(assignedDate isPrintable payload.date).toOption.join, payload.name,
        payload.region⟩ f
    else none
  | _ => none

theorem field_applyTo {set : HolidaySet} (touched : Auth.DateTime) (row : Holiday) (f : Field) :
    field (set.applyTo touched row) f = (set.field f).getD (field row f) := by
  cases f with
  | date => rfl
  | name =>
    show (set.name.getD none).getD row.name = set.name.join.getD row.name
    rcases set.name with _ | _ | s <;> rfl
  | region =>
    show (set.region.getD none).getD row.region = set.region.join.getD row.region
    rcases set.region with _ | _ | s <;> rfl
  | createdAt => rfl

theorem changed_join (assigned : Option (Option String)) (s : String) :
    (changed assigned (some s)).join = assigned.join ∨
      (changed assigned (some s)).join = none ∧ assigned.join = some s := by
  rcases changed_eq_or assigned (some s) with hsame | ⟨hnone, hvalue⟩
  · exact .inl (congrArg Option.join hsame)
  · exact .inr ⟨congrArg Option.join hnone, congrArg Option.join hvalue⟩

/-- A field that is set is sent, or has the value already. -/
theorem field_against (set : HolidaySet) (loaded : Holiday) (f : Field) :
    (set.against loaded).field f = set.field f ∨
      (set.against loaded).field f = none ∧ set.field f = some (field loaded f) := by
  cases f with
  | date => exact changed_eq_or set.date loaded.date
  | name => exact changed_join set.name loaded.name
  | region => exact changed_join set.region loaded.region
  | createdAt => exact .inl rfl

theorem field_of_isEmpty {set : HolidaySet} (h : set.isEmpty = true) (f : Field) :
    set.field f = none := by
  obtain ⟨date, name, region⟩ := set
  simp only [HolidaySet.isEmpty, Bool.and_eq_true, Option.isNone_iff_eq_none] at h
  obtain ⟨⟨rfl, rfl⟩, rfl⟩ := h
  cases f <;> rfl

/-! ## Rows before and after a commit -/

section Commit

variable {isPrintable : Char → Bool} {m m' : Database} {a : Option HolidayRead} {ws : List Write}
  {see : List Write → Database → Prop}

theorem holiday_insert {row : Holiday} (h : m.apply (.insert row) = some m') {k : Int}
    (hk : k ≠ row.id) : m'.holiday k = m.holiday k := by
  obtain ⟨t, ht, hstore⟩ := Option.bind_eq_some_iff.mp h
  rw [Database.holiday, holidays_of_store hstore]
  exact (Table.get?_insert ht k).trans (if_neg hk)

theorem holiday_update {id : Int} {set : HolidaySet} {touched : Auth.DateTime}
    (h : m.apply (.update id set touched) = some m') (k : Int) :
    m'.holiday k = if k = id then (m.holiday k).map (set.applyTo touched) else m.holiday k := by
  simp only [Database.apply] at h
  split at h
  · rw [Database.holiday, holidays_of_store h]
    exact Table.get?_update (set.key_applyTo touched) (by simp [key]) k
  · cases h

theorem holiday_delete {id : Int} (h : m.apply (.delete id) = some m') (k : Int) :
    m'.holiday k = if k = id then none else m.holiday k := by
  rw [Database.holiday, holidays_of_store h]
  exact Table.get?_delete (by simp [key]) k

/-- What an update commits, and the row it has loaded. -/
theorem writes_updateHoliday {touched : Auth.DateTime} {id : Int} {payload : HolidayUpdate}
    (h : ((Request.updateHoliday touched id payload).handler isPrintable).EndsSeeing see [] a ws) :
    ∃ view loaded date, see [] view ∧ view.holiday id = some loaded ∧
      assignedDate isPrintable payload.date = .ok date ∧
      let sent := HolidaySet.against ⟨date, payload.name, payload.region⟩ loaded
      (ws = [] ∧ sent.isEmpty = true ∨ ws = [.update loaded.id sent touched]) := by
  obtain ⟨view, loaded, read, hsee, hrow, hbody⟩ := seeing_getOr404 h
  split at hbody
  · exact absurd hbody Prog.not_ends_raise
  · rename_i date hdate
    obtain ⟨_, us, vs, hflush, hread, rfl⟩ := Prog.ends_bind.mp hbody
    obtain rfl := ends_refreshed hread
    rw [List.append_nil]
    exact ⟨view, loaded, date, hsee, hrow, hdate, ends_flushHoliday hflush⟩

end Commit

/-! ## Overlapping requests -/

section Overlap

variable {ι : Type} {isPrintable : Char → Bool} {r : ι → Request} {i : ι} {db m m' : Database}
  {a : Option HolidayRead} {ws : List Write} {see : List Write → Database → Prop}

/-- The fields of holidays, and those that each request sets. -/
def holidayFields (isPrintable : Char → Bool) (r : ι → Request) :
    FieldSets ι Database Int Holiday Field Field.Value where
  row := Database.holiday
  value := field
  sets i := (r i).sets isPrintable

/-- A holiday that is created gets an id that is new. -/
def Request.DrawsNew (db : Database) : Request → Prop
  | .createHoliday filled _ => db.holiday filled.id = none
  | _ => True

theorem unset_of_eq {x : Request} (hr : r i = x) (hx : ∀ k f, x.sets isPrintable k f = none)
    (k : Int) (f : Field) : (holidayFields isPrintable r).sets i k f = none := by
  show (r i).sets isPrintable k f = none
  rw [hr]
  exact hx k f

theorem updates_updateHoliday {touched : Auth.DateTime} {id : Int} {payload : HolidayUpdate}
    (hr : r i = .updateHoliday touched id payload)
    (h : ((Request.updateHoliday touched id payload).handler isPrintable).EndsSeeing see [] a ws)
    (happly : applyAll ws m = some m') :
    (holidayFields isPrintable r).Updates db i
      (fun k loaded => ∃ view, see [] view ∧ view.holiday k = some loaded) m m' := by
  obtain ⟨view, loaded, date, hsee, hrow, hdate, hws⟩ := writes_updateHoliday h
  obtain ⟨_, rfl⟩ := Database.holiday_eq_some.mp hrow
  let set : HolidaySet := ⟨date, payload.name, payload.region⟩
  have hsets : ∀ k f, (holidayFields isPrintable r).sets i k f =
      if loaded.id = k then set.field f else none := by
    intro k f
    show (r i).sets isPrintable k f = _
    rw [hr]
    simp only [Request.sets, hdate]
    rfl
  refine updates_of_sent (S := holidayFields isPrintable r) (k := loaded.id) loaded
    (set.against loaded).field (fun k f hk => ?_) (fun f => ?_) ⟨view, hsee, hrow⟩ ?_
  · rw [hsets, if_neg (Ne.symm hk)]
  · rw [hsets, if_pos rfl]
    exact field_against set loaded f
  · intro k after hafter
    change m'.holiday k = some after at hafter
    -- no column differed, or one UPDATE was sent
    rcases hws with ⟨rfl, hempty⟩ | rfl
    · cases happly
      refine ⟨after, hafter, fun f => ?_⟩
      rw [field_of_isEmpty hempty f]
      exact (ite_self _).symm
    · rw [holiday_update (applyAll_singleton.mp happly)] at hafter
      by_cases hk : k = loaded.id
      · rw [if_pos hk] at hafter
        obtain ⟨row, hstored, rfl⟩ := Option.map_eq_some_iff.mp hafter
        refine ⟨row, hstored, fun f => ?_⟩
        rw [if_pos hk]
        exact field_applyTo touched row f
      · rw [if_neg hk] at hafter
        exact ⟨after, hafter, fun f => (if_neg hk).symm⟩

theorem updates_handler (hnew : (r i).DrawsNew db)
    (h : ((r i).handler isPrintable).EndsSeeing see [] a ws) (happly : applyAll ws m = some m') :
    (holidayFields isPrintable r).Updates db i
      (fun k loaded => ∃ view, see [] view ∧ view.holiday k = some loaded) m m' := by
  cases hr : r i with
  | updateHoliday touched id payload =>
    rw [hr] at h
    exact updates_updateHoliday hr h happly
  | createHoliday filled payload =>
    rw [hr] at h hnew
    obtain ⟨us, hends, rfl⟩ := h.ends
    obtain ⟨_, hends, _⟩ := Prog.ends_map.mp hends
    obtain ⟨d, rfl⟩ := ends_createHoliday hends
    refine updates_of_kept (unset_of_eq hr fun _ _ => rfl) fun k before after hbefore hafter => ?_
    -- the id of a new row is none of those that were there
    have hk : k ≠ filled.id := by
      rintro rfl
      cases hbefore.symm.trans hnew
    exact (holiday_insert (applyAll_singleton.mp happly) hk).symm.trans hafter
  | deleteHoliday id =>
    rw [hr] at h
    obtain ⟨us, hends, rfl⟩ := h.ends
    obtain ⟨_, hends, _⟩ := Prog.ends_map.mp hends
    obtain ⟨obj, rfl⟩ := ends_deleteHoliday hends
    refine updates_of_kept (unset_of_eq hr fun _ _ => rfl) fun k before after _ hafter => ?_
    change m'.holiday k = some after at hafter
    rw [holiday_delete (applyAll_singleton.mp happly)] at hafter
    split at hafter
    · cases hafter
    · exact hafter

end Overlap

/-- **No field of a holiday is lost.** Any number of requests overlap, no two of
which set one field of a holiday: in every interleaving a holiday that was there
and still is has its date, name and region each as the committed request that
sets it has set it, or as it was where none does, and its creation time as it
was. -/
theorem holidays_merge {ι : Type} [DecidableEq ι] [Fintype ι] (isPrintable : Char → Bool)
    (r : ι → Request)
    (hapart : ∀ i j k f, i ≠ j →
      (r i).sets isPrintable k f = none ∨ (r j).sets isPrintable k f = none)
    (db : Database) (hnew : ∀ i, (r i).DrawsNew db) (as : List (ServerAction ι)) :
    Always Server.step (fun s => (holidayFields isPrintable r).Merged db s.answers s.committed)
      (Server.start db fun i => (r i).handler isPrintable) as :=
  merged_always (S := holidayFields isPrintable r) hapart
    (fun i _ _ _ _ _ hends happly => updates_handler (hnew i) hends happly) as

theorem name_absent : ∀ s, (none : Option (Option String)) = some (some s) → Bounded 128 s := by
  rintro s ⟨⟩

theorem region_absent : ∀ s, (none : Option (Option String)) = some (some s) → Bounded 32 s := by
  rintro s ⟨⟩

def renamed : HolidayUpdate where
  date := none
  name := some (some "Spring Day")
  region := none
  name_len := by
    rintro _ ⟨⟩
    decide
  region_len := region_absent

def moved : HolidayUpdate where
  date := none
  name := none
  region := some (some "Macau")
  name_len := name_absent
  region_len := by
    rintro _ ⟨⟩
    decide

/-- One user renames the holiday, another one moves it. -/
def renameAndMove (i : Fin 2) : Request :=
  .updateHoliday labourDay.updatedAt 1 (if i.val = 0 then renamed else moved)

theorem renameAndMove_apart (i j : Fin 2) (k : Int) (f : Field) (h : i ≠ j) :
    (renameAndMove i).sets (fun _ => true) k f = none ∨
      (renameAndMove j).sets (fun _ => true) k f = none := by
  have hname : f ≠ .name → (renameAndMove 0).sets (fun _ => true) k f = none := by
    intro hf
    show (if 1 = k then HolidaySet.field ⟨none, some (some "Spring Day"), none⟩ f else none) = _
    rw [ite_eq_right_iff]
    rintro rfl
    cases f with
    | name => exact absurd rfl hf
    | _ => rfl
  have hmoved : (renameAndMove 1).sets (fun _ => true) k .name = none := ite_self _
  have hboth : (renameAndMove 0).sets (fun _ => true) k f = none ∨
      (renameAndMove 1).sets (fun _ => true) k f = none := by
    by_cases hf : f = .name
    · subst hf
      exact .inr hmoved
    · exact .inl (hname hf)
  match i, j with
  | 0, 0 | 1, 1 => exact absurd rfl h
  | 0, 1 => exact hboth
  | 1, 0 => exact hboth.symm

/-- Both have loaded the row before either sends its `UPDATE`. -/
theorem holidays_merge_renameAndMove :
    Always Server.step
      (fun s => (holidayFields (fun _ => true) renameAndMove).Merged oneHoliday s.answers
        s.committed)
      (Server.start oneHoliday fun i => (renameAndMove i).handler fun _ => true)
      [.advance 0, .advance 1, .advance 0, .advance 0, .advance 0, .advance 1, .advance 1,
        .advance 1] :=
  holidays_merge (fun _ => true) renameAndMove renameAndMove_apart oneHoliday
    (fun _ => trivial) _

end IsalesApi.Holidays
