import IsalesApi.Config.Labels
import IsalesApi.Foundation.Loop

/-!
# Bulk and single-row label validation

`validate_role_labels` remembers the keys of the rows it has passed;
`_require_unique_label` counts stored rows. Creating rows one by one fills the
table just as the loop fills its set (`Remembers`), so both stop at the same
row with the same error.
-/

namespace IsalesApi.Config

open Foundation

variable {db db' : Database} {c : Int} {seen : List (String × String)}

/-! ## The loop of `validate_role_labels` -/

section Bulk

variable {α : Type} [Labelled α]

theorem validateRoleLabelsFrom_eq_foldlM {rows : List α} :
    validateRoleLabelsFrom seen rows = (rows.foldlM checkNext seen).map fun _ => () := by
  induction rows generalizing seen with
  | nil => rfl
  | cons rc rest ih =>
    have hnext : validateRoleLabelsFrom seen (rc :: rest) =
        (checkNext seen rc).bind fun s => validateRoleLabelsFrom s rest := by
      rw [validateRoleLabelsFrom, checkNext]
      by_cases hk : (!(kind rc).labelled) = true
      · rw [if_pos hk, if_pos hk]
        rfl
      · rw [if_neg hk, if_neg hk]
        cases label rc with
        | none => rfl
        | some l =>
          by_cases hb : blank (some l) = true
          · simp only [if_pos hb]
            rfl
          · by_cases hseen : (labelNamespace (kind rc), l) ∈ seen
            · simp only [if_neg hb, if_pos hseen]
              rfl
            · simp only [if_neg hb, if_neg hseen]
              rfl
    rw [hnext]
    cases hcheck : checkNext seen rc with
    | error e =>
      rw [foldlM_cons_error hcheck]
      rfl
    | ok s =>
      rw [foldlM_cons_ok hcheck, ← ih]
      rfl

/-- `validate_role_labels` raises `e` at row `i`: it passes the rows before, and
raises when row `i` is added. -/
def RejectsAt (rows : List α) (i : ℕ) (e : HttpException) : Prop :=
  i < rows.length ∧ validateRoleLabels (rows.take i) = .ok () ∧
    validateRoleLabels (rows.take (i + 1)) = .error e

theorem validateRoleLabels_ok_iff_stops {rows : List α} :
    validateRoleLabels rows = .ok () ↔ stopsAt checkNext [] rows = none := by
  rw [validateRoleLabels, validateRoleLabelsFrom_eq_foldlM, stopsAt_eq_none]
  cases rows.foldlM checkNext ([] : List (String × String)) with
  | error e => simp [Except.map]
  | ok s => simp [Except.map]

theorem validateRoleLabels_error_iff {rows : List α} {e : HttpException} :
    validateRoleLabels rows = .error e ↔ rows.foldlM checkNext [] = .error e := by
  rw [validateRoleLabels, validateRoleLabelsFrom_eq_foldlM]
  cases rows.foldlM checkNext ([] : List (String × String)) with
  | error e' => simp [Except.map]
  | ok s => simp [Except.map]

theorem rejectsAt_iff_stops {rows : List α} {i : ℕ} {e : HttpException} :
    RejectsAt rows i e ↔ stopsAt checkNext [] rows = some (i, e) := by
  rw [stopsAt_eq_some, RejectsAt, validateRoleLabels_ok_iff_stops, stopsAt_eq_none,
    validateRoleLabels_error_iff]

/-- The loop raises what it raises at some row. -/
theorem validateRoleLabels_error_iff_rejectsAt {rows : List α} {e : HttpException} :
    validateRoleLabels rows = .error e ↔ ∃ i, RejectsAt rows i e := by
  rw [validateRoleLabels_error_iff, foldlM_eq_error]
  exact exists_congr fun i => rejectsAt_iff_stops.symm

end Bulk

/-! ## Row by row -/

/-- `POST /role-configs` with a row for the campaign and the id it is to get. -/
def createNext (c : Int) (db : Database) (item : Int × RoleConfigNestedWrite) :
    Except HttpException Database :=
  match (createRoleConfig item.1 ⟨item.2, c⟩).session db with
  | (.error e, _) => .error e
  | (.ok _, db') => .ok db'

/-- The rows are created in list order. Where it ends before the last: the row
that is rejected and the answer. -/
def createOneByOne (c : Int) (db : Database) (items : List (Int × RoleConfigNestedWrite)) :
    Option (ℕ × HttpException) :=
  stopsAt (createNext c) db items

/-- The set of keys is that of the rows of the campaign. -/
def Remembers (db : Database) (c : Int) (seen : List (String × String)) : Prop :=
  ∀ k l, k.labelled = true → ((labelNamespace k, l) ∈ seen ↔
    ∃ r ∈ db.rolesOf c, r.kind = k ∧ r.label = some l)

theorem remembers_nil (h : db.rolesOf c = []) : Remembers db c [] := by
  intro k l _
  rw [h]
  simp

/-- The count of `_require_unique_label` finds a row when its key is in the
set. -/
theorem sameLabel_eq_nil (hr : Remembers db c seen) {k : RoleKind} (hk : k.labelled = true)
    {l : String} : sameLabel c k (some l) none db = [] ↔ (labelNamespace k, l) ∉ seen := by
  rw [hr k l hk, List.eq_nil_iff_forall_not_mem]
  constructor
  · rintro hcount ⟨r, hr, hkind, hlabel⟩
    obtain ⟨hr, hc⟩ := Database.mem_rolesOf.mp hr
    exact hcount r ((mem_sameLabel hk).mpr ⟨hr, hc, hlabel, hkind, by simp⟩)
  · intro hnone r hcounted
    obtain ⟨hr, hc, hlabel, hkind, _⟩ := (mem_sameLabel hk).mp hcounted
    exact hnone ⟨r, Database.mem_rolesOf.mpr ⟨hr, hc⟩, hkind, hlabel⟩

/-- On the rows stored so far `_require_unique_label` does what the loop does on
its set. -/
theorem requireUniqueLabel_eq_checkNext (hr : Remembers db c seen) (rc : RoleConfigNestedWrite) :
    (requireUniqueLabel (pure ()) c rc.kind rc.label none).run db =
      (checkNext seen rc).map fun _ => ((), db) := by
  unfold checkNext
  by_cases hk : rc.kind.labelled = true
  · have hkinds : ¬ rc.kind ∉ labelledKinds := not_not.mpr (mem_labelledKinds.mpr hk)
    have hskip : ¬ (!(kind rc).labelled) = true := by
      show ¬ (!rc.kind.labelled) = true
      simp [hk]
    have hlabel : label rc = rc.label := rfl
    have hkind : kind rc = rc.kind := rfl
    unfold requireUniqueLabel
    rw [if_neg hkinds, if_neg hskip, hlabel, hkind]
    cases hl : rc.label with
    | none => rfl
    | some l =>
      by_cases hb : blank (some l) = true
      · simp only [if_pos hb]
        rfl
      · simp only [if_neg hb, Prog.bind_eq, Prog.pure_eq]
        have hcount := sameLabel_eq_nil hr hk (l := l)
        by_cases hseen : (labelNamespace rc.kind, l) ∈ seen
        · have hsome : 0 < (sameLabel c rc.kind (some l) none db).length :=
            List.length_pos_iff.mpr fun h => hcount.mp h hseen
          rw [if_pos hseen]
          show (Prog.raiseIf (decide (0 < (sameLabel c rc.kind (some l) none db).length))
            (roleLabelDuplicate l)).run db = _
          rw [decide_eq_true hsome]
          rfl
        · rw [if_neg hseen]
          show (Prog.raiseIf (decide (0 < (sameLabel c rc.kind (some l) none db).length))
            (roleLabelDuplicate l)).run db = _
          rw [hcount.mpr hseen]
          rfl
  · have hskip : (!(kind rc).labelled) = true := by
      show (!rc.kind.labelled) = true
      simp [hk]
    rw [requireUniqueLabel_unlabelled hk, if_pos hskip]
    rfl

/-- A row that passes is stored or refused by the database. -/
theorem run_storeRole_error {row : RoleConfig} {e : HttpException}
    (h : (storeRole row).run db = .error e) : e = internalServerError := by
  rcases Prog.run_bind_error.mp h with hins | ⟨_, m, _, hread⟩
  · simp only [Prog.exec, Prog.run] at hins
    split at hins
    · cases hins
      rfl
    · cases hins
  · cases hread

theorem Remembers.storeRole {id : Int} {rc : RoleConfigNestedWrite}
    {seen' : List (String × String)} {fresh : RoleConfig} (hr : Remembers db c seen)
    (hcheck : checkNext seen rc = .ok seen')
    (h : (Config.storeRole (RoleConfigCreate.row ⟨rc, c⟩ id)).run db = .ok (fresh, db')) :
    Remembers db' c seen' := by
  have hroles : db'.rolesOf c = db.rolesOf c ++ [⟨rc, id, c⟩] :=
    (edits_insertRole (run_storeRole h)).roles_self
  intro k l hk
  rw [hroles]
  have hmem : (∃ r ∈ db.rolesOf c ++ [(⟨rc, id, c⟩ : RoleConfig)], r.kind = k ∧
      r.label = some l) ↔ (labelNamespace k, l) ∈ seen ∨ (rc.kind = k ∧ rc.label = some l) := by
    rw [hr k l hk]
    simp only [List.mem_append, List.mem_singleton, or_and_right, exists_or, exists_eq_left]
  rw [hmem]
  unfold checkNext at hcheck
  split at hcheck
  · -- a kind without labels leaves no key
    rename_i hskip
    cases hcheck
    have hunlabelled : ¬ rc.kind.labelled = true := by
      have hskip : (!rc.kind.labelled) = true := hskip
      simpa using hskip
    have hnot : ¬ (rc.kind = k ∧ rc.label = some l) := fun hrow => hunlabelled (hrow.1 ▸ hk)
    exact (or_iff_left hnot).symm
  · rename_i hlabelled
    have hrck : rc.kind.labelled = true := by
      have hlabelled : ¬ (!rc.kind.labelled) = true := hlabelled
      simpa using hlabelled
    cases hl : rc.label with
    | none =>
      have hlabel : label rc = none := hl
      rw [hlabel] at hcheck
      cases hcheck
    | some l' =>
      have hlabel : label rc = some l' := hl
      have hkind : kind rc = rc.kind := rfl
      rw [hlabel, hkind] at hcheck
      simp only at hcheck
      split at hcheck
      · cases hcheck
      · split at hcheck
        · cases hcheck
        · cases hcheck
          rw [List.mem_cons, Prod.mk.injEq, labelNamespace_eq hk hrck, or_comm]
          simp only [Option.some.injEq, eq_comm]

/-- One row: the loop and the request agree, unless the database refuses what
has passed. -/
theorem createNext_simulates (hr : Remembers db c seen) (item : Int × RoleConfigNestedWrite) :
    createNext c db item = .error internalServerError ∨
      (∃ e, checkNext seen item.2 = .error e ∧ createNext c db item = .error e) ∨
      ∃ seen' db', checkNext seen item.2 = .ok seen' ∧ createNext c db item = .ok db' ∧
        Remembers db' c seen' := by
  obtain ⟨id, rc⟩ := item
  have hcheck := requireUniqueLabel_eq_checkNext hr rc
  cases hnext : checkNext seen rc with
  | error e =>
    rw [hnext] at hcheck
    have hrun : (createRoleConfig id ⟨rc, c⟩).run db = .error e :=
      Prog.run_bind_error.mpr (Or.inl hcheck)
    refine Or.inr (Or.inl ⟨e, rfl, ?_⟩)
    unfold createNext
    rw [Prog.session_error.mpr ⟨hrun, rfl⟩]
  | ok seen' =>
    rw [hnext] at hcheck
    have hrun : (createRoleConfig id ⟨rc, c⟩).run db =
        (Config.storeRole (RoleConfigCreate.row ⟨rc, c⟩ id)).run db := by
      unfold createRoleConfig
      rw [Prog.bind_eq, Prog.run_bind]
      show Except.bind ((requireUniqueLabel (pure ()) c rc.kind rc.label none).run db) _ = _
      rw [hcheck]
      rfl
    cases hstore : (Config.storeRole (RoleConfigCreate.row ⟨rc, c⟩ id)).run db with
    | error e =>
      rw [hstore] at hrun
      refine Or.inl ?_
      unfold createNext
      rw [Prog.session_error.mpr ⟨hrun, rfl⟩, run_storeRole_error hstore]
    | ok r =>
      obtain ⟨fresh, db'⟩ := r
      rw [hstore] at hrun
      refine Or.inr (Or.inr ⟨seen', db', rfl, ?_, hr.storeRole hnext hstore⟩)
      unfold createNext
      rw [Prog.session_ok.mpr hrun]

/-- **Bulk and single-row validation agree.** On a campaign without role rows,
`validate_role_labels` accepts a list if and only if creating its rows one by
one succeeds for every row, and otherwise both reject at the same row with the
same answer. Only `_require_unique_label` is to judge: no row is refused by the
database. -/
theorem bulk_iff_oneByOne (db : Database) (c : Int) (items : List (Int × RoleConfigNestedWrite))
    (hempty : db.rolesOf c = [])
    (hstored : ∀ i, createOneByOne c db items ≠ some (i, internalServerError)) :
    (validateRoleLabels (items.map Prod.snd) = .ok () ↔ createOneByOne c db items = none) ∧
      ∀ i e, RejectsAt (items.map Prod.snd) i e ↔ createOneByOne c db items = some (i, e) := by
  have hstops : stopsAt checkNext [] (items.map Prod.snd) = createOneByOne c db items := by
    rw [stopsAt_map]
    exact stopsAt_simulates (R := fun seen db => Remembers db c seen)
      (fun seen db item hr => createNext_simulates hr item) (remembers_nil hempty) hstored
  rw [validateRoleLabels_ok_iff_stops, hstops]
  refine ⟨Iff.rfl, fun i e => ?_⟩
  rw [rejectsAt_iff_stops, hstops]

/-- A campaign without rows. -/
def bareDatabase : Database where
  schema := ⟨fun _ => true, fun _ => true, fun _ => true⟩
  campaigns := ⟨[⟨1, none, none, fun _ => Json.null⟩], List.nodup_singleton _⟩
  roles := .empty
  callbacks := .empty

def warm (k : RoleKind) : RoleConfigNestedWrite :=
  ⟨k, some "warm", "m", none, 7/10, 1, ⟨"{}"⟩, true⟩

/-- A referee and a persona may share a label, two referees may not. -/
theorem bulk_iff_oneByOne_warm :
    RejectsAt [warm .referee, warm .persona, warm .referee] 2 (roleLabelDuplicate "warm") := by
  have hagree := bulk_iff_oneByOne bareDatabase 1
    [(1, warm .referee), (2, warm .persona), (3, warm .referee)] rfl fun i h => by cases h
  exact (hagree.2 2 _).mpr rfl

end IsalesApi.Config
