import IsalesApi.Leads.RowByRow

/-!
# What a record needs

Whether a record is imported or reported, said of its cells: what `int()` makes
of its campaign id, whether its phone is blank, and what `json.loads` makes of
its custom data. A record without a campaign id is neither.
-/

namespace IsalesApi.Leads

open Foundation Python

variable (rt : Runtime)

section Cells

variable (header row : Csv.Row)

/-- The stripped phone. -/
def phoneText : Str := strip ((get header row "phone").getD [])

/-- `row.get("custom_data") or ""`. -/
def customText : Str := (get header row "custom_data").getD []

/-- The campaign id is an integer. -/
def HasCampaignId (c : Int) : Prop :=
  ∃ t, get header row "campaign_id" = some t ∧ parseInt rt.isPrintable t = .ok c

/-- There is a campaign id, and it is not an integer. -/
def BadCampaignId : Prop :=
  ∃ t msg, get header row "campaign_id" = some t ∧ parseInt rt.isPrintable t = .error msg

/-- The custom data is not blank, and `json.loads` returns this value. -/
def HasJson (v : Json) : Prop :=
  strip (customText header row) ≠ [] ∧ Json.loads rt.depth (customText header row) = .ok v

/-- The custom data is not blank, and `json.loads` raises. -/
def BadJson (e : Json.Error) : Prop :=
  strip (customText header row) ≠ [] ∧ Json.loads rt.depth (customText header row) = .error e

/-- The campaign id is there, and it is not an integer, the phone is blank, or
`json.loads` raises something else than a `RecursionError`. -/
def Reportable : Prop :=
  BadCampaignId rt header row ∨ (∃ c, HasCampaignId rt header row c) ∧
    (phoneText header row = [] ∨ ∃ e, BadJson rt header row e ∧ e ≠ .recursion)

/-- The lead of a campaign id and custom data. -/
def leadOf (c : Int) (v : Json) : Lead where
  campaignId := c
  phone := phoneText header row
  name := orNone (get header row "name")
  source := orNone (get header row "source")
  customData := v

/-- The record is complete and the database accepts its lead. -/
def Importable (db : Database) : Prop :=
  ∃ c v, HasCampaignId rt header row c ∧ phoneText header row ≠ [] ∧
    (HasJson rt header row v ∨ (strip (customText header row) = [] ∧ v = .object [])) ∧
    db.accepts (leadOf header row c v)

end Cells

section Outcome

variable {rt} {header row : Csv.Row} {db : Database}

theorem item_eq_get {key : String} (h : key.toList ∈ header) :
    item header row key = .ok (get header row key) := by
  unfold item get
  cases hcell : Csv.cell header row key.toList with
  | none => exact absurd h (Csv.cell_eq_none.mp hcell)
  | some v => rfl

theorem toPhone_eq : toPhone (get header row "phone") =
    if phoneText header row = [] then .error (.valueError "phone is empty")
    else .ok (phoneText header row) := rfl

/-- With the required columns there is no `KeyError`. -/
theorem convert_eq (h : HasColumns header) :
    convert rt header row = do
      let c ← toInt rt (get header row "campaign_id")
      let _ ← toPhone (get header row "phone")
      let v ← toCustomDict rt (get header row "custom_data")
      return leadOf header row c v := by
  unfold convert
  rw [item_eq_get h.1, item_eq_get h.2]
  simp only [bind, Except.bind]
  cases toInt rt (get header row "campaign_id") with
  | error e => rfl
  | ok c =>
    simp only
    rw [toPhone_eq]
    by_cases hblank : phoneText header row = []
    · simp only [if_pos hblank]
    · simp only [if_neg hblank]
      rfl

theorem toInt_ok {c : Int} :
    toInt rt (get header row "campaign_id") = .ok c ↔ HasCampaignId rt header row c := by
  unfold toInt HasCampaignId
  cases get header row "campaign_id" with
  | none => simp
  | some t => cases hint : parseInt rt.isPrintable t <;> simp [hint, Except.mapError]

theorem toCustomDict_ok {v : Json} :
    toCustomDict rt (get header row "custom_data") = .ok v ↔
      HasJson rt header row v ∨ (strip (customText header row) = [] ∧ v = .object []) := by
  unfold toCustomDict HasJson
  show (if strip (customText header row) = [] then _ else _) = _ ↔ _
  by_cases hblank : strip (customText header row) = []
  · simp [hblank, eq_comm]
  · rw [if_neg hblank]
    show (Json.loads rt.depth (customText header row)).mapError _ = _ ↔ _
    cases Json.loads rt.depth (customText header row) <;> simp [Except.mapError, hblank]

theorem toPhone_ok {p : Str} :
    toPhone (get header row "phone") = .ok p ↔
      phoneText header row ≠ [] ∧ p = phoneText header row := by
  rw [toPhone_eq]
  by_cases hblank : phoneText header row = []
  · simp [hblank]
  · rw [if_neg hblank]
    simp only [Except.ok.injEq, ne_eq, hblank, not_false_eq_true, true_and]
    exact eq_comm

/-- The records that convert, and their leads. -/
theorem convert_ok (h : HasColumns header) {lead : Lead} :
    convert rt header row = .ok lead ↔ ∃ c v, HasCampaignId rt header row c ∧
      phoneText header row ≠ [] ∧
      (HasJson rt header row v ∨ (strip (customText header row) = [] ∧ v = .object [])) ∧
      lead = leadOf header row c v := by
  rw [convert_eq h]
  simp only [← toInt_ok, ← toCustomDict_ok]
  cases toInt rt (get header row "campaign_id") with
  | error e => simp [bind, Except.bind]
  | ok c =>
    cases hphone : toPhone (get header row "phone") with
    | error e =>
      have hblank : phoneText header row = [] := by
        by_contra hne
        rw [toPhone_ok.mpr ⟨hne, rfl⟩] at hphone
        cases hphone
      simp [bind, Except.bind, hblank]
    | ok p =>
      have hne := (toPhone_ok.mp hphone).1
      cases toCustomDict rt (get header row "custom_data") <;>
        simp [bind, Except.bind, pure, Except.pure, hne, eq_comm]

theorem jsonRaised_caught (custom : Str) {e : Json.Error} (h : e ≠ .outOfSteps) :
    (jsonRaised custom e).caught.isSome ↔ e ≠ .recursion := by
  cases e with
  | decode msg rest => simp [jsonRaised, Raised.caught]
  | valueError msg => simp [jsonRaised, Raised.caught]
  | recursion => simp [jsonRaised, Raised.caught]
  | outOfSteps => exact absurd rfl h

/-- The step raises something the loop catches. -/
def Caught {α : Type} (x : Except Raised α) : Prop := ∃ e, x = .error e ∧ e.caught.isSome

theorem caught_bind {α β : Type} {x : Except Raised α} {f : α → Except Raised β} :
    Caught (x >>= f) ↔ Caught x ∨ ∃ a, x = .ok a ∧ Caught (f a) := by
  unfold Caught
  cases x with
  | error e => simp [bind, Except.bind]
  | ok a => simp [bind, Except.bind]

theorem not_caught_ok {α : Type} {a : α} : ¬ Caught (.ok a) := by
  rintro ⟨e, he, _⟩
  cases he

/-- `int(None)` is not caught. -/
theorem caught_toInt :
    Caught (toInt rt (get header row "campaign_id")) ↔ BadCampaignId rt header row := by
  unfold Caught toInt BadCampaignId
  cases get header row "campaign_id" with
  | none => simp [Raised.caught]
  | some t => cases hint : parseInt rt.isPrintable t <;> simp [hint, Except.mapError, Raised.caught]

theorem caught_toPhone : Caught (toPhone (get header row "phone")) ↔ phoneText header row = [] := by
  rw [toPhone_eq]
  by_cases hblank : phoneText header row = []
  · rw [if_pos hblank]
    exact iff_of_true ⟨_, rfl, rfl⟩ hblank
  · rw [if_neg hblank]
    exact iff_of_false not_caught_ok hblank

/-- A `RecursionError` is not caught. -/
theorem caught_toCustomDict :
    Caught (toCustomDict rt (get header row "custom_data")) ↔
      ∃ e, BadJson rt header row e ∧ e ≠ .recursion := by
  unfold Caught toCustomDict BadJson
  show (∃ e, (if strip (customText header row) = [] then _ else _) = _ ∧ _) ↔ _
  by_cases hblank : strip (customText header row) = []
  · simp [hblank]
  · rw [if_neg hblank]
    show (∃ e, (Json.loads rt.depth (customText header row)).mapError _ = _ ∧ _) ↔ _
    cases hloads : Json.loads rt.depth (customText header row) with
    | ok v => simp [Except.mapError]
    | error e =>
      have hsteps : e ≠ .outOfSteps := by
        rintro rfl
        exact Json.loads_ne_outOfSteps _ _ hloads
      have hcaught : (jsonRaised ((get header row "custom_data").getD []) e).caught.isSome ↔
          e ≠ .recursion := jsonRaised_caught _ hsteps
      simp [Except.mapError, hblank, hcaught]

/-- The records that are reported. -/
theorem convert_caught (h : HasColumns header) :
    (∃ e, convert rt header row = .error e ∧ e.caught.isSome) ↔ Reportable rt header row := by
  have hdata : ∀ c, Caught (toCustomDict rt (get header row "custom_data") >>= fun v =>
      pure (leadOf header row c v)) ↔ ∃ e, BadJson rt header row e ∧ e ≠ .recursion := by
    intro c
    rw [caught_bind, caught_toCustomDict]
    exact or_iff_left fun ⟨_, _, hcaught⟩ => not_caught_ok hcaught
  have hphone : ∀ c, Caught (toPhone (get header row "phone") >>= fun _ =>
      toCustomDict rt (get header row "custom_data") >>= fun v =>
        pure (leadOf header row c v)) ↔
      phoneText header row = [] ∨ ∃ e, BadJson rt header row e ∧ e ≠ .recursion := by
    intro c
    rw [caught_bind, caught_toPhone]
    simp only [hdata, toPhone_ok]
    by_cases hblank : phoneText header row = []
    · simp [hblank]
    · simp [hblank]
  show Caught (convert rt header row) ↔ _
  rw [convert_eq h, caught_bind, caught_toInt]
  simp only [toInt_ok, hphone, exists_and_right]
  exact Iff.rfl

/-- The records the loop handles. -/
theorem handled_iff (h : HasColumns header) :
    Handled rt db header row ↔ Reportable rt header row ∨ Importable rt header row db := by
  rw [← convert_caught h]
  unfold Importable Handled
  cases hconvert : convert rt header row with
  | ok lead =>
    obtain ⟨c, v, hc, hphone, hv, rfl⟩ := (convert_ok h).mp hconvert
    simp only [reduceCtorEq, false_and, exists_false, false_or]
    constructor
    · intro haccepts
      exact ⟨c, v, hc, hphone, hv, haccepts⟩
    · rintro ⟨c', v', hc', hphone', hv', haccepts⟩
      have hlead := hconvert.symm.trans ((convert_ok h).mpr ⟨c', v', hc', hphone', hv', rfl⟩)
      rw [Except.ok.inj hlead]
      exact haccepts
  | error e =>
    simp only [Except.error.injEq, exists_eq_left', iff_self_or]
    rintro ⟨c, v, hc, hphone, hv, _⟩
    rw [(convert_ok h).mpr ⟨c, v, hc, hphone, hv, rfl⟩] at hconvert
    cases hconvert

end Outcome

end IsalesApi.Leads
