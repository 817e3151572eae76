import IsalesApi.Leads.Records

/-!
# Which leads an import batches

Custom data is annotated `dict[str, object]`, but whatever `json.loads` returns
is put into the lead. The loop is looked at pass by pass: a pass has a record
and the locals and the database it finds, whether or not the import returns in
the end.
-/

namespace IsalesApi.Leads

open Foundation Python

def WellFormed (lead : Lead) : Prop :=
  lead.phone ≠ [] ∧ strip lead.phone = lead.phone ∧ ∃ fields, lead.customData = .object fields

variable (rt : Runtime)

/-- The custom data is valid JSON and not an object. -/
def NonObjectJson (header row : Csv.Row) : Prop :=
  ∃ v, HasJson rt header row v ∧ ∀ fields, v ≠ .object fields

variable (size : Nat) (db : Database) (reader : Csv.DictReader)

/-- The loop reaches record `k`, with these locals and this database. -/
structure Pass (k : Nat) (row : Csv.Row) (s : Locals) (d : Database) : Prop where
  record : reader.records[k]? = some row
  reached : (importRows rt size reader.fieldnames 2 (reader.records.take k) .start).run db =
    .ok (s, d)

/-- The pass adds an error with the number of its record, and nothing else. -/
def ReportedIn (k : Nat) (row : Csv.Row) (s : Locals) (d : Database) : Prop :=
  ∃ msg, (importRow rt size reader.fieldnames (k + 2) row s).run d =
    .ok ({ s with errors := s.errors ++ [⟨k + 2, msg⟩] }, d)

/-- Every lead put into a batch is well formed, and a record whose custom data is
valid JSON but no object is reported. -/
def BatchesWellFormed : Prop :=
  ∀ k row s d, Pass rt size db reader k row s d →
    (∀ lead, convert rt reader.fieldnames row = .ok lead → WellFormed lead) ∧
      (NonObjectJson rt reader.fieldnames row → ReportedIn rt size reader k row s d)

/-- The record is let through, or fails the whole import, whatever its custom
data is: it has no campaign id, or an integer one and a phone. -/
def Unchecked (header row : Csv.Row) : Prop :=
  get header row "campaign_id" = none ∨
    (∃ c, HasCampaignId rt header row c) ∧ phoneText header row ≠ []

section Passes

variable {rt} {size : Nat} {header row : Csv.Row} {reader : Csv.DictReader}

theorem reportedIn_iff {k : Nat} {s : Locals} {d : Database} :
    ReportedIn rt size reader k row s d ↔
      ∃ e, convert rt reader.fieldnames row = .error e ∧ e.caught.isSome := by
  unfold ReportedIn importRow
  cases hconvert : convert rt reader.fieldnames row with
  | ok lead =>
    refine iff_of_false ?_ (by simp)
    rintro ⟨msg, h⟩
    -- an appended lead reports nothing
    have herrors : ∀ {m : Locals} {n : Database}, (append size lead s).run d = .ok (m, n) →
        m.errors = s.errors := by
      intro m n hrun
      simp only [append] at hrun
      split at hrun
      · rw [(run_flush.mp hrun).2.1]
      · cases hrun
        rfl
    have hlength := congrArg List.length (herrors h)
    simp at hlength
  | error e =>
    simp only [Except.error.injEq, exists_eq_left']
    cases hcaught : e.caught with
    | some msg => exact iff_of_true ⟨msg, by simp⟩ rfl
    | none =>
      refine iff_of_false ?_ (by simp)
      rintro ⟨msg, h⟩
      cases h

/-- A lead is well formed but for its custom data. -/
theorem wellFormed_leadOf {c : Int} {v : Json} (hphone : phoneText header row ≠ []) :
    WellFormed (leadOf header row c v) ↔ ∃ fields, v = .object fields := by
  have hstripped : strip (phoneText header row) = phoneText header row := strip_strip _
  exact ⟨fun h => h.2.2, fun h => ⟨hphone, hstripped, h⟩⟩

/-- The record converts to a lead that is not well formed exactly when its
custom data is JSON but no object and nothing else is wrong with it. -/
theorem exists_illFormed_iff (h : HasColumns header) :
    (∃ lead, convert rt header row = .ok lead ∧ ¬ WellFormed lead) ↔
      NonObjectJson rt header row ∧ (∃ c, HasCampaignId rt header row c) ∧
        phoneText header row ≠ [] := by
  constructor
  · rintro ⟨lead, hconvert, hill⟩
    obtain ⟨c, v, hc, hphone, hv, rfl⟩ := (convert_ok h).mp hconvert
    have hobject : ∀ fields, v ≠ .object fields := fun fields heq =>
      hill ((wellFormed_leadOf hphone).mpr ⟨fields, heq⟩)
    rcases hv with hv | ⟨_, hv⟩
    · exact ⟨⟨v, hv, hobject⟩, ⟨c, hc⟩, hphone⟩
    · exact absurd hv (hobject [])
  · rintro ⟨⟨v, hv, hobject⟩, ⟨c, hc⟩, hphone⟩
    refine ⟨leadOf header row c v, (convert_ok h).mpr ⟨c, v, hc, hphone, Or.inl hv, rfl⟩, ?_⟩
    intro hwell
    obtain ⟨fields, heq⟩ := (wellFormed_leadOf hphone).mp hwell
    exact hobject fields heq

/-- A record with valid JSON is reported exactly when it is checked before. -/
theorem reportable_iff_of_hasJson {v : Json} (hv : HasJson rt header row v) :
    Reportable rt header row ↔ ¬ Unchecked rt header row := by
  have hnotBad : ¬ ∃ e, BadJson rt header row e ∧ e ≠ .recursion := by
    rintro ⟨e, he, _⟩
    rw [BadJson, hv.2] at he
    cases he.2
  unfold Reportable Unchecked BadCampaignId
  simp only [hnotBad, or_false]
  cases hcell : get header row "campaign_id" with
  | none => simp [HasCampaignId, hcell]
  | some t =>
    cases hint : parseInt rt.isPrintable t with
    | error msg => simp [HasCampaignId, hcell, hint]
    | ok c => simp [HasCampaignId, hcell, hint]

end Passes

/-- **What is batched is well formed exactly when** no record the loop reaches
has JSON that is no object and is otherwise unchecked. -/
theorem batchesWellFormed_iff (rt : Runtime) (size : Nat) (db : Database) (text : Str)
    (reader : Csv.DictReader) (_ : Csv.dictReader text = .ok (some reader))
    (hcolumns : HasColumns reader.fieldnames) :
    BatchesWellFormed rt size db reader ↔
      ∀ k row s d, Pass rt size db reader k row s d → NonObjectJson rt reader.fieldnames row →
        ¬ Unchecked rt reader.fieldnames row := by
  constructor
  · intro h k row s d hpass hjson
    have hreported := (h k row s d hpass).2 hjson
    obtain ⟨v, hv, _⟩ := hjson
    have hreportable := (convert_caught hcolumns).mp (reportedIn_iff.mp hreported)
    exact (reportable_iff_of_hasJson hv).mp hreportable
  · intro h k row s d hpass
    constructor
    · intro lead hconvert
      by_contra hill
      obtain ⟨hjson, hc, hphone⟩ := (exists_illFormed_iff hcolumns).mp ⟨lead, hconvert, hill⟩
      exact h k row s d hpass hjson (Or.inr ⟨hc, hphone⟩)
    · rintro ⟨v, hv, hobject⟩
      have hchecked := h k row s d hpass ⟨v, hv, hobject⟩
      exact reportedIn_iff.mpr ((convert_caught hcolumns).mpr
        ((reportable_iff_of_hasJson hv).mpr hchecked))

/-- A record with a list for its custom data. -/
def listData : Csv.DictReader where
  fieldnames := ["campaign_id".toList, "phone".toList, "custom_data".toList]
  records := [["1".toList, "11".toList, "[1]".toList]]
  error := none

def listDataText : Str := "campaign_id,phone,custom_data\n1,11,[1]\n".toList

/-- It becomes a lead whose custom data is no object. -/
theorem list_is_batched : Csv.dictReader listDataText = .ok (some listData) ∧
    HasColumns listData.fieldnames ∧
    ¬ BatchesWellFormed cpython batchSize oneCampaign listData := by
  refine ⟨rfl, by decide, fun h => ?_⟩
  have hpass : Pass cpython batchSize oneCampaign listData 0
      ["1".toList, "11".toList, "[1]".toList] .start oneCampaign := ⟨rfl, rfl⟩
  obtain ⟨_, _, fields, hobject⟩ := (h _ _ _ _ hpass).1 _ rfl
  cases hobject

/-- Without it the record is imported. -/
def blankData : Csv.DictReader :=
  { listData with records := [["1".toList, "11".toList, " ".toList]] }

theorem batchesWellFormed_iff_blankData :
    BatchesWellFormed cpython batchSize oneCampaign blankData ↔
      ∀ k row s d, Pass cpython batchSize oneCampaign blankData k row s d →
        NonObjectJson cpython blankData.fieldnames row →
        ¬ Unchecked cpython blankData.fieldnames row :=
  batchesWellFormed_iff cpython batchSize oneCampaign
    "campaign_id,phone,custom_data\n1,11, \n".toList blankData rfl (by decide)

end IsalesApi.Leads
