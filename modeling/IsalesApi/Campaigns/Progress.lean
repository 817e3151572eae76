import IsalesApi.Foundation.Grouping
import IsalesApi.Leads.Overlap

/-!
# Progress of a campaign

`campaign_progress` counts the leads of a campaign by status and adds the counts
up. What it answers is what the list endpoint counts under the same filters, and
while files are being imported it moves by whole files.
-/

namespace IsalesApi.Campaigns

open Foundation Leads Listings

/-- `CampaignProgress`. -/
structure CampaignProgress where
  campaignId : Int
  total : Nat
  statusCounts : List (String × Nat)
  isActive : Bool

/-- `session.get(Campaign, campaign_id)`, of which only the presence is read. -/
def campaignIn (campaignId : Int) (t : LeadTable) : Option Int :=
  if campaignId ∈ t.campaigns then some campaignId else none

/-- `bool(await redis.sismember(…))`, or `False` without `app.state.redis`. -/
def isActive (redis : Option (Int → Except HttpException Bool)) (campaignId : Int) :
    Except HttpException Bool :=
  match redis with
  | none => .ok false
  | some sismember => sismember campaignId

/-- `campaign_progress`; `str` is that of the statuses. -/
def campaignProgress (str : LeadStatus → String) (scan : Scan (LeadStatus × Nat))
    (redis : Option (Int → Except HttpException Bool)) (campaignId : Int) :
    Prog LeadTable RowInsert HttpException CampaignProgress :=
  (getOr404 (campaignIn campaignId) "campaign_not_found").bind fun _ =>
  (Prog.select fun t =>
    groupCount scan Listings.Lead.status (t.leads.select fun r => r.campaignId = campaignId)).bind
      fun rows =>
  let counts := dictOf (rows.map fun p => (str p.1, p.2))
  match isActive redis campaignId with
  | .error e => .raise e
  | .ok active => .done ⟨campaignId, (counts.map Prod.snd).sum, counts, active⟩

/-- The leads of the campaign with a status. -/
def withStatus (t : LeadTable) (campaignId : Int) (status : LeadStatus) : Nat :=
  t.leads.rows.countP fun r => r.campaignId = campaignId && r.status = status

/-- The leads of the campaign. -/
def inCampaign (t : LeadTable) (campaignId : Int) : Nat :=
  t.leads.rows.countP fun r => r.campaignId = campaignId

/-- `status_counts.get(str(status), 0)`. -/
def CampaignProgress.count (answer : CampaignProgress) (str : LeadStatus → String)
    (status : LeadStatus) : Nat := (answer.statusCounts.lookup (str status)).getD 0

/-! ## One answer -/

section Answer

variable {str : LeadStatus → String} {scan : Scan (LeadStatus × Nat)}
  {redis : Option (Int → Except HttpException Bool)} {c : Int} {t t' : LeadTable}
  {answer : CampaignProgress}

/-- The answer counts the leads there are. -/
structure Counts (str : LeadStatus → String) (t : LeadTable) (answer : CampaignProgress) :
    Prop where
  total : answer.total = inCampaign t answer.campaignId
  sum : answer.total = (answer.statusCounts.map Prod.snd).sum
  count : ∀ status, answer.count str status = withStatus t answer.campaignId status
  positive : ∀ p ∈ answer.statusCounts, 0 < p.2 ∧ ∃ status, p.1 = str status
  keys : (answer.statusCounts.map Prod.fst).Nodup

/-- Statuses with distinct texts do not overwrite each other. -/
theorem counts_of_run (hstr : Function.Injective str)
    (h : (campaignProgress str scan redis c).run t = .ok (answer, t')) :
    t' = t ∧ answer.campaignId = c ∧ Counts str t answer := by
  obtain ⟨_, _, h⟩ := run_getOr404.mp h
  rw [Prog.run_select_bind] at h
  dsimp only at h
  split at h
  · cases h
  · cases h
    generalize hrows : groupCount scan Listings.Lead.status
      (t.leads.select fun r => r.campaignId = c) = rows
    -- distinct statuses have distinct texts, so the dict keeps every row of the answer
    have hkeys : ((rows.map fun p => (str p.1, p.2)).map Prod.fst).Nodup := by
      rw [List.map_map]
      show (rows.map (str ∘ Prod.fst)).Nodup
      rw [← List.map_map, ← hrows]
      exact groupCount_nodup.map hstr
    have hsum : ((rows.map fun p => (str p.1, p.2)).map Prod.snd).sum = inCampaign t c := by
      rw [List.map_map]
      show (rows.map Prod.snd).sum = _
      rw [← hrows, sum_groupCount, Table.select, inCampaign, List.countP_eq_length_filter]
    refine ⟨rfl, rfl, ?_⟩
    rw [dictOf_of_nodup hkeys]
    refine ⟨hsum, rfl, fun status => ?_, ?_, hkeys⟩
    · -- a row of the group of `status` is the only one under its text
      have hlookup : ∀ n, (rows.map fun p => (str p.1, p.2)).lookup (str status) = some n ↔
          rows.lookup status = some n := by
        intro n
        rw [lookup_eq_some hkeys, lookup_eq_some (hrows ▸ groupCount_nodup), List.mem_map]
        constructor
        · rintro ⟨⟨status', n'⟩, hmem, heq⟩
          obtain ⟨hstatus, rfl⟩ := Prod.mk.inj heq
          rwa [← hstr hstatus]
        · intro hmem
          exact ⟨(status, n), hmem, rfl⟩
      have hcount : (rows.map fun p => (str p.1, p.2)).lookup (str status) =
          rows.lookup status := Option.ext hlookup
      show ((rows.map fun p => (str p.1, p.2)).lookup (str status)).getD 0 = _
      rw [hcount, ← hrows, lookup_groupCount, Table.select, List.countP_filter]
      have hcond : (fun a : Listings.Lead => decide (a.status = status) &&
          decide (a.campaignId = c)) = fun r => r.campaignId = c && r.status = status := by
        funext a
        exact Bool.and_comm ..
      rw [hcond]
      show _ = withStatus t c status
      unfold withStatus
      split
      · rename_i hzero
        exact hzero.symm
      · rfl
    · rintro ⟨_, n⟩ hp
      obtain ⟨⟨status, _⟩, hmem, ⟨⟩⟩ := List.mem_map.mp hp
      rw [← hrows] at hmem
      exact ⟨(mem_groupCount.mp hmem).1, status, rfl⟩

/-- The total of a page that could be read. -/
theorem total_of_listLeads {D : Type} {order : Scan Listings.Lead}
    {modelValidate : Listings.Lead → Except HttpException D} {campaignId : Option Int}
    {status : Option LeadStatus} {page pageSize : Nat} {leads : Table Listings.Lead} {p : Page D}
    (h : listLeads order modelValidate campaignId status page pageSize leads = .ok p) :
    p.total = leads.rows.countP fun r =>
      (whereEq (fun r : Listings.Lead => r.campaignId) campaignId ++
        whereEq Listings.Lead.status status).all fun q => q r := by
  unfold listLeads Page.validate at h
  cases hitems : (listRows order (fun r => OrderDual.toDual r.id)
      (whereEq (fun r => r.campaignId) campaignId ++ whereEq Listings.Lead.status status)
      (whereEq (fun r => r.campaignId) campaignId ++ whereEq Listings.Lead.status status)
      page pageSize leads.rows).items.mapM modelValidate with
  | error e =>
    rw [hitems] at h
    cases h
  | ok items =>
    rw [hitems] at h
    cases h
    rfl

/-- **Progress and listing agree**: the total is that of the list of the
campaign's leads, and the count under a status is the total of that list with the
filter on the status. -/
theorem progress_agrees {D : Type} (hstr : Function.Injective str)
    (h : (campaignProgress str scan redis c).session t = (.ok answer, t'))
    (order : Scan Listings.Lead) (modelValidate : Listings.Lead → Except HttpException D)
    (page pageSize : Nat) :
    Counts str t answer ∧
      (∀ p, listLeads order modelValidate (some c) none page pageSize t.leads = .ok p →
        p.total = answer.total) ∧
      ∀ status p,
        listLeads order modelValidate (some c) (some status) page pageSize t.leads = .ok p →
          p.total = answer.count str status := by
  obtain ⟨_, rfl, hcounts⟩ := counts_of_run hstr (Prog.session_ok.mp h)
  refine ⟨hcounts, fun p hlist => ?_, fun status p hlist => ?_⟩
  · rw [total_of_listLeads hlist, hcounts.total, inCampaign]
    simp [whereEq]
  · rw [total_of_listLeads hlist, hcounts.count, withStatus]
    simp [whereEq]

theorem value_injective : Function.Injective LeadStatus.value := by
  rintro ⟨a⟩ ⟨b⟩ h
  exact congrArg LeadStatus.mk h

def leadOf (id : Int) (status : String) : Listings.Lead :=
  ⟨⟨1, "139".toList, none, none, .object []⟩, id, ⟨status⟩⟩

/-- Two new leads of campaign 1, and one that is being called. -/
def threeLeads : LeadTable where
  campaigns := [1]
  rowOk := fun _ => true
  leads := ⟨[leadOf 1 "new", leadOf 2 "calling", leadOf 3 "new"], by decide⟩

/-- What the progress of campaign 1 then is. -/
def threeLeadsProgress : CampaignProgress := ⟨1, 3, [("calling", 1), ("new", 2)], false⟩

/-- The rows as they are stored. -/
def inOrder {R : Type} : Scan R := ⟨id, fun _ => .refl _⟩

theorem campaignProgress_threeLeads :
    (campaignProgress LeadStatus.value inOrder none 1).session threeLeads =
      (.ok threeLeadsProgress, threeLeads) := rfl

theorem progress_agrees_threeLeads :
    Counts LeadStatus.value threeLeads threeLeadsProgress ∧
      (∀ p : Page Listings.Lead,
        listLeads inOrder .ok (some 1) none 1 50 threeLeads.leads = .ok p → p.total = 3) ∧
      ∀ status (p : Page Listings.Lead),
        listLeads inOrder .ok (some 1) (some status) 1 50 threeLeads.leads = .ok p →
          p.total = threeLeadsProgress.count LeadStatus.value status :=
  progress_agrees value_injective campaignProgress_threeLeads inOrder .ok 1 50

end Answer

/-! ## While files are imported -/

section Imports

variable {rt : Runtime} {ι : Type} {uploads : ι → Upload} {before t : LeadTable} {order : List ι}

/-- The rows of a file that are of the campaign. -/
def uploaded (rt : Runtime) (u : Upload) (campaignId : Int) : Nat :=
  (u.leads rt).countP fun lead => lead.campaignId = campaignId

theorem countP_rows (rt : Runtime) (u : Upload) (p : Leads.Lead → Bool) (q : LeadStatus → Bool) :
    (u.rows rt).countP (fun r => p r.toLead && q r.status) =
      if q u.drawn.status then (u.leads rt).countP p else 0 := by
  have hcount : ∀ (leads : List Leads.Lead) (n : Nat),
      ((leads.zipIdx n).map fun x => u.drawn.row x.2 x.1).countP
          (fun r => p r.toLead && q r.status) =
        if q u.drawn.status then leads.countP p else 0 := by
    intro leads
    induction leads with
    | nil => simp
    | cons lead leads ih =>
      intro n
      rw [List.zipIdx_cons, List.map_cons, List.countP_cons, ih (n + 1)]
      show _ + (if (p lead && q u.drawn.status) = true then 1 else 0) = _
      cases q u.drawn.status <;> simp [List.countP_cons]
  exact hcount _ 0

/-- Whole files count as a whole. -/
theorem inCampaign_of_rows
    (hrows : t.leads.rows = before.leads.rows ++ order.flatMap fun i => (uploads i).rows rt)
    (c : Int) :
    inCampaign t c = inCampaign before c + (order.map fun i => uploaded rt (uploads i) c).sum := by
  have hone : ∀ i, ((uploads i).rows rt).countP (fun r => decide (r.campaignId = c)) =
      uploaded rt (uploads i) c := by
    intro i
    have h := countP_rows rt (uploads i) (fun lead => lead.campaignId = c) fun _ => true
    simpa [uploaded] using h
  rw [inCampaign, hrows, List.countP_append, List.countP_flatMap]
  simp only [Function.comp_def, hone]
  rfl

theorem withStatus_of_rows
    (hrows : t.leads.rows = before.leads.rows ++ order.flatMap fun i => (uploads i).rows rt)
    (c : Int) (status : LeadStatus) :
    withStatus t c status = withStatus before c status +
      (order.map fun i =>
        if (uploads i).drawn.status = status then uploaded rt (uploads i) c else 0).sum := by
  have hone : ∀ i, ((uploads i).rows rt).countP
        (fun r => decide (r.campaignId = c) && decide (r.status = status)) =
      if (uploads i).drawn.status = status then uploaded rt (uploads i) c else 0 := by
    intro i
    have h := countP_rows rt (uploads i) (fun lead => lead.campaignId = c)
      fun s => s = status
    simpa [uploaded] using h
  rw [withStatus, hrows, List.countP_append, List.countP_flatMap]
  simp only [Function.comp_def, hone]
  rfl

/-- **Progress moves by whole files.** At any moment of any interleaving of
imports, what `campaign_progress` answers is what it would have answered before
them, and the files of the committed ones. -/
theorem progress_during_imports [DecidableEq ι] [Fintype ι] (rt : Runtime) (size : Nat)
    (uploads : ι → Upload) (before : LeadTable) {str : LeadStatus → String}
    (hstr : Function.Injective str) (as : List (ServerAction ι)) :
    Always Server.step (fun s => ∃ order, WholeFiles rt uploads before s order ∧
        ∀ scan redis c answer t',
          (campaignProgress str scan redis c).session s.committed = (.ok answer, t') →
          answer.total = inCampaign before c +
              (order.map fun i => uploaded rt (uploads i) c).sum ∧
            ∀ status, answer.count str status = withStatus before c status +
              (order.map fun i =>
                if (uploads i).drawn.status = status then uploaded rt (uploads i) c else 0).sum)
      (Server.start before fun i => (uploads i).transaction rt size) as := by
  refine always_of_exec (fun as s hrun => ?_) as
  obtain ⟨log, hlog, _⟩ := commitLog_of_exec hrun
  have hfiles := wholeFiles_of_log hlog
  refine ⟨_, hfiles, ?_⟩
  intro scan redis c answer t' h
  obtain ⟨_, rfl, hcounts⟩ := counts_of_run hstr (Prog.session_ok.mp h)
  refine ⟨?_, fun status => ?_⟩
  · rw [hcounts.total]
    exact inCampaign_of_rows hfiles.rows _
  · rw [hcounts.count]
    exact withStatus_of_rows hfiles.rows _ status

def importsStart : Server (Fin 2) LeadTable RowInsert HttpException LeadsImportResult :=
  Server.start threeLeads fun i => (twoUploads i).transaction cpython 2

/-- The first import is aborted while the second one goes on and commits. -/
def abortFirst {ι : Type} (first second : ι) : List (ServerAction ι) :=
  [.advance first, .advance second, .advance second, .abort first, .advance second,
    .advance second]

theorem progress_during_imports_twoUploads :
    commitOrder importsStart (abortFirst 0 1) = [1] ∧
      Always Server.step (fun s => ∃ order, WholeFiles cpython twoUploads threeLeads s order ∧
          ∀ scan redis c answer t',
            (campaignProgress LeadStatus.value scan redis c).session s.committed =
              (.ok answer, t') →
            answer.total = inCampaign threeLeads c +
                (order.map fun i => uploaded cpython (twoUploads i) c).sum ∧
              ∀ status, answer.count LeadStatus.value status = withStatus threeLeads c status +
                (order.map fun i => if (twoUploads i).drawn.status = status then
                  uploaded cpython (twoUploads i) c else 0).sum)
        importsStart (abortFirst 0 1) :=
  ⟨rfl, progress_during_imports cpython 2 twoUploads threeLeads value_injective _⟩

end Imports

end IsalesApi.Campaigns
