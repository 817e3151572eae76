import IsalesApi.Analytics.Agreement
import IsalesApi.Calls.Handlers
import IsalesApi.Listings.Tiling

/-!
# Counting call by call

A client can read every call of a campaign off the pages of `/calls` and ask for
the summary of each. What it counts among those of a window is what the analytics
endpoints answer, although these never show a single call.
-/

namespace IsalesApi.Analytics

open Foundation Auth Calls Listings

/-- The summary a client is shown for the call says that the goal was
achieved. -/
def goalShown {S : Type} (readSummary : CallSummary → Except HttpException S)
    (achieved : S → Option Bool) (summaries : Table CallSummary) (r : CallRecord) : Bool :=
  match getCallSummary readSummary r.id summaries with
  | .ok read => achieved read = some true
  | .error _ => false

/-- The figures are the counts of some calls. -/
structure CountedIn (calls : List CallRecord) (goal : CallRecord → Bool) (a : AnswerRate)
    (g : GoalRate) (d : DurationDistribution) : Prop where
  total : a.total = calls.length
  answered : a.answered = calls.countP fun r => r.startedAt.isSome
  totalCalls : g.totalCalls = calls.length
  goalAchieved : g.goalAchieved = calls.countP goal
  durations : d.total = calls.countP fun r => r.duration.isSome
  buckets : d.buckets = durationBuckets.map fun b =>
    ⟨b.1, b.2.1, b.2.2, calls.countP fun r => r.duration.any (inBucket b.2.1 b.2.2)⟩

section Counting

variable {db : Database} {w : DateTime × DateTime} {campaignId : Option Int}

/-- What a call record adds to the goals is what its summary shows. -/
theorem sum_goalCase {S : Type} {readSummary : CallSummary → Except HttpException S}
    {achieved : S → Option Bool}
    (hunique : (db.summaries.rows.map CallSummary.callRecordId).Nodup)
    (hread : ∀ s ∈ db.summaries, ∃ read, readSummary s = .ok read)
    (hachieved : ∀ s read, readSummary s = .ok read → achieved read = s.goalAchieved)
    (r : CallRecord) : ((joined summaryOf db.summaries.rows r).map goalCase).sum =
      if goalShown readSummary achieved db.summaries r then 1 else 0 := by
  unfold joined
  cases hms : db.summaries.rows.filter (summaryOf r) with
  | nil =>
    have hselect : (db.summaries.select fun s => s.callRecordId = r.id) = [] := hms
    have hshown : getCallSummary readSummary r.id db.summaries =
        .error (notFound "summary_not_found") := by
      unfold getCallSummary
      rw [hselect]
      rfl
    simp [goalShown, hshown, goalCase]
  | cons s ms =>
    -- no call has a second summary
    have hids : ((s :: ms).map CallSummary.callRecordId).Nodup :=
      hms ▸ (List.filter_sublist.map _).nodup hunique
    have hcall : ∀ t ∈ s :: ms, t ∈ db.summaries ∧ t.callRecordId = r.id := by
      intro t ht
      rw [← hms, List.mem_filter, summaryOf, decide_eq_true_eq] at ht
      exact ht
    have hone : ms = [] := by
      refine List.eq_nil_iff_forall_not_mem.mpr fun t ht => ?_
      have hsame : t.callRecordId = s.callRecordId :=
        (hcall t (List.mem_cons_of_mem s ht)).2.trans (hcall s List.mem_cons_self).2.symm
      rw [List.map_cons, List.nodup_cons, ← hsame] at hids
      exact hids.1 (List.mem_map_of_mem ht)
    subst hone
    have hselect : (db.summaries.select fun s => s.callRecordId = r.id) = [s] := hms
    obtain ⟨read, hok⟩ := hread s (hcall s List.mem_cons_self).1
    have hshown : getCallSummary readSummary r.id db.summaries = .ok read :=
      (getCallSummary_eq hselect).trans hok
    simp [goalShown, hshown, hachieved s read hok, goalCase]

/-- The figures count the call records they select. -/
theorem countedIn_selected (float : ℚ → ℚ) (campaignId : Option Int)
    {goal : CallRecord → Bool}
    (hunique : (db.summaries.rows.map CallSummary.callRecordId).Nodup)
    (hgoal : ∀ r, ((joined summaryOf db.summaries.rows r).map goalCase).sum =
      if goal r then 1 else 0)
    {since till : Option DateTime} {now : DateTime} (hw : window since till now = .ok w) :
    ∃ a g d, answerRate float db since till campaignId now = .ok a ∧
      goalRate float db since till campaignId now = .ok g ∧
      durationDistribution db since till campaignId now = .ok d ∧
      CountedIn (db.calls.rows.filter (selected w campaignId)) goal a g d := by
  have hcount : ∀ q : CallRecord → Bool,
      tally (selected w campaignId) (fun r => if q r then 1 else 0) db.calls.rows =
        ((db.calls.rows.filter (selected w campaignId)).countP q : Int) := by
    intro q
    rw [tally_indicator, List.countP_filter]
    simp only [Bool.and_comm]
  have hgoals : (((leftJoin summaryOf db.summaries.rows db.calls.rows).filter fun x =>
      selected w campaignId x.1).map goalCase).sum =
      tally (selected w campaignId)
        (fun r => ((joined summaryOf db.summaries.rows r).map goalCase).sum) db.calls.rows :=
    sum_leftJoin _
  simp only [hgoal, hcount] at hgoals
  simp only [answerRate, goalRate, durationDistribution, hw, Except.map, sqlSum_getD]
  refine ⟨_, _, _, rfl, rfl, rfl, ?_⟩
  exact
    { total := rfl
      answered := hcount fun r => r.startedAt.isSome
      totalCalls := length_goalRows_eq hunique w campaignId
      goalAchieved := hgoals
      durations := length_durationsOf_eq db w campaignId
      buckets := by
        simp only [distribution, countP_durationsOf, hcount] }

theorem CountedIn.of_perm {calls calls' : List CallRecord} {goal : CallRecord → Bool}
    {a : AnswerRate} {g : GoalRate} {d : DurationDistribution} (h : CountedIn calls goal a g d)
    (hperm : calls.Perm calls') : CountedIn calls' goal a g d := by
  obtain ⟨htotal, hanswered, htotalCalls, hgoal, hdurations, hbuckets⟩ := h
  simp only [hperm.length_eq, hperm.countP_eq] at *
  exact ⟨htotal, hanswered, htotalCalls, hgoal, hdurations, hbuckets⟩

end Counting

/-! ## The pages of the calls -/

/-- The items of the pages, as many as the total of the first one says. -/
def crawled {D : Type} (pages : Nat → Page D) (size : Nat) : List D :=
  (List.range (pageCount (pages 0).total size)).flatMap fun k => (pages k).items

section Pages

variable {D : Type} {readCall : CallRecord → Except HttpException D} {record : D → CallRecord}
  {calls : Table CallRecord} {campaignId : Option Int} {size : Nat} {scans : Nat → Scan CallRecord}
  {pages : Nat → Page D}

theorem listCalls_tiled (hsize : 0 < size) (readCall : CallRecord → Except HttpException D)
    (campaignId : Option Int) (calls : Table CallRecord) :
    Tiled calls (fun r => inCampaign campaignId r = true) (fun a b => b.id < a.id) size
      (fun r => ∃ d, readCall r = .ok d) (fun r d => readCall r = .ok d) fun scan page =>
        listCalls scan readCall campaignId none none page size calls := by
  refine tiled_validate hsize (fun r : CallRecord => OrderDual.toDual r.id)
    (fun _ ha _ hb h => Table.eq_of_key_eq ha hb h) (fun r => ?_) (fun _ _ h => h) readCall
  cases campaignId <;> simp [whereEq, inCampaign]

/-- What the client has read are the calls of the campaign, one by one. -/
theorem forall₂_crawled (hsize : 0 < size)
    (hpages : ∀ k, k = 0 ∨ k < pageCount (pages 0).total size →
      listCalls (scans (k + 1)) readCall campaignId none none (k + 1) size calls = .ok (pages k)) :
    ∃ rows : List CallRecord, rows.Perm (calls.rows.filter (inCampaign campaignId)) ∧
      List.Forall₂ (fun r d => readCall r = .ok d) rows (crawled pages size) := by
  obtain ⟨rows, hsorted, hmem, htiles⟩ := listCalls_tiled hsize readCall campaignId calls
  have htile := htiles scans
  have htotal : (pages 0).total = rows.length := htile.total 0 _ (hpages 0 (Or.inl rfl))
  refine ⟨rows, ?_, ?_⟩
  · have hrows : rows.Nodup := hsorted.imp fun {a b} h => by
      rintro rfl
      exact lt_irrefl _ h
    have hcalls : (calls.rows.filter (inCampaign campaignId)).Nodup :=
      (List.Nodup.of_map key calls.unique).sublist List.filter_sublist
    refine (List.perm_ext_iff_of_nodup hrows hcalls).mpr fun r => ?_
    rw [hmem, List.mem_filter]
    rfl
  · unfold crawled
    rw [htotal] at hpages ⊢
    exact htile.items pages fun k hk => hpages k (Or.inr hk)

/-- What is shown tells which record was read. -/
theorem map_record {rows : List CallRecord} {reads : List D}
    (hrecord : ∀ r read, readCall r = .ok read → record read = r)
    (h : List.Forall₂ (fun r d => readCall r = .ok d) rows reads) :
    reads.map record = rows ∧ ∀ read ∈ reads, readCall (record read) = .ok read := by
  induction h with
  | nil => exact ⟨rfl, fun _ hmem => absurd hmem List.not_mem_nil⟩
  | @cons r read rows reads hread _ ih =>
    have hr := hrecord r read hread
    refine ⟨by rw [List.map_cons, hr, ih.1], fun read' hmem => ?_⟩
    rcases List.mem_cons.mp hmem with rfl | hmem
    · rw [hr]
      exact hread
    · exact ih.2 read' hmem

end Pages

/-- **The figures can be counted call by call.** A client goes through the pages
of `/calls`, keeps the calls of a window, and asks for the summary of each; what
it counts is what the analytics endpoints answer, and each call it was shown is
the one that is answered under its id. -/
theorem analytics_call_by_call {D S : Type} (float : ℚ → ℚ)
    {readCall : CallRecord → Except HttpException D}
    {readSummary : CallSummary → Except HttpException S} {record : D → CallRecord}
    {achieved : S → Option Bool}
    (hrecord : ∀ r read, readCall r = .ok read → record read = r)
    (hachieved : ∀ s read, readSummary s = .ok read → achieved read = s.goalAchieved)
    (db : Database) (hunique : (db.summaries.rows.map CallSummary.callRecordId).Nodup)
    (hread : ∀ s ∈ db.summaries, ∃ read, readSummary s = .ok read)
    (campaignId : Option Int) {size : Nat} (hsize : 0 < size) (scans : Nat → Scan CallRecord)
    {pages : Nat → Page D}
    (hpages : ∀ k, k = 0 ∨ k < pageCount (pages 0).total size →
      listCalls (scans (k + 1)) readCall campaignId none none (k + 1) size db.calls =
        .ok (pages k))
    {since till : Option DateTime} {now : DateTime} {w : DateTime × DateTime}
    (hw : window since till now = .ok w) :
    (∃ a g d, answerRate float db since till campaignId now = .ok a ∧
      goalRate float db since till campaignId now = .ok g ∧
      durationDistribution db since till campaignId now = .ok d ∧
      CountedIn (((crawled pages size).map record).filter (inWindow w))
        (goalShown readSummary achieved db.summaries) a g d) ∧
    ∀ read ∈ crawled pages size, getCall readCall (record read).id db.calls = .ok read := by
  obtain ⟨rows, hperm, hreads⟩ := forall₂_crawled hsize hpages
  obtain ⟨hrows, hshown⟩ := map_record hrecord hreads
  constructor
  · obtain ⟨a, g, d, ha, hg, hd, hcounted⟩ := countedIn_selected float campaignId
      hunique (sum_goalCase hunique hread hachieved) hw
    have hselected : db.calls.rows.filter (selected w campaignId) =
        (db.calls.rows.filter (inCampaign campaignId)).filter (inWindow w) := by
      rw [List.filter_filter]
      rfl
    refine ⟨a, g, d, ha, hg, hd, hcounted.of_perm ?_⟩
    rw [hrows, hselected]
    exact (hperm.filter _).symm
  · intro read hmem
    have hrecorded : record read ∈ rows := hrows ▸ List.mem_map_of_mem hmem
    have hstored : record read ∈ db.calls :=
      (List.mem_filter.mp (hperm.mem_iff.mp hrecorded)).1
    have hget : db.calls.get? (record read).id = some (record read) :=
      Table.get?_eq_some.mpr ⟨hstored, rfl⟩
    unfold getCall
    rw [hget]
    exact hshown read hmem

/-- The two calls, one on a page. -/
def twoPages (k : Nat) : Page CallRecord :=
  if k = 0 then ⟨[⟨2, 7, 2, ⟨"init"⟩, none, none, epoch⟩], 2, 1, 1⟩
  else ⟨[⟨1, 7, 1, ⟨"end"⟩, some epoch, some 42, epoch⟩], 2, 2, 1⟩

theorem analytics_call_by_call_twoCalls :
    (∃ a g d, answerRate id twoCalls (some epoch) (some hour) none hour = .ok a ∧
      goalRate id twoCalls (some epoch) (some hour) none hour = .ok g ∧
      durationDistribution twoCalls (some epoch) (some hour) none hour = .ok d ∧
      CountedIn (((crawled twoPages 1).map id).filter (inWindow (epoch, hour)))
        (goalShown Except.ok CallSummary.goalAchieved twoCalls.summaries) a g d) ∧
    ∀ read ∈ crawled twoPages 1, getCall Except.ok (id read).id twoCalls.calls = .ok read := by
  refine analytics_call_by_call id (fun r read h => ?_) (fun s read h => ?_) twoCalls (by decide)
    (fun s _ => ⟨s, rfl⟩) none Nat.one_pos (fun _ => ⟨id, fun _ => List.Perm.rfl⟩)
    (fun k hk => ?_) rfl
  · exact (Except.ok.inj h).symm
  · exact congrArg CallSummary.goalAchieved (Except.ok.inj h).symm
  · have hpage : k = 0 ∨ k = 1 := by
      have hcount : pageCount (twoPages 0).total 1 = 2 := rfl
      omega
    rcases hpage with rfl | rfl <;> rfl

end IsalesApi.Analytics
