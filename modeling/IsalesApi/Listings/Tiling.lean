import IsalesApi.Listings.Handlers

/-!
# The pages of the lists by id

Campaigns, leads, calls, role rows and prompt versions are listed by id. The
statement for the rows and the one for their number have the same conditions, and
the ids tell the rows apart, so the pages are cut out of one list.
-/

namespace IsalesApi.Listings

open Foundation Config Prompt Calls

/-! ## Reading rows -/

section MapM

variable {α β ε : Type} {f : α → Except ε β} {l : List α}

theorem mapM_eq_ok {bs : List β} :
    l.mapM f = .ok bs ↔ List.Forall₂ (fun a b => f a = .ok b) l bs := by
  induction l generalizing bs with
  | nil =>
    rw [List.mapM_nil, List.forall₂_nil_left_iff]
    exact ⟨fun h => by cases h; rfl, fun h => by rw [h]; rfl⟩
  | cons a l ih =>
    rw [List.mapM_cons, List.forall₂_cons_left_iff]
    cases ha : f a with
    | error e => exact iff_of_false nofun fun ⟨b, _, hb, _⟩ => nomatch hb
    | ok b =>
      cases hl : l.mapM f with
      | error e =>
        refine iff_of_false nofun ?_
        rintro ⟨_, bs, _, hbs, _⟩
        rw [hl] at ih
        cases ih.mpr hbs
      | ok bs' =>
        constructor
        · rintro ⟨⟩
          exact ⟨b, bs', rfl, ih.mp hl, rfl⟩
        · rintro ⟨_, bs, ⟨⟩, hbs, rfl⟩
          cases hl.symm.trans (ih.mpr hbs)
          rfl

theorem exists_mapM_ok (h : ∀ a ∈ l, ∃ b, f a = .ok b) : ∃ bs, l.mapM f = .ok bs := by
  simp only [mapM_eq_ok]
  induction l with
  | nil => exact ⟨[], .nil⟩
  | cons a l ih =>
    obtain ⟨b, hb⟩ := h a List.mem_cons_self
    obtain ⟨bs, hbs⟩ := ih fun x hx => h x (List.mem_cons_of_mem a hx)
    exact ⟨b :: bs, .cons hb hbs⟩

end MapM

/-! ## Tiles -/

section Tiles

variable {R D : Type}

/-- The answered pages tile the rows. Page `k + 1` is answered with `pages k`. -/
structure Tiles (rows : List R) (size : Nat) (readable : R → Prop) (reads : R → D → Prop)
    (respond : Nat → Except HttpException (Page D)) : Prop where
  answered : ∀ k, (∀ r ∈ pageOf (k + 1) size rows, readable r) → ∃ p, respond (k + 1) = .ok p
  total : ∀ k p, respond (k + 1) = .ok p → p.total = rows.length
  items : ∀ pages : Nat → Page D,
    (∀ k, k < pageCount rows.length size → respond (k + 1) = .ok (pages k)) →
    List.Forall₂ reads rows
      ((List.range (pageCount rows.length size)).flatMap fun k => (pages k).items)
  full : ∀ k p, k + 1 < pageCount rows.length size → respond (k + 1) = .ok p →
    p.items.length = size
  later : ∀ page, pageCount rows.length size < page →
    ∃ p, respond page = .ok p ∧ p.items = []

variable {rows : List R} {size : Nat} {readable : R → Prop} {reads : R → D → Prop}
  {respond : Nat → Except HttpException (Page D)}

/-- A page is answered with its rows, read one by one. -/
structure ReadsPage (rows : List R) (size : Nat) (readable : R → Prop) (reads : R → D → Prop)
    (respond : Nat → Except HttpException (Page D)) (page : Nat)
    (read : R → Except HttpException D) : Prop where
  accepts : ∀ r, readable r → ∃ d, read r = .ok d
  sound : ∀ r d, read r = .ok d → reads r d
  eq : respond page = ((pageOf page size rows).mapM read).map fun items =>
    ⟨items, rows.length, page, size⟩

theorem ReadsPage.eq_ok {page : Nat} {read : R → Except HttpException D}
    (h : ReadsPage rows size readable reads respond page read) {p : Page D} :
    respond page = .ok p ↔
      ∃ items, List.Forall₂ (fun r d => read r = .ok d) (pageOf page size rows) items ∧
        p = ⟨items, rows.length, page, size⟩ := by
  rw [h.eq]
  simp only [← mapM_eq_ok]
  cases (pageOf page size rows).mapM read with
  | error e => exact iff_of_false nofun fun ⟨_, hitems, _⟩ => nomatch hitems
  | ok items =>
    constructor
    · rintro ⟨⟩
      exact ⟨items, rfl, rfl⟩
    · rintro ⟨_, ⟨⟩, rfl⟩
      rfl

theorem forall₂_flatMap {κ : Type} {ks : List κ} {f : κ → List R} {g : κ → List D}
    (h : ∀ k ∈ ks, List.Forall₂ reads (f k) (g k)) :
    List.Forall₂ reads (ks.flatMap f) (ks.flatMap g) := by
  induction ks with
  | nil => exact .nil
  | cons k ks ih =>
    rw [List.flatMap_cons, List.flatMap_cons]
    exact List.rel_append (h k List.mem_cons_self)
      (ih fun x hx => h x (List.mem_cons_of_mem k hx))

theorem Tiles.of_readsPage (hsize : 0 < size)
    (h : ∀ page, ∃ read, ReadsPage rows size readable reads respond page read) :
    Tiles rows size readable reads respond := by
  choose read hread using h
  refine
    { answered := fun k hpage => ?_
      total := fun k p hp => ?_
      items := fun pages hpages => ?_
      full := fun k p hk hp => ?_
      later := fun page hpage => ?_ }
  · obtain ⟨items, hitems⟩ := exists_mapM_ok fun r hr => (hread (k + 1)).accepts r (hpage r hr)
    exact ⟨_, (hread (k + 1)).eq_ok.mpr ⟨items, mapM_eq_ok.mp hitems, rfl⟩⟩
  · obtain ⟨items, _, rfl⟩ := (hread (k + 1)).eq_ok.mp hp
    rfl
  · have hpage : ∀ k ∈ List.range (pageCount rows.length size),
        List.Forall₂ reads (pageOf (k + 1) size rows) (pages k).items := by
      intro k hk
      obtain ⟨items, hitems, heq⟩ := (hread (k + 1)).eq_ok.mp (hpages k (List.mem_range.mp hk))
      rw [heq]
      exact hitems.imp fun _ _ => (hread (k + 1)).sound _ _
    have hall := forall₂_flatMap hpage
    rw [flatMap_pageOf_all hsize] at hall
    exact hall
  · obtain ⟨items, hitems, rfl⟩ := (hread (k + 1)).eq_ok.mp hp
    rw [← length_pageOf_of_lt hsize hk]
    exact hitems.length_eq.symm
  · refine ⟨⟨[], rows.length, page, size⟩, (hread page).eq_ok.mpr ⟨[], ?_, rfl⟩, rfl⟩
    rw [pageOf_of_gt hsize hpage]
    exact .nil

/-- The rows that are wanted have one strict order, and the pages tile them in
it, however the database scans for each page. -/
def Tiled {K S : Type} [Keyed R K] (T : Table R) (wanted : R → Prop) (before : R → R → Prop)
    (size : Nat) (readable : R → Prop) (reads : R → D → Prop)
    (respond : S → Nat → Except HttpException (Page D)) : Prop :=
  ∃ rows : List R, rows.Pairwise before ∧ (∀ r, r ∈ rows ↔ r ∈ T ∧ wanted r) ∧
    ∀ scans : Nat → S, Tiles rows size readable reads fun page => respond (scans page) page

end Tiles

/-! ## The statements -/

section Statements

variable {R α β K : Type} [Keyed R K] [LinearOrder α]

theorem all_whereEq [DecidableEq β] {column : R → β} {v : Option β} {r : R} :
    ((whereEq column v).all fun p => p r) = true ↔ ∀ x, v = some x → column r = x := by
  cases v <;> simp [whereEq]

/-- The answer of two statements with the same conditions. -/
theorem listRows_eq {T : Table R} (key : R → α) (wheres : List (R → Bool))
    (hkey : ∀ a ∈ T, ∀ b ∈ T, key a = key b → a = b) :
    ∃ rows : List R, rows.Pairwise (fun a b => key a < key b) ∧
      (∀ r, r ∈ rows ↔ r ∈ T ∧ (wheres.all fun p => p r) = true) ∧
      ∀ scan page size, listRows scan key wheres wheres page size T.rows =
        ⟨pageOf page size rows, rows.length, page, size⟩ := by
  refine ⟨T.orderBy (fun r => wheres.all fun p => p r) key, Table.orderBy_pairwise_lt hkey,
    fun r => Table.mem_orderBy, fun scan page size => ?_⟩
  have hperm := Table.orderBy_perm T (fun r => wheres.all fun p => p r) key
  have hrows : scan.orderBy key (T.rows.filter fun r => wheres.all fun p => p r) =
      T.orderBy (fun r => wheres.all fun p => p r) key := by
    refine Scan.orderBy_eq scan (fun a ha b hb => ?_) hperm (Table.orderBy_pairwise T _ key)
    exact hkey a (List.mem_filter.mp ha).1 b (List.mem_filter.mp hb).1
  rw [listRows, hrows, hperm.length_eq, Table.select, List.countP_eq_length_filter]

/-- A list whose rows `model_validate` reads. -/
theorem tiled_validate {D : Type} {T : Table R} {wheres : List (R → Bool)} {wanted : R → Prop}
    {before : R → R → Prop} {size : Nat} (hsize : 0 < size) (key : R → α)
    (hkey : ∀ a ∈ T, ∀ b ∈ T, key a = key b → a = b)
    (hwanted : ∀ r, (wheres.all fun p => p r) = true ↔ wanted r)
    (hbefore : ∀ a b, key a < key b → before a b) (modelValidate : R → Except HttpException D) :
    Tiled T wanted before size (fun r => ∃ d, modelValidate r = .ok d)
      (fun r d => modelValidate r = .ok d) fun scan page =>
        (listRows scan key wheres wheres page size T.rows).validate modelValidate := by
  obtain ⟨rows, hsorted, hmem, hrows⟩ := listRows_eq key wheres hkey
  refine ⟨rows, hsorted.imp fun h => hbefore _ _ h, fun r => ?_, fun scans => ?_⟩
  · rw [hmem, hwanted]
  · refine Tiles.of_readsPage hsize fun page => ⟨modelValidate, fun _ h => h, fun _ _ h => h, ?_⟩
    simp only [hrows]
    rfl

end Statements

/-! ## Details of campaigns -/

/-- A DTO of a campaign and its child rows, in some order of these. -/
def ReadsDetail {D : Type} (modelValidate : CampaignDetailRead → Except HttpException D)
    (db : Config.Database) (c : Campaign) (d : D) : Prop :=
  ∃ roles callbacks, roles.Perm (db.rolesOf c.id) ∧ callbacks.Perm (db.callbacksOf c.id) ∧
    modelValidate ⟨c, roles, callbacks⟩ = .ok d

/-- `model_validate` accepts the campaign and its child rows in every order. -/
def DetailReadable {D : Type} (modelValidate : CampaignDetailRead → Except HttpException D)
    (db : Config.Database) (c : Campaign) : Prop :=
  ∀ roles callbacks, roles.Perm (db.rolesOf c.id) → callbacks.Perm (db.callbacksOf c.id) →
    ∃ d, modelValidate ⟨c, roles, callbacks⟩ = .ok d

/-- Details that are there. -/
theorem mapM_details {α β ε : Type} {load : α → Except ε (Option β)} {read : α → Except ε β}
    {l : List α} (h : ∀ a ∈ l, load a = (read a).map some) :
    (l.mapM load).map (List.filterMap id) = l.mapM read := by
  induction l with
  | nil => rfl
  | cons a l ih =>
    rw [List.mapM_cons, List.mapM_cons, ← ih fun x hx => h x (List.mem_cons_of_mem a hx),
      h a List.mem_cons_self]
    cases read a with
    | error e => rfl
    | ok b => cases l.mapM load <;> rfl

theorem listCampaigns_tiled {D : Type} {size : Nat} (hsize : 0 < size)
    (modelValidate : CampaignDetailRead → Except HttpException D) (db : Config.Database) :
    Tiled db.campaigns (fun _ => True) (fun a b => a.id < b.id) size
      (DetailReadable modelValidate db) (ReadsDetail modelValidate db) fun scans page =>
        listCampaigns scans modelValidate page size db := by
  obtain ⟨rows, hsorted, hmem, hrows⟩ := listRows_eq (T := db.campaigns) Campaign.id []
    fun _ ha _ hb h => Table.eq_of_key_eq ha hb h
  refine ⟨rows, hsorted, fun r => by simp [hmem], fun scans => ?_⟩
  refine Tiles.of_readsPage hsize fun page => ?_
  let read (c : Campaign) := modelValidate ⟨c, ((scans page).roles c.id).order (db.rolesOf c.id),
    ((scans page).callbacks c.id).order (db.callbacksOf c.id)⟩
  refine ⟨read, fun c h => ?_, fun c d h => ?_, ?_⟩
  · exact h _ _ (((scans page).roles c.id).perm _) (((scans page).callbacks c.id).perm _)
  · exact ⟨_, _, ((scans page).roles c.id).perm _, ((scans page).callbacks c.id).perm _, h⟩
  · have hload : ∀ c ∈ pageOf page size rows,
        loadDetail (scans page) modelValidate db c.id = (read c).map some := by
      intro c hc
      have hstored : db.campaign c.id = some c :=
        Database.campaign_eq_some.mpr ⟨((hmem c).mp ((pageOf_sublist _ _ _).subset hc)).1, rfl⟩
      simp only [loadDetail, hstored]
      rfl
    simp only [listCampaigns, hrows]
    rw [← mapM_details hload]
    cases (pageOf page size rows).mapM fun c => loadDetail (scans page) modelValidate db c.id <;>
      rfl

/-! ## The result -/

/-- **The pages of the lists by id tile the matching rows**, for every filter and
every page size, and whatever the database scans. -/
theorem listings_tile (size : Nat) (hsize : 0 < size) :
    (∀ (D : Type) (modelValidate : CampaignDetailRead → Except HttpException D)
        (db : Config.Database),
      Tiled db.campaigns (fun _ => True) (fun a b => a.id < b.id) size
        (DetailReadable modelValidate db) (ReadsDetail modelValidate db)
        fun scans page => listCampaigns scans modelValidate page size db) ∧
    (∀ (D : Type) (modelValidate : Lead → Except HttpException D) (campaignId : Option Int)
        (statusFilter : Option LeadStatus) (leads : Table Lead),
      Tiled leads
        (fun r => (∀ c, campaignId = some c → r.campaignId = c) ∧
          ∀ s, statusFilter = some s → r.status = s)
        (fun a b => b.id < a.id) size
        (fun r => ∃ d, modelValidate r = .ok d) (fun r d => modelValidate r = .ok d)
        fun scan page => listLeads scan modelValidate campaignId statusFilter page size leads) ∧
    (∀ (D : Type) (modelValidate : CallRecord → Except HttpException D)
        (campaignId leadId : Option Int) (statusFilter : Option CallStatus)
        (calls : Table CallRecord),
      Tiled calls
        (fun r => (∀ c, campaignId = some c → r.campaignId = c) ∧
          (∀ l, leadId = some l → r.leadId = l) ∧ ∀ s, statusFilter = some s → r.status = s)
        (fun a b => b.id < a.id) size
        (fun r => ∃ d, modelValidate r = .ok d) (fun r d => modelValidate r = .ok d)
        fun scan page =>
          listCalls scan modelValidate campaignId leadId statusFilter page size calls) ∧
    (∀ (D : Type) (modelValidate : RoleConfig → Except HttpException D) (campaignId : Option Int)
        (kind : Option RoleKind) (db : Config.Database),
      Tiled db.roles
        (fun r => (∀ c, campaignId = some c → r.campaignId = c) ∧ ∀ k, kind = some k → r.kind = k)
        (fun a b => a.id < b.id) size
        (fun r => ∃ d, modelValidate r = .ok d) (fun r d => modelValidate r = .ok d)
        fun scan page => listRoleConfigs scan modelValidate campaignId kind page size db) ∧
    (∀ (D : Type) (modelValidate : PromptVersion → Except HttpException D)
        (scopeType : Option PromptScopeType) (scopeId : Option Int) (db : Prompt.Database),
      Tiled db.versions
        (fun r => (∀ t, scopeType = some t → r.scopeType = t) ∧
          ∀ i, scopeId = some i → r.scopeId = i)
        (fun a b => b.id < a.id) size
        (fun r => ∃ d, modelValidate r = .ok d) (fun r d => modelValidate r = .ok d)
        fun scan page => listPromptVersions scan modelValidate scopeType scopeId page size db) := by
  refine ⟨fun D => listCampaigns_tiled hsize, ?_, ?_, ?_, ?_⟩
  · intro D modelValidate campaignId statusFilter leads
    refine tiled_validate hsize (fun r : Lead => OrderDual.toDual r.id)
      (fun _ ha _ hb h => Table.eq_of_key_eq ha hb h) (fun r => ?_) (fun _ _ h => h) modelValidate
    simp only [List.all_append, Bool.and_eq_true, all_whereEq]
  · intro D modelValidate campaignId leadId statusFilter calls
    refine tiled_validate hsize (fun r : CallRecord => OrderDual.toDual r.id)
      (fun _ ha _ hb h => Table.eq_of_key_eq ha hb h) (fun r => ?_) (fun _ _ h => h) modelValidate
    simp only [List.all_append, Bool.and_eq_true, all_whereEq, and_assoc]
  · intro D modelValidate campaignId kind db
    refine tiled_validate hsize RoleConfig.id (fun _ ha _ hb h => Table.eq_of_key_eq ha hb h)
      (fun r => ?_) (fun _ _ h => h) modelValidate
    simp only [List.all_append, Bool.and_eq_true, all_whereEq]
  · intro D modelValidate scopeType scopeId db
    refine tiled_validate hsize (fun r : PromptVersion => OrderDual.toDual r.id)
      (fun _ ha _ hb h => Table.eq_of_key_eq ha hb h) (fun r => ?_) (fun _ _ h => h) modelValidate
    simp only [List.all_append, Bool.and_eq_true, all_whereEq]

def lead (id campaignId : Int) (phone : String) : Lead :=
  ⟨⟨campaignId, phone.toList, none, none, .null⟩, id, ⟨"pending"⟩⟩

def threeLeads : Table Lead where
  rows := [lead 1 7 "100", lead 2 8 "101", lead 3 7 "102"]
  unique := by decide

theorem listings_tile_threeLeads :
    Tiled threeLeads
      (fun r => (∀ c, some 7 = some c → r.campaignId = c) ∧ ∀ s, none = some s → r.status = s)
      (fun a b => b.id < a.id) 1 (fun r => ∃ d, Except.ok r = (.ok d : Except HttpException Lead))
      (fun r d => Except.ok r = (.ok d : Except HttpException Lead))
      fun scan page => listLeads scan Except.ok (some 7) none page 1 threeLeads :=
  (listings_tile 1 (by decide)).2.1 Lead Except.ok (some 7) none threeLeads

end IsalesApi.Listings
