import IsalesApi.Calls.Records
import IsalesApi.Config.Handlers
import IsalesApi.Foundation.Pages
import IsalesApi.Leads.Import
import IsalesApi.Prompt.Versions
import IsalesApi.Python.Dates

/-!
# The list endpoints

Each takes a page number and a page size, both at least 1, and some filters. It
builds a statement for the rows and another one for their number, filter by
filter, and sends both. `_load_detail` and most rows are read into their DTO by
`model_validate`, which is not part of this repository: it may refuse a row.
-/

namespace IsalesApi.Listings

open Foundation Config Prompt Calls Python

/-- `Page`. -/
structure Page (D : Type) where
  items : List D
  total : Nat
  page : Nat
  pageSize : Nat

section Page

variable {R D : Type}

def Page.map (f : R → D) (p : Page R) : Page D := ⟨p.items.map f, p.total, p.page, p.pageSize⟩

/-- `items=[DTO.model_validate(r) for r in rows]`. -/
def Page.validate (modelValidate : R → Except HttpException D) (p : Page R) :
    Except HttpException (Page D) :=
  (p.items.mapM modelValidate).map fun items => ⟨items, p.total, p.page, p.pageSize⟩

end Page

/-! ## Statements -/

section Statements

variable {R α β : Type} [LinearOrder α]

/-- `if v is not None: stmt = stmt.where(column == v)`. -/
def whereEq [DecidableEq β] (column : R → β) : Option β → List (R → Bool)
  | none => []
  | some v => [fun r => column r = v]

/-- The rows of `stmt`, which has the conditions `wheres`, and the number of
`count_stmt`, which has the conditions `countWheres`. -/
def listRows (scan : Scan R) (key : R → α) (wheres countWheres : List (R → Bool))
    (page pageSize : Nat) (rows : List R) : Page R where
  items := pageOf page pageSize (scan.orderBy key (rows.filter fun r => wheres.all fun p => p r))
  total := rows.countP fun r => countWheres.all fun p => p r
  page := page
  pageSize := pageSize

end Statements

/-! ## Leads, calls, role rows and prompt versions -/

/-- `LeadStatus`, by its value; its members are not part of this repository. -/
structure LeadStatus where
  value : String
deriving DecidableEq

/-- A stored lead. -/
structure Lead extends Leads.Lead where
  id : Int
  status : LeadStatus

instance : Keyed Lead Int := ⟨Lead.id⟩

variable {D : Type}

/-- `list_leads`. -/
def listLeads (scan : Scan Lead) (modelValidate : Lead → Except HttpException D)
    (campaignId : Option Int) (statusFilter : Option LeadStatus) (page pageSize : Nat)
    (leads : Table Lead) : Except HttpException (Page D) :=
  (listRows scan (fun r => OrderDual.toDual r.id)
    (whereEq (fun r => r.campaignId) campaignId ++ whereEq Lead.status statusFilter)
    (whereEq (fun r => r.campaignId) campaignId ++ whereEq Lead.status statusFilter)
    page pageSize leads.rows).validate modelValidate

/-- `list_calls`. -/
def listCalls (scan : Scan CallRecord) (modelValidate : CallRecord → Except HttpException D)
    (campaignId leadId : Option Int) (statusFilter : Option CallStatus) (page pageSize : Nat)
    (calls : Table CallRecord) : Except HttpException (Page D) :=
  (listRows scan (fun r => OrderDual.toDual r.id)
    (whereEq CallRecord.campaignId campaignId ++ whereEq CallRecord.leadId leadId ++
      whereEq CallRecord.status statusFilter)
    (whereEq CallRecord.campaignId campaignId ++ whereEq CallRecord.leadId leadId ++
      whereEq CallRecord.status statusFilter)
    page pageSize calls.rows).validate modelValidate

/-- `list_role_configs`. -/
def listRoleConfigs (scan : Scan RoleConfig) (modelValidate : RoleConfig → Except HttpException D)
    (campaignId : Option Int) (kind : Option RoleKind) (page pageSize : Nat)
    (db : Config.Database) : Except HttpException (Page D) :=
  (listRows scan RoleConfig.id
    (whereEq RoleConfig.campaignId campaignId ++ whereEq (fun r => r.kind) kind)
    (whereEq RoleConfig.campaignId campaignId ++ whereEq (fun r => r.kind) kind)
    page pageSize db.roles.rows).validate modelValidate

/-- `list_prompt_versions`. -/
def listPromptVersions (scan : Scan PromptVersion)
    (modelValidate : PromptVersion → Except HttpException D) (scopeType : Option PromptScopeType)
    (scopeId : Option Int) (page pageSize : Nat) (db : Prompt.Database) :
    Except HttpException (Page D) :=
  (listRows scan (fun r => OrderDual.toDual r.id)
    (whereEq (fun r => r.scopeType) scopeType ++ whereEq (fun r => r.scopeId) scopeId)
    (whereEq (fun r => r.scopeType) scopeType ++ whereEq (fun r => r.scopeId) scopeId)
    page pageSize db.versions.rows).validate modelValidate

/-! ## Campaigns -/

/-- The scans of one request to `list_campaigns`: one of the campaigns, and two
for each detail it loads. -/
structure DetailScans where
  campaigns : Scan Campaign
  roles : Int → Scan RoleConfig
  callbacks : Int → Scan CallbackConfig

/-- `_load_detail`; the child rows come in no particular order. -/
def loadDetail (scans : DetailScans) (modelValidate : CampaignDetailRead → Except HttpException D)
    (db : Config.Database) (campaignId : Int) : Except HttpException (Option D) :=
  match db.campaign campaignId with
  | none => .ok none
  | some campaign =>
    (modelValidate ⟨campaign, (scans.roles campaignId).order (db.rolesOf campaignId),
      (scans.callbacks campaignId).order (db.callbacksOf campaignId)⟩).map some

/-- `list_campaigns`. -/
def listCampaigns (scans : DetailScans)
    (modelValidate : CampaignDetailRead → Except HttpException D) (page pageSize : Nat)
    (db : Config.Database) : Except HttpException (Page D) :=
  let rows := listRows scans.campaigns Campaign.id [] [] page pageSize db.campaigns.rows
  (rows.items.mapM fun c => loadDetail scans modelValidate db c.id).map fun details =>
    ⟨details.filterMap id, rows.total, page, pageSize⟩

/-! ## Holidays -/

structure Holiday where
  id : Int
  date : Date
  name : String
  region : String
  createdAt : Auth.DateTime
  updatedAt : Auth.DateTime
deriving DecidableEq

instance : Keyed Holiday Int := ⟨Holiday.id⟩

structure HolidayRead where
  id : Int
  date : Str
  name : String
  region : String
  createdAt : Auth.DateTime
  updatedAt : Auth.DateTime
deriving DecidableEq

/-- `HolidayRead(…)`. -/
def Holiday.toRead (h : Holiday) : HolidayRead where
  id := h.id
  date := h.date.isoformat
  name := h.name
  region := h.region
  createdAt := h.createdAt
  updatedAt := h.updatedAt

/-- `list_holidays`. -/
def listHolidays (scan : Scan Holiday) (region : Option String) (page pageSize : Nat)
    (holidays : Table Holiday) : Page HolidayRead :=
  (listRows scan Holiday.date (whereEq Holiday.region region) (whereEq Holiday.region region)
    page pageSize holidays.rows).map Holiday.toRead

end IsalesApi.Listings
