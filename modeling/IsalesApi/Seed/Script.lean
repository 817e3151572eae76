import IsalesApi.Config.Handlers
import IsalesApi.Prompt.Versions

/-!
# The seed script

`seed_pipeline_stream_campaign.py` replaces the role rows of a campaign and their
prompt versions by three new ones, and binds the routing rules to the referee. Ids
are drawn from two sequences. The statements go to one session, which commits at
the end; the constraints on the rows, which are not part of this repository, are
taken to accept the rows of the script.
-/

namespace IsalesApi.Seed

open Foundation Config Prompt

/-! ## The tables -/

/-- The rows and the sequences their ids are drawn from. -/
structure Database where
  campaigns : Table Campaign
  roles : Table RoleConfig
  prompts : Table PromptVersion
  nextRole : Int
  nextPrompt : Int
  rolesFresh : ∀ r ∈ roles, r.id < nextRole
  promptsFresh : ∀ p ∈ prompts, p.id < nextPrompt

namespace Database

/-- `db.add(RoleConfig(…))` and a flush. -/
def addRole (db : Database) (campaignId : Int) (row : RoleConfigNestedWrite) : Database :=
  { db with
    roles := db.roles.push ⟨row, db.nextRole, campaignId⟩ fun r hr => (db.rolesFresh r hr).ne
    nextRole := db.nextRole + 1
    rolesFresh := by
      intro r hr
      rcases Table.mem_push.mp hr with hr | rfl
      · exact (db.rolesFresh r hr).trans (Int.lt_succ _)
      · exact Int.lt_succ _ }

/-- `db.add(PromptVersion(…))` and a flush. -/
def addPrompt (db : Database) (row : PromptVersionCreate) : Database :=
  { db with
    prompts := db.prompts.push ⟨row, db.nextPrompt⟩ fun p hp => (db.promptsFresh p hp).ne
    nextPrompt := db.nextPrompt + 1
    promptsFresh := by
      intro p hp
      rcases Table.mem_push.mp hp with hp | rfl
      · exact (db.promptsFresh p hp).trans (Int.lt_succ _)
      · exact Int.lt_succ _ }

/-- `rc.current_prompt_version_id = …`. -/
def linkPrompt (db : Database) (roleId promptId : Int) : Database :=
  { db with
    roles := db.roles.update (fun r => r.id = roleId)
      (fun r => { r with currentPromptVersionId := some promptId }) fun _ => rfl
    rolesFresh := by
      intro r hr
      obtain ⟨s, hs, rfl⟩ := Table.mem_update.mp hr
      have hlt := db.rolesFresh s hs
      split <;> exact hlt }

/-- `delete(PromptVersion).where(PromptVersion.scope_id.in_(ids))`. -/
def deletePrompts (db : Database) (ids : List Int) : Database :=
  { db with
    prompts := db.prompts.delete fun p => ids.contains p.scopeId
    promptsFresh := fun p hp => db.promptsFresh p (Table.mem_delete.mp hp).1 }

/-- `delete(RoleConfig).where(RoleConfig.id.in_(ids))`. -/
def deleteRoles (db : Database) (ids : List Int) : Database :=
  { db with
    roles := db.roles.delete fun r => ids.contains r.id
    rolesFresh := fun r hr => db.rolesFresh r (Table.mem_delete.mp hr).1 }

/-- `campaign.routing_rules = …`. -/
def setRules (db : Database) (campaignId : Int) (rules : List RoutingRule) : Database :=
  { db with
    campaigns := db.campaigns.update (fun c => c.id = campaignId)
      (fun c => { c with routingRules := some rules }) fun _ => rfl }

/-- `select(RoleConfig).where(RoleConfig.campaign_id == campaign_id)`. -/
def rolesOf (db : Database) (campaignId : Int) : List RoleConfig :=
  db.roles.select fun r => r.campaignId = campaignId

end Database

/-! ## What is seeded -/

/-- `MAIN_PROMPT`. -/
def mainPrompt : String :=
  "你是一名专业的电话销售顾问。\n" ++
    "\n" ++
    "【目标】\n" ++
    "向客户介绍产品并争取约见 / 成交 / 回访机会。\n" ++
    "\n" ++
    "【话术规范】\n" ++
    "- 语气自然、口语化，像真人通话\n" ++
    "- 简洁，避免长篇大论\n" ++
    "\n" ++
    "【输出格式】\n" ++
    "你的输出必须遵循：\n" ++
    "1. 只输出你要对客户说的话，不要任何解释 / 元信息 / 引号包裹\n" ++
    "2. 不要使用 markdown 标题 / 加粗 / 列表\n" ++
    "3. 不要使用 emoji / 表情符号\n" ++
    "4. 不要输出 JSON / 代码块\n" ++
    "5. 如果有多句，用句号 / 问号 / 感叹号自然分隔\n" ++
    "6. 单句长度控制在 30 字以内（便于 TTS 自然停顿）\n"

/-- `REFEREE_PROMPT`. -/
def refereePrompt : String :=
  "你是销售外呼对话的门控监管助手。基于\"用户最后一句话\"+ 最近 3 轮对话历史 +（若上一句 AI 被你这句话打断）那句没说完的 AI " ++
    "残句，判断本轮对话状态，只输出一个分类词。\n" ++
    "\n" ++
    "【输入】\n" ++
    "用户最后一句话：\x7b\x7buser_last_utterance\x7d\x7d\n" ++
    "\n" ++
    "最近 3 轮对话：\n" ++
    "\x7b\x7brecent_dialog_history\x7d\x7d\n" ++
    "\n" ++
    "上一句 AI 是否被你这句话打断、留下没说完的残句：\x7b\x7bwas_interrupted\x7d\x7d\n" ++
    "被打断、还没说完的那句 AI 残句（仅当上面为「是」时有意义，否则为空）：\x7b\x7binterrupted_reply\x7d\x7d\n" ++
    "\n" ++
    "【输出（封闭枚举，只能从下面五个词里选一个，原样输出）】\n" ++
    "goal_achieved\n" ++
    "customer_decline\n" ++
    "transfer\n" ++
    "FILLER\n" ++
    "continue\n" ++
    "\n" ++
    "【枚举语义（按从上到下优先级判断，命中靠前的就不再选靠后的）】\n" ++
    "- goal_achieved: 客户明确同意了外呼目标（成交 / 约见 / 同意回访）。无论是否打断，只要本句是「明确答应」一律选它。\n" ++
    "- customer_decline: 客户明确拒绝或表达强烈反感。无论是否打断，只要本句是「明确拒绝 / 反感」一律选它。\n" ++
    "- transfer: 客户主动要求转人工。\n" ++
    "- FILLER: 仅当「上一句 AI 是否被打断 = 是」时才可能成立。指客户在 AI 说话过程中插进来、**没有任何需要回应的实质信" ++
    "息**的话：纯语气词 / 垫词 / 随口附和 / 口头催促，如「嗯」「啊」「哦」「对对对」「你说」「继续」「嗯嗯你讲」「我在听」。选 F" ++
    "ILLER 表示：把刚被打断那句 AI 话顺着说完即可，不需要另起内容作答。\n" ++
    "- continue: 上面都不成立时的默认值。包括：①非打断场景下客户正常对话（犹豫 / 询问细节 / 闲聊）；②打断场景下客户插进来" ++
    "的是**实质性提问 / 反对 / 新要求**（问价格 / 问条件 / 提疑虑 / 不认同）——需要 AI 正面回应，选 continue" ++
    " 而非 FILLER。\n" ++
    "\n" ++
    "【FILLER vs continue 判别准则（务必谨慎）】\n" ++
    "只有同时满足：①「是否被打断 = 是」；②本句不携带任何需要回应的实质信息（没提问 / 没新要求 / 没反对 / 没明确同意或拒绝）；③" ++
    "像「请继续 / 我在听 / 随口附和」的催促或确认——才输出 FILLER。\n" ++
    "- 只要本句有一丝实质内容（哪怕半句「这个多少钱」「但是我觉得」），就**不**选 FILLER，按语义选（通常 continue）。\n" ++
    "- 「然后呢 / 继续」类催促：若被打断那句 AI 还没讲完核心信息，选 FILLER（顺着讲完）；若那句已基本讲完、客户想推进到下一话" ++
    "题，选 continue（正面回应）。\n" ++
    "\n" ++
    "【非打断场景硬规则（务必遵守）】\n" ++
    "当「是否被打断 = 否」时：绝对不能输出 FILLER；只在 goal_achieved / customer_decline / tr" ++
    "ansfer / continue 里选，判定标准与原来一致；忽略「被打断的那句 AI 残句」。\n" ++
    "\n" ++
    "【示例】\n" ++
    "否；用户「好的那就周三下午吧」 → goal_achieved\n" ++
    "否；用户「不需要，别再打了」 → customer_decline\n" ++
    "否；用户「帮我转人工」 → transfer\n" ++
    "否；用户「这个具体怎么收费」 → continue\n" ++
    "是；残句「我们这个课分三个阶段，第一阶段……」；用户「嗯嗯你说」 → FILLER\n" ++
    "是；残句「……第一阶段……」；用户「对对对继续」 → FILLER\n" ++
    "是；残句「……第一阶段……」；用户「那一共多少钱」 → continue\n" ++
    "是；残句「我帮您约下周二……」；用户「不用了我没兴趣」 → customer_decline\n" ++
    "是；残句「我帮您约下周二下午……」；用户「行行行那就这样」 → goal_achieved\n" ++
    "是；残句「……所以这个课性价比很高了」（已基本讲完）；用户「然后呢」 → continue\n" ++
    "\n" ++
    "【输出格式（必须严格遵守）】\n" ++
    "1. 只输出上面五个分类词之一，原样输出该单词（FILLER 大写，其余小写）\n" ++
    "2. 不要输出 JSON / 大括号 / 引号 / 标点 / 解释 / 任何其他文字\n" ++
    "3. 整个回复就是一个分类词，例如：continue\n"

/-- `EXTRACTOR_PROMPT`. -/
def extractorPrompt : String :=
  "你是销售通话信息抽取助手。基于完整通话记录，抽取以下字段：\n" ++
    "\n" ++
    "【字段定义】\n" ++
    "- customer_name (str): 客户姓名，未提及则 null\n" ++
    "- intent (enum): \"interested\" | \"considering\" | \"declined\"\n" ++
    "- callback_time (datetime str): 客户同意的回访时间，未约定则 null\n" ++
    "\n" ++
    "【输入】\n" ++
    "\x7b\x7btranscript\x7d\x7d\n" ++
    "\n" ++
    "【输出 JSON】\n" ++
    "\x7b\n" ++
    "  \"customer_name\": ...,\n" ++
    "  \"intent\": ...,\n" ++
    "  \"callback_time\": ...\n" ++
    "\x7d\n" ++
    "\n" ++
    "只输出 JSON，所有字段都要给（无信息时给 null）。\n"

/-- `REFEREE_LABEL`. -/
def refereeLabel : String := "main_judge"

/-- A rule that leads from a category to a transition. -/
def transitionRule (category action : String) : RoutingRule where
  referee := refereeLabel
  action := .other ⟨"\x7b\"type\": \"transition\", " ++ action ++ "\x7d"⟩
  rest := ⟨"\x7b\"match\": [\"" ++ category ++ "\"]\x7d"⟩

/-- `ROUTING_RULES`. -/
def routingRules : List RoutingRule :=
  [transitionRule "goal_achieved" "\"to\": \"goal_achieved\", \"goal_type\": \"appointment\"",
    transitionRule "transfer" "\"to\": \"transfer\"",
    transitionRule "customer_decline" "\"to\": \"customer_decline\""]

/-- The members of `PromptScopeType` the script uses. -/
structure ScopeTypes where
  main : PromptScopeType
  referee : PromptScopeType
  extractor : PromptScopeType

/-- The environment variables the script reads. -/
structure Environment where
  databaseUrl : Option String
  mainModel : Option String
  refereeModel : Option String
  extractorModel : Option String

/-- An entry of `_SLOTS`. -/
structure Slot where
  kind : RoleKind
  scopeType : PromptScopeType
  model : String
  prompt : String
  temperature : ℚ
  label : Option String

/-- `_SLOTS`. -/
def slots (scopes : ScopeTypes) (env : Environment) : List Slot :=
  [⟨.main, scopes.main, env.mainModel.getD "doubao-pro-32k", mainPrompt, 8 / 10, none⟩,
    ⟨.referee, scopes.referee, env.refereeModel.getD "qwen-turbo", refereePrompt, 2 / 10,
      some refereeLabel⟩,
    ⟨.extractor, scopes.extractor, env.extractorModel.getD "qwen-turbo", extractorPrompt, 2 / 10,
      none⟩]

/-- The columns of `RoleConfig(…)`, without a prompt version yet. -/
def Slot.role (slot : Slot) : RoleConfigNestedWrite where
  kind := slot.kind
  label := slot.label
  model := slot.model
  currentPromptVersionId := none
  temperature := slot.temperature
  topP := 1
  extParams := ⟨"\x7b\x7d"⟩
  enabled := true

/-- The columns of `PromptVersion(…)`. -/
def Slot.version (slot : Slot) (roleId : Int) : PromptVersionCreate where
  scopeType := slot.scopeType
  scopeId := roleId
  content := slot.prompt
  createdBy := some "seed_pipeline_stream_campaign"
  isActive := true

/-! ## The script -/

structure SystemExit where
  msg : String
deriving DecidableEq

/-- The role rows of the campaign and their prompt versions are dropped first, if
there are any. -/
def dropExisting (campaignId : Int) (db : Database) : Database :=
  let rcIds := (db.rolesOf campaignId).map RoleConfig.id
  if rcIds = [] then db else (db.deletePrompts rcIds).deleteRoles rcIds

/-- The body of the loop over `_SLOTS`. -/
def seedSlot (campaignId : Int) (db : Database) (slot : Slot) : Database :=
  let rc := db.nextRole
  let pv := db.nextPrompt
  ((db.addRole campaignId slot.role).addPrompt (slot.version rc)).linkPrompt rc pv

/-- `seed`. -/
def seed (scopes : ScopeTypes) (env : Environment) (campaignId : Int) (db : Database) :
    Except SystemExit Database :=
  if env.databaseUrl = none ∨ env.databaseUrl = some "" then
    .error ⟨"ISALES_DATABASE_URL not set"⟩
  else
    match db.campaigns.get? campaignId with
    | none => .error ⟨"campaign " ++ toString campaignId ++ " not found"⟩
    | some campaign =>
      let db := (slots scopes env).foldl (seedSlot campaignId) (dropExisting campaignId db)
      .ok (db.setRules campaign.id routingRules)

end IsalesApi.Seed
