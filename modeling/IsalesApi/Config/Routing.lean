import IsalesApi.Http
import Mathlib.Tactic

/-!
# Routing validation

`routing_validation`: labels of referee and persona rows, and what the routing
rules of a campaign refer to. Each check has one lemma that says what it
accepts (`validateRoleLabels_ok`, `validateRoutingRules_ok`); everything later
goes through these.
-/

namespace IsalesApi.Config

/-- A JSON value the code stores without looking into it, as its text. -/
structure Json where
  text : String
deriving DecidableEq

namespace Json

def null : Json := ⟨"null"⟩

def ofNat (n : Nat) : Json := ⟨toString n⟩

end Json

inductive RoleKind where
  | main
  | referee
  | extractor
  | restructure
  | persona
deriving DecidableEq

/-- `_LABELLED_KINDS`, in both modules. -/
def RoleKind.labelled : RoleKind → Bool
  | .referee | .persona => true
  | _ => false

/-- `_label_namespace`. -/
def labelNamespace (kind : RoleKind) : String :=
  if kind = .persona then "persona" else "referee"

/-- What `validate_role_labels` and the label sets read of a row: request
payloads and stored rows both have it. -/
class Labelled (α : Type) where
  kind : α → RoleKind
  label : α → Option String

export Labelled (kind label)

/-! ## Rules -/

/-- The action of a rule: `RoutePersonaAction` with its `to`, `RouteToolAction`
with its `tool`, or one the code does not look into. `rest` is the part of the
dump the code does not read. -/
inductive RuleAction where
  | route (target : String) (rest : Json)
  | tool (name : String) (rest : Json)
  | other (body : Json)
deriving DecidableEq

/-- A routing rule as it is dumped and stored. -/
structure RoutingRule where
  referee : String
  action : RuleAction
  rest : Json
deriving DecidableEq

/-- `_BUILTIN_ROUTES`. -/
def builtinRoutes : List String := ["closing", "recovery"]

/-! ## Labels -/

/-- The characters `str.strip()` removes. -/
def isPySpace (c : Char) : Bool :=
  let n := c.toNat
  (0x09 ≤ n && n ≤ 0x0d) || (0x1c ≤ n && n ≤ 0x20) || n == 0x85 || n == 0xa0 || n == 0x1680 ||
    (0x2000 ≤ n && n ≤ 0x200a) || n == 0x2028 || n == 0x2029 || n == 0x202f || n == 0x205f ||
    n == 0x3000

/-- `label and label.strip()` is false. -/
def blank : Option String → Bool
  | none => true
  | some l => l.toList.all isPySpace

theorem ne_empty_of_not_blank {s : String} (h : blank (some s) = false) : s ≠ "" := by
  rintro rfl
  simp [blank] at h

def roleLabelRequired : HttpException := unprocessable "role_label_required"

def roleLabelDuplicate (l : String) : HttpException :=
  unprocessable ("role_label_duplicate:" ++ l)

variable {α : Type} [Labelled α]

/-- `validate_role_labels`, with the set of keys seen so far. -/
def validateRoleLabelsFrom (seen : List (String × String)) : List α → Except HttpException Unit
  | [] => .ok ()
  | rc :: rest =>
    if !(kind rc).labelled then validateRoleLabelsFrom seen rest
    else
      match label rc with
      | none => .error roleLabelRequired
      | some l =>
        if blank (some l) then .error roleLabelRequired
        else
          let key := (labelNamespace (kind rc), l)
          if key ∈ seen then .error (roleLabelDuplicate l)
          else validateRoleLabelsFrom (key :: seen) rest

def validateRoleLabels (rows : List α) : Except HttpException Unit :=
  validateRoleLabelsFrom [] rows

/-- One row of the loop of `validate_role_labels`: the set afterwards, or what is raised. -/
def checkNext (seen : List (String × String)) (rc : α) :
    Except HttpException (List (String × String)) :=
  if !(kind rc).labelled then .ok seen
  else
    match label rc with
    | none => .error roleLabelRequired
    | some l =>
      if blank (some l) then .error roleLabelRequired
      else if (labelNamespace (kind rc), l) ∈ seen then .error (roleLabelDuplicate l)
      else .ok ((labelNamespace (kind rc), l) :: seen)

/-- `{_label_of(rc) for rc in rows if kind is k and _label_of(rc)}`. -/
def labelsOf (k : RoleKind) (rows : List α) : List String :=
  rows.filterMap fun rc =>
    if kind rc = k then (label rc).filter fun l => l ≠ "" else none

def refereeLabelsOf (rows : List α) : List String := labelsOf .referee rows

def personaLabelsOf (rows : List α) : List String := labelsOf .persona rows

theorem mem_labelsOf {k : RoleKind} {rows : List α} {l : String} :
    l ∈ labelsOf k rows ↔ l ≠ "" ∧ ∃ rc ∈ rows, kind rc = k ∧ label rc = some l := by
  simp only [labelsOf, List.mem_filterMap]
  constructor
  · rintro ⟨rc, hrc, h⟩
    split at h
    · rename_i hk
      obtain ⟨hl, hne⟩ := Option.filter_eq_some_iff.mp h
      exact ⟨by simpa using hne, rc, hrc, hk, hl⟩
    · cases h
  · rintro ⟨hne, rc, hrc, hk, hl⟩
    exact ⟨rc, hrc, by simp [hk, hl, hne]⟩

/-- The label rule: referee and persona rows have a label that is not blank,
and no two rows of the same of these kinds share one. -/
structure Disciplined (rows : List α) : Prop where
  notBlank : ∀ rc ∈ rows, (kind rc).labelled → blank (label rc) = false
  distinct : rows.Pairwise fun rc rd =>
    (kind rc).labelled → kind rc = kind rd → label rc ≠ label rd

theorem labelNamespace_eq {k k' : RoleKind} (hk : k.labelled) (hk' : k'.labelled) :
    labelNamespace k = labelNamespace k' ↔ k = k' := by
  cases k <;> cases k' <;> simp_all [RoleKind.labelled, labelNamespace]

/-- A row of another kind does not count. -/
theorem disciplined_cons_unlabelled {rc : α} {rest : List α} (hk : ¬ (kind rc).labelled) :
    Disciplined (rc :: rest) ↔ Disciplined rest := by
  constructor
  · intro hd
    exact ⟨fun x hx => hd.notBlank x (List.mem_cons_of_mem _ hx),
      (List.pairwise_cons.mp hd.distinct).2⟩
  · intro hd
    refine ⟨?_, List.pairwise_cons.mpr ⟨fun x _ hx => absurd hx hk, hd.distinct⟩⟩
    intro x hx hxk
    rcases List.mem_cons.mp hx with rfl | hx
    · exact absurd hxk hk
    · exact hd.notBlank x hx hxk

theorem disciplined_cons_labelled {rc : α} {rest : List α} (hk : (kind rc).labelled) :
    Disciplined (rc :: rest) ↔ blank (label rc) = false ∧ Disciplined rest ∧
      ∀ x ∈ rest, kind rc = kind x → label rc ≠ label x := by
  constructor
  · intro hd
    obtain ⟨hhead, htail⟩ := List.pairwise_cons.mp hd.distinct
    exact ⟨hd.notBlank rc List.mem_cons_self hk,
      ⟨fun x hx => hd.notBlank x (List.mem_cons_of_mem _ hx), htail⟩, fun x hx => hhead x hx hk⟩
  · rintro ⟨hb, hd, hhead⟩
    refine ⟨?_, List.pairwise_cons.mpr ⟨fun x hx _ => hhead x hx, hd.distinct⟩⟩
    intro x hx hxk
    rcases List.mem_cons.mp hx with rfl | hx
    · exact hb
    · exact hd.notBlank x hx hxk

/-- No labelled row has a key the loop has seen. -/
def Unseen (seen : List (String × String)) (rows : List α) : Prop :=
  ∀ rc ∈ rows, (kind rc).labelled → ∀ l, label rc = some l →
    (labelNamespace (kind rc), l) ∉ seen

theorem unseen_cons {seen : List (String × String)} {rc : α} {rest : List α} :
    Unseen seen (rc :: rest) ↔
      ((kind rc).labelled → ∀ l, label rc = some l → (labelNamespace (kind rc), l) ∉ seen) ∧
        Unseen seen rest :=
  List.forall_mem_cons

/-- Remembering the key of a row keeps its label from the rows of its kind. -/
theorem unseen_remember {seen : List (String × String)} {rc : α} {rest : List α} {l : String}
    (hk : (kind rc).labelled) (hl : label rc = some l) :
    Unseen ((labelNamespace (kind rc), l) :: seen) rest ↔
      (∀ x ∈ rest, kind rc = kind x → label rc ≠ label x) ∧ Unseen seen rest := by
  constructor
  · intro hfree
    refine ⟨?_, fun x hx hxk l' hl' hmem => hfree x hx hxk l' hl' (List.mem_cons_of_mem _ hmem)⟩
    intro x hx hkx hlx
    refine hfree x hx (hkx ▸ hk) l (hlx ▸ hl) ?_
    rw [← hkx]
    exact List.mem_cons_self
  · rintro ⟨hhead, hfree⟩ x hx hxk l' hl' hmem
    rcases List.mem_cons.mp hmem with heq | hmem
    · obtain ⟨hns, rfl⟩ := Prod.mk.injEq .. ▸ heq
      have hkk : kind rc = kind x := ((labelNamespace_eq hxk hk).mp hns).symm
      exact hhead x hx hkk (hl.trans hl'.symm)
    · exact hfree x hx hxk l' hl' hmem

/-- What the loop of `validate_role_labels` accepts after it has seen `seen`. -/
theorem validateRoleLabelsFrom_ok {seen : List (String × String)} {rows : List α} :
    validateRoleLabelsFrom seen rows = .ok () ↔ Disciplined rows ∧ Unseen seen rows := by
  induction rows generalizing seen with
  | nil => simp [validateRoleLabelsFrom, Disciplined.mk, Unseen]
  | cons rc rest ih =>
    unfold validateRoleLabelsFrom
    by_cases hk : (kind rc).labelled
    · simp only [hk, Bool.not_true, Bool.false_eq_true, if_false]
      rw [disciplined_cons_labelled hk]
      cases hl : label rc with
      | none => simp [blank]
      | some l =>
        simp only
        by_cases hb : blank (some l)
        · simp [hb]
        · rw [if_neg hb]
          by_cases hseen : (labelNamespace (kind rc), l) ∈ seen
          · rw [if_pos hseen]
            refine iff_of_false (by simp) ?_
            rintro ⟨_, hfree⟩
            exact hfree rc List.mem_cons_self hk l hl hseen
          · have hrc : (kind rc).labelled → ∀ l', label rc = some l' →
                (labelNamespace (kind rc), l') ∉ seen := by
              intro _ l' hl'
              rw [hl] at hl'
              cases hl'
              exact hseen
            have hb' : blank (some l) = false := by simpa using hb
            rw [if_neg hseen, ih, unseen_remember hk hl, unseen_cons, and_iff_right hrc, hl,
              and_iff_right hb', and_assoc]
    · -- a row of another kind is skipped
      have hskip : (!(kind rc).labelled) = true := by simpa using hk
      rw [if_pos hskip, ih, disciplined_cons_unlabelled hk, unseen_cons,
        and_iff_right fun hrc => absurd hrc hk]

/-- `validate_role_labels` accepts exactly the disciplined lists. -/
theorem validateRoleLabels_ok {rows : List α} :
    validateRoleLabels rows = .ok () ↔ Disciplined rows := by
  rw [validateRoleLabels, validateRoleLabelsFrom_ok]
  exact and_iff_left fun _ _ _ _ _ => List.not_mem_nil

/-! ## References -/

def unknownReferee (l : String) : HttpException :=
  unprocessable ("routing_rule_unknown_referee:" ++ l)

def unknownPersona (l : String) : HttpException :=
  unprocessable ("routing_rule_unknown_persona:" ++ l)

def unknownTool (l : String) : HttpException :=
  unprocessable ("routing_rule_unknown_tool:" ++ l)

/-- The checks on the action of a rule. -/
def validateAction (personaLabels toolAliases : List String) :
    RuleAction → Except HttpException Unit
  | .route target _ =>
    if target ∉ personaLabels ∧ target ∉ builtinRoutes then .error (unknownPersona target)
    else .ok ()
  | .tool name _ => if name ∉ toolAliases then .error (unknownTool name) else .ok ()
  | .other _ => .ok ()

/-- `validate_routing_rules`. -/
def validateRoutingRules (refereeLabels personaLabels toolAliases : List String) :
    List RoutingRule → Except HttpException Unit
  | [] => .ok ()
  | rule :: rest =>
    if rule.referee ∉ refereeLabels then .error (unknownReferee rule.referee)
    else
      match validateAction personaLabels toolAliases rule.action with
      | .error e => .error e
      | .ok () => validateRoutingRules refereeLabels personaLabels toolAliases rest

/-- The action refers to what there is. -/
def RuleAction.Resolves (personaLabels toolAliases : List String) : RuleAction → Prop
  | .route target _ => target ∈ personaLabels ∨ target ∈ builtinRoutes
  | .tool name _ => name ∈ toolAliases
  | .other _ => True

theorem validateAction_ok {personaLabels toolAliases : List String} {a : RuleAction} :
    validateAction personaLabels toolAliases a = .ok () ↔
      a.Resolves personaLabels toolAliases := by
  cases a with
  | route target rest =>
    simp only [validateAction, RuleAction.Resolves]
    split
    · rename_i h
      exact iff_of_false (by simp) (not_or.mpr h)
    · rename_i h
      exact iff_of_true rfl (by tauto)
  | tool name rest =>
    simp only [validateAction, RuleAction.Resolves]
    split <;> simp_all
  | other body => simp [validateAction, RuleAction.Resolves]

/-- `validate_routing_rules` accepts exactly the rules whose references all
resolve. -/
theorem validateRoutingRules_ok {refereeLabels personaLabels toolAliases : List String}
    {rules : List RoutingRule} :
    validateRoutingRules refereeLabels personaLabels toolAliases rules = .ok () ↔
      ∀ rule ∈ rules, rule.referee ∈ refereeLabels ∧
        rule.action.Resolves personaLabels toolAliases := by
  induction rules with
  | nil => simp [validateRoutingRules]
  | cons rule rest ih =>
    unfold validateRoutingRules
    by_cases href : rule.referee ∈ refereeLabels
    · rw [if_neg (by simpa using href)]
      cases hact : validateAction personaLabels toolAliases rule.action with
      | error e =>
        refine iff_of_false (by simp) fun h => ?_
        have hres := validateAction_ok.mpr (h rule List.mem_cons_self).2
        rw [hact] at hres
        cases hres
      | ok u =>
        simp only
        rw [ih, List.forall_mem_cons]
        exact (and_iff_right ⟨href, validateAction_ok.mp hact⟩).symm
    · rw [if_pos href]
      exact iff_of_false (by simp) fun h => href (h rule List.mem_cons_self).1

/-- Every refusal of the two validators is a 422. -/
theorem validateRoleLabels_status {rows : List α} {e : HttpException}
    (h : validateRoleLabels rows = .error e) : e.status = 422 := by
  have hfrom : ∀ (rows : List α) seen, validateRoleLabelsFrom seen rows = .error e →
      e.status = 422 := by
    intro rows
    induction rows with
    | nil => intro seen h; cases h
    | cons rc rest ih =>
      intro seen h
      unfold validateRoleLabelsFrom at h
      split at h
      · exact ih seen h
      · split at h
        · cases h; rfl
        · split at h
          · cases h; rfl
          · simp only at h
            split at h
            · cases h; rfl
            · exact ih _ h
  exact hfrom rows [] h

theorem validateRoutingRules_status {refereeLabels personaLabels toolAliases : List String}
    {rules : List RoutingRule} {e : HttpException}
    (h : validateRoutingRules refereeLabels personaLabels toolAliases rules = .error e) :
    e.status = 422 := by
  induction rules with
  | nil => cases h
  | cons rule rest ih =>
    unfold validateRoutingRules at h
    split at h
    · cases h; rfl
    · split at h
      · rename_i hact
        cases h
        cases hrule : rule.action with
        | route target rest =>
          simp only [hrule, validateAction] at hact
          split at hact <;> cases hact
          rfl
        | tool name rest =>
          simp only [hrule, validateAction] at hact
          split at hact <;> cases hact
          rfl
        | other body =>
          rw [hrule] at hact
          cases hact
      · exact ih h

end IsalesApi.Config
