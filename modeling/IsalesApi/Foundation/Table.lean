import Mathlib.Tactic
import Mathlib.Data.List.Nodup
import Mathlib.Data.List.Sort

/-!
# Tables with a primary key

A `Table` is a list of rows whose keys are pairwise distinct, so a table that
breaks its primary key cannot be built. The operations are the statements a
session sends: a lookup by key, `SELECT … WHERE`, `INSERT` (which fails on a
taken key), `UPDATE … WHERE` and `DELETE … WHERE`. Each has one membership
lemma, and later proofs use only these.
-/

namespace IsalesApi.Foundation

universe u v

/-- Rows that carry a primary key. -/
class Keyed (R : Type u) (K : outParam (Type v)) where
  key : R → K

export Keyed (key)

structure Table (R : Type u) {K : Type v} [Keyed R K] where
  rows : List R
  unique : (rows.map key).Nodup

namespace Table

variable {R : Type u} {K : Type v} [Keyed R K]

instance : Membership R (Table R) := ⟨fun T r => r ∈ T.rows⟩

theorem mem_rows {T : Table R} {r : R} : r ∈ T.rows ↔ r ∈ T := Iff.rfl

@[ext] theorem ext {T U : Table R} (h : T.rows = U.rows) : T = U := by
  cases T; cases U; cases h; rfl

def empty : Table R := ⟨[], List.nodup_nil⟩

@[simp] theorem not_mem_empty (r : R) : ¬ r ∈ (empty : Table R) := List.not_mem_nil

/-- Rows are determined by their key. -/
theorem eq_of_key_eq {T : Table R} {r s : R} (hr : r ∈ T) (hs : s ∈ T)
    (h : key r = key s) : r = s :=
  List.inj_on_of_nodup_map T.unique hr hs h

/-- `SELECT … WHERE p`. -/
def select (T : Table R) (p : R → Bool) : List R := T.rows.filter p

@[simp] theorem mem_select {T : Table R} {p : R → Bool} {r : R} :
    r ∈ T.select p ↔ r ∈ T ∧ p r = true := List.mem_filter

/-- `DELETE … WHERE p`. -/
def delete (T : Table R) (p : R → Bool) : Table R where
  rows := T.rows.filter (fun r => !p r)
  unique := (List.filter_sublist.map key).nodup T.unique

@[simp] theorem mem_delete {T : Table R} {p : R → Bool} {r : R} :
    r ∈ T.delete p ↔ r ∈ T ∧ p r = false := by
  show r ∈ T.rows.filter _ ↔ r ∈ T.rows ∧ _
  simp

/-- `UPDATE … SET f WHERE p`; `f` leaves the key alone. -/
def update (T : Table R) (p : R → Bool) (f : R → R) (hf : ∀ r, key (f r) = key r) :
    Table R where
  rows := T.rows.map fun r => if p r then f r else r
  unique := by
    have hkeys : (T.rows.map fun r => if p r then f r else r).map key = T.rows.map key := by
      rw [List.map_map]
      apply List.map_congr_left
      intro r _
      by_cases h : p r = true <;> simp [h, hf]
    rw [hkeys]
    exact T.unique

theorem mem_update {T : Table R} {p : R → Bool} {f : R → R}
    {hf : ∀ r, key (f r) = key r} {x : R} :
    x ∈ T.update p f hf ↔ ∃ r ∈ T, (if p r then f r else r) = x := List.mem_map

theorem exists_mem_update {T : Table R} {p : R → Bool} {f : R → R}
    {hf : ∀ r, key (f r) = key r} {Q : R → Prop} :
    (∃ x ∈ T.update p f hf, Q x) ↔ ∃ r ∈ T, Q (if p r then f r else r) := by
  simp only [mem_update]
  constructor
  · rintro ⟨_, ⟨r, hr, rfl⟩, hq⟩
    exact ⟨r, hr, hq⟩
  · rintro ⟨r, hr, hq⟩
    exact ⟨_, ⟨r, hr, rfl⟩, hq⟩

/-- `INSERT` of a row whose key is new. -/
def push (T : Table R) (r : R) (h : ∀ x ∈ T, key x ≠ key r) : Table R where
  rows := T.rows ++ [r]
  unique := by
    rw [List.map_append, List.map_singleton, List.nodup_append]
    refine ⟨T.unique, List.nodup_singleton _, ?_⟩
    rintro a ha b hb rfl
    obtain ⟨x, hx, rfl⟩ := List.mem_map.mp ha
    exact h x hx (List.mem_singleton.mp hb)

theorem mem_push {T : Table R} {r x : R} {h : ∀ x ∈ T, key x ≠ key r} :
    x ∈ T.push r h ↔ x ∈ T ∨ x = r := by
  rw [← mem_rows, push, List.mem_append, List.mem_singleton]
  rfl

/-! ## `ORDER BY` -/

section OrderBy

variable {α β : Type*} [LinearOrder α] [LinearOrder β]

omit [Keyed R K] in
theorem pairwise_insertionSort_key (f : R → α) (l : List R) :
    (l.insertionSort fun a b => f a ≤ f b).Pairwise fun a b => f a ≤ f b := by
  have : Std.Total fun a b : R => f a ≤ f b := ⟨fun a b => le_total (f a) (f b)⟩
  have : IsTrans R fun a b => f a ≤ f b := ⟨fun _ _ _ => le_trans⟩
  exact List.pairwise_insertionSort _ _

/-- `SELECT … WHERE p ORDER BY f`. -/
def orderBy (T : Table R) (p : R → Bool) (f : R → α) : List R :=
  (T.select p).insertionSort fun a b => f a ≤ f b

@[simp] theorem mem_orderBy {T : Table R} {p : R → Bool} {f : R → α} {r : R} :
    r ∈ T.orderBy p f ↔ r ∈ T ∧ p r = true := by
  unfold orderBy
  rw [List.mem_insertionSort, mem_select]

theorem orderBy_perm (T : Table R) (p : R → Bool) (f : R → α) :
    (T.orderBy p f).Perm (T.select p) := List.perm_insertionSort _ _

theorem orderBy_pairwise (T : Table R) (p : R → Bool) (f : R → α) :
    (T.orderBy p f).Pairwise fun a b => f a ≤ f b := pairwise_insertionSort_key f _

/-- Rows that differ in what they are ordered by are ordered strictly. -/
theorem orderBy_pairwise_lt {T : Table R} {p : R → Bool} {f : R → α}
    (hf : ∀ a ∈ T, ∀ b ∈ T, f a = f b → a = b) :
    (T.orderBy p f).Pairwise fun a b => f a < f b := by
  have hrows : T.rows.Nodup := List.Nodup.of_map key T.unique
  have hnodup : (T.orderBy p f).Nodup :=
    (orderBy_perm T p f).nodup_iff.mpr (hrows.sublist List.filter_sublist)
  refine ((orderBy_pairwise T p f).and hnodup).imp_of_mem ?_
  rintro a b ha hb ⟨hle, hne⟩
  refine lt_of_le_of_ne hle fun heq => hne ?_
  exact hf a (mem_orderBy.mp ha).1 b (mem_orderBy.mp hb).1 heq

/-- A view of some rows is cut out of the view of all, when its order is the
same on them. -/
theorem filter_orderBy {T : Table R} {p : R → Bool} {f : R → α} {g : R → β}
    (hle : ∀ a ∈ T, ∀ b ∈ T, p a = true → p b = true → (f a ≤ f b ↔ g a ≤ g b))
    (hf : ∀ a ∈ T, ∀ b ∈ T, f a = f b → a = b) :
    T.orderBy p g = (T.orderBy (fun _ => true) f).filter p := by
  have hmem : ∀ a, a ∈ T.orderBy p g → a ∈ T ∧ p a = true := fun a => mem_orderBy.mp
  have hfmem : ∀ a, a ∈ (T.orderBy (fun _ => true) f).filter p → a ∈ T ∧ p a = true := by
    intro a ha
    obtain ⟨ha, hp⟩ := List.mem_filter.mp ha
    exact ⟨(mem_orderBy.mp ha).1, hp⟩
  have hanti : ∀ a b, a ∈ T.orderBy p g → b ∈ (T.orderBy (fun _ => true) f).filter p →
      f a ≤ f b → f b ≤ f a → a = b := by
    intro a b ha hb hab hba
    exact hf a (hmem a ha).1 b (hfmem b hb).1 (le_antisymm hab hba)
  have hview : (T.orderBy p g).Pairwise fun a b => f a ≤ f b := by
    refine (orderBy_pairwise T p g).imp_of_mem ?_
    intro a b ha hb hg
    exact (hle a (hmem a ha).1 b (hmem b hb).1 (hmem a ha).2 (hmem b hb).2).mpr hg
  have hcut : ((T.orderBy (fun _ => true) f).filter p).Pairwise fun a b => f a ≤ f b :=
    (orderBy_pairwise T _ f).sublist List.filter_sublist
  have hall : T.select (fun _ => true) = T.rows := List.filter_eq_self.mpr fun _ _ => rfl
  have hfilter := (orderBy_perm T (fun _ => true) f).filter p
  rw [hall] at hfilter
  exact List.Perm.eq_of_pairwise hanti hview hcut ((orderBy_perm T p g).trans hfilter.symm)

end OrderBy

/-! ## By key -/

variable [DecidableEq K]

/-- The row with the given key. -/
def get? (T : Table R) (k : K) : Option R := T.rows.find? fun r => key r = k

theorem get?_eq_some {T : Table R} {k : K} {r : R} :
    T.get? k = some r ↔ r ∈ T ∧ key r = k := by
  constructor
  · intro h
    exact ⟨List.mem_of_find?_eq_some h, by simpa using List.find?_some h⟩
  · rintro ⟨hr, hk⟩
    cases hf : T.get? k with
    | none =>
      have := List.find?_eq_none.mp hf r hr
      simp [hk] at this
    | some s =>
      have hs : key s = k := by simpa using List.find?_some hf
      rw [eq_of_key_eq (List.mem_of_find?_eq_some hf) hr (hs.trans hk.symm)]

theorem get?_eq_none {T : Table R} {k : K} :
    T.get? k = none ↔ ∀ r ∈ T, key r ≠ k := by
  simp only [get?, List.find?_eq_none, decide_eq_true_eq]
  rfl

/-- `INSERT`, refused when the key is taken. -/
def insert (T : Table R) (r : R) : Option (Table R) :=
  if h : ∀ x ∈ T.rows, key x ≠ key r then
    some ⟨T.rows ++ [r], by
      rw [List.map_append, List.map_singleton, List.nodup_append]
      refine ⟨T.unique, List.nodup_singleton _, ?_⟩
      rintro a ha b hb rfl
      obtain ⟨x, hx, rfl⟩ := List.mem_map.mp ha
      exact h x hx (List.mem_singleton.mp hb)⟩
  else none

theorem insert_eq_some {T U : Table R} {r : R} :
    T.insert r = some U ↔ (∀ x ∈ T, key x ≠ key r) ∧ U.rows = T.rows ++ [r] := by
  unfold insert
  split
  · rename_i h
    constructor
    · intro hU
      cases hU
      exact ⟨h, rfl⟩
    · rintro ⟨_, hU⟩
      exact congrArg some (ext hU.symm)
  · rename_i h
    constructor
    · intro hU
      cases hU
    · rintro ⟨h', _⟩
      exact absurd h' h

theorem insert_eq_none {T : Table R} {r : R} : T.insert r = none ↔ ∃ x ∈ T, key x = key r := by
  unfold insert
  split
  · rename_i h
    refine iff_of_false (by simp) ?_
    rintro ⟨x, hx, hkey⟩
    exact h x hx hkey
  · rename_i h
    refine iff_of_true rfl ?_
    push Not at h
    exact h

theorem mem_insert {T U : Table R} {r x : R} (h : T.insert r = some U) :
    x ∈ U ↔ x ∈ T ∨ x = r := by
  have hrows := (insert_eq_some.mp h).2
  rw [← mem_rows, hrows, List.mem_append, List.mem_singleton]
  rfl

theorem get?_insert {T U : Table R} {r : R} (h : T.insert r = some U) (k : K) :
    U.get? k = if k = key r then some r else T.get? k := by
  ext x
  rw [get?_eq_some, mem_insert h]
  by_cases hk : k = key r
  · rw [if_pos hk]
    constructor
    · rintro ⟨hx | rfl, hxk⟩
      · exact absurd (hxk.trans hk) ((insert_eq_some.mp h).1 x hx)
      · rfl
    · rintro ⟨⟩
      exact ⟨Or.inr rfl, hk.symm⟩
  · rw [if_neg hk, get?_eq_some]
    constructor
    · rintro ⟨hx | rfl, hxk⟩
      · exact ⟨hx, hxk⟩
      · exact absurd hxk.symm hk
    · rintro ⟨hx, hxk⟩
      exact ⟨Or.inl hx, hxk⟩

/-- `UPDATE … WHERE id = k`. -/
theorem get?_update {T : Table R} {f : R → R} (hf : ∀ r, key (f r) = key r) {p : R → Bool}
    {k : K} (hp : ∀ r, p r = true ↔ key r = k) (j : K) :
    (T.update p f hf).get? j = if j = k then (T.get? j).map f else T.get? j := by
  ext x
  rw [get?_eq_some, mem_update]
  by_cases hj : j = k
  · rw [if_pos hj, Option.map_eq_some_iff]
    constructor
    · rintro ⟨⟨r, hr, rfl⟩, hk⟩
      by_cases hpr : p r = true
      · rw [if_pos hpr]
        exact ⟨r, get?_eq_some.mpr ⟨hr, ((hp r).mp hpr).trans hj.symm⟩, rfl⟩
      · rw [if_neg hpr] at hk
        exact absurd ((hp r).mpr (hk.trans hj)) hpr
    · rintro ⟨r, hr, rfl⟩
      obtain ⟨hr, hk⟩ := get?_eq_some.mp hr
      exact ⟨⟨r, hr, if_pos ((hp r).mpr (hk.trans hj))⟩, (hf r).trans hk⟩
  · rw [if_neg hj, get?_eq_some]
    constructor
    · rintro ⟨⟨r, hr, rfl⟩, hk⟩
      have hpr : ¬ p r = true := fun hpr => by
        rw [if_pos hpr, hf r, (hp r).mp hpr] at hk
        exact hj hk.symm
      rw [if_neg hpr] at hk ⊢
      exact ⟨hr, hk⟩
    · rintro ⟨hx, hk⟩
      have hpx : ¬ p x = true := fun hpx => hj (hk.symm.trans ((hp x).mp hpx))
      exact ⟨⟨x, hx, if_neg hpx⟩, hk⟩

/-- `DELETE … WHERE id = k`. -/
theorem get?_delete {T : Table R} {p : R → Bool} {k : K} (hp : ∀ r, p r = true ↔ key r = k)
    (j : K) : (T.delete p).get? j = if j = k then none else T.get? j := by
  ext x
  rw [get?_eq_some, mem_delete]
  by_cases hj : j = k
  · rw [if_pos hj]
    refine iff_of_false ?_ (by simp)
    rintro ⟨⟨_, hpx⟩, hk⟩
    rw [(hp x).mpr (hk.trans hj)] at hpx
    cases hpx
  · rw [if_neg hj, get?_eq_some]
    constructor
    · rintro ⟨⟨hx, _⟩, hk⟩
      exact ⟨hx, hk⟩
    · rintro ⟨hx, hk⟩
      refine ⟨⟨hx, ?_⟩, hk⟩
      have hpx : ¬ p x = true := fun hpx => hj (hk.symm.trans ((hp x).mp hpx))
      simpa using hpx

end Table

/-! ## Changed columns -/

section Changed

variable {α : Type u} [DecidableEq α]

/-- What a flush sends of a column: the assigned value, when it differs from the
loaded one. -/
def changed (assigned : Option α) (loaded : α) : Option α := assigned.filter fun v => v ≠ loaded

theorem changed_getD (assigned : Option α) (loaded : α) :
    (changed assigned loaded).getD loaded = assigned.getD loaded := by
  cases assigned with
  | none => rfl
  | some v => by_cases h : v = loaded <;> simp [changed, Option.filter, h]

/-- An assigned value is sent, or it is the loaded one. -/
theorem changed_eq_or (assigned : Option α) (loaded : α) :
    changed assigned loaded = assigned ∨
      changed assigned loaded = none ∧ assigned = some loaded := by
  cases assigned with
  | none => exact .inl rfl
  | some v =>
    by_cases h : v = loaded
    · subst h
      exact .inr ⟨by simp [changed, Option.filter], rfl⟩
    · exact .inl (by simp [changed, Option.filter, h])

end Changed

end IsalesApi.Foundation
