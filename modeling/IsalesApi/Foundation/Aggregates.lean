import Mathlib.Tactic
import Mathlib.Algebra.BigOperators.Group.Finset.Basic
import Mathlib.Algebra.BigOperators.Group.List.Basic

/-!
# Aggregates of selected rows

`SUM`, `COALESCE` and the left outer join of SQL, and the `tally` of a
selection: the sum of a weight over the rows that meet a condition. Every
aggregate of the kind is a tally, a tally is additive in its condition, and the
tallies of the values of a column add up.
-/

namespace IsalesApi.Foundation

universe u v

variable {A : Type u} {B : Type v} {l : List A} {p q r : A → Bool} {w : A → Int}

/-! ## Tallies -/

def tally (p : A → Bool) (w : A → Int) (l : List A) : Int := ((l.filter p).map w).sum

@[simp] theorem tally_nil : tally p w [] = 0 := rfl

theorem tally_cons (a : A) (l : List A) :
    tally p w (a :: l) = (if p a then w a else 0) + tally p w l := by
  unfold tally
  by_cases h : p a <;> simp [h]

theorem tally_one : tally p (fun _ => 1) l = (l.countP p : Int) := by
  simp [tally, List.countP_eq_length_filter]

theorem tally_indicator :
    tally p (fun a => if q a then 1 else 0) l = (l.countP fun a => p a && q a : Int) := by
  induction l with
  | nil => rfl
  | cons a l ih =>
    rw [tally_cons, ih, List.countP_cons]
    cases p a <;> cases q a <;> simp [add_comm]

/-- A condition that is met in exactly one of two ways. -/
theorem tally_split (h : ∀ a ∈ l, p a = (q a || r a)) (hdisjoint : ∀ a ∈ l, ¬ (q a ∧ r a)) :
    tally p w l = tally q w l + tally r w l := by
  induction l with
  | nil => rfl
  | cons a l ih =>
    have ih := ih (fun x hx => h x (List.mem_cons_of_mem a hx))
      (fun x hx => hdisjoint x (List.mem_cons_of_mem a hx))
    have hp := h a List.mem_cons_self
    have hqr := hdisjoint a List.mem_cons_self
    rw [tally_cons, tally_cons, tally_cons, ih, hp]
    cases hq : q a
    · cases hr : r a <;> simp [add_left_comm]
    · cases hr : r a
      · simp [add_assoc]
      · exact absurd ⟨hq, hr⟩ hqr

/-- The tallies of the values of a column. -/
theorem tally_fiberwise {K : Type v} [DecidableEq K] {f : A → K} {S : Finset K}
    (hS : ∀ a ∈ l, f a ∈ S) :
    tally p w l = ∑ k ∈ S, tally (fun a => p a && decide (f a = k)) w l := by
  induction l with
  | nil => simp
  | cons a l ih =>
    have ih := ih fun x hx => hS x (List.mem_cons_of_mem a hx)
    have hone : ∑ k ∈ S, (if (p a && decide (f a = k)) = true then w a else 0) =
        if p a then w a else 0 := by
      by_cases hp : p a
      · simp [hp, hS a List.mem_cons_self]
      · simp [hp]
    simp only [tally_cons, Finset.sum_add_distrib, ← ih, hone]

/-- Counting by buckets is counting by rows. -/
theorem sum_countP_comm {bs : List B} {cond : B → A → Bool} :
    (bs.map fun b => (l.countP (cond b) : Int)).sum =
      (l.map fun a => (bs.countP fun b => cond b a : Int)).sum := by
  induction l with
  | nil => simp
  | cons a l ih =>
    have hcons : (bs.map fun b => ((a :: l).countP (cond b) : Int)).sum =
        (bs.map fun b => (l.countP (cond b) : Int)).sum +
          (bs.map fun b => if cond b a then (1 : Int) else 0).sum := by
      rw [← List.sum_map_add]
      simp [List.countP_cons]
    have hcount : (bs.map fun b => if cond b a then (1 : Int) else 0).sum =
        (bs.countP fun b => cond b a : Int) := by
      simpa [tally] using tally_indicator (p := fun _ => true) (q := fun b => cond b a) (l := bs)
    rw [hcons, hcount, ih, List.map_cons, List.sum_cons, add_comm]

/-! ## `SUM` -/

/-- `SUM`, which is `NULL` over no rows. -/
def sqlSum (l : List Int) : Option Int := if l = [] then none else some l.sum

/-- `COALESCE(SUM(…), 0)`. -/
theorem sqlSum_getD (l : List Int) : (sqlSum l).getD 0 = l.sum := by
  unfold sqlSum
  by_cases h : l = [] <;> simp [h]

/-- The sum of a `CASE` of one and zero counts some of the rows. -/
theorem sum_cases (h : ∀ a ∈ l, 0 ≤ w a ∧ w a ≤ 1) :
    0 ≤ (l.map w).sum ∧ (l.map w).sum ≤ l.length := by
  induction l with
  | nil => exact ⟨le_rfl, le_rfl⟩
  | cons a l ih =>
    obtain ⟨hlow, hhigh⟩ := ih fun x hx => h x (List.mem_cons_of_mem a hx)
    obtain ⟨hlow', hhigh'⟩ := h a List.mem_cons_self
    rw [List.map_cons, List.sum_cons, List.length_cons]
    push_cast
    omega

/-! ## The left outer join -/

section Join

variable (on : A → B → Bool) (bs : List B)

/-- The rows a row of the left table makes. -/
def joined (a : A) : List (A × Option B) :=
  match bs.filter (on a) with
  | [] => [(a, none)]
  | ms => ms.map fun b => (a, some b)

/-- `FROM a LEFT OUTER JOIN b ON …`. -/
def leftJoin (as : List A) : List (A × Option B) := as.flatMap (joined on bs)

variable {on bs}

theorem fst_of_mem_joined {a : A} {x : A × Option B} (h : x ∈ joined on bs a) : x.1 = a := by
  unfold joined at h
  split at h
  · rw [List.mem_singleton.mp h]
  · obtain ⟨b, _, rfl⟩ := List.mem_map.mp h
    rfl

/-- An aggregate over the rows of a join is a tally of the left rows. -/
theorem sum_leftJoin {w : A × Option B → Int} (as : List A) :
    (((leftJoin on bs as).filter fun x => p x.1).map w).sum =
      tally p (fun a => ((joined on bs a).map w).sum) as := by
  induction as with
  | nil => rfl
  | cons a as ih =>
    have hfst : ∀ x ∈ joined on bs a, p x.1 = p a := fun x hx => by rw [fst_of_mem_joined hx]
    rw [tally_cons, ← ih, leftJoin, List.flatMap_cons, List.filter_append, List.map_append,
      List.sum_append, ← leftJoin]
    by_cases hp : p a
    · rw [List.filter_eq_self.mpr fun x hx => (hfst x hx).trans hp, if_pos hp]
    · rw [List.filter_eq_nil_iff.mpr fun x hx => by rw [hfst x hx]; exact hp, if_neg hp]
      rfl

/-- At most one row of the right table matches: each left row makes one. -/
theorem joined_of_unique {a : A} (h : ∀ b ∈ bs, ∀ c ∈ bs, on a b → on a c → b = c)
    (hbs : bs.Nodup) : ∃ b, joined on bs a = [(a, b)] := by
  unfold joined
  cases hms : bs.filter (on a) with
  | nil => exact ⟨none, rfl⟩
  | cons b ms =>
    have hmem : ∀ c ∈ b :: ms, c ∈ bs ∧ on a c = true := fun c hc =>
      List.mem_filter.mp (hms ▸ hc)
    have hnodup : (b :: ms).Nodup := hms ▸ hbs.sublist List.filter_sublist
    have hms : ms = [] := by
      refine List.eq_nil_iff_forall_not_mem.mpr fun c hc => ?_
      obtain ⟨hb, hob⟩ := hmem b List.mem_cons_self
      obtain ⟨hc', hoc⟩ := hmem c (List.mem_cons_of_mem b hc)
      exact (List.nodup_cons.mp hnodup).1 (h b hb c hc' hob hoc ▸ hc)
    subst hms
    exact ⟨some b, rfl⟩

end Join

end IsalesApi.Foundation
