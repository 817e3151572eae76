import IsalesApi.Foundation.Pages
import Mathlib.Algebra.BigOperators.Group.List.Lemmas

/-!
# Grouped counts

`SELECT f, COUNT(*) … GROUP BY f` and the `dict` that is made of its rows. A
value that no row has is not in it; every other value has its count, and the
counts add up to the number of rows.
-/

namespace IsalesApi.Foundation

universe u v

/-! ## `dict` -/

section Dict

variable {K : Type u} {V : Type v} [DecidableEq K] {d : List (K × V)} {k : K} {v : V}

/-- `d[k] = v`. -/
def dictSet (k : K) (v : V) : List (K × V) → List (K × V)
  | [] => [(k, v)]
  | p :: d => if p.1 = k then (k, v) :: d else p :: dictSet k v d

/-- `{k: v for k, v in pairs}`. -/
def dictOf (pairs : List (K × V)) : List (K × V) :=
  pairs.foldl (fun d p => dictSet p.1 p.2 d) []

theorem dictSet_of_not_mem (h : k ∉ d.map Prod.fst) : dictSet k v d = d ++ [(k, v)] := by
  induction d with
  | nil => rfl
  | cons p d ih =>
    rw [List.map_cons, List.mem_cons, not_or] at h
    rw [dictSet, if_neg (Ne.symm h.1), ih h.2, List.cons_append]

/-- Distinct keys do not overwrite each other. -/
theorem dictOf_of_nodup {pairs : List (K × V)} (h : (pairs.map Prod.fst).Nodup) :
    dictOf pairs = pairs := by
  have hfold : ∀ (pairs d : List (K × V)), ((d ++ pairs).map Prod.fst).Nodup →
      pairs.foldl (fun d p => dictSet p.1 p.2 d) d = d ++ pairs := by
    intro pairs
    induction pairs with
    | nil =>
      intro d _
      exact (List.append_nil d).symm
    | cons p pairs ih =>
      intro d h
      have hp : p.1 ∉ d.map Prod.fst := by
        intro hp
        rw [List.map_append, List.nodup_append] at h
        exact h.2.2 p.1 hp p.1 List.mem_cons_self rfl
      rw [List.foldl_cons, dictSet_of_not_mem hp, ih, List.append_assoc, List.singleton_append]
      rwa [List.append_assoc, List.singleton_append]
  exact hfold pairs [] h

theorem lookup_eq_some {d : List (K × V)} (h : (d.map Prod.fst).Nodup) :
    d.lookup k = some v ↔ (k, v) ∈ d := by
  induction d with
  | nil => simp
  | cons p d ih =>
    obtain ⟨k', v'⟩ := p
    rw [List.map_cons, List.nodup_cons] at h
    rw [List.lookup_cons, List.mem_cons]
    by_cases hk : k = k'
    · subst hk
      have hnot : (k, v) ∉ d := fun hmem =>
        h.1 (List.mem_map.mpr ⟨(k, v), hmem, rfl⟩)
      simp [hnot, eq_comm]
    · have hne : (k == k') = false := by simpa using hk
      simp [hne, ih h.2, hk]

end Dict

/-! ## `GROUP BY` -/

section Group

variable {A : Type u} {K : Type v} [DecidableEq K] {f : A → K} {l : List A}

/-- `SELECT f, COUNT(*) … GROUP BY f`; the groups come in no particular order. -/
def groupCount (scan : Scan (K × Nat)) (f : A → K) (l : List A) : List (K × Nat) :=
  scan.order ((l.map f).dedup.map fun k => (k, l.countP fun a => f a = k))

variable {scan : Scan (K × Nat)}

theorem mem_groupCount {k : K} {n : Nat} :
    (k, n) ∈ groupCount scan f l ↔ 0 < n ∧ n = l.countP fun a => f a = k := by
  rw [groupCount, (scan.perm _).mem_iff]
  simp only [List.mem_map, List.mem_dedup, Prod.mk.injEq]
  constructor
  · rintro ⟨_, ⟨a, ha, rfl⟩, rfl, rfl⟩
    exact ⟨List.countP_pos_iff.mpr ⟨a, ha, by simp⟩, rfl⟩
  · rintro ⟨hpos, rfl⟩
    obtain ⟨a, ha, hk⟩ := List.countP_pos_iff.mp hpos
    exact ⟨k, ⟨a, ha, by simpa using hk⟩, rfl, rfl⟩

theorem groupCount_nodup : ((groupCount scan f l).map Prod.fst).Nodup := by
  rw [groupCount, ((scan.perm _).map Prod.fst).nodup_iff, List.map_map]
  show ((l.map f).dedup.map id).Nodup
  rw [List.map_id]
  exact List.nodup_dedup _

/-- Every row is in one group. -/
theorem sum_groupCount : ((groupCount scan f l).map Prod.snd).sum = l.length := by
  rw [groupCount, ((scan.perm _).map Prod.snd).sum_eq, List.map_map]
  have hcount : (Prod.snd ∘ fun k => (k, l.countP fun a => f a = k)) =
      fun k => (l.map f).count k := by
    funext k
    rw [Function.comp_apply, List.count_eq_countP, List.countP_map]
    exact List.countP_congr fun a _ => by simp
  rw [hcount, List.sum_map_count_dedup_eq_length, List.length_map]

/-- The count of a value, and none of a value that no row has. -/
theorem lookup_groupCount (k : K) :
    (groupCount scan f l).lookup k =
      if l.countP (fun a => f a = k) = 0 then none else some (l.countP fun a => f a = k) := by
  split
  · rename_i hzero
    refine Option.eq_none_iff_forall_ne_some.mpr fun n hn => ?_
    obtain ⟨hpos, rfl⟩ := mem_groupCount.mp ((lookup_eq_some groupCount_nodup).mp hn)
    exact absurd hzero (Nat.ne_of_gt hpos)
  · rename_i hpos
    exact (lookup_eq_some groupCount_nodup).mpr (mem_groupCount.mpr ⟨Nat.pos_of_ne_zero hpos, rfl⟩)

end Group

end IsalesApi.Foundation
