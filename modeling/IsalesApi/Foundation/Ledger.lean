import Mathlib.Tactic

/-!
# The map a history of writes leaves

Each item of a history puts a value under a key, drops an entry by the id it was
put with, or does neither. The map kept while the history runs and the reading
of the history after the fact agree: an entry is there when its put is the last
one of its key and nothing has dropped its id since.
-/

namespace IsalesApi.Foundation

universe u

inductive Effect (K I V : Type u) where
  | put (k : K) (i : I) (v : V)
  | drop (i : I)
  | keep

section Ledger

variable {K I V α : Type u}

variable (effect : α → Effect K I V)

/-- The history puts `v` under `k` with the id `i`, and since then it has
neither put anything else there nor dropped `i`. -/
def LastPut (h : List α) (k : K) (i : I) (v : V) : Prop :=
  ∃ before a after, h = before ++ a :: after ∧ effect a = .put k i v ∧
    ∀ b ∈ after, (∀ j w, effect b ≠ .put k j w) ∧ effect b ≠ .drop i

variable {effect}

/-- What one more item does to the last put of a key. -/
theorem lastPut_snoc {h : List α} {a : α} {k : K} {i : I} {v : V} :
    LastPut effect (h ++ [a]) k i v ↔ effect a = .put k i v ∨
      (LastPut effect h k i v ∧ (∀ j w, effect a ≠ .put k j w) ∧ effect a ≠ .drop i) := by
  constructor
  · rintro ⟨before, b, after, hsplit, hput, hafter⟩
    rcases List.eq_nil_or_concat after with rfl | ⟨after, c, rfl⟩
    · have hlast := List.append_inj_right' hsplit rfl
      cases hlast
      exact Or.inl hput
    · rw [List.concat_eq_append] at hsplit hafter
      rw [← List.cons_append, ← List.append_assoc] at hsplit
      obtain ⟨rfl, hlast⟩ := List.append_inj' hsplit rfl
      cases hlast
      refine Or.inr ⟨⟨before, b, after, rfl, hput, ?_⟩, hafter a (by simp)⟩
      intro d hd
      exact hafter d (List.mem_append_left _ hd)
  · rintro (hput | ⟨⟨before, b, after, rfl, hput, hafter⟩, ha⟩)
    · exact ⟨h, a, [], rfl, hput, by simp⟩
    · refine ⟨before, b, after ++ [a], by simp, hput, ?_⟩
      intro d hd
      rcases List.mem_append.mp hd with hd | hd
      · exact hafter d hd
      · rw [List.mem_singleton.mp hd]
        exact ha

variable [DecidableEq K] [DecidableEq I]

/-- The map after one effect. -/
def Effect.act : Effect K I V → (K → Option (I × V)) → K → Option (I × V)
  | put k i v, m => Function.update m k (some (i, v))
  | drop i, m => fun k => (m k).filter fun p => p.1 ≠ i
  | keep, m => m

/-- The map a history leaves. -/
def ledger (effect : α → Effect K I V) (h : List α) : K → Option (I × V) :=
  h.foldl (fun m a => (effect a).act m) fun _ => none

theorem ledger_snoc (h : List α) (a : α) :
    ledger effect (h ++ [a]) = (effect a).act (ledger effect h) := by
  unfold ledger
  rw [List.foldl_append]
  rfl

/-- **The ledger rule.** -/
theorem ledger_eq_some {h : List α} {k : K} {i : I} {v : V} :
    ledger effect h k = some (i, v) ↔ LastPut effect h k i v := by
  induction h using List.reverseRecOn generalizing i v with
  | nil =>
    refine iff_of_false (by simp [ledger]) ?_
    rintro ⟨before, a, after, hsplit, _⟩
    simp at hsplit
  | append_singleton h a ih =>
    rw [ledger_snoc, lastPut_snoc, ← ih]
    cases ha : effect a with
    | put k' i' v' =>
      by_cases hk : k = k'
      · subst hk
        simp [Effect.act, Function.update_self]
      · have hk' : k' ≠ k := fun heq => hk heq.symm
        simp [Effect.act, Function.update_of_ne hk, hk']
    | drop i' =>
      simp only [Effect.act, Option.filter_eq_some_iff, decide_eq_true_eq, reduceCtorEq, ne_eq,
        not_false_eq_true, implies_true, true_and, false_or, Effect.drop.injEq]
      exact and_congr_right fun _ => not_congr eq_comm
    | keep => simp [Effect.act]

end Ledger

end IsalesApi.Foundation
