import Mathlib.Tactic

/-!
# Loops that stop at the first error

A validation loop is a `foldlM` in `Except`: it carries what it has seen and
stops where the body raises. `stopsAt` says where that is. Two such loops over
one list stop at the same place with the same error when their bodies agree
under a relation between what they carry.
-/

namespace IsalesApi.Foundation

universe u

variable {σ τ α ε : Type u}

/-- The place and the error at which the loop stops, if it does. -/
def stopsAt (body : σ → α → Except ε σ) : σ → List α → Option (ℕ × ε)
  | _, [] => none
  | s, a :: as =>
    match body s a with
    | .error e => some (0, e)
    | .ok s' => (stopsAt body s' as).map fun p => (p.1 + 1, p.2)

variable {body : σ → α → Except ε σ}

theorem foldlM_cons_ok {s s' : σ} {a : α} {as : List α} (h : body s a = .ok s') :
    (a :: as).foldlM body s = as.foldlM body s' := by
  rw [List.foldlM_cons, h]
  rfl

theorem foldlM_cons_error {s : σ} {a : α} {as : List α} {e : ε} (h : body s a = .error e) :
    (a :: as).foldlM body s = .error e := by
  rw [List.foldlM_cons, h]
  rfl

theorem stopsAt_map {β : Type u} {f : β → α} {s : σ} {bs : List β} :
    stopsAt body s (bs.map f) = stopsAt (fun s b => body s (f b)) s bs := by
  induction bs generalizing s with
  | nil => rfl
  | cons b bs ih =>
    unfold stopsAt
    cases hbody : body s (f b) with
    | error e => simp only [hbody, List.map_cons]
    | ok s' => simp only [hbody, List.map_cons, ih]

theorem stopsAt_eq_none {s : σ} {as : List α} :
    stopsAt body s as = none ↔ ∃ t, as.foldlM body s = .ok t := by
  induction as generalizing s with
  | nil => exact iff_of_true rfl ⟨s, rfl⟩
  | cons a as ih =>
    unfold stopsAt
    cases hbody : body s a with
    | error e =>
      rw [foldlM_cons_error hbody]
      simp
    | ok s' =>
      rw [foldlM_cons_ok hbody, ← ih]
      simp

/-- The loop stops at `i` when it runs through the first `i` items and raises on
the next. -/
theorem stopsAt_eq_some {s : σ} {as : List α} {i : ℕ} {e : ε} :
    stopsAt body s as = some (i, e) ↔ i < as.length ∧
      (∃ t, (as.take i).foldlM body s = .ok t) ∧ (as.take (i + 1)).foldlM body s = .error e := by
  induction as generalizing s i with
  | nil => simp [stopsAt]
  | cons a as ih =>
    unfold stopsAt
    cases hbody : body s a with
    | error e' =>
      cases i with
      | zero =>
        have hfirst : (as.take 0).foldlM body s = .ok s := rfl
        have hstop : ((a :: as).take (0 + 1)).foldlM body s = .error e' := foldlM_cons_error hbody
        rw [hstop]
        simp only [Option.some.injEq, Prod.mk.injEq, true_and, Except.error.injEq]
        constructor
        · rintro rfl
          exact ⟨Nat.succ_pos _, ⟨s, hfirst⟩, rfl⟩
        · rintro ⟨_, _, rfl⟩
          rfl
      | succ i =>
        rw [List.take_succ_cons, foldlM_cons_error hbody]
        simp
    | ok s' =>
      cases i with
      | zero =>
        have hfirst : ((a :: as).take (0 + 1)).foldlM body s = .ok s' := foldlM_cons_ok hbody
        rw [hfirst]
        simp
      | succ i =>
        rw [List.take_succ_cons, List.take_succ_cons, foldlM_cons_ok hbody, foldlM_cons_ok hbody,
          List.length_cons, Nat.add_lt_add_iff_right, ← ih]
        simp only [Option.map_eq_some_iff, Prod.exists, Prod.mk.injEq, Nat.add_right_cancel_iff]
        constructor
        · rintro ⟨j, e', hstop, rfl, rfl⟩
          exact hstop
        · intro hstop
          exact ⟨i, e, hstop, rfl, rfl⟩

/-- A loop that raises stops somewhere. -/
theorem foldlM_eq_error {s : σ} {as : List α} {e : ε} :
    as.foldlM body s = .error e ↔ ∃ i, stopsAt body s as = some (i, e) := by
  induction as generalizing s with
  | nil => simp [stopsAt, pure, Except.pure]
  | cons a as ih =>
    unfold stopsAt
    cases hbody : body s a with
    | error e' =>
      rw [foldlM_cons_error hbody]
      simp
    | ok s' =>
      rw [foldlM_cons_ok hbody, ih]
      simp

/-- **Simulation of loops.** The bodies agree under `R`, except that the second
may raise the error `x` where the first goes on. Then the loops stop at the same
place with the same error, unless the second stops with `x`. -/
theorem stopsAt_simulates {body' : τ → α → Except ε τ} {R : σ → τ → Prop} {x : ε}
    (hbody : ∀ s t a, R s t → body' t a = .error x ∨
      (∃ e, body s a = .error e ∧ body' t a = .error e) ∨
      ∃ s' t', body s a = .ok s' ∧ body' t a = .ok t' ∧ R s' t')
    {s : σ} {t : τ} (hr : R s t) {as : List α} (hx : ∀ i, stopsAt body' t as ≠ some (i, x)) :
    stopsAt body s as = stopsAt body' t as := by
  induction as generalizing s t with
  | nil => rfl
  | cons a as ih =>
    unfold stopsAt at hx ⊢
    rcases hbody s t a hr with hstop | ⟨e, hs, ht⟩ | ⟨s', t', hs, ht, hr'⟩
    · rw [hstop] at hx
      exact absurd rfl (hx 0)
    · rw [hs, ht]
    · rw [ht] at hx
      rw [hs, ht]
      have hrest : ∀ i, stopsAt body' t' as ≠ some (i, x) := by
        intro i hi
        refine hx (i + 1) ?_
        simp only [hi, Option.map_some]
      simp only [ih hr' hrest]

end IsalesApi.Foundation
