import Mathlib.Tactic

/-!
# Answers to a run of requests

A service takes one request after the other: each is answered, and leaves a
state in which the next one is taken. One service implements another one under
an abstraction of its states when every request gets the same answer from both
and leaves states that agree. Then no run of requests can tell them apart.
-/

namespace IsalesApi.Foundation

universe u v w x

variable {σ : Type u} {τ : Type v} {ρ : Type w} {α : Type x}

/-- The answers to a run of requests, and the state it leaves. -/
def converse (respond : σ → ρ → α × σ) : σ → List ρ → List α × σ
  | s, [] => ([], s)
  | s, r :: rs =>
    let later := converse respond (respond s r).2 rs
    ((respond s r).1 :: later.1, later.2)

/-- A request that fails leaves the state as it was. -/
def settle {ε : Type x} (s : σ) : Except ε (α × σ) → Except ε α × σ
  | .ok (a, s') => (.ok a, s')
  | .error e => (.error e, s)

/-- Every request is answered alike, and the states that are left agree. -/
def Implements (abs : σ → τ) (respond : σ → ρ → α × σ) (spec : τ → ρ → α × τ) : Prop :=
  ∀ s r, spec (abs s) r = ((respond s r).1, abs (respond s r).2)

variable {abs : σ → τ} {respond : σ → ρ → α × σ} {spec : τ → ρ → α × τ}

theorem Implements.of_settle {ε : Type x} {run : σ → ρ → Except ε (α × σ)}
    {specRun : τ → ρ → Except ε (α × τ)}
    (h : ∀ s r, (run s r).map (Prod.map id abs) = specRun (abs s) r) :
    Implements abs (fun s r => settle s (run s r)) fun t r => settle t (specRun t r) := by
  intro s r
  show settle (abs s) (specRun (abs s) r) =
    ((settle s (run s r)).1, abs (settle s (run s r)).2)
  rw [← h s r]
  cases run s r <;> rfl

/-- **Simulation.** -/
theorem Implements.converse (h : Implements abs respond spec) (s : σ) (rs : List ρ) :
    Foundation.converse spec (abs s) rs =
      ((Foundation.converse respond s rs).1, abs (Foundation.converse respond s rs).2) := by
  induction rs generalizing s with
  | nil => rfl
  | cons r rs ih =>
    simp only [Foundation.converse]
    rw [h s r, ih]

/-- What the abstraction forgets cannot be seen. -/
theorem Implements.answers_eq (h : Implements abs respond spec) {s t : σ} (hst : abs s = abs t)
    (rs : List ρ) :
    (Foundation.converse respond s rs).1 = (Foundation.converse respond t rs).1 := by
  have hs := congrArg Prod.fst (h.converse s rs)
  have ht := congrArg Prod.fst (h.converse t rs)
  rw [hst] at hs
  exact hs.symm.trans ht

/-! ## Simulation by a relation -/

/-- Related states answer every request alike, and stay related. -/
def Simulates (R : σ → τ → Prop) (respond : σ → ρ → α × σ) (spec : τ → ρ → α × τ) : Prop :=
  ∀ s t r, R s t → (respond s r).1 = (spec t r).1 ∧ R (respond s r).2 (spec t r).2

theorem Simulates.converse {R : σ → τ → Prop} (h : Simulates R respond spec) {s : σ} {t : τ}
    (hst : R s t) (rs : List ρ) :
    (Foundation.converse respond s rs).1 = (Foundation.converse spec t rs).1 ∧
      R (Foundation.converse respond s rs).2 (Foundation.converse spec t rs).2 := by
  induction rs generalizing s t with
  | nil => exact ⟨rfl, hst⟩
  | cons r rs ih =>
    obtain ⟨hanswer, hnext⟩ := h s t r hst
    obtain ⟨hanswers, hlast⟩ := ih hnext
    simp only [Foundation.converse]
    exact ⟨congrArg₂ List.cons hanswer hanswers, hlast⟩

/-! ## Requests that change nothing -/

section Sift

variable (respond) (keep : σ → ρ → Prop) [∀ s r, Decidable (keep s r)]

/-- The requests that are kept, each judged in the state it comes in. -/
def sift : σ → List ρ → List ρ
  | _, [] => []
  | s, r :: rs => if keep s r then r :: sift (respond s r).2 rs else sift (respond s r).2 rs

variable {respond} {keep}

/-- Conditions that agree as long as `I` holds keep the same requests. -/
theorem sift_congr {keep' : σ → ρ → Prop} [∀ s r, Decidable (keep' s r)]
    {I : σ → List ρ → Prop} (hnext : ∀ s r rs, I s (r :: rs) → I (respond s r).2 rs)
    (hiff : ∀ s r rs, I s (r :: rs) → (keep s r ↔ keep' s r)) {s : σ} {rs : List ρ}
    (h : I s rs) : sift respond keep s rs = sift respond keep' s rs := by
  induction rs generalizing s with
  | nil => rfl
  | cons r rs ih =>
    simp only [sift]
    rw [ih (hnext s r rs h)]
    exact if_congr (hiff s r rs h) rfl rfl

variable (respond) (keep)

/-- **Purge.** Requests that leave the state as it was can be left out: the
others are answered as they were. -/
theorem converse_sift (h : ∀ s r, ¬ keep s r → (respond s r).2 = s) (s : σ) (rs : List ρ) :
    (Foundation.converse respond s (sift respond keep s rs)).2 =
        (Foundation.converse respond s rs).2 ∧
      ((sift respond keep s rs).zip
          (Foundation.converse respond s (sift respond keep s rs)).1).Sublist
        (rs.zip (Foundation.converse respond s rs).1) := by
  induction rs generalizing s with
  | nil => exact ⟨rfl, .refl _⟩
  | cons r rs ih =>
    obtain ⟨hstate, hanswers⟩ := ih (respond s r).2
    simp only [sift]
    by_cases hkeep : keep s r
    · simp only [if_pos hkeep, Foundation.converse, List.zip_cons_cons]
      exact ⟨hstate, hanswers.cons_cons _⟩
    · simp only [if_neg hkeep, Foundation.converse, List.zip_cons_cons]
      rw [h s r hkeep] at hstate hanswers ⊢
      exact ⟨hstate, hanswers.cons _⟩

end Sift

end IsalesApi.Foundation
