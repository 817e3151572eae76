import IsalesApi.Foundation.Transition
import Mathlib

/-!
# Systems that come to rest

Some actions a system takes by itself, the others come from outside. If every
action of its own leaves less work, in a well-founded order, then left alone the
system comes to rest, whichever of its actions comes first. What is left is
often counted over a dict whose keys are handed out in order (`load`).
-/

namespace IsalesApi.Foundation

section Settling

variable {σ α : Type} {step : σ → α → Option σ} {own : α → Prop} {Q : σ → Prop} {s : σ}

/-- No action of its own is possible. -/
def AtRest (step : σ → α → Option σ) (own : α → Prop) (s : σ) : Prop :=
  ∀ a, own a → step s a = none

/-- Own actions can go on for ever. -/
def Endless (step : σ → α → Option σ) (own : α → Prop) (s : σ) : Prop :=
  ∃ f : ℕ → σ, f 0 = s ∧ ∀ n, ∃ a, own a ∧ step (f n) a = some (f (n + 1))

/-- Left alone, the system comes to rest, and only where `Q` holds. -/
structure Settles (step : σ → α → Option σ) (own : α → Prop) (Q : σ → Prop) (s : σ) : Prop where
  ends : ¬ Endless step own s
  rest : ∀ as t, (∀ a ∈ as, own a) → exec step s as = some t → AtRest step own t → Q t

theorem not_endless {β : Type} [Preorder β] [WellFoundedLT β] {I : σ → Prop} {work : σ → β}
    (hkeep : ∀ s a s', I s → own a → step s a = some s' → I s')
    (hless : ∀ s a s', I s → own a → step s a = some s' → work s' < work s) (hs : I s) :
    ¬ Endless step own s := by
  rintro ⟨f, rfl, hf⟩
  have hinv : ∀ n, I (f n) := by
    intro n
    induction n with
    | zero => exact hs
    | succ n ih =>
      obtain ⟨a, hown, ha⟩ := hf n
      exact hkeep _ a _ ih hown ha
  obtain ⟨n, hn⟩ := WellFounded.not_rel_apply_succ (r := (· < ·)) fun n => work (f n)
  obtain ⟨a, hown, ha⟩ := hf n
  exact hn (hless _ a _ (hinv n) hown ha)

/-- **Settling rule.** Own actions keep `I` and leave less work, and with `I` the
system rests only where `Q` holds. -/
theorem settles_of_work {β : Type} [Preorder β] [WellFoundedLT β] {I : σ → Prop} (work : σ → β)
    (hkeep : ∀ s a s', I s → own a → step s a = some s' → I s')
    (hless : ∀ s a s', I s → own a → step s a = some s' → work s' < work s)
    (hrest : ∀ s, I s → AtRest step own s → Q s) (hs : I s) : Settles step own Q s where
  ends := not_endless hkeep hless hs
  rest := by
    intro as t hown hexec
    have ht : I t := exec_of_along (P := fun _ a => own a) hkeep hs
      (Along.of_mem (fun a ha _ => hown a ha) s) hexec
    exact hrest t ht

/-- The states that own actions lead to. -/
def Reached (step : σ → α → Option σ) (own : α → Prop) (s t : σ) : Prop :=
  ∃ as, (∀ a ∈ as, own a) ∧ exec step s as = some t

theorem Reached.next {t t' : σ} (h : Reached step own s t) {a : α} (ha : own a)
    (hs : step t a = some t') : Reached step own s t' := by
  obtain ⟨as, hown, hexec⟩ := h
  refine ⟨as ++ [a], fun b hb => ?_, exec_append.mpr ⟨t, hexec, exec_cons.mpr ⟨t', hs, rfl⟩⟩⟩
  rcases List.mem_append.mp hb with hb | hb
  · exact hown b hb
  · rw [List.mem_singleton.mp hb]
    exact ha

/-- A system that does not go on for ever does come to rest. -/
theorem Settles.exists_rest (h : Settles step own Q s) : ∃ t, Reached step own s t ∧ Q t := by
  by_contra hnone
  push Not at hnone
  -- from every state that is reached there is an own step to another one
  have hnext : ∀ t : {t // Reached step own s t}, ∃ t' : {t // Reached step own s t},
      ∃ a, own a ∧ step t.1 a = some t'.1 := by
    rintro ⟨t, hreached⟩
    have hmoves : ¬ AtRest step own t := by
      intro hrest
      obtain ⟨as, hown, hexec⟩ := hreached
      exact hnone t ⟨as, hown, hexec⟩ (h.rest as t hown hexec hrest)
    unfold AtRest at hmoves
    push Not at hmoves
    obtain ⟨a, ha, hstep⟩ := hmoves
    obtain ⟨t', ht'⟩ := Option.ne_none_iff_exists'.mp hstep
    exact ⟨⟨t', hreached.next ha ht'⟩, a, ha, ht'⟩
  choose next hnext using hnext
  let start : {t // Reached step own s t} := ⟨s, [], by simp, exec_nil s⟩
  refine h.ends ⟨fun n => (next^[n] start).1, rfl, fun n => ?_⟩
  show ∃ a, own a ∧ step (next^[n] start).1 a = some (next^[n + 1] start).1
  rw [Function.iterate_succ_apply']
  exact hnext _

end Settling

/-! ## Work that is counted over a dict -/

section Load

variable {γ : Type} {w : γ → ℕ} {f g : ℕ → Option γ} {n i : ℕ}

/-- What the entries below `n` amount to. -/
def load (w : γ → ℕ) (f : ℕ → Option γ) (n : ℕ) : ℕ :=
  ∑ i ∈ Finset.range n, (f i).elim 0 w

theorem load_update_lt {old new : γ} (hi : f i = some old) (hn : i < n) (hlt : w new < w old) :
    load w (Function.update f i (some new)) n < load w f n := by
  refine Finset.sum_lt_sum (fun j _ => ?_) ⟨i, Finset.mem_range.mpr hn, ?_⟩
  · by_cases hj : j = i
    · subst hj
      simpa [hi] using hlt.le
    · simp [hj]
  · simpa [hi] using hlt

theorem load_update_eq {old new : γ} (hi : f i = some old) (heq : w new = w old) :
    load w (Function.update f i (some new)) n = load w f n := by
  refine Finset.sum_congr rfl fun j _ => ?_
  by_cases hj : j = i
  · subst hj
    simpa [hi] using heq
  · simp [hj]

end Load

end IsalesApi.Foundation
