import Mathlib.Tactic

/-!
# Runs of a transition function

A system is a function `step : σ → α → Option σ`: the actions `α` are chosen
by the environment, `none` says that the action is not possible in the state.
A run is a list of actions. `Along` states a condition on every step of a run,
in the state in which the step is taken, and `Always` states a property of
every state of it; `emitted` lists what the steps of a run put out. The induction
rules at the end carry the inductions over runs of the rest of the development.
-/

namespace IsalesApi.Foundation

universe u v w

variable {σ : Type u} {α : Type v} {ε : Type w} (step : σ → α → Option σ)

/-- The state after a run, `none` when some action was not possible. -/
def exec : σ → List α → Option σ
  | s, [] => some s
  | s, a :: as => (step s a).bind fun s' => exec s' as

/-- Every step of the run that is taken meets `P` in the state it is taken in. -/
def Along (P : σ → α → Prop) : σ → List α → Prop
  | _, [] => True
  | s, a :: as => ∀ s', step s a = some s' → P s a ∧ Along P s' as

/-- `Q` holds in every state the run passes through, the first included. -/
def Always (Q : σ → Prop) : σ → List α → Prop
  | s, [] => Q s
  | s, a :: as => Q s ∧ ∀ s', step s a = some s' → Always Q s' as

/-- What the steps of a run put out, each by its action and the state after it. -/
def emitted (emits : α → σ → List ε) : σ → List α → List ε
  | _, [] => []
  | s, a :: as => (step s a).elim [] fun s' => emits a s' ++ emitted emits s' as

variable {step}

@[simp] theorem exec_nil (s : σ) : exec step s [] = some s := rfl

theorem exec_cons {s t : σ} {a : α} {as : List α} :
    exec step s (a :: as) = some t ↔
      ∃ m, step s a = some m ∧ exec step m as = some t := by
  simp [exec, Option.bind_eq_some_iff]

theorem exec_append {s t : σ} {as bs : List α} :
    exec step s (as ++ bs) = some t ↔
      ∃ m, exec step s as = some m ∧ exec step m bs = some t := by
  induction as generalizing s with
  | nil => simp
  | cons a as ih =>
    rw [List.cons_append, exec_cons]
    constructor
    · rintro ⟨m, hm, h⟩
      obtain ⟨m', hm', h'⟩ := ih.mp h
      exact ⟨m', exec_cons.mpr ⟨m, hm, hm'⟩, h'⟩
    · rintro ⟨m', hm', h'⟩
      obtain ⟨m, hm, h⟩ := exec_cons.mp hm'
      exact ⟨m, hm, ih.mpr ⟨m', h, h'⟩⟩

theorem emitted_cons {emits : α → σ → List ε} {s m : σ} {a : α} (h : step s a = some m)
    (as : List α) :
    emitted step emits s (a :: as) = emits a m ++ emitted step emits m as := by
  rw [emitted, h]
  rfl

theorem Along.of_forall {P : σ → α → Prop} (h : ∀ s a, P s a) :
    ∀ (s : σ) (as : List α), Along step P s as
  | _, [] => trivial
  | s, a :: as => fun s' _ => ⟨h s a, Along.of_forall h s' as⟩

/-- A condition on the actions alone. -/
theorem Along.of_mem {P : σ → α → Prop} {as : List α} (h : ∀ a ∈ as, ∀ s, P s a) (s : σ) :
    Along step P s as := by
  induction as generalizing s with
  | nil => trivial
  | cons a as ih =>
    exact fun s' _ => ⟨h a List.mem_cons_self s,
      ih (fun b hb => h b (List.mem_cons_of_mem a hb)) s'⟩

theorem Always.head {Q : σ → Prop} {s : σ} {as : List α} (h : Always step Q s as) :
    Q s := by
  cases as with
  | nil => exact h
  | cons a as => exact h.1

theorem Always.last {Q : σ → Prop} {s t : σ} {as : List α} (h : Always step Q s as)
    (hs : exec step s as = some t) : Q t := by
  induction as generalizing s with
  | nil => cases hs; exact h
  | cons a as ih =>
    obtain ⟨m, hm, hr⟩ := exec_cons.mp hs
    exact ih (h.2 m hm) hr

theorem Always.mono {Q R : σ → Prop} (h : ∀ s, Q s → R s) {s : σ} {as : List α}
    (hq : Always step Q s as) : Always step R s as := by
  induction as generalizing s with
  | nil => exact h s hq
  | cons a as ih => exact ⟨h s hq.1, fun s' hs => ih (hq.2 s' hs)⟩

/-- **Invariant rule.** What every step that meets `P` preserves holds in
every state of a run whose steps all meet `P`. -/
theorem always_of_along {P : σ → α → Prop} {I : σ → Prop}
    (hstep : ∀ s a s', I s → P s a → step s a = some s' → I s') {s : σ}
    {as : List α} (hs : I s) (hp : Along step P s as) : Always step I s as := by
  induction as generalizing s with
  | nil => exact hs
  | cons a as ih =>
    exact ⟨hs, fun s' h => ih (hstep s a s' hs (hp s' h).1 h) (hp s' h).2⟩

/-- The invariant rule for an invariant that every step preserves. -/
theorem always_of_step {I : σ → Prop}
    (hstep : ∀ s a s', I s → step s a = some s' → I s') {s : σ} (hs : I s)
    (as : List α) : Always step I s as :=
  always_of_along (P := fun _ _ => True) (fun s a s' hi _ h => hstep s a s' hi h) hs
    (Along.of_forall (fun _ _ => trivial) s as)

theorem exec_of_along {P : σ → α → Prop} {I : σ → Prop}
    (hstep : ∀ s a s', I s → P s a → step s a = some s' → I s') {s t : σ}
    {as : List α} (hs : I s) (hp : Along step P s as)
    (h : exec step s as = some t) : I t :=
  (always_of_along hstep hs hp).last h

theorem exec_of_step {I : σ → Prop}
    (hstep : ∀ s a s', I s → step s a = some s' → I s') {s t : σ}
    {as : List α} (hs : I s) (h : exec step s as = some t) : I t :=
  (always_of_step hstep hs as).last h

/-- **Invariant rule with the past.** The invariant is one of the state and of
what the steps that led there have put out. -/
theorem exec_of_emitted {emits : α → σ → List ε} {I : σ → List ε → Prop}
    (hstep : ∀ s a s' es, I s es → step s a = some s' → I s' (es ++ emits a s')) {s t : σ}
    {es : List ε} {as : List α} (hs : I s es) (h : exec step s as = some t) :
    I t (es ++ emitted step emits s as) := by
  induction as generalizing s es with
  | nil =>
    cases h
    rwa [emitted, List.append_nil]
  | cons a as ih =>
    obtain ⟨m, hm, hr⟩ := exec_cons.mp h
    have hnext : I m (es ++ emits a m) := hstep s a m es hs hm
    rw [emitted_cons hm, ← List.append_assoc]
    exact ih hnext hr

/-- What holds after every run holds in every state of one. -/
theorem always_of_exec {Q : σ → Prop} {s : σ} (h : ∀ as t, exec step s as = some t → Q t)
    (as : List α) : Always step Q s as := by
  induction as generalizing s with
  | nil => exact h [] s rfl
  | cons a as ih =>
    refine ⟨h [] s rfl, fun s' hs => ih fun bs t ht => ?_⟩
    exact h (a :: bs) t (exec_cons.mpr ⟨s', hs, ht⟩)

/-- A property that holds or else no step is left holds all along a run that
ends in it. -/
theorem always_of_last {Q R : σ → Prop} (hend : ∀ s a, R s → step s a = none) {s t : σ}
    {as : List α} (h : Always step (fun s => Q s ∨ R s) s as) (hs : exec step s as = some t)
    (ht : Q t) : Always step Q s as := by
  induction as generalizing s with
  | nil =>
    cases hs
    exact ht
  | cons a as ih =>
    obtain ⟨m, hm, hr⟩ := exec_cons.mp hs
    have hq : Q s := by
      rcases h.1 with hq | hstuck
      · exact hq
      · rw [hend s a hstuck] at hm
        cases hm
    refine ⟨hq, fun s' hs' => ?_⟩
    obtain rfl : m = s' := Option.some.inj (hm.symm.trans hs')
    exact ih (h.2 m hm) hr

/-- **Exactness rule.** Let `I` be an invariant, of a state and of the actions
that are still to come, under which one step leads from `Q` to `Q` exactly when
it meets `P`. Then `Q` holds all along a run if and only if every step of the
run meets `P`. -/
theorem always_iff_along_ahead {P : σ → α → Prop} {I : σ → List α → Prop} {Q : σ → Prop}
    (hstep : ∀ s a as s', I s (a :: as) → step s a = some s' → I s' as)
    (hexact : ∀ s a as s', I s (a :: as) → Q s → step s a = some s' → (Q s' ↔ P s a))
    {s : σ} {as : List α} (hi : I s as) (hq : Q s) :
    Always step Q s as ↔ Along step P s as := by
  induction as generalizing s with
  | nil => exact iff_of_true hq trivial
  | cons a as ih =>
    constructor
    · intro h s' hs
      have hq' : Q s' := (h.2 s' hs).head
      exact ⟨(hexact s a as s' hi hq hs).mp hq',
        (ih (hstep s a as s' hi hs) hq').mp (h.2 s' hs)⟩
    · intro h
      refine ⟨hq, fun s' hs => ?_⟩
      have hq' : Q s' := (hexact s a as s' hi hq hs).mpr (h s' hs).1
      exact (ih (hstep s a as s' hi hs) hq').mpr (h s' hs).2

/-- The exactness rule for an invariant of the state alone. -/
theorem always_iff_along {P : σ → α → Prop} {I Q : σ → Prop}
    (hstep : ∀ s a s', I s → step s a = some s' → I s')
    (hexact : ∀ s a s', I s → Q s → step s a = some s' → (Q s' ↔ P s a))
    {s : σ} {as : List α} (hi : I s) (hq : Q s) :
    Always step Q s as ↔ Along step P s as :=
  always_iff_along_ahead (I := fun s _ => I s) (fun s a _ s' => hstep s a s')
    (fun s a _ s' => hexact s a s') hi hq

end IsalesApi.Foundation
