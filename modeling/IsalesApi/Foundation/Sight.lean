import IsalesApi.Foundation.ReadCommitted

/-!
# What the statements of a transaction have seen

Each statement sees what is committed when it starts, together with what its own
transaction has written. `Prog.EndsSeeing` keeps of an execution what its queries
saw, and `committed_always` is the invariant rule that uses it: an invariant of
what is committed, which may depend on who has committed with which answer, holds
in every interleaving if each commit preserves it whose queries have seen it.
-/

namespace IsalesApi.Foundation

section Programs

variable {D W K E α β : Type}

/-- The program goes on from the writes `ws` and ends with the result and with
all its writes, and what its queries see meets `see`. -/
inductive Prog.EndsSeeing (see : List W → D → Prop) :
    List W → Prog D W E α → α → List W → Prop where
  | done (ws : List W) (a : α) : EndsSeeing see ws (.done a) a ws
  | query {ws vs : List W} {k : D → Prog D W E α} {a : α} {d : D} (hd : see ws d)
      (h : EndsSeeing see ws (k d) a vs) : EndsSeeing see ws (.query k) a vs
  | write {ws vs : List W} {w : W} {k : Prog D W E α} {a : α}
      (h : EndsSeeing see (ws ++ [w]) k a vs) : EndsSeeing see ws (.write w k) a vs
  | scan {ws vs : List W} {targets : D → List W} {k : Prog D W E α} {a : α} {d : D}
      (hd : see ws d) (h : EndsSeeing see ws (.after (targets d) k) a vs) :
      EndsSeeing see ws (.scan targets k) a vs

variable {see : List W → D → Prop} {ws vs : List W}

/-- Without what was seen it is one of the ways to end. -/
theorem Prog.EndsSeeing.ends {p : Prog D W E α} {a : α} (h : p.EndsSeeing see ws a vs) :
    ∃ us, p.Ends a us ∧ vs = ws ++ us := by
  induction h with
  | done ws a => exact ⟨[], .done a, (List.append_nil ws).symm⟩
  | query hd _ ih =>
    obtain ⟨us, hends, rfl⟩ := ih
    exact ⟨us, .query _ hends, rfl⟩
  | write _ ih =>
    obtain ⟨us, hends, rfl⟩ := ih
    exact ⟨_ :: us, .write hends, by simp⟩
  | scan hd _ ih =>
    obtain ⟨us, hends, rfl⟩ := ih
    obtain ⟨us, hk, rfl⟩ := Prog.ends_after.mp hends
    exact ⟨_, .scan _ hk, rfl⟩

theorem Prog.bind_assoc {γ : Type} (p : Prog D W E α) (f : α → Prog D W E β)
    (g : β → Prog D W E γ) : (p.bind f).bind g = p.bind fun a => (f a).bind g := by
  induction p with
  | done a => rfl
  | raise e => rfl
  | query k ih => exact congrArg Prog.query (funext ih)
  | write w k ih => exact congrArg (Prog.write w) ih
  | scan targets k ih => exact congrArg (Prog.scan targets) ih

/-- The first query of a transaction. -/
theorem Prog.EndsSeeing.select_bind {q : D → α} {f : α → Prog D W E β} {b : β}
    (h : ((Prog.select q).bind f).EndsSeeing see ws b vs) :
    ∃ d, see ws d ∧ (f (q d)).EndsSeeing see ws b vs := by
  cases h with
  | query hd h => exact ⟨_, hd, h⟩

end Programs

/-! ## The invariant rule -/

section Server

variable {ι D W K E A : Type} [Store D W K E]

/-- Who has committed, and the answers. -/
def Server.answers (s : Server ι D W E A) (i : ι) : Option A :=
  match s.sessions i with
  | .committed a => some a
  | _ => none

/-- What transaction `i` can see after the writes `ws` while the invariant holds
and it has not committed. -/
def Sees (J : (ι → Option A) → D → Prop) (i : ι) (ws : List W) (view : D) : Prop :=
  ∃ answers m, answers i = none ∧ J answers m ∧ applyAll ws m = some view

variable {J : (ι → Option A) → D → Prop} {progs : ι → Prog D W E A}

/-- The invariant, and every transaction on the way from states that meet it. -/
structure Sighted (J : (ι → Option A) → D → Prop) (progs : ι → Prog D W E A)
    (s : Server ι D W E A) : Prop where
  holds : J s.answers s.committed
  seeing : ∀ i p ws, s.sessions i = .active p ws →
    ∀ a vs, p.EndsSeeing (Sees J i) ws a vs → (progs i).EndsSeeing (Sees J i) [] a vs

theorem sighted_start {d : D} (hd : J (fun _ => none) d) :
    Sighted J progs (Server.start d progs) where
  holds := hd
  seeing := by
    intro i p ws hi a vs h
    cases hi
    exact h

theorem Moves.seeing {view : D} {p q : Prog D W E A} {ws us vs : List W} {a : A}
    {see : List W → D → Prop} (h : Moves view p ws q us) (hview : see ws view)
    (hq : q.EndsSeeing see us a vs) : p.EndsSeeing see ws a vs := by
  cases h with
  | query k => exact .query hview hq
  | scan targets k => exact .scan hview hq
  | write w k ws m hm => exact .write hq

variable [DecidableEq ι]

/-- A transaction that goes on or fails has given no answer. -/
theorem answers_set {s : Server ι D W E A} {i : ι} {p : Prog D W E A} {ws : List W}
    (hi : s.sessions i = .active p ws) {x : Session D W E A} (hx : ∀ a, x ≠ .committed a) :
    (s.set i x).answers = s.answers := by
  funext j
  unfold Server.answers
  by_cases hji : j = i
  · subst hji
    rw [set_self, hi]
    cases x with
    | committed a => exact absurd rfl (hx a)
    | _ => rfl
  · rw [set_other hji]

theorem answers_commit (s : Server ι D W E A) (i : ι) (a : A) (view : D) :
    Server.answers { s.set i (.committed a) with committed := view } =
      Function.update s.answers i (some a) := by
  funext j
  unfold Server.answers
  by_cases hji : j = i
  · subst hji
    rw [Function.update_self]
    show (match (s.set j (.committed a)).sessions j with | .committed a => some a | _ => none) = _
    rw [set_self]
  · rw [Function.update_of_ne hji]
    show (match (s.set i (.committed a)).sessions j with | .committed a => some a | _ => none) = _
    rw [set_other hji]

theorem Sighted.set {s : Server ι D W E A} (h : Sighted J progs s) {i : ι} {p : Prog D W E A}
    {ws : List W} (hi : s.sessions i = .active p ws) {x : Session D W E A}
    (hx : ∀ a, x ≠ .committed a)
    (hseeing : ∀ q us, x = .active q us →
      ∀ a vs, q.EndsSeeing (Sees J i) us a vs → (progs i).EndsSeeing (Sees J i) [] a vs) :
    Sighted J progs (s.set i x) where
  holds := by
    rw [answers_set hi hx]
    exact h.holds
  seeing := by
    intro j q us hj
    by_cases hji : j = i
    · subst hji
      rw [set_self] at hj
      exact hseeing q us hj
    · rw [set_other hji] at hj
      exact h.seeing j q us hj

variable [DecidableEq K] [Fintype ι]

/-- **Invariant rule at READ COMMITTED.** An invariant holds in every
interleaving if every commit preserves it whose transaction has seen states that
meet it. -/
theorem committed_always
    (hcommit : ∀ i answers m a ws m', answers i = none → J answers m →
      (progs i).EndsSeeing (Sees J i) [] a ws → applyAll ws m = some m' →
      J (Function.update answers i (some a)) m')
    {d : D} (hd : J (fun _ => none) d) (as : List (ServerAction ι)) :
    Always Server.step (fun s => J s.answers s.committed) (Server.start d progs) as := by
  have hinv : Always Server.step (Sighted J progs) (Server.start d progs) as := by
    refine always_of_step ?_ (sighted_start hd) as
    intro s a s' h hs
    obtain ⟨i, p, ws, hi, hcases⟩ := step_cases hs
    have hnone : s.answers i = none := by
      unfold Server.answers
      rw [hi]
    -- it raised, committed, or went on in a view of what is committed and its own writes
    rcases hcases with ⟨e, rfl⟩ | ⟨view, hview, _, ⟨ans, rfl, rfl⟩ | ⟨q, us, hmoves, rfl⟩⟩
    · exact h.set hi (by simp) (by simp)
    · have hends := h.seeing i _ ws hi ans ws (.done ws ans)
      constructor
      · rw [answers_commit]
        exact hcommit i s.answers s.committed ans ws view hnone h.holds hends hview
      · intro j p' ws' hj
        change (s.set i (.committed ans)).sessions j = _ at hj
        by_cases hji : j = i
        · subst hji
          rw [set_self] at hj
          cases hj
        · rw [set_other hji] at hj
          exact h.seeing j p' ws' hj
    · refine h.set hi (by simp) ?_
      rintro q' us' ⟨⟩ b vs hq
      have hsees : Sees J i ws view := ⟨s.answers, s.committed, hnone, h.holds, hview⟩
      exact h.seeing i p ws hi b vs (hmoves.seeing hsees hq)
  exact hinv.mono fun s h => h.holds

end Server

end IsalesApi.Foundation
