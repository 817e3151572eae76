import IsalesApi.Foundation.Transaction
import IsalesApi.Foundation.Transition
import Mathlib.Data.Fintype.Basic

/-!
# Transactions at READ COMMITTED

Several programs run as transactions on one committed state. Every statement
sees what is committed when it starts, and what its own transaction has written.
A write locks its row until its transaction ends, and a transaction that wants a
row another one holds waits. A statement that changes all rows a search finds
takes the search from the state at its start and then writes row after row, each
as it is when its turn comes. Deadlocks and lost connections end a transaction
from outside.

Two facts about a transaction carry the proofs about interleavings: whatever its
statements saw, it commits writes its program can end with (`Traced`), and as
long as no other transaction has committed it runs as it would alone (`Solo`).
-/

namespace IsalesApi.Foundation

/-! ## The server -/

/-- A transaction: what is left of its program and what it has written, or how
it ended. -/
inductive Session (D W E A : Type) where
  | active (p : Prog D W E A) (writes : List W)
  | committed (a : A)
  | failed (e : E)

structure Server (ι D W E A : Type) where
  committed : D
  sessions : ι → Session D W E A

/-- A transaction goes on, or is ended from outside. -/
inductive ServerAction (ι : Type) where
  | advance (i : ι)
  | abort (i : ι)

section Server

variable {ι D W K E A : Type}

/-- All transactions have begun, none has done anything. -/
def Server.start (d : D) (progs : ι → Prog D W E A) : Server ι D W E A :=
  ⟨d, fun i => .active (progs i) []⟩

def Session.finished : Session D W E A → Bool
  | .active _ _ => false
  | _ => true

def Server.set [DecidableEq ι] (s : Server ι D W E A) (i : ι) (x : Session D W E A) :
    Server ι D W E A :=
  { s with sessions := Function.update s.sessions i x }

theorem set_self [DecidableEq ι] (s : Server ι D W E A) (i : ι) (x : Session D W E A) :
    (s.set i x).sessions i = x := Function.update_self ..

theorem set_other [DecidableEq ι] {s : Server ι D W E A} {i j : ι} (h : j ≠ i)
    (x : Session D W E A) : (s.set i x).sessions j = s.sessions j := Function.update_of_ne h ..

variable [Store D W K E]

/-- The transaction has locked the row. -/
def Session.holds [DecidableEq K] (k : K) : Session D W E A → Bool
  | .active _ writes => decide (k ∈ writes.map fun w => Store.lock (D := D) w)
  | _ => false

section Step

variable [DecidableEq K] [DecidableEq ι] [Fintype ι]

/-- Another transaction has locked the row. -/
def Server.blocked (s : Server ι D W E A) (i : ι) (w : W) : Bool :=
  decide (∃ j, j ≠ i ∧ (s.sessions j).holds (Store.lock (D := D) w) = true)

/-- The next statement of transaction `i`, or its commit. -/
def Server.advance (s : Server ι D W E A) (i : ι) : Option (Server ι D W E A) :=
  match s.sessions i with
  | .active p writes =>
    match applyAll writes s.committed with
    | none => some (s.set i (.failed (Store.refused D)))
    | some view =>
      match p with
      | .done a => some { s.set i (.committed a) with committed := view }
      | .raise e => some (s.set i (.failed e))
      | .query k => some (s.set i (.active (k view) writes))
      | .scan targets k => some (s.set i (.active (Prog.after (targets view) k) writes))
      | .write w k =>
        if s.blocked i w then none
        else
          match Store.apply w view with
          | none => some (s.set i (.failed (Store.refused D)))
          | some _ => some (s.set i (.active k (writes ++ [w])))
  | _ => none

def Server.step (s : Server ι D W E A) : ServerAction ι → Option (Server ι D W E A)
  | .advance i => s.advance i
  | .abort i =>
    match s.sessions i with
    | .active _ _ => some (s.set i (.failed (Store.refused D)))
    | _ => none

end Step

/-! ## What a step does -/

/-- A statement takes a program to what is left of it, on the state it sees. -/
inductive Moves (view : D) : Prog D W E A → List W → Prog D W E A → List W → Prop where
  | query (k : D → Prog D W E A) (ws : List W) : Moves view (.query k) ws (k view) ws
  | scan (targets : D → List W) (k : Prog D W E A) (ws : List W) :
      Moves view (.scan targets k) ws (Prog.after (targets view) k) ws
  | write (w : W) (k : Prog D W E A) (ws : List W) (m : D) (h : Store.apply w view = some m) :
      Moves view (.write w k) ws k (ws ++ [w])

/-- A step ends a transaction without effect, commits one, or executes one of
its statements. -/
theorem step_cases [DecidableEq K] [DecidableEq ι] [Fintype ι] {s s' : Server ι D W E A}
    {a : ServerAction ι} (h : s.step a = some s') :
    ∃ i p ws, s.sessions i = .active p ws ∧
      ((∃ e, s' = s.set i (.failed e)) ∨
        ∃ view, applyAll ws s.committed = some view ∧ a = .advance i ∧
          ((∃ ans, p = .done ans ∧
              s' = { s.set i (.committed ans) with committed := view }) ∨
            ∃ q vs, Moves view p ws q vs ∧ s' = s.set i (.active q vs))) := by
  cases a with
  | abort i =>
    simp only [Server.step] at h
    split at h
    · rename_i p ws hi
      cases h
      exact ⟨i, p, ws, hi, Or.inl ⟨_, rfl⟩⟩
    · cases h
  | advance i =>
    simp only [Server.step, Server.advance] at h
    split at h
    · rename_i p ws hi
      refine ⟨i, p, ws, hi, ?_⟩
      split at h
      · cases h
        exact Or.inl ⟨_, rfl⟩
      · rename_i view hview
        split at h
        · cases h
          exact Or.inr ⟨view, hview, rfl, Or.inl ⟨_, rfl, rfl⟩⟩
        · cases h
          exact Or.inl ⟨_, rfl⟩
        · cases h
          exact Or.inr ⟨view, hview, rfl, Or.inr ⟨_, _, .query _ _, rfl⟩⟩
        · cases h
          exact Or.inr ⟨view, hview, rfl, Or.inr ⟨_, _, .scan _ _ _, rfl⟩⟩
        · split at h
          · -- another transaction holds the row: no step
            cases h
          · split at h
            · cases h
              exact Or.inl ⟨_, rfl⟩
            · rename_i m hm
              cases h
              exact Or.inr ⟨view, hview, rfl, Or.inr ⟨_, _, .write _ _ _ m hm, rfl⟩⟩
    · cases h

theorem Moves.ends {view : D} {p q : Prog D W E A} {ws vs us : List W} {a : A}
    (h : Moves view p ws q vs) (hq : q.Ends a us) :
    ∃ us', p.Ends a us' ∧ ws ++ us' = vs ++ us := by
  cases h with
  | query k => exact ⟨us, .query view hq, rfl⟩
  | scan targets k =>
    obtain ⟨us', hk, rfl⟩ := Prog.ends_after.mp hq
    exact ⟨_, .scan view hk, rfl⟩
  | write w k ws m hm => exact ⟨w :: us, .write hq, by simp⟩

theorem Moves.run {view d m : D} {p q : Prog D W E A} {ws vs : List W}
    (h : Moves view p ws q vs) (hws : applyAll ws d = some view) (hvs : applyAll vs d = some m) :
    q.run m = p.run view := by
  cases h with
  | query k =>
    rw [hws] at hvs
    cases hvs
    rfl
  | scan targets k =>
    rw [hws] at hvs
    cases hvs
    exact Prog.run_after
  | write w k ws n hn =>
    obtain ⟨n', hn', hm⟩ := applyAll_append.mp hvs
    rw [hws] at hn'
    cases hn'
    have hm : Store.apply w view = some m := applyAll_singleton.mp hm
    simp only [Prog.run, hm]

/-! ## Invariants -/

/-- Whatever its statements saw, what a transaction has written and can still
write its program can write. -/
def Traced (progs : ι → Prog D W E A) (s : Server ι D W E A) : Prop :=
  ∀ i p ws, s.sessions i = .active p ws →
    ∀ a vs, p.Ends a vs → (progs i).Ends a (ws ++ vs)

theorem traced_start (d : D) (progs : ι → Prog D W E A) :
    Traced progs (Server.start d progs) := by
  intro i p ws h a vs hends
  cases h
  exact hends

/-- A transaction that ends or commits leaves no claim on its program. -/
theorem Traced.set [DecidableEq ι] {progs : ι → Prog D W E A} {s : Server ι D W E A}
    (h : Traced progs s) {i : ι} {x : Session D W E A} (hx : ∀ p ws, x = .active p ws →
      ∀ a vs, p.Ends a vs → (progs i).Ends a (ws ++ vs)) : Traced progs (s.set i x) := by
  intro j p ws hj
  by_cases hji : j = i
  · subst hji
    rw [set_self] at hj
    exact hx p ws hj
  · rw [set_other hji] at hj
    exact h j p ws hj

theorem Traced.step [DecidableEq K] [DecidableEq ι] [Fintype ι] {progs : ι → Prog D W E A}
    {s s' : Server ι D W E A} {a : ServerAction ι} (h : Traced progs s)
    (hs : s.step a = some s') : Traced progs s' := by
  obtain ⟨i, p, ws, hi, ⟨e, rfl⟩ | ⟨view, _, _, ⟨ans, _, rfl⟩ | ⟨q, vs, hmoves, rfl⟩⟩⟩ :=
    step_cases hs
  · exact h.set (by simp)
  · exact h.set (s := s) (i := i) (x := .committed ans) (by simp)
  · refine h.set fun q' vs' heq b us hus => ?_
    cases heq
    obtain ⟨us', hp, heq⟩ := hmoves.ends hus
    rw [← heq]
    exact h i p ws hi b us' hp

/-- A transaction that is about to commit has written what its program can end
with. -/
theorem Traced.ends {progs : ι → Prog D W E A} {s : Server ι D W E A} (h : Traced progs s)
    {i : ι} {a : A} {ws : List W} (hi : s.sessions i = .active (.done a) ws) :
    (progs i).Ends a ws := by
  have hends := h i _ ws hi a [] (.done a)
  rwa [List.append_nil] at hends

/-- No transaction has committed. -/
def Server.Fresh (s : Server ι D W E A) : Prop := ∀ i a, s.sessions i ≠ .committed a

/-- Until the first commit every transaction runs as it would alone. -/
def Solo (d : D) (progs : ι → Prog D W E A) (s : Server ι D W E A) : Prop :=
  s.Fresh → s.committed = d ∧ ∀ i p ws m, s.sessions i = .active p ws →
    applyAll ws d = some m → p.run m = (progs i).run d

theorem solo_start (d : D) (progs : ι → Prog D W E A) : Solo d progs (Server.start d progs) := by
  intro _
  refine ⟨rfl, fun i p ws m h hm => ?_⟩
  cases h
  cases hm
  rfl

/-- Only a commit ends freshness. -/
theorem fresh_of_set [DecidableEq ι] {s : Server ι D W E A} {i : ι} {x : Session D W E A}
    {p : Prog D W E A} {ws : List W} (hi : s.sessions i = .active p ws)
    (h : (s.set i x).Fresh) : s.Fresh := by
  intro j a hj
  by_cases hji : j = i
  · subst hji
    rw [hi] at hj
    cases hj
  · exact h j a ((set_other hji x).trans hj)

theorem Solo.step [DecidableEq K] [DecidableEq ι] [Fintype ι] {d : D}
    {progs : ι → Prog D W E A} {s s' : Server ι D W E A} {a : ServerAction ι}
    (h : Solo d progs s) (hs : s.step a = some s') : Solo d progs s' := by
  obtain ⟨i, p, ws, hi, ⟨e, rfl⟩ | ⟨view, hview, _, ⟨ans, _, rfl⟩ | ⟨q, vs, hmoves, rfl⟩⟩⟩ :=
    step_cases hs
  · intro hfresh
    obtain ⟨hcommitted, hrun⟩ := h (fresh_of_set hi hfresh)
    refine ⟨hcommitted, fun j p' ws' m hj => ?_⟩
    by_cases hji : j = i
    · subst hji
      rw [set_self] at hj
      cases hj
    · rw [set_other hji] at hj
      exact hrun j p' ws' m hj
  · intro hfresh
    exact absurd (set_self s i (.committed ans)) (hfresh i ans)
  · -- a statement of `i` sees what `i` has written on the start state, as it would alone
    intro hfresh
    obtain ⟨hcommitted, hrun⟩ := h (fresh_of_set hi hfresh)
    refine ⟨hcommitted, fun j p' ws' m hj hm => ?_⟩
    by_cases hji : j = i
    · subst hji
      rw [set_self] at hj
      cases hj
      rw [hcommitted] at hview
      exact (hmoves.run hview hm).trans (hrun j p ws view hi hview)
    · rw [set_other hji] at hj
      exact hrun j p' ws' m hj hm

/-- The first commit is that of a transaction that ran alone. -/
theorem Solo.run {d : D} {progs : ι → Prog D W E A} {s : Server ι D W E A} (h : Solo d progs s)
    (hfresh : s.Fresh) {i : ι} {a : A} {ws : List W} {view : D}
    (hi : s.sessions i = .active (.done a) ws) (hview : applyAll ws s.committed = some view) :
    (progs i).run d = .ok (a, view) := by
  obtain ⟨hcommitted, hrun⟩ := h hfresh
  rw [hcommitted] at hview
  exact (hrun i _ ws view hi hview).symm

/-! ## Commits that recheck -/

/-- In this step transaction `i` commits what it has written. -/
def Commits (s : Server ι D W E A) (a : ServerAction ι) (i : ι) (ws : List W) (view : D) : Prop :=
  a = .advance i ∧ (∃ ans, s.sessions i = .active (.done ans) ws) ∧
    applyAll ws s.committed = some view

/-- At a commit the condition holds of what is committed by then and of what the
transaction has written. -/
def AtCommit (recheck : ι → D → List W → Prop) (s : Server ι D W E A) (a : ServerAction ι) : Prop :=
  ∀ i ws view, Commits s a i ws view → recheck i s.committed ws

variable [DecidableEq K] [DecidableEq ι] [Fintype ι]

theorem step_of_commits {s s' : Server ι D W E A} {a : ServerAction ι} {i : ι} {ws : List W}
    {view : D} (h : Commits s a i ws view) (hs : s.step a = some s') :
    ∃ ans, s' = { s.set i (.committed ans) with committed := view } := by
  obtain ⟨rfl, ⟨ans, hi⟩, hview⟩ := h
  simp only [Server.step, Server.advance, hi, hview] at hs
  cases hs
  exact ⟨ans, rfl⟩

theorem committed_of_not_commits {s s' : Server ι D W E A} {a : ServerAction ι}
    (h : ∀ i ws view, ¬ Commits s a i ws view) (hs : s.step a = some s') :
    s'.committed = s.committed ∧ (s'.Fresh → s.Fresh) := by
  obtain ⟨i, p, ws, hi, ⟨e, rfl⟩ | ⟨view, hview, rfl, ⟨ans, rfl, rfl⟩ | ⟨q, vs, _, rfl⟩⟩⟩ :=
    step_cases hs
  · exact ⟨rfl, fresh_of_set hi⟩
  · exact absurd ⟨rfl, ⟨ans, hi⟩, hview⟩ (h i ws view)
  · exact ⟨rfl, fresh_of_set hi⟩

variable {Q : D → Prop} {recheck : ι → D → List W → Prop} {progs : ι → Prog D W E A} {d : D}

/-- A condition under which every commit preserves `Q`, and without which none
does, is exact for all commits of a run. -/
theorem always_iff_atCommit
    (hcommit : ∀ i a ws m m', (progs i).Ends a ws → Q m → applyAll ws m = some m' →
      (Q m' ↔ recheck i m ws)) (hd : Q d) (as : List (ServerAction ι)) :
    Always Server.step (fun s => Q s.committed) (Server.start d progs) as ↔
      Along Server.step (AtCommit recheck) (Server.start d progs) as := by
  refine always_iff_along (I := Traced progs) (fun s a s' h hs => h.step hs) ?_
    (traced_start d progs) hd
  intro s a s' htraced hq hs
  by_cases hc : ∃ i ws view, Commits s a i ws view
  · obtain ⟨i, ws, view, hc⟩ := hc
    obtain ⟨_, rfl⟩ := step_of_commits hc hs
    obtain ⟨rfl, ⟨ans, hi⟩, hview⟩ := hc
    show Q view ↔ _
    rw [hcommit i ans ws s.committed view (htraced.ends hi) hq hview]
    constructor
    · rintro hre j vs _ ⟨heq, ⟨_, hj⟩, _⟩
      cases heq
      rw [hi] at hj
      cases hj
      exact hre
    · intro hre
      exact hre i ws view ⟨rfl, ⟨ans, hi⟩, hview⟩
  · have hnone : ∀ i ws view, ¬ Commits s a i ws view := fun i ws view h => hc ⟨i, ws, view, h⟩
    rw [(committed_of_not_commits hnone hs).1]
    exact iff_of_true hq fun i ws view h => absurd h (hnone i ws view)

/-- What every write that the programs can end with preserves holds in every
interleaving. -/
theorem always_of_writes {ok : W → Prop}
    (hends : ∀ i a ws, (progs i).Ends a ws → ∀ w ∈ ws, ok w)
    (hok : ∀ w m m', ok w → Q m → Store.apply w m = some m' → Q m') (hd : Q d)
    (as : List (ServerAction ι)) :
    Always Server.step (fun s => Q s.committed) (Server.start d progs) as := by
  have happlyAll : ∀ (ws : List W) (m m' : D), (∀ w ∈ ws, ok w) → Q m →
      applyAll ws m = some m' → Q m' := by
    intro ws
    induction ws with
    | nil =>
      rintro m _ _ hm ⟨⟩
      exact hm
    | cons w ws ih =>
      intro m m' hws hm happly
      obtain ⟨n, hn, hrest⟩ := applyAll_cons.mp happly
      have hw : ok w := hws w List.mem_cons_self
      exact ih n m' (fun v hv => hws v (List.mem_cons_of_mem w hv)) (hok w m n hw hm hn) hrest
  let recheck : ι → D → List W → Prop := fun _ _ _ => True
  have hcommit : ∀ i a ws m m', (progs i).Ends a ws → Q m → applyAll ws m = some m' →
      (Q m' ↔ recheck i m ws) := fun i a ws m m' hws hm happly =>
    iff_of_true (happlyAll ws m m' (hends i a ws hws) hm happly) trivial
  exact (always_iff_atCommit hcommit hd as).mpr
    (Along.of_forall (fun _ _ _ _ _ _ => trivial) _ as)

end Server

/-! ## Two transactions -/

section Pair

variable {D W K E A : Type} [Store D W K E] [DecidableEq K]
variable {Q : D → Prop} {recheck : Fin 2 → D → List W → Prop} {progs : Fin 2 → Prog D W E A} {d : D}

/-- Both transactions have committed. -/
def BothCommitted (s : Server (Fin 2) D W E A) : Prop := ∀ i, ∃ a, s.sessions i = .committed a

theorem step_of_bothCommitted {s : Server (Fin 2) D W E A} (h : BothCommitted s)
    (a : ServerAction (Fin 2)) : s.step a = none := by
  cases a with
  | advance i =>
    obtain ⟨ans, hi⟩ := h i
    simp only [Server.step, Server.advance, hi]
  | abort i =>
    obtain ⟨ans, hi⟩ := h i
    simp only [Server.step, hi]

theorem fin_two_eq {i j k : Fin 2} (hj : j ≠ i) (hk : k ≠ i) : j = k := by omega

/-- The first of two commits leaves what its transaction leaves alone; after the
second nothing happens. -/
theorem always_or_bothCommitted
    (hfirst : ∀ i a m, (progs i).run d = .ok (a, m) → Q m) (hd : Q d)
    (as : List (ServerAction (Fin 2))) :
    Always Server.step (fun s => Q s.committed ∨ BothCommitted s) (Server.start d progs) as := by
  have hinv : Always Server.step
      (fun s => Solo d progs s ∧ (Q s.committed ∨ BothCommitted s))
      (Server.start d progs) as := by
    refine always_of_step ?_ ⟨solo_start d progs, Or.inl hd⟩ as
    rintro s a s' ⟨hsolo, hq⟩ hs
    refine ⟨hsolo.step hs, ?_⟩
    have hq : Q s.committed := by
      rcases hq with hq | hboth
      · exact hq
      · rw [step_of_bothCommitted hboth a] at hs
        cases hs
    by_cases hc : ∃ i ws view, Commits s a i ws view
    · obtain ⟨i, ws, view, hc⟩ := hc
      obtain ⟨ans', rfl⟩ := step_of_commits hc hs
      obtain ⟨rfl, ⟨ans, hi⟩, hview⟩ := hc
      by_cases hfresh : s.Fresh
      · exact Or.inl (hfirst i ans view (hsolo.run hfresh hi hview))
      · -- the other transaction has committed before
        refine Or.inr fun j => ?_
        by_cases hji : j = i
        · subst hji
          exact ⟨ans', set_self s j _⟩
        · simp only [Server.Fresh, not_forall, not_not] at hfresh
          obtain ⟨k, b, hk⟩ := hfresh
          have hki : k ≠ i := by
            rintro rfl
            rw [hi] at hk
            cases hk
          obtain rfl := fin_two_eq hji hki
          exact ⟨b, (set_other hji _).trans hk⟩
    · have hnone : ∀ i ws view, ¬ Commits s a i ws view := fun i ws view h => hc ⟨i, ws, view, h⟩
      rw [(committed_of_not_commits hnone hs).1]
      exact Or.inl hq
  exact hinv.mono fun s h => h.2

/-- For two transactions that each preserve `Q` alone, `Q` holds at the end of a
run if and only if every commit of it rechecks. -/
theorem last_iff_atCommit
    (hcommit : ∀ i a ws m m', (progs i).Ends a ws → Q m → applyAll ws m = some m' →
      (Q m' ↔ recheck i m ws))
    (hfirst : ∀ i a m, (progs i).run d = .ok (a, m) → Q m) (hd : Q d)
    {as : List (ServerAction (Fin 2))} {t : Server (Fin 2) D W E A}
    (hrun : exec Server.step (Server.start d progs) as = some t) :
    Q t.committed ↔ Along Server.step (AtCommit recheck) (Server.start d progs) as := by
  rw [← always_iff_atCommit hcommit hd as]
  constructor
  · intro ht
    exact always_of_last (fun s a h => step_of_bothCommitted h a)
      (always_or_bothCommitted hfirst hd as) hrun ht
  · intro h
    exact h.last hrun

end Pair

end IsalesApi.Foundation
