import Mathlib.Tactic

/-!
# Transactions as programs

What a request does to a database is a program of statements: a query, the
write of one row by its key, or a statement that changes every row a search
finds. The program ends with a result, and its writes are committed, or it
raises, and they are rolled back.

`Prog.run` executes a program alone. How statements of several programs
interleave is the matter of `Foundation.ReadCommitted`, which executes the same
programs; what it needs of a program is `Prog.Ends`, the writes it can end with
whatever it finds.
-/

namespace IsalesApi.Foundation

/-- The row writes `W` a database `D` understands. `apply` is `none` when a
constraint refuses the write, which the program then sees as `refused`. A write
locks the row `lock` names. -/
class Store (D : Type) (W K E : outParam Type) where
  apply : W → D → Option D
  lock : W → K
  refused : E

section Programs

variable {D W K E : Type} [Store D W K E] {α β : Type}

/-- Several writes in order. -/
def applyAll : List W → D → Option D
  | [], d => some d
  | w :: ws, d => (Store.apply w d).bind (applyAll ws)

@[simp] theorem applyAll_nil (d : D) : applyAll ([] : List W) d = some d := rfl

theorem applyAll_cons {w : W} {ws : List W} {d d' : D} :
    applyAll (w :: ws) d = some d' ↔ ∃ m, Store.apply w d = some m ∧ applyAll ws m = some d' := by
  simp [applyAll, Option.bind_eq_some_iff]

theorem applyAll_append {ws vs : List W} {d d' : D} :
    applyAll (ws ++ vs) d = some d' ↔
      ∃ m, applyAll ws d = some m ∧ applyAll vs m = some d' := by
  induction ws generalizing d with
  | nil => simp
  | cons w ws ih =>
    rw [List.cons_append, applyAll_cons]
    constructor
    · rintro ⟨m, hm, h⟩
      obtain ⟨n, hn, h'⟩ := ih.mp h
      exact ⟨n, applyAll_cons.mpr ⟨m, hm, hn⟩, h'⟩
    · rintro ⟨n, hn, h⟩
      obtain ⟨m, hm, hn⟩ := applyAll_cons.mp hn
      exact ⟨m, hm, ih.mpr ⟨n, hn, h⟩⟩

theorem applyAll_singleton {w : W} {d d' : D} :
    applyAll [w] d = some d' ↔ Store.apply w d = some d' := by
  simp [applyAll]

end Programs

inductive Prog (D W E α : Type) where
  | done (a : α)
  | raise (e : E)
  | query (k : D → Prog D W E α)
  | write (w : W) (k : Prog D W E α)
  | scan (targets : D → List W) (k : Prog D W E α)

namespace Prog

variable {D W K E : Type} {α β : Type}

def bind : Prog D W E α → (α → Prog D W E β) → Prog D W E β
  | done a, f => f a
  | raise e, _ => raise e
  | query k, f => query fun d => (k d).bind f
  | write w k, f => write w (k.bind f)
  | scan targets k, f => scan targets (k.bind f)

instance : Monad (Prog D W E) where
  pure := done
  bind := bind

@[simp] theorem pure_eq (a : α) : (pure a : Prog D W E α) = done a := rfl

@[simp] theorem bind_eq (p : Prog D W E α) (f : α → Prog D W E β) : p >>= f = p.bind f := rfl

/-- `SELECT`. -/
def select (q : D → α) : Prog D W E α := query fun d => done (q d)

/-- One `INSERT`, `UPDATE` or `DELETE` of a row by its key. -/
def exec (w : W) : Prog D W E Unit := write w (done ())

/-- `UPDATE … WHERE` or `DELETE … WHERE`. -/
def execWhere (targets : D → List W) : Prog D W E Unit := scan targets (done ())

def execAll (ws : List W) : Prog D W E Unit := ws.foldr write (done ())

/-- `if … : raise …`. -/
def raiseIf (b : Bool) (e : E) : Prog D W E Unit := if b then raise e else done ()

/-- Validation that needs no database. -/
def check : Except E Unit → Prog D W E Unit
  | .ok () => done ()
  | .error e => raise e

variable [Store D W K E]

/-- Execution without any other transaction. -/
def run : Prog D W E α → D → Except E (α × D)
  | done a, d => .ok (a, d)
  | raise e, _ => .error e
  | query k, d => (k d).run d
  | write w k, d =>
    match Store.apply w d with
    | none => .error (Store.refused D)
    | some d' => k.run d'
  | scan targets k, d =>
    match applyAll (targets d) d with
    | none => .error (Store.refused D)
    | some d' => k.run d'

/-! ## How the operations run -/

theorem run_bind (p : Prog D W E α) (f : α → Prog D W E β) (d : D) :
    (p.bind f).run d = (p.run d).bind fun r => (f r.1).run r.2 := by
  induction p generalizing d with
  | done a => rfl
  | raise e => rfl
  | query k ih => exact ih d d
  | write w k ih =>
    simp only [bind, run]
    split
    · rfl
    · exact ih _
  | scan targets k ih =>
    simp only [bind, run]
    split
    · rfl
    · exact ih _

/-- A sequence that succeeds splits into two that succeed. -/
theorem run_bind_ok {p : Prog D W E α} {f : α → Prog D W E β} {d : D} {r : β × D} :
    (p.bind f).run d = .ok r ↔ ∃ a m, p.run d = .ok (a, m) ∧ (f a).run m = .ok r := by
  rw [run_bind]
  cases p.run d with
  | error e => simp [Except.bind]
  | ok r' =>
    constructor
    · intro h
      exact ⟨r'.1, r'.2, rfl, h⟩
    · rintro ⟨a, m, hr, h⟩
      cases hr
      exact h

/-- A program with its result passed through a function. -/
theorem run_map_ok {p : Prog D W E α} {f : α → β} {d : D} {r : β × D} :
    (p.bind fun a => .done (f a)).run d = .ok r ↔ ∃ a, p.run d = .ok (a, r.2) ∧ r.1 = f a := by
  obtain ⟨b, d'⟩ := r
  rw [run_bind_ok]
  constructor
  · rintro ⟨a, m, ha, hr⟩
    cases hr
    exact ⟨a, ha, rfl⟩
  · rintro ⟨a, ha, rfl⟩
    exact ⟨a, d', ha, rfl⟩

/-- Where a sequence that raises was stopped. -/
theorem run_bind_error {p : Prog D W E α} {f : α → Prog D W E β} {d : D} {e : E} :
    (p.bind f).run d = .error e ↔
      p.run d = .error e ∨ ∃ a m, p.run d = .ok (a, m) ∧ (f a).run m = .error e := by
  rw [run_bind]
  cases p.run d with
  | error e' => simp [Except.bind]
  | ok r =>
    constructor
    · intro h
      exact Or.inr ⟨r.1, r.2, rfl, h⟩
    · rintro (h | ⟨a, m, hr, h⟩)
      · cases h
      · cases hr
        exact h

@[simp] theorem run_done (a : α) (d : D) : (done a : Prog D W E α).run d = .ok (a, d) := rfl

@[simp] theorem run_raise (e : E) (d : D) : (raise e : Prog D W E α).run d = .error e := rfl

@[simp] theorem run_select_bind (q : D → α) (f : α → Prog D W E β) (d : D) :
    ((select q).bind f).run d = (f (q d)).run d := rfl

theorem run_exec_ok {w : W} {d d' : D} {u : Unit} :
    (exec w : Prog D W E Unit).run d = .ok (u, d') ↔ Store.apply w d = some d' := by
  simp only [exec, run]
  cases Store.apply w d <;> simp

theorem run_exec_refused {w : W} {d : D} (h : Store.apply w d = none) :
    (exec w : Prog D W E Unit).run d = .error (Store.refused D) := by
  simp only [exec, run, h]

theorem run_execWhere_ok {targets : D → List W} {d d' : D} {u : Unit} :
    (execWhere targets : Prog D W E Unit).run d = .ok (u, d') ↔
      applyAll (targets d) d = some d' := by
  simp only [execWhere, run]
  cases applyAll (targets d) d <;> simp

theorem run_execAll_ok {ws : List W} {d d' : D} {u : Unit} :
    (execAll ws : Prog D W E Unit).run d = .ok (u, d') ↔ applyAll ws d = some d' := by
  induction ws generalizing d with
  | nil => simp [execAll]
  | cons w ws ih =>
    simp only [execAll, List.foldr_cons, run, applyAll]
    cases Store.apply w d with
    | none => simp
    | some m => exact ih

theorem run_check_ok {x : Except E Unit} {d : D} {r : Unit × D} :
    (check x : Prog D W E Unit).run d = .ok r ↔ x = .ok () ∧ r = ((), d) := by
  cases x with
  | error e => simp [check]
  | ok u => simp [check, eq_comm]

theorem run_check_error {x : Except E Unit} {d : D} {e : E} :
    (check x : Prog D W E Unit).run d = .error e ↔ x = .error e := by
  cases x with
  | error e' => simp [check]
  | ok u => simp [check]

theorem run_check_bind (x : Except E Unit) (f : Unit → Prog D W E β) (d : D) :
    ((check x).bind f).run d = x.bind fun u => (f u).run d := by
  cases x with
  | error e => rfl
  | ok u => rfl

theorem run_raiseIf_error {b : Bool} {e e' : E} {d : D} :
    (raiseIf b e : Prog D W E Unit).run d = .error e' ↔ b = true ∧ e' = e := by
  cases b <;> simp [raiseIf, eq_comm]

theorem run_raiseIf_ok {b : Bool} {e : E} {d : D} {r : Unit × D} :
    (raiseIf b e : Prog D W E Unit).run d = .ok r ↔ b = false ∧ r = ((), d) := by
  cases b <;> simp [raiseIf, eq_comm]

/-- The state a request leaves behind, and its answer: `get_session` commits
what a program that ends has written and rolls back a program that raises. -/
def session (p : Prog D W E α) (d : D) : Except E α × D :=
  match p.run d with
  | .ok (a, d') => (.ok a, d')
  | .error e => (.error e, d)

theorem session_ok {p : Prog D W E α} {d d' : D} {a : α} :
    p.session d = (.ok a, d') ↔ p.run d = .ok (a, d') := by
  unfold session
  cases h : p.run d with
  | error e => simp
  | ok r => simp [Prod.ext_iff]

theorem session_error {p : Prog D W E α} {d d' : D} {e : E} :
    p.session d = (.error e, d') ↔ p.run d = .error e ∧ d' = d := by
  unfold session
  cases h : p.run d with
  | error e' => simp [eq_comm]
  | ok r => simp

end Prog

/-! ## What a program can write -/

namespace Prog

variable {D W K E : Type} {α β : Type}

/-- The program can end with the result and have written the list, whatever its
queries and searches find. -/
inductive Ends : Prog D W E α → α → List W → Prop where
  | done (a : α) : Ends (.done a) a []
  | query {k : D → Prog D W E α} {a : α} {ws : List W} (d : D) (h : Ends (k d) a ws) :
      Ends (.query k) a ws
  | write {w : W} {k : Prog D W E α} {a : α} {ws : List W} (h : Ends k a ws) :
      Ends (.write w k) a (w :: ws)
  | scan {targets : D → List W} {k : Prog D W E α} {a : α} {ws : List W} (d : D)
      (h : Ends k a ws) : Ends (.scan targets k) a (targets d ++ ws)

theorem ends_done {a b : α} {ws : List W} :
    Ends (.done a : Prog D W E α) b ws ↔ b = a ∧ ws = [] := by
  constructor
  · rintro ⟨⟩
    exact ⟨rfl, rfl⟩
  · rintro ⟨rfl, rfl⟩
    exact .done b

theorem not_ends_raise {e : E} {a : α} {ws : List W} :
    ¬ Ends (.raise e : Prog D W E α) a ws := by
  rintro ⟨⟩

/-- What a sequence writes is what its parts write. -/
theorem ends_bind {p : Prog D W E α} {f : α → Prog D W E β} {b : β} {ws : List W} :
    Ends (p.bind f) b ws ↔ ∃ a us vs, Ends p a us ∧ Ends (f a) b vs ∧ ws = us ++ vs := by
  induction p generalizing ws with
  | done a =>
    constructor
    · intro h
      exact ⟨a, [], ws, .done a, h, rfl⟩
    · rintro ⟨a', us, vs, hp, hf, rfl⟩
      cases hp
      exact hf
  | raise e =>
    constructor
    · rintro ⟨⟩
    · rintro ⟨_, _, _, ⟨⟩, _⟩
  | query k ih =>
    constructor
    · intro h
      cases h with
      | query d h =>
        obtain ⟨a, us, vs, hp, hf, rfl⟩ := (ih d).mp h
        exact ⟨a, us, vs, .query d hp, hf, rfl⟩
    · rintro ⟨a, us, vs, hp, hf, rfl⟩
      cases hp with
      | query d hp => exact .query d ((ih d).mpr ⟨a, us, vs, hp, hf, rfl⟩)
  | write w k ih =>
    constructor
    · intro h
      cases h with
      | write h =>
        obtain ⟨a, us, vs, hp, hf, rfl⟩ := ih.mp h
        exact ⟨a, w :: us, vs, .write hp, hf, rfl⟩
    · rintro ⟨a, us, vs, hp, hf, rfl⟩
      cases hp with
      | write hp => exact .write (ih.mpr ⟨a, _, vs, hp, hf, rfl⟩)
  | scan targets k ih =>
    constructor
    · intro h
      cases h with
      | scan d h =>
        obtain ⟨a, us, vs, hp, hf, rfl⟩ := ih.mp h
        exact ⟨a, targets d ++ us, vs, .scan d hp, hf, (List.append_assoc ..).symm⟩
    · rintro ⟨a, us, vs, hp, hf, rfl⟩
      cases hp with
      | scan d hp =>
        rw [List.append_assoc]
        exact .scan d (ih.mpr ⟨a, _, vs, hp, hf, rfl⟩)

theorem ends_map {p : Prog D W E α} {f : α → β} {b : β} {ws : List W} :
    Ends (p.bind fun a => .done (f a)) b ws ↔ ∃ a, Ends p a ws ∧ b = f a := by
  rw [ends_bind]
  constructor
  · rintro ⟨a, us, vs, hp, hdone, rfl⟩
    obtain ⟨rfl, rfl⟩ := ends_done.mp hdone
    exact ⟨a, by rwa [List.append_nil], rfl⟩
  · rintro ⟨a, hp, rfl⟩
    exact ⟨a, ws, [], hp, .done (f a), (List.append_nil ws).symm⟩

theorem ends_select_bind {q : D → α} {f : α → Prog D W E β} {b : β} {ws : List W} :
    Ends ((select q).bind f) b ws ↔ ∃ d, Ends (f (q d)) b ws := by
  constructor
  · intro h
    cases h with
    | query d h => exact ⟨d, h⟩
  · rintro ⟨d, h⟩
    exact .query d h

theorem ends_exec {w : W} {u : Unit} {ws : List W} :
    Ends (exec w : Prog D W E Unit) u ws ↔ ws = [w] := by
  constructor
  · intro h
    cases h with
    | write h => rw [(ends_done.mp h).2]
  · rintro rfl
    exact .write (.done u)

theorem ends_execWhere {targets : D → List W} {u : Unit} {ws : List W} :
    Ends (execWhere targets : Prog D W E Unit) u ws ↔ ∃ d, ws = targets d := by
  constructor
  · intro h
    cases h with
    | scan d h =>
      rw [(ends_done.mp h).2, List.append_nil]
      exact ⟨d, rfl⟩
  · rintro ⟨d, rfl⟩
    have h : Ends (execWhere targets : Prog D W E Unit) u (targets d ++ []) := .scan d (.done u)
    rwa [List.append_nil] at h

/-- The writes `ws`, then `k`. -/
def after (ws : List W) (k : Prog D W E α) : Prog D W E α := ws.foldr write k

theorem ends_after {us : List W} {k : Prog D W E α} {a : α} {ws : List W} :
    Ends (after us k) a ws ↔ ∃ vs, Ends k a vs ∧ ws = us ++ vs := by
  induction us generalizing ws with
  | nil => simp [after]
  | cons u us ih =>
    constructor
    · intro h
      cases h with
      | write h =>
        obtain ⟨vs, hk, rfl⟩ := ih.mp h
        exact ⟨vs, hk, rfl⟩
    · rintro ⟨vs, hk, rfl⟩
      exact .write (ih.mpr ⟨vs, hk, rfl⟩)

theorem ends_execAll {us : List W} {u : Unit} {ws : List W} :
    Ends (execAll us : Prog D W E Unit) u ws ↔ ws = us := by
  show Ends (after us (.done ())) u ws ↔ ws = us
  rw [ends_after]
  constructor
  · rintro ⟨vs, hdone, rfl⟩
    rw [(ends_done.mp hdone).2, List.append_nil]
  · rintro rfl
    exact ⟨[], .done u, (List.append_nil ws).symm⟩

theorem ends_check {x : Except E Unit} {u : Unit} {ws : List W} :
    Ends (check x : Prog D W E Unit) u ws ↔ x = .ok () ∧ ws = [] := by
  cases x with
  | error e => simp [check, not_ends_raise]
  | ok v => simp [check, ends_done]

theorem ends_raiseIf {b : Bool} {e : E} {u : Unit} {ws : List W} :
    Ends (raiseIf b e : Prog D W E Unit) u ws ↔ b = false ∧ ws = [] := by
  cases b with
  | true => simp [raiseIf, not_ends_raise]
  | false => simp [raiseIf, ends_done]

/-- A run is one of the ways to end. -/
theorem ends_of_run [Store D W K E] {p : Prog D W E α} {d d' : D} {a : α}
    (h : p.run d = .ok (a, d')) : ∃ ws, Ends p a ws ∧ applyAll ws d = some d' := by
  induction p generalizing d with
  | done b =>
    cases h
    exact ⟨[], .done a, rfl⟩
  | raise e => cases h
  | query k ih =>
    obtain ⟨ws, hends, happly⟩ := ih d h
    exact ⟨ws, .query d hends, happly⟩
  | write w k ih =>
    simp only [run] at h
    split at h
    · cases h
    · rename_i m hm
      obtain ⟨ws, hends, happly⟩ := ih h
      exact ⟨w :: ws, .write hends, applyAll_cons.mpr ⟨m, hm, happly⟩⟩
  | scan targets k ih =>
    simp only [run] at h
    split at h
    · cases h
    · rename_i m hm
      obtain ⟨ws, hends, happly⟩ := ih h
      exact ⟨targets d ++ ws, .scan d hends, applyAll_append.mpr ⟨m, hm, happly⟩⟩

theorem run_after [Store D W K E] {ws : List W} {k : Prog D W E α} {d : D} :
    (after ws k).run d = (scan (fun _ => ws) k).run d := by
  induction ws generalizing d with
  | nil => rfl
  | cons w ws ih =>
    simp only [after, List.foldr_cons, run, applyAll] at ih ⊢
    cases Store.apply w d with
    | none => rfl
    | some m => exact ih

end Prog

end IsalesApi.Foundation
