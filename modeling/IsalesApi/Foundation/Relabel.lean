import IsalesApi.Foundation.Transaction

/-!
# A program over another store

A program that was written for a store `D` also runs on a store `D'` that shows
itself as a `D`: its queries look at the view, and its writes are numbered and
sent in the terms of `D'`. The number stands for what is drawn at each write,
such as the id of a row. A program without queries (`Silent`) runs on every
state that takes its writes, so what it does in a transaction is what it does
alone.
-/

namespace IsalesApi.Foundation.Prog

variable {D D' W W' K K' E : Type} {α β : Type}

/-! ## Programs without queries -/

inductive Silent : Prog D W E α → Prop where
  | done (a : α) : Silent (.done a)
  | raise (e : E) : Silent (.raise e)
  | write (w : W) {k : Prog D W E α} (h : Silent k) : Silent (.write w k)

theorem Silent.bind {p : Prog D W E α} {f : α → Prog D W E β} (hp : Silent p)
    (hf : ∀ a, Silent (f a)) : Silent (p.bind f) := by
  induction hp with
  | done a => exact hf a
  | raise e => exact .raise e
  | write w _ ih => exact .write w ih

theorem silent_execAll (ws : List W) : Silent (execAll ws : Prog D W E Unit) := by
  induction ws with
  | nil => exact .done ()
  | cons w ws ih => exact .write w ih

/-- It runs as it can end, on every state that takes its writes. -/
theorem Silent.run_of_ends [Store D W K E] {p : Prog D W E α} (hp : Silent p) {a : α}
    {ws : List W} (hends : p.Ends a ws) {d d' : D} (happly : applyAll ws d = some d') :
    p.run d = .ok (a, d') := by
  induction hp generalizing ws d with
  | done b =>
    obtain ⟨rfl, rfl⟩ := ends_done.mp hends
    cases happly
    rfl
  | raise e => exact absurd hends not_ends_raise
  | write w _ ih =>
    cases hends with
    | write hends =>
      obtain ⟨m, hm, happly⟩ := applyAll_cons.mp happly
      simp only [run, hm]
      exact ih hends happly

theorem Silent.run_iff [Store D W K E] {p : Prog D W E α} (hp : Silent p) {a : α} {d d' : D} :
    p.run d = .ok (a, d') ↔ ∃ ws, p.Ends a ws ∧ applyAll ws d = some d' := by
  refine ⟨ends_of_run, ?_⟩
  rintro ⟨ws, hends, happly⟩
  exact hp.run_of_ends hends happly

/-! ## Writes under numbers -/

/-- The writes, with `f` told the number of each, the first being `n`. -/
def numbered (f : Nat → W → W') (n : Nat) (ws : List W) : List W' :=
  (ws.zipIdx n).map fun p => f p.2 p.1

variable {f : Nat → W → W'} {view : D' → D}

@[simp] theorem numbered_nil (n : Nat) : numbered f n [] = [] := rfl

@[simp] theorem numbered_cons (n : Nat) (w : W) (ws : List W) :
    numbered f n (w :: ws) = f n w :: numbered f (n + 1) ws := by
  simp [numbered, List.zipIdx_cons]

theorem numbered_append (n : Nat) (ws vs : List W) :
    numbered f n (ws ++ vs) = numbered f n ws ++ numbered f (n + ws.length) vs := by
  simp [numbered, List.zipIdx_append]

/-- When the numbers are not looked at. -/
theorem numbered_const (g : W → W') (n : Nat) (ws : List W) :
    numbered (fun _ => g) n ws = ws.map g := by
  induction ws generalizing n with
  | nil => rfl
  | cons w ws ih => rw [numbered_cons, ih, List.map_cons]

/-- The program on the other store; its next write has number `n`. A search is a
query, and the writes it finds follow. -/
def relabel (view : D' → D) (f : Nat → W → W') : Prog D W E α → Nat → Prog D' W' E α
  | .done a, _ => .done a
  | .raise e, _ => .raise e
  | .query k, n => .query fun d => (k (view d)).relabel view f n
  | .write w k, n => .write (f n w) (k.relabel view f (n + 1))
  | .scan targets k, n => .query fun d =>
    after (numbered f n (targets (view d))) (k.relabel view f (n + (targets (view d)).length))

theorem ends_relabel {p : Prog D W E α} {n : Nat} {a : α} {vs : List W'}
    (h : (p.relabel view f n).Ends a vs) : ∃ ws, p.Ends a ws ∧ vs = numbered f n ws := by
  induction p generalizing n vs with
  | done b =>
    obtain ⟨rfl, rfl⟩ := ends_done.mp h
    exact ⟨[], .done a, rfl⟩
  | raise e => exact absurd h not_ends_raise
  | query k ih =>
    cases h with
    | query d h =>
      obtain ⟨ws, hends, rfl⟩ := ih (view d) h
      exact ⟨ws, .query (view d) hends, rfl⟩
  | write w k ih =>
    cases h with
    | write h =>
      obtain ⟨ws, hends, rfl⟩ := ih h
      exact ⟨w :: ws, .write hends, (numbered_cons n w ws).symm⟩
  | scan targets k ih =>
    cases h with
    | query d h =>
      obtain ⟨us, hk, rfl⟩ := ends_after.mp h
      obtain ⟨ws, hends, rfl⟩ := ih hk
      exact ⟨targets (view d) ++ ws, .scan (view d) hends, (numbered_append ..).symm⟩

/-- Without queries, how a program can end does not depend on the store. -/
theorem Silent.ends_relabel_iff {p : Prog D W E α} (hp : Silent p) {n : Nat} {a : α}
    {vs : List W'} :
    (p.relabel view f n).Ends a vs ↔ ∃ ws, p.Ends a ws ∧ vs = numbered f n ws := by
  refine ⟨ends_relabel, ?_⟩
  rintro ⟨ws, hends, rfl⟩
  induction hp generalizing n ws with
  | done b =>
    obtain ⟨rfl, rfl⟩ := ends_done.mp hends
    exact .done a
  | raise e => exact absurd hends not_ends_raise
  | write w _ ih =>
    cases hends with
    | write hends =>
      rw [numbered_cons]
      exact .write (ih _ hends)

theorem Silent.relabel {p : Prog D W E α} (hp : Silent p) (n : Nat) :
    Silent (p.relabel view f n) := by
  induction hp generalizing n with
  | done a => exact .done a
  | raise e => exact .raise e
  | write w _ ih => exact .write _ (ih (n + 1))

/-- What the other store takes, its view takes. -/
theorem applyAll_numbered [Store D W K E] [Store D' W' K' E]
    (happly : ∀ n w d m, Store.apply (f n w) d = some m → Store.apply w (view d) = some (view m))
    {n : Nat} {ws : List W} {d m : D'} (h : applyAll (numbered f n ws) d = some m) :
    applyAll ws (view d) = some (view m) := by
  induction ws generalizing n d with
  | nil =>
    cases h
    rfl
  | cons w ws ih =>
    rw [numbered_cons] at h
    obtain ⟨m', hm', h⟩ := applyAll_cons.mp h
    exact applyAll_cons.mpr ⟨view m', happly n w d m' hm', ih h⟩

/-! ## What a program can raise -/

/-- All that the program raises by itself has the property. -/
inductive RaisesOnly (P : E → Prop) : Prog D W E α → Prop where
  | done (a : α) : RaisesOnly P (.done a)
  | raise {e : E} (h : P e) : RaisesOnly P (.raise e)
  | query {k : D → Prog D W E α} (h : ∀ d, RaisesOnly P (k d)) : RaisesOnly P (.query k)
  | write (w : W) {k : Prog D W E α} (h : RaisesOnly P k) : RaisesOnly P (.write w k)
  | scan (targets : D → List W) {k : Prog D W E α} (h : RaisesOnly P k) :
      RaisesOnly P (.scan targets k)

section Raise

variable {P : E → Prop}

theorem RaisesOnly.bind {p : Prog D W E α} {g : α → Prog D W E β} (hp : RaisesOnly P p)
    (hg : ∀ a, RaisesOnly P (g a)) : RaisesOnly P (p.bind g) := by
  induction hp with
  | done a => exact hg a
  | raise h => exact .raise h
  | query _ ih => exact .query ih
  | write w _ ih => exact .write w ih
  | scan targets _ ih => exact .scan targets ih

theorem RaisesOnly.after (ws : List W) {k : Prog D W E α} (h : RaisesOnly P k) :
    RaisesOnly P (Prog.after ws k) := by
  induction ws with
  | nil => exact h
  | cons w ws ih => exact .write w ih

theorem RaisesOnly.relabel {p : Prog D W E α} (hp : RaisesOnly P p) (n : Nat) :
    RaisesOnly P (p.relabel view f n) := by
  induction hp generalizing n with
  | done a => exact .done a
  | raise h => exact .raise h
  | query _ ih => exact .query fun d => ih (view d) n
  | write w _ ih => exact .write _ (ih (n + 1))
  | scan targets _ ih => exact .query fun d => .after _ (ih _)

/-- What a request ends with that does not succeed. -/
theorem RaisesOnly.run_error [Store D W K E] (hrefused : P (Store.refused D)) {p : Prog D W E α}
    (hp : RaisesOnly P p) {d : D} {e : E} (h : p.run d = .error e) : P e := by
  induction hp generalizing d with
  | done a => cases h
  | raise hraise =>
    cases h
    exact hraise
  | query _ ih => exact ih d h
  | write w _ ih =>
    simp only [run] at h
    split at h
    · cases h
      exact hrefused
    · exact ih h
  | scan targets _ ih =>
    simp only [run] at h
    split at h
    · cases h
      exact hrefused
    · exact ih h

end Raise

end IsalesApi.Foundation.Prog
