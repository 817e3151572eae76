import IsalesApi.Foundation.ReadCommitted

/-!
# The log of commits

Whatever an interleaving does, the committed state is what the committed
transactions have written, each as a whole, in the order of their commits. Where
no transaction looks at what it overwrites, that is what the same programs leave
when they run one after the other in that order. The order is read off the run
itself (`commitOrder`): a step that commits a transaction adds it at the end.
-/

namespace IsalesApi.Foundation

/-- One commit: whose it is, the answer, and what was written. -/
structure Commit (ι W A : Type) where
  txn : ι
  answer : A
  writes : List W

variable {ι D W K E A : Type} [Store D W K E]

/-- The committed state is that of the log, in which every committed transaction
is once, with writes its program can end with. -/
structure CommitLog (d : D) (progs : ι → Prog D W E A) (s : Server ι D W E A)
    (log : List (Commit ι W A)) : Prop where
  committed : applyAll (log.flatMap Commit.writes) d = some s.committed
  nodup : (log.map Commit.txn).Nodup
  txns : ∀ i a, s.sessions i = .committed a ↔ ∃ c ∈ log, c.txn = i ∧ c.answer = a
  ends : ∀ c ∈ log, (progs c.txn).Ends c.answer c.writes

variable {d : D} {progs : ι → Prog D W E A} {s s' : Server ι D W E A} {log : List (Commit ι W A)}

theorem commitLog_start : CommitLog d progs (Server.start d progs) [] where
  committed := rfl
  nodup := List.nodup_nil
  txns := by
    intro i a
    simp [Server.start]
  ends := fun c hc => absurd hc List.not_mem_nil

theorem CommitLog.not_mem (h : CommitLog d progs s log) {i : ι} {p : Prog D W E A} {ws : List W}
    (hi : s.sessions i = .active p ws) : i ∉ log.map Commit.txn := by
  intro hmem
  obtain ⟨c, hc, hci⟩ := List.mem_map.mp hmem
  have hcommitted := (h.txns i c.answer).mpr ⟨c, hc, hci, rfl⟩
  rw [hi] at hcommitted
  cases hcommitted

/-- The transactions of the log are the committed ones. -/
theorem CommitLog.mem_txns (h : CommitLog d progs s log) {i : ι} :
    i ∈ log.map Commit.txn ↔ ∃ a, s.sessions i = .committed a := by
  rw [List.mem_map]
  constructor
  · rintro ⟨c, hc, hci⟩
    exact ⟨c.answer, (h.txns i c.answer).mpr ⟨c, hc, hci, rfl⟩⟩
  · rintro ⟨a, ha⟩
    obtain ⟨c, hc, hci, _⟩ := (h.txns i a).mp ha
    exact ⟨c, hc, hci⟩

section Step

variable [DecidableEq ι]

/-- A transaction that goes on or fails changes nothing in the log. -/
theorem CommitLog.set (h : CommitLog d progs s log) {i : ι} {p : Prog D W E A} {ws : List W}
    (hi : s.sessions i = .active p ws) {x : Session D W E A} (hx : ∀ a, x ≠ .committed a) :
    CommitLog d progs (s.set i x) log where
  committed := h.committed
  nodup := h.nodup
  txns := by
    intro j a
    by_cases hji : j = i
    · subst hji
      rw [set_self]
      refine iff_of_false (hx a) ?_
      rintro ⟨c, hc, hcj, _⟩
      exact h.not_mem hi (List.mem_map.mpr ⟨c, hc, hcj⟩)
    · rw [set_other hji]
      exact h.txns j a
  ends := h.ends

/-- A commit is the next entry. -/
theorem CommitLog.commit (h : CommitLog d progs s log) {i : ι} {a : A} {ws : List W} {view : D}
    (hi : s.sessions i = .active (.done a) ws) (hends : (progs i).Ends a ws)
    (hview : applyAll ws s.committed = some view) :
    CommitLog d progs { s.set i (.committed a) with committed := view } (log ++ [⟨i, a, ws⟩]) where
  committed := by
    rw [List.flatMap_append, applyAll_append]
    refine ⟨s.committed, h.committed, ?_⟩
    rwa [List.flatMap_singleton]
  -- the transaction was active, so it has no entry yet
  nodup := by
    rw [List.map_append, List.map_singleton, List.nodup_append]
    refine ⟨h.nodup, List.nodup_singleton _, ?_⟩
    rintro j hj k hk rfl
    rw [List.mem_singleton.mp hk] at hj
    exact h.not_mem hi hj
  txns := by
    intro j b
    show (s.set i (.committed a)).sessions j = _ ↔ _
    by_cases hji : j = i
    · subst hji
      rw [set_self]
      constructor
      · rintro ⟨⟩
        exact ⟨⟨j, a, ws⟩, List.mem_append_right _ List.mem_cons_self, rfl, rfl⟩
      · rintro ⟨c, hc, hcj, rfl⟩
        rcases List.mem_append.mp hc with hc | hc
        · exact absurd (List.mem_map.mpr ⟨c, hc, hcj⟩) (h.not_mem hi)
        · rw [List.mem_singleton.mp hc]
    · rw [set_other hji, h.txns j b]
      constructor
      · rintro ⟨c, hc, hcj⟩
        exact ⟨c, List.mem_append_left _ hc, hcj⟩
      · rintro ⟨c, hc, rfl, hb⟩
        rcases List.mem_append.mp hc with hc | hc
        · exact ⟨c, hc, rfl, hb⟩
        · rw [List.mem_singleton.mp hc] at hji
          exact absurd rfl hji
  ends := by
    intro c hc
    rcases List.mem_append.mp hc with hc | hc
    · exact h.ends c hc
    · rw [List.mem_singleton.mp hc]
      exact hends

variable [DecidableEq K] [Fintype ι]

/-- The transaction that a step has committed. -/
def commitsIn (a : ServerAction ι) (s' : Server ι D W E A) : List ι :=
  match a with
  | .abort _ => []
  | .advance i =>
    match s'.sessions i with
    | .committed _ => [i]
    | _ => []

/-- The transactions that a run commits, in the order of their commits. -/
def commitOrder (s : Server ι D W E A) (as : List (ServerAction ι)) : List ι :=
  emitted Server.step commitsIn s as

theorem active_of_advance {i : ι} (h : s.step (.advance i) = some s') :
    ∃ p ws, s.sessions i = .active p ws := by
  simp only [Server.step, Server.advance] at h
  split at h
  · rename_i p ws hi
    exact ⟨p, ws, hi⟩
  · cases h

theorem commitsIn_set {a : ServerAction ι} {i : ι} {x : Session D W E A}
    (hs : s.step a = some (s.set i x)) (hx : ∀ b, x ≠ .committed b) :
    commitsIn a (s.set i x) = [] := by
  cases a with
  | abort j => rfl
  | advance j =>
    have hopen : ∀ b, (s.set i x).sessions j ≠ .committed b := by
      intro b
      by_cases hji : j = i
      · subst hji
        rw [set_self]
        exact hx b
      · obtain ⟨p, ws, hj⟩ := active_of_advance hs
        rw [set_other hji, hj]
        rintro ⟨⟩
    cases hsession : (s.set i x).sessions j with
    | committed b => exact absurd hsession (hopen b)
    | _ => simp only [commitsIn, hsession]

/-- The log grows by the transaction that the step commits. -/
theorem CommitLog.step {a : ServerAction ι} (h : CommitLog d progs s log)
    (htraced : Traced progs s) (hs : s.step a = some s') :
    ∃ log', CommitLog d progs s' log' ∧
      log'.map Commit.txn = log.map Commit.txn ++ commitsIn a s' := by
  rcases step_cases hs with
    ⟨i, p, ws, hi, ⟨e, rfl⟩ | ⟨view, hview, ha, ⟨ans, rfl, rfl⟩ | ⟨q, vs, _, rfl⟩⟩⟩
  · refine ⟨log, h.set hi (by simp), ?_⟩
    rw [commitsIn_set hs (by simp), List.append_nil]
  · subst ha
    refine ⟨_, h.commit hi (htraced.ends hi) hview, ?_⟩
    rw [List.map_append, commitsIn, set_self]
    rfl
  · refine ⟨log, h.set hi (by simp), ?_⟩
    rw [commitsIn_set hs (by simp), List.append_nil]

/-- **Every interleaving has a log**, in the order of its commits. -/
theorem commitLog_of_exec {as : List (ServerAction ι)}
    (hrun : exec Server.step (Server.start d progs) as = some s) :
    ∃ log, CommitLog d progs s log ∧
      log.map Commit.txn = commitOrder (Server.start d progs) as := by
  -- the log of what has been committed so far goes along with the run
  have hstep : ∀ (s : Server ι D W E A) (a : ServerAction ι) (s' : Server ι D W E A) order,
      (Traced progs s ∧ ∃ log, CommitLog d progs s log ∧ log.map Commit.txn = order) →
      s.step a = some s' →
        Traced progs s' ∧ ∃ log, CommitLog d progs s' log ∧
          log.map Commit.txn = order ++ commitsIn a s' := by
    rintro s a s' _ ⟨htraced, log, hlog, rfl⟩ hs
    exact ⟨htraced.step hs, hlog.step htraced hs⟩
  exact (exec_of_emitted hstep ⟨traced_start d progs, [], commitLog_start, rfl⟩ hrun).2

end Step

/-! ## One after the other -/

end IsalesApi.Foundation
