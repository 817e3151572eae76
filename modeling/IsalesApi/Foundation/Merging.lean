import IsalesApi.Foundation.Sight

/-!
# Updates of different fields

Rows have fields, and an `UPDATE` sets some fields of one row. What is sent
leaves out a field whose value is the one that was loaded, so a transaction that
loads a row, waits and sends its `UPDATE` may leave in a field what another one
has committed meanwhile. Where no two transactions set one field of a row, that
cannot happen: whatever the interleaving, a row is the row that was there with
the fields of all committed transactions.
-/

namespace IsalesApi.Foundation

variable {ι D W K E A R κ Field : Type} {Value : Field → Type}

/-- How rows are found, what their fields are and which fields of which row a
transaction sets. -/
structure FieldSets (ι D κ R Field : Type) (Value : Field → Type) where
  row : κ → D → Option R
  value : R → (f : Field) → Value f
  sets : ι → κ → (f : Field) → Option (Value f)

variable (S : FieldSets ι D κ R Field Value)

/-- No two transactions set one field of a row. -/
def FieldSets.Apart : Prop :=
  ∀ i j k f, i ≠ j → S.sets i k f = none ∨ S.sets j k f = none

/-- A field is as it was, or as the transaction that sets it has set it. -/
structure FieldSets.MergedField (answers : ι → Option A) (k : κ) (before after : R) (f : Field) :
    Prop where
  set : ∀ i x, (answers i).isSome = true → S.sets i k f = some x → S.value after f = x
  kept : (∀ i, (answers i).isSome = true → S.sets i k f = none) → S.value after f = S.value before f

/-- Every row that was there, and still is, has the fields of all committed
transactions. -/
def FieldSets.Merged (d : D) (answers : ι → Option A) (m : D) : Prop :=
  ∀ k before after, S.row k d = some before → S.row k m = some after →
    ∀ f, S.MergedField answers k before after f

/-- What a transaction commits to the rows that were there in `d`: a field it
does not set stays, and one it sets is set, or it stays and had the value when
the row was loaded. -/
def FieldSets.Updates (d : D) (i : ι) (loads : κ → R → Prop) (m m' : D) : Prop :=
  ∀ k before after, S.row k d = some before → S.row k m' = some after →
    ∃ row, S.row k m = some row ∧ ∀ f,
      (S.sets i k f = none → S.value after f = S.value row f) ∧
      ∀ x, S.sets i k f = some x → S.value after f = x ∨
        S.value after f = S.value row f ∧ ∃ loaded, loads k loaded ∧ S.value loaded f = x

variable {S} {d m m' : D} {answers : ι → Option A}

theorem merged_start : S.Merged d (fun _ => (none : Option A)) d := by
  intro k before after hbefore hafter f
  obtain rfl : before = after := Option.some.inj (hbefore.symm.trans hafter)
  exact ⟨fun i x hi => (Bool.false_ne_true hi).elim, fun _ => rfl⟩

/-- A field that only `i` sets is as it was until `i` commits. -/
theorem FieldSets.Merged.untouched (h : S.Merged d answers m) (hapart : S.Apart) {i : ι}
    (hi : answers i = none) {k : κ} {before row : R} (hbefore : S.row k d = some before)
    (hrow : S.row k m = some row) {f : Field} {x : Value f} (hx : S.sets i k f = some x) :
    S.value row f = S.value before f := by
  refine (h k before row hbefore hrow f).kept fun j hj => ?_
  have hji : j ≠ i := by
    rintro rfl
    rw [hi] at hj
    cases hj
  rcases hapart j i k f hji with hnone | hnone
  · exact hnone
  · rw [hnone] at hx
    cases hx

/-! ## Commits -/

/-- A commit of a transaction that sets no field. -/
theorem updates_of_kept {i : ι} {loads : κ → R → Prop} (hsets : ∀ k f, S.sets i k f = none)
    (hkept : ∀ k before after, S.row k d = some before → S.row k m' = some after →
      S.row k m = some after) : S.Updates d i loads m m' := by
  intro k before after hbefore hafter
  refine ⟨after, hkept k before after hbefore hafter, fun f => ⟨fun _ => rfl, fun x hx => ?_⟩⟩
  rw [hsets k f] at hx
  cases hx

/-- A commit that updates one row by the fields `sent`: those the transaction
sets, without some that were loaded so. -/
theorem updates_of_sent [DecidableEq κ] {i : ι} {loads : κ → R → Prop} {k : κ} (loaded : R)
    (sent : (f : Field) → Option (Value f)) (hother : ∀ j f, j ≠ k → S.sets i j f = none)
    (hsent : ∀ f, sent f = S.sets i k f ∨
      sent f = none ∧ S.sets i k f = some (S.value loaded f)) (hloaded : loads k loaded)
    (hrows : ∀ j after, S.row j m' = some after → ∃ row, S.row j m = some row ∧
      ∀ f, S.value after f = if j = k then (sent f).getD (S.value row f) else S.value row f) :
    S.Updates d i loads m m' := by
  intro j before after _ hafter
  obtain ⟨row, hrow, hfields⟩ := hrows j after hafter
  refine ⟨row, hrow, fun f => ?_⟩
  rw [hfields f]
  by_cases hj : j = k
  · subst hj
    rw [if_pos rfl]
    rcases hsent f with hall | ⟨hnone, hvalue⟩
    · rw [hall]
      refine ⟨fun hset => by rw [hset]; rfl, fun x hx => .inl ?_⟩
      rw [hx]
      rfl
    · rw [hnone, hvalue]
      refine ⟨fun _ => rfl, fun x hx => .inr ⟨rfl, loaded, hloaded, ?_⟩⟩
      exact Option.some.inj hx
  · rw [if_neg hj, hother j f hj]
    exact ⟨fun _ => rfl, fun x hx => (Option.some_ne_none x hx.symm).elim⟩

/-! ## Interleavings -/

variable [DecidableEq ι]

theorem FieldSets.Merged.commit (h : S.Merged d answers m) (hapart : S.Apart) {i : ι} {a : A}
    (hi : answers i = none) {loads : κ → R → Prop}
    (hloads : ∀ k loaded, loads k loaded →
      ∃ (answers' : ι → Option A) (m' : D), answers' i = none ∧ S.Merged d answers' m' ∧
        S.row k m' = some loaded)
    (hupdates : S.Updates d i loads m m') :
    S.Merged d (Function.update answers i (some a)) m' := by
  intro k before after hbefore hafter f
  obtain ⟨row, hrow, hfields⟩ := hupdates k before after hbefore hafter
  obtain ⟨hstays, hset⟩ := hfields f
  have hrest := h k before row hbefore hrow f
  have hother : ∀ {j}, j ≠ i → Function.update answers i (some a) j = answers j :=
    fun hj => Function.update_of_ne hj ..
  -- what `i` sets was there when `i` loaded it, or is sent
  have hself : ∀ x, S.sets i k f = some x → S.value after f = x := by
    intro x hx
    rcases hset x hx with hsent | ⟨hsame, loaded, hloaded, hvalue⟩
    · exact hsent
    · obtain ⟨answers', n, hi', hn, hloadedRow⟩ := hloads k loaded hloaded
      have hthen := hn.untouched hapart hi' hbefore hloadedRow hx
      have hnow := h.untouched hapart hi hbefore hrow hx
      rw [hsame, hnow, ← hthen, hvalue]
  constructor
  · intro j x hj hx
    by_cases hji : j = i
    · subst hji
      exact hself x hx
    · rw [hother hji] at hj
      rcases hapart j i k f hji with hnone | hnone
      · rw [hnone] at hx
        cases hx
      · rw [hstays hnone]
        exact hrest.set j x hj hx
  · intro hnone
    have hi' : S.sets i k f = none := hnone i (by rw [Function.update_self]; rfl)
    rw [hstays hi']
    refine hrest.kept fun j hj => ?_
    by_cases hji : j = i
    · subst hji
      exact hi'
    · exact hnone j (by rwa [hother hji])

variable [Store D W K E] [DecidableEq K] [Fintype ι] {progs : ι → Prog D W E A}

/-- **Updates of different fields are all kept**, in every interleaving. -/
theorem merged_always (hapart : S.Apart)
    (hupdates : ∀ i see a ws m m', (progs i).EndsSeeing see [] a ws → applyAll ws m = some m' →
      S.Updates d i (fun k loaded => ∃ view, see [] view ∧ S.row k view = some loaded) m m')
    (as : List (ServerAction ι)) :
    Always Server.step (fun s => S.Merged d s.answers s.committed) (Server.start d progs) as := by
  refine committed_always ?_ merged_start as
  intro i answers m a ws m' hi hm hends happly
  refine hm.commit hapart hi ?_ (hupdates i _ a ws m m' hends happly)
  rintro k loaded ⟨view, ⟨answers', n, hi', hn, hview⟩, hrow⟩
  have hview : n = view := Option.some.inj hview
  subst hview
  exact ⟨answers', n, hi', hn, hrow⟩

end IsalesApi.Foundation
