import IsalesApi.Foundation.Transaction
import IsalesApi.Foundation.Sight

/-!
# Handlers and their errors

What the routers share: the exceptions they raise, and the lookup that answers
404.
-/

namespace IsalesApi

open Foundation

structure HttpException where
  status : Nat
  detail : String
deriving DecidableEq

/-- `status.HTTP_422_UNPROCESSABLE_ENTITY`. -/
def unprocessable (detail : String) : HttpException := ⟨422, detail⟩

def notFound (detail : String) : HttpException := ⟨404, detail⟩

def conflict (detail : String) : HttpException := ⟨409, detail⟩

/-- What is answered when the database refuses a write. -/
def internalServerError : HttpException := ⟨500, "Internal Server Error"⟩

section Lookup

variable {D W K : Type} {α β : Type}

/-- `obj = await session.get(…)`, and 404 when it is `None`. -/
def getOr404 (q : D → Option α) (detail : String) : Prog D W HttpException α :=
  (Prog.select q).bind fun
    | none => .raise (notFound detail)
    | some a => .done a

theorem run_getOr404 [Store D W K HttpException] {q : D → Option α} {detail : String}
    {f : α → Prog D W HttpException β} {d : D} {r : β × D} :
    ((getOr404 q detail).bind f).run d = .ok r ↔ ∃ a, q d = some a ∧ (f a).run d = .ok r := by
  unfold getOr404
  rw [Prog.run_bind, Prog.run_select_bind]
  cases q d <;> simp [Except.bind]

/-- The row is there. -/
theorem run_getOr404_some [Store D W K HttpException] {q : D → Option α} {detail : String}
    {f : α → Prog D W HttpException β} {d : D} {a : α} (h : q d = some a) :
    ((getOr404 q detail).bind f).run d = (f a).run d := by
  unfold getOr404
  rw [Prog.run_bind, Prog.run_select_bind, h]
  rfl

theorem run_getOr404_none [Store D W K HttpException] {q : D → Option α} {detail : String}
    {f : α → Prog D W HttpException β} {d : D} (h : q d = none) :
    ((getOr404 q detail).bind f).run d = .error (notFound detail) := by
  unfold getOr404
  rw [Prog.run_bind, Prog.run_select_bind, h]
  rfl

theorem run_getOr404_error [Store D W K HttpException] {q : D → Option α} {detail : String}
    {f : α → Prog D W HttpException β} {d : D} {a : α} {e : HttpException} (ha : q d = some a)
    (h : ((getOr404 q detail).bind f).run d = .error e) : (f a).run d = .error e :=
  (run_getOr404_some ha).symm.trans h

theorem ends_getOr404 {q : D → Option α} {detail : String} {f : α → Prog D W HttpException β}
    {b : β} {ws : List W} :
    ((getOr404 q detail).bind f).Ends b ws ↔ ∃ d a, q d = some a ∧ (f a).Ends b ws := by
  unfold getOr404
  rw [Prog.ends_bind]
  constructor
  · rintro ⟨a, us, vs, hget, hf, rfl⟩
    obtain ⟨d, hget⟩ := Prog.ends_select_bind.mp hget
    cases hq : q d with
    | none =>
      rw [hq] at hget
      exact absurd hget Prog.not_ends_raise
    | some a' =>
      rw [hq] at hget
      obtain ⟨rfl, rfl⟩ := Prog.ends_done.mp hget
      exact ⟨d, a, hq, hf⟩
  · rintro ⟨d, a, hq, hf⟩
    refine ⟨a, [], ws, Prog.ends_select_bind.mpr ⟨d, ?_⟩, hf, rfl⟩
    rw [hq]
    exact .done a

/-- The lookup comes first: its row was there when the request began. -/
theorem seeing_getOr404 {γ : Type} {q : D → Option α} {detail : String}
    {f : α → Prog D W HttpException β} {g : β → γ} {c : γ} {see : List W → D → Prop}
    {ws : List W}
    (h : (((getOr404 q detail).bind f).bind fun b => .done (g b)).EndsSeeing see [] c ws) :
    ∃ d a b, see [] d ∧ q d = some a ∧ (f a).Ends b ws := by
  unfold getOr404 at h
  rw [Prog.bind_assoc, Prog.bind_assoc] at h
  obtain ⟨d, hd, h⟩ := h.select_bind
  cases hq : q d with
  | none =>
    rw [hq] at h
    cases h
  | some a =>
    rw [hq] at h
    obtain ⟨us, hends, rfl⟩ := h.ends
    obtain ⟨b, hf, _⟩ := Prog.ends_map.mp hends
    exact ⟨d, a, b, hd, hq, hf⟩

end Lookup

end IsalesApi
