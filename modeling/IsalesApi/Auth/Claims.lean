import IsalesApi.Http

/-!
# Claims

The `dict` a token carries and a request's user is. Its values are JSON; the
code looks at texts and integers only, of any other value what `str()` shows of
it is kept.
-/

namespace IsalesApi.Auth

inductive ClaimValue where
  | null
  | text (s : String)
  | int (n : Int)
  | other (shown : String)
deriving DecidableEq

/-- `str(value)`. -/
def ClaimValue.str : ClaimValue → String
  | null => "None"
  | text s => s
  | int n => toString n
  | other shown => shown

abbrev Claims := List (String × ClaimValue)

namespace Claims

/-- `claims.get(k)`. -/
def get (c : Claims) (k : String) : Option ClaimValue := c.lookup k

/-- `{**claims, k: v}`: a key that is there keeps its place. -/
def set : Claims → String → ClaimValue → Claims
  | [], k, v => [(k, v)]
  | p :: c, k, v => if p.1 = k then (k, v) :: c else p :: set c k v

theorem get_cons (p : String × ClaimValue) (c : Claims) (j : String) :
    get (p :: c) j = if j = p.1 then some p.2 else get c j := by
  unfold get
  rw [List.lookup_cons]
  by_cases hj : j = p.1
  · simp [hj]
  · have hbeq : (j == p.1) = false := by simpa using hj
    rw [hbeq, if_neg hj]

theorem get_set (c : Claims) (k : String) (v : ClaimValue) (j : String) :
    (c.set k v).get j = if j = k then some v else c.get j := by
  induction c with
  | nil => exact get_cons (k, v) [] j
  | cons p c ih =>
    unfold set
    by_cases hp : p.1 = k
    · rw [if_pos hp, get_cons, get_cons, hp]
      by_cases hj : j = k
      · simp only [hj, if_true]
      · simp only [hj, if_false]
    · rw [if_neg hp, get_cons, get_cons, ih]
      by_cases hj : j = p.1
      · have hjk : j ≠ k := fun h => hp (hj.symm.trans h)
        rw [if_pos hj, if_neg hjk, if_pos hj]
      · rw [if_neg hj, if_neg hj]

end Claims

end IsalesApi.Auth
