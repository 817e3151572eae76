import IsalesApi.Prompt.Exclusive

/-!
# Any number of overlapping activations

With two requests only the second commit can miss a version. With more of them
any commit can, and what an earlier one has missed can be found by a later one,
which does not repair the states in between: at most one version is active in
every committed state if and only if no commit misses one.
-/

namespace IsalesApi.Prompt

open Foundation

variable {ι : Type} [DecidableEq ι] [Fintype ι] {db : Database}

/-- The commit of a request keeps the scopes exclusive exactly when nothing was
missed. -/
theorem oneActive_commit_iff {r : Request} {row : PromptVersion} {ws : List Write}
    {m m' : Database} (hends : r.handler.Ends row ws) (hm : OneActive m)
    (happly : applyAll ws m = some m') : OneActive m' ↔ NoneMissed r m ws := by
  obtain ⟨first, ids, scope, hwrites⟩ := ends_handler hends
  exact hwrites.oneActive_iff hm happly

/-- **At most one active version, in every committed state** of any number of
overlapping requests, if and only if no commit misses one; the table they start
from has at most one. -/
theorem oneActive_always_iff (r : ι → Request) (hdb : OneActive db)
    (as : List (ServerAction ι)) :
    Always Server.step (fun s => OneActive s.committed)
        (Server.start db fun i => (r i).handler) as ↔
      Along Server.step (AtCommit fun i => NoneMissed (r i))
        (Server.start db fun i => (r i).handler) as :=
  always_iff_atCommit
    (fun i _ _ _ _ hends hm happly => oneActive_commit_iff (r := r i) hends hm happly) hdb as

/-- Versions 2, 3 and 4 are created active in the scope of version 1. -/
def threeCreates : Fin 3 → Request
  | 0 => .create 2 (mainPrompt "v2")
  | 1 => .create 3 (mainPrompt "v3")
  | 2 => .create 4 (mainPrompt "v4")

/-- The third has looked for other versions before the first commits, and leaves
the version of the second active. -/
theorem oneActive_always_iff_threeCreates :
    Always Server.step (fun s => OneActive s.committed)
        (Server.start oneVersion fun i => (threeCreates i).handler)
        [.advance 2, .advance 2, .advance 0, .advance 0, .advance 0, .advance 0, .advance 0,
          .advance 1, .advance 1, .advance 1, .advance 1, .advance 1, .advance 1, .advance 2,
          .advance 2, .advance 2] ↔
      Along Server.step (AtCommit fun i => NoneMissed (threeCreates i))
        (Server.start oneVersion fun i => (threeCreates i).handler)
        [.advance 2, .advance 2, .advance 0, .advance 0, .advance 0, .advance 0, .advance 0,
          .advance 1, .advance 1, .advance 1, .advance 1, .advance 1, .advance 1, .advance 2,
          .advance 2, .advance 2] :=
  oneActive_always_iff threeCreates (by decide) _

end IsalesApi.Prompt
