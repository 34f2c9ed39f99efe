import Mathlib.Data.List.Basic

/-! Walks from a node to its parent, and on to a node without one. -/
namespace AgentStack.RefGraph

variable {κ α : Type} [DecidableEq κ]

section Walk

variable (find : κ → Option α) (parent : α → Option κ)

end Walk

variable {find find' : κ → Option α} {parent : α → Option κ}

end AgentStack.RefGraph
