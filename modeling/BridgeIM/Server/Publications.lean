import BridgeIM.Server.CrossNode

namespace BridgeIM.Server.Publications

open CString Db Lib Model Redis Delivery CrossNode

variable {N : Type} [DecidableEq N] {E : Engine} {n : N} {pick : Option Int} {w w' : World N} {pc : Pc N} {e : Effect N}

/-- The publication that a move makes, if Redis has the node among the
subscribers of its channel. -/
def pushed (E : Engine) (n : N) (w : World N) : Action N → Option (Option Int × String × Nat)
  | .run tid pick =>
    (w.threads[tid]?).bind fun th => (th.pc.next E th.task.node pick w).bind fun x => received tid (w.node n).redis x.1
  | _ => none

/-- The publications that a node has been subscribed to when they were made. -/
def pushes (E : Engine) (n : N) (w₀ : World N) (as : List (Action N)) : List (Option Int × String × Nat) :=
  (cluster N E).trace (pushed E n) w₀ as

open Sample

end BridgeIM.Server.Publications
