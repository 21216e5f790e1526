import BridgeIM.Lib.Mailbox
import BridgeIM.Server.CrossNode

namespace BridgeIM.Server.Mailbox

open Lib Model Model.OfflineMsgModel CrossNode

variable {N : Type} [DecidableEq N] {E : Engine} {same : String → String → Bool} {w w' : World N} {pick : Option Int}
  {pc : Pc N} {e : Effect N}

def post : Effect N → Option (Post Int String)
  | .insertOffline t p => some (.put t p)
  | .removeOffline t rows => some (.take t rows)
  | _ => none

def posts (w : World N) : List (Post Int String) := w.log.filterMap fun x => post x.2

def boxes (w : World N) : Int → List String := fun t => messages t w.offline

/-- What is stored can be stored. -/
def Storing (w : World N) : Action N → Prop
  | .run tid _ => ∀ th ∈ w.threads[tid]?, ∀ s ∈ Collect.storing th.pc, Db.IsInt s.1 ∧ Storable s.2
  | _ => True

instance decidableStoring (w : World N) : ∀ a : Action N, Decidable (Storing w a)
  | .run tid _ =>
    inferInstanceAs (Decidable (∀ th ∈ w.threads[tid]?, ∀ s ∈ Collect.storing th.pc, Db.IsInt s.1 ∧ Storable s.2))
  | .start _ | .listen .. => isTrue trivial

theorem boxes_insert (hE : E.Rules same) {t : Int} {p : String} {ms : Table} (ht : Db.IsInt t) (hp : '\x00' ∉ p.toList)
    (hs : Storable p) : (fun u => messages u (insert E.offline t p ms)) =
      Function.update (fun u => messages u ms) t (messages t ms ++ [p]) := by
  funext u
  rw [insert_storable hE.offline ht hp hs, messages_append]
  by_cases hu : u = t
  · subst hu
    rw [Function.update_self]
    simp [messages]
  · rw [Function.update_of_ne hu]
    simp [messages, Ne.symm hu]

theorem boxes_remove (hE : E.Rules same) (t : Int) (ms : Table) :
    (fun u => messages u (remove E.offline t ms)) = Function.update (fun u => messages u ms) t [] := by
  funext u
  rw [remove_eq hE.offline]
  by_cases hu : u = t
  · subst hu
    rw [Function.update_self]
    simp [messages]
  · rw [Function.update_of_ne hu, messages, messages, List.filter_filter]
    congr 1
    apply List.filter_congr
    intro r _
    by_cases hr : r.1 = u
    · simp [hr, hu]
    · simp [hr]

theorem posts_advance (tid : Nat) (th : Thread N) :
    posts (w.advance E tid th e pc) = posts w ++ (post e).toList := by
  rw [posts, log_advance, List.filterMap_append]
  congr 1

/-- An effect on the boxes is a step of the mailbox. -/
theorem boxes_advance (hE : E.Rules same) (hT : Traced E w) (ho : Ordered w) {tid : Nat} {th : Thread N}
    (hth : w.threads[tid]? = some th) (hs : Storing w (.run tid pick))
    (hn : th.pc.next E th.task.node pick w = some (e, pc)) :
    (post e = none ∧ boxes (w.advance E tid th e pc) = boxes w) ∨
      ∃ p, post e = some p ∧ (mailbox Int String).step (boxes w) p = some (boxes (w.advance E tid th e pc)) := by
  cases e with
  | insertOffline t p =>
    obtain ⟨hpc, _⟩ := next_insertOffline hn
    have hp := ho.clean th (List.mem_of_getElem? hth) p (Delivery.trace_delivering (hT.trace tid th hth) (by rw [hpc]; rfl))
    obtain ⟨ht, hst⟩ := hs th hth (t, p) (by rw [hpc]; rfl)
    exact Or.inr ⟨_, rfl, congrArg some (boxes_insert hE ht hp hst).symm⟩
  | removeOffline t rows =>
    obtain ⟨l, _, _, rfl, _⟩ := next_removeOffline hn
    refine Or.inr ⟨_, rfl, ?_⟩
    exact (if_pos rfl).trans (congrArg some (boxes_remove hE t w.offline).symm)
  | _ => exact Or.inl ⟨rfl, rfl⟩

omit [DecidableEq N] in
theorem posts_same (h : SameStores w w') : posts w' = posts w ∧ boxes w' = boxes w := by
  rw [posts, h.log, posts]
  exact ⟨rfl, by funext t; rw [boxes, boxes, h.offline]⟩

theorem mailbox_step (hE : E.Rules same) (hT : Traced E w) (ho : Ordered w) {s : Int → List String} {a : Action N}
    (hs : Storing w a) (hr : (mailbox Int String).run s (posts w) = some (boxes w)) (h : step E w a = some w') :
    (mailbox Int String).run s (posts w') = some (boxes w') := by
  obtain ⟨_, _, hf, _⟩ | ⟨hf, _⟩ | ⟨tid, _, th, e, pc, rfl, hth, hn, rfl⟩ := step_cases h
  · rw [(posts_same hf).1, (posts_same hf).2, hr]
  · rw [(posts_same hf).1, (posts_same hf).2, hr]
  · rw [posts_advance]
    obtain ⟨hp, hb⟩ | ⟨p, hp, hb⟩ := boxes_advance hE hT ho hth hs hn
    · rw [hp, hb, Option.toList_none, List.append_nil, hr]
    · rw [hp, Option.toList_some]
      exact Machine.run_concat hr hb

/-- The stored messages are a mailbox: in every order of the steps of all nodes,
each of them is removed once, in the order in which they were stored for their
user, or it is still there. -/
theorem mailbox_refined (hE : E.Rules same) (w₀ w : World N) (h₀ : w₀.Fresh) (as : List (Action N))
    (hm : (cluster N E).Meets Storing w₀ as) (hr : (cluster N E).run w₀ as = some w) :
    (mailbox Int String).run (boxes w₀) (posts w) = some (boxes w) ∧
      ∀ t, boxes w₀ t ++ puts t (posts w) = takes t (posts w) ++ boxes w t := by
  have h : Traced E w ∧ Ordered w ∧ (mailbox Int String).run (boxes w₀) (posts w) = some (boxes w) := by
    refine Machine.run_invariant
      (I := fun w => Traced E w ∧ Ordered w ∧ (mailbox Int String).run (boxes w₀) (posts w) = some (boxes w))
      ⟨traced_fresh h₀, ordered_fresh h₀, ?_⟩ ?_ hm hr
    · rw [posts, h₀.log]
      rfl
    · intro s a t hi hok hs
      exact ⟨hi.1.step hs, ordered_step hi.1 hi.2.1 hs, mailbox_step hE hi.1 hi.2.1 hok hi.2.2 hs⟩
  exact ⟨h.2.2, mailbox_conserves h.2.2⟩

open Sample

def collected : List (Action Bool) :=
  .start (.frame ⟨false, 0⟩ (chatFrame 2 1 "hello")) :: runs 0 4 ++
    .start (.frame ⟨true, 0⟩ (loginFrame "alice" "a")) :: runs 1 6

theorem mailbox_refined_collected : ∃ w, (cluster Bool engine).run Delivery.world collected = some w ∧
    [(chatFrame 2 1 "hello").dump] = takes 1 (posts w) ∧ puts 1 (posts w) = takes 1 (posts w) ++ boxes w 1 := by
  have h : ((cluster Bool engine).run Delivery.world collected).map (fun w => takes 1 (posts w)) =
      some [(chatFrame 2 1 "hello").dump] ∧ (cluster Bool engine).Meets Storing Delivery.world collected := by
    decide +kernel
  obtain ⟨w, hw, ht⟩ := Option.map_eq_some_iff.mp h.1
  exact ⟨w, hw, ht.symm, (mailbox_refined (Engine.strict_rules _) Delivery.world w ⟨rfl, rfl, fun _ => rfl⟩ collected h.2 hw).2 1⟩

end BridgeIM.Server.Mailbox
