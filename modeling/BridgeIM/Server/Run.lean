import BridgeIM.Lib.Slots
import BridgeIM.Server.Cluster

namespace BridgeIM.Server

open Db Lib Model Redis

variable {N : Type} [DecidableEq N] {E : Engine}

/-- Two worlds that differ at most in their threads and in the Redis links. -/
structure SameStores (w w' : World N) : Prop where
  users : w'.users = w.users
  offline : w'.offline = w.offline
  log : w'.log = w.log
  map : ∀ n, (w'.node n).userConnMap = (w.node n).userConnMap

theorem sameStores_setRedis (n : N) (l : Link) (w : World N) : SameStores w (w.setRedis n l) where
  users := rfl
  offline := rfl
  log := rfl
  map := by
    intro k
    by_cases h : k = n
    · subst h
      simp [World.setRedis]
    · simp [World.setRedis, h]

omit [DecidableEq N] in
theorem sameStores_spawn (task : Task N) (w : World N) : SameStores w (w.spawn task) :=
  ⟨rfl, rfl, rfl, fun _ => rfl⟩

omit [DecidableEq N] in
theorem SameStores.spawn {w w' : World N} (h : SameStores w w') (task : Task N) :
    SameStores w (w'.spawn task) :=
  ⟨h.users, h.offline, h.log, h.map⟩

theorem listen_frame {w w' : World N} {n : N} {l : Listen} (h : w.listen n l = some w') :
    SameStores w w' ∧ (w'.threads = w.threads ∨
      ∃ task : Task N, task.isSubscribed = true ∧ w'.threads = w.threads ++ [⟨task, task.start⟩]) := by
  have hset {r : Link} (hr : w.setRedis n r = w') : SameStores w w' ∧ w'.threads = w.threads := by
    subst hr
    exact ⟨sameStores_setRedis n r w, rfl⟩
  cases l with
  | serve =>
    obtain ⟨r, _, hr⟩ := Option.map_eq_some_iff.mp h
    exact ⟨(hset hr).1, Or.inl (hset hr).2⟩
  | swapCommands | nextCommand =>
    simp only [World.listen] at h
    split at h
    · cases h
    · obtain ⟨r, _, hr⟩ := Option.map_eq_some_iff.mp h
      exact ⟨(hset hr).1, Or.inl (hset hr).2⟩
  | nextReply =>
    simp only [World.listen] at h
    split at h
    · cases h
    · obtain ⟨⟨r, message⟩, _, hr⟩ := Option.map_eq_some_iff.mp h
      cases message with
      | none => exact ⟨(hset hr).1, Or.inl (hset hr).2⟩
      | some m =>
        subst hr
        exact ⟨(sameStores_setRedis n r w).spawn _, Or.inr ⟨_, rfl, rfl⟩⟩

theorem step_cases {w w' : World N} {a : Action N} (h : step E w a = some w') :
    (∃ task : Task N, (a = .start task ∨ task.isSubscribed = true) ∧ SameStores w w' ∧
      w'.threads = w.threads ++ [⟨task, task.start⟩]) ∨
    (SameStores w w' ∧ w'.threads = w.threads) ∨
    ∃ tid pick th e pc, a = .run tid pick ∧ w.threads[tid]? = some th ∧
      th.pc.next E th.task.node pick w = some (e, pc) ∧ w' = w.advance E tid th e pc := by
  cases a with
  | start task =>
    simp only [step] at h
    split at h
    · cases h
    · cases h
      exact Or.inl ⟨task, Or.inl rfl, sameStores_spawn task w, rfl⟩
  | run tid pick =>
    obtain ⟨th, hth, h⟩ := Option.bind_eq_some_iff.mp h
    obtain ⟨⟨e, pc⟩, hn, rfl⟩ := Option.map_eq_some_iff.mp h
    exact Or.inr (Or.inr ⟨tid, pick, th, e, pc, rfl, hth, hn, rfl⟩)
  | listen n l =>
    obtain ⟨hs, ht | ⟨task, htask, ht⟩⟩ := listen_frame h
    · exact Or.inr (Or.inl ⟨hs, ht⟩)
    · exact Or.inl ⟨task, Or.inr htask, hs, ht⟩

section Advance

variable (w : World N) (tid : Nat) (th : Thread N) (e : Effect N) (pc : Pc N)

@[simp] theorem log_advance : (w.advance E tid th e pc).log = w.log ++ [(tid, e)] := rfl

@[simp] theorem users_advance : (w.advance E tid th e pc).users = e.onUsers E w.users := rfl

@[simp] theorem offline_advance : (w.advance E tid th e pc).offline = e.onOffline E w.offline := rfl

@[simp] theorem threads_advance :
    (w.advance E tid th e pc).threads = w.threads.set tid { th with pc := pc } := rfl

@[simp] theorem node_advance (n : N) :
    (w.advance E tid th e pc).node n = e.onNode tid (n = th.task.node) (w.node n) := rfl

end Advance

section Threads

variable {α : Type}

theorem getElem?_set_self {ts : List α} {x y : α} {i : Nat} (h : ts[i]? = some y) :
    (ts.set i x)[i]? = some x := by
  rw [List.getElem?_set_self', h]
  rfl

end Threads

def connMap (w : World Unit) : ConnMap Unit := (w.node ()).userConnMap

theorem connMap_advance (w : World Unit) (tid : Nat) (th : Thread Unit) (e : Effect Unit) (pc : Pc Unit) :
    connMap (w.advance E tid th e pc) = e.onMap (connMap w) := by
  have hn : () = th.task.node := rfl
  rw [connMap, node_advance, decide_eq_true hn]
  rfl

omit [DecidableEq N] in
theorem isDone_iff {pc : Pc N} : pc.isDone = true ↔ pc = .done := by
  cases pc <;> simp [Pc.isDone]

def World.history (tid : Nat) (w : World N) : List (Effect N) :=
  (w.log.filter (fun x => x.1 = tid)).map Prod.snd

/-- The effects a thread can have had when it stands at a given point, whatever
it has read. -/
inductive Trace (E : Engine) (task : Task N) : List (Effect N) → Pc N → Prop
  | start : Trace E task [] task.start
  | step {h : List (Effect N)} {pc pc' : Pc N} {e : Effect N} (w : World N) (pick : Option Int)
      (ht : Trace E task h pc) (hn : pc.next E task.node pick w = some (e, pc')) : Trace E task (h ++ [e]) pc'

/-- The log is made of the histories of the threads. -/
structure Traced (E : Engine) (w : World N) : Prop where
  trace : ∀ tid th, w.threads[tid]? = some th → Trace E th.task (w.history tid) th.pc
  known : ∀ x ∈ w.log, x.1 < w.threads.length

theorem history_advance (w : World N) (tid : Nat) (th : Thread N) (e : Effect N) (pc : Pc N) (i : Nat) :
    (w.advance E tid th e pc).history i = if i = tid then w.history i ++ [e] else w.history i := by
  by_cases h : i = tid
  · subst h
    simp [World.history, World.advance]
  · have h' : ¬ tid = i := Ne.symm h
    simp [World.history, World.advance, h, h']

omit [DecidableEq N] in
theorem mem_history {w : World N} {tid : Nat} {e : Effect N} : e ∈ w.history tid ↔ (tid, e) ∈ w.log := by
  simp [World.history]

omit [DecidableEq N] in
theorem SameStores.history {w w' : World N} (h : SameStores w w') (tid : Nat) :
    w'.history tid = w.history tid := by
  rw [World.history, h.log, World.history]

theorem Traced.history_of_ge {w : World N} (h : Traced E w) {tid : Nat} (ht : w.threads.length ≤ tid) :
    w.history tid = [] := by
  rw [World.history, List.map_eq_nil_iff, List.filter_eq_nil_iff]
  intro x hx
  have hk := h.known x hx
  simp only [decide_eq_true_eq]
  omega

theorem Traced.step {w w' : World N} (h : Traced E w) {a : Action N} (hs : Server.step E w a = some w') :
    Traced E w' := by
  obtain ⟨task, _, hf, ht⟩ | ⟨hf, ht⟩ | ⟨tid, pick, th, e, pc, rfl, hth, hn, rfl⟩ := step_cases hs
  · constructor
    · intro i th hi
      rw [ht] at hi
      rw [hf.history]
      obtain hi | ⟨hl, rfl⟩ := getElem?_of_concat hi
      · exact h.trace i th hi
      · rw [h.history_of_ge (Nat.le_of_eq hl.symm)]
        exact .start
    · intro x hx
      rw [hf.log] at hx
      rw [ht, List.length_append]
      exact Nat.lt_add_right _ (h.known x hx)
  · constructor
    · intro i th hi
      rw [ht] at hi
      rw [hf.history]
      exact h.trace i th hi
    · intro x hx
      rw [hf.log] at hx
      rw [ht]
      exact h.known x hx
  · constructor
    · intro i th' hi
      rw [history_advance]
      obtain ⟨rfl, rfl⟩ | ⟨hne, hi⟩ := getElem?_of_set hi
      · rw [if_pos rfl]
        exact .step w pick (h.trace i th hth) hn
      · rw [if_neg hne]
        exact h.trace i th' hi
    · intro x hx
      simp only [World.advance, List.length_set]
      obtain hx | hx := List.mem_append.mp hx
      · exact h.known x hx
      · rw [List.mem_singleton.mp hx]
        exact (List.getElem?_eq_some_iff.mp hth).1

structure World.Fresh (w : World N) : Prop where
  threads : w.threads = []
  log : w.log = []
  node : ∀ n, w.node n = {}

theorem traced_fresh {w : World N} (h : w.Fresh) : Traced E w where
  trace := by
    intro tid th ht
    rw [h.threads] at ht
    cases ht
  known := by
    intro x hx
    rw [h.log] at hx
    cases hx

namespace Sample

def accounts : UserModel.Table where
  rows := [⟨1, "alice", "a", some .offline⟩, ⟨2, "bob", "b", some .offline⟩]
  nextId := 3
  ids := by decide
  unique := by decide

def engine : Engine := Engine.strict (fun a b => a = b)

def loginFrame (name password : String) : Json :=
  .obj [("msgid", .int 1), ("name", .str name), ("password", .str password)]

def loginoutFrame (userid : Int) : Json := .obj [("msgid", .int 3), ("userid", .int userid)]

def chatFrame (userid toid : Int) (msg : String) : Json :=
  .obj [("msg", .str msg), ("msgid", .int 6), ("to", .int toid), ("userid", .int userid)]

def runs (tid k : Nat) : List (Action N) := List.replicate k (.run tid none)

end Sample

end BridgeIM.Server
