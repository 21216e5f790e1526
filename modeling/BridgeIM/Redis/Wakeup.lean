import BridgeIM.Redis.Listener

namespace BridgeIM.Redis.Wakeup

open Lib Listener

/-- A call of `subscribe` or `unsubscribe` after its check of `_running`. -/
inductive Caller
  | enqueue (command : Command)
  | write
  | returned
  deriving DecidableEq, Repr

/-- The listener with the threads that call it, and the histories of the
commands that were enqueued and executed. -/
structure Shared (B : Type) where
  loop : Loop B := {}
  callers : List Caller := []
  enqueued : List Command := []
  executed : List Command := []

inductive Move (B : Type)
  | subscribe (channel : Int)
  | unsubscribe (channel : Int)
  | caller (i : Nat)
  | listen
  | arrive (bytes : List B)

variable {B : Type}

namespace Shared

def call (command : Command) (s : Shared B) : Shared B :=
  if s.loop.link.running then { s with callers := s.callers ++ [.enqueue command] } else s

def go (hiredis : Decoder B RedisReply) (i : Nat) (s : Shared B) : Option (Shared B) :=
  match s.callers[i]? with
  | some (.enqueue command) => (Listener.step hiredis s.loop (.enqueue command)).map fun loop =>
    { s with loop := loop, callers := s.callers.set i .write, enqueued := s.enqueued ++ [command] }
  | some .write => (Listener.step hiredis s.loop .wakeup).map fun loop =>
    { s with loop := loop, callers := s.callers.set i .returned }
  | _ => none

/-- The command that the next step of the listener executes. -/
def due (s : Shared B) : Option Command :=
  match s.loop.point with
  | .commands _ => s.loop.link.pendingCommands.head?
  | _ => none

def listen (hiredis : Decoder B RedisReply) (s : Shared B) : Option (Shared B) :=
  (s.loop.listen hiredis).map fun loop => { s with loop := loop, executed := s.executed ++ s.due.toList }

end Shared

def step (hiredis : Decoder B RedisReply) (s : Shared B) : Move B → Option (Shared B)
  | .subscribe channel => some (s.call ⟨.subscribe, channel⟩)
  | .unsubscribe channel => some (s.call ⟨.unsubscribe, channel⟩)
  | .caller i => s.go hiredis i
  | .listen => s.listen hiredis
  | .arrive bytes => (Listener.step hiredis s.loop (.arrive bytes)).map fun loop => { s with loop := loop }

def shared (hiredis : Decoder B RedisReply) : Machine (Shared B) (Move B) := ⟨step hiredis⟩

/-- The listener sleeps in `poll` on an empty pipe, there are commands in the
queue, and nobody is about to wake it. -/
def Lost (s : Shared B) : Prop :=
  Asleep s.loop ∧ s.loop.link.commandQueue ≠ [] ∧ .write ∉ s.callers

structure Shared.Fresh (s : Shared B) : Prop where
  point : s.loop.point = .poll
  running : s.loop.link.running = true
  commandQueue : s.loop.link.commandQueue = []
  pendingCommands : s.loop.link.pendingCommands = []
  callers : s.callers = []
  enqueued : s.enqueued = []
  executed : s.executed = []

def Keeps (c : Command) : Prop := c.type ≠ .stop

structure Inv (s : Shared B) : Prop where
  running : s.loop.link.running = true
  alive : s.loop.point ≠ .exited
  order : s.executed ++ (s.loop.link.pendingCommands ++ s.loop.link.commandQueue) = s.enqueued
  batch : s.loop.link.pendingCommands ≠ [] → ∃ readable, s.loop.point = .commands readable
  woken : s.loop.link.commandQueue ≠ [] →
    s.loop.pipe ≠ 0 ∨ .write ∈ s.callers ∨ ∃ readable, s.loop.point = .swap readable
  readable : ∀ readable, s.loop.point = .wakeup readable → s.loop.pipe ≠ 0
  keeps : ∀ c ∈ s.loop.link.pendingCommands ++ s.loop.link.commandQueue, Keeps c
  calls : ∀ c, .enqueue c ∈ s.callers → Keeps c

variable {hiredis : Decoder B RedisReply} {s s' : Shared B}

theorem handleCommand_queues (c : Command) (l : Link) : (l.handleCommand c).commandQueue = l.commandQueue ∧
    (l.handleCommand c).pendingCommands = l.pendingCommands ∧ (Keeps c → (l.handleCommand c).running = l.running) := by
  obtain ⟨type, channel⟩ := c
  cases type with
  | subscribe =>
    simp only [Link.handleCommand, Link.sendSubscribeCommand]
    split <;> exact ⟨rfl, rfl, fun _ => rfl⟩
  | unsubscribe => exact ⟨rfl, rfl, fun _ => rfl⟩
  | stop => exact ⟨rfl, rfl, fun h => absurd rfl h⟩

theorem pending_nil (h : Inv s) (hp : ∀ readable, s.loop.point ≠ .commands readable) :
    s.loop.link.pendingCommands = [] := by
  by_contra hne
  obtain ⟨readable, hc⟩ := h.batch hne
  exact hp readable hc

theorem inv_move (h : Inv s) {loop : Loop B} (hpend : s.loop.link.pendingCommands = [])
    (hq : loop.link.commandQueue = s.loop.link.commandQueue) (hp : loop.link.pendingCommands = [])
    (hr : loop.link.running = true) (he : loop.point ≠ .exited)
    (hw : s.loop.pipe ≠ 0 → loop.pipe ≠ 0 ∨ ∃ readable, loop.point = .swap readable)
    (hb : ∀ readable, loop.point = .wakeup readable → loop.pipe ≠ 0)
    (hswap : ∀ readable, s.loop.point ≠ .swap readable) : Inv { s with loop := loop } where
  running := hr
  alive := he
  order := by
    have ho := h.order
    rw [hpend] at ho
    rw [hp, hq]
    exact ho
  batch hne := absurd hp hne
  woken hne := by
    obtain hpipe | hcall | ⟨readable, hs⟩ := h.woken (hq ▸ hne)
    · exact (hw hpipe).imp_right Or.inr
    · exact Or.inr (Or.inl hcall)
    · exact absurd hs (hswap readable)
  readable := hb
  keeps := by
    have hk := h.keeps
    rw [hpend] at hk
    rw [hp, hq]
    exact hk
  calls := h.calls

theorem inv_listen (h : Inv s) (hs : s.listen hiredis = some s') : Inv s' := by
  obtain ⟨loop, hl, rfl⟩ := Option.map_eq_some_iff.mp hs
  have hrun := h.running
  cases hp : s.loop.point with
  | poll =>
    have hd : s.executed ++ s.due.toList = s.executed := by simp [Shared.due, hp]
    have hpend := pending_nil h (by simp [hp])
    simp only [Loop.listen, hp, hrun] at hl
    rw [hd]
    rw [if_neg (by simp)] at hl
    split at hl
    · rename_i hpipe
      cases hl
      exact inv_move h hpend rfl hpend hrun (by simp) Or.inl (fun _ _ => hpipe) (by simp [hp])
    split at hl
    · cases hl
    · cases hl
      exact inv_move h hpend rfl hpend hrun (by simp) Or.inl (by simp) (by simp [hp])
  | wakeup readable =>
    have hd : s.executed ++ s.due.toList = s.executed := by simp [Shared.due, hp]
    have hpend := pending_nil h (by simp [hp])
    simp only [Loop.listen, hp] at hl
    cases hl
    rw [hd]
    exact inv_move h hpend rfl hpend hrun (by simp) (fun _ => Or.inr ⟨readable, rfl⟩) (by simp) (by simp [hp])
  | swap readable =>
    have hd : s.executed ++ s.due.toList = s.executed := by simp [Shared.due, hp]
    have hpend := pending_nil h (by simp [hp])
    simp only [Loop.listen, hp, Link.swapCommands, if_pos hpend, Option.map_some] at hl
    cases hl
    rw [hd]
    have ho := h.order
    have hk := h.keeps
    rw [hpend] at ho hk
    refine ⟨hrun, by simp, ?_, fun _ => ⟨readable, rfl⟩, fun hne => absurd rfl hne, by simp, ?_, h.calls⟩
    · rw [List.append_nil]
      exact ho
    · rw [List.append_nil]
      exact hk
  | commands readable =>
    cases hc : s.loop.link.pendingCommands with
    | nil =>
      have hd : s.executed ++ s.due.toList = s.executed := by simp [Shared.due, hp, hc]
      simp only [Loop.listen, hp, Link.nextCommand, hc] at hl
      cases hl
      rw [hd]
      have he : (s.loop.afterCommands readable).point = .getReply ∨ (s.loop.afterCommands readable).point = .poll := by
        rw [Loop.afterCommands, hrun]
        cases readable <;> simp
      exact inv_move h hc rfl hc hrun (by obtain he | he := he <;> simp [he]) Or.inl
        (by obtain he | he := he <;> simp [he]) (by simp [hp])
    | cons c rest =>
      have hd : s.executed ++ s.due.toList = s.executed ++ [c] := by simp [Shared.due, hp, hc]
      simp only [Loop.listen, hp, Link.nextCommand, hc] at hl
      cases hl
      rw [hd]
      obtain ⟨hq, hpend, hkeep⟩ := handleCommand_queues c { s.loop.link with pendingCommands := rest }
      have hk := h.keeps
      have ho := h.order
      rw [hc] at hk ho
      refine ⟨(hkeep (hk c (by simp))).trans hrun, by simp, ?_, fun _ => ⟨readable, rfl⟩, fun hne => ?_, by simp, ?_, h.calls⟩
      · rw [hpend, hq, List.append_assoc]
        exact ho
      · obtain hpipe | hcall | ⟨r, hsw⟩ := h.woken (hq ▸ hne)
        · exact Or.inl hpipe
        · exact Or.inr (Or.inl hcall)
        · rw [hp] at hsw
          cases hsw
      · rw [hpend, hq]
        exact fun x hx => hk x (List.mem_cons_of_mem c hx)
  | getReply =>
    have hd : s.executed ++ s.due.toList = s.executed := by simp [Shared.due, hp]
    have hpend := pending_nil h (by simp [hp])
    simp only [Loop.listen, hp] at hl
    rw [hd]
    split at hl
    · cases hl
      exact inv_move h hpend rfl hpend hrun (by simp) Or.inl (by simp) (by simp [hp])
    split at hl
    · cases hl
    · cases hl
      exact inv_move h hpend rfl hpend hrun (by simp) Or.inl (by simp) (by simp [hp])
  | exited => exact absurd hp h.alive

theorem inv_call (h : Inv s) {command : Command} (hk : Keeps command) : Inv (s.call command) := by
  rw [Shared.call, if_pos h.running]
  refine ⟨h.running, h.alive, h.order, h.batch, fun hne => ?_, h.readable, h.keeps, fun c hc => ?_⟩
  · exact (h.woken hne).imp_right (Or.imp_left (List.mem_append_left _))
  · obtain hc | hc := List.mem_append.mp hc
    · exact h.calls c hc
    · cases List.mem_singleton.mp hc
      exact hk

theorem inv_go {i : Nat} (h : Inv s) (hs : s.go hiredis i = some s') : Inv s' := by
  unfold Shared.go at hs
  split at hs
  · rename_i command hc
    cases hs
    have hcall := h.calls command (List.mem_of_getElem? hc)
    have hw : .write ∈ s.callers.set i .write := List.mem_set (List.getElem?_eq_some_iff.mp hc).1 _
    refine ⟨h.running, h.alive, ?_, h.batch, fun _ => Or.inr (Or.inl hw), h.readable,
      fun x hx => ?_, fun x hx => ?_⟩
    · have ho := h.order
      rw [← ho]
      simp [Link.enqueueCommand]
    · rw [Link.enqueueCommand, ← List.append_assoc] at hx
      obtain hx | hx := List.mem_append.mp hx
      · exact h.keeps x hx
      · cases List.mem_singleton.mp hx
        exact hcall
    · obtain hx | hx := List.mem_or_eq_of_mem_set hx
      · exact h.calls x hx
      · cases hx
  · cases hs
    refine ⟨h.running, h.alive, h.order, h.batch, fun _ => Or.inl (Nat.succ_ne_zero _),
      fun _ _ => Nat.succ_ne_zero _, h.keeps, fun x hx => ?_⟩
    obtain hx | hx := List.mem_or_eq_of_mem_set hx
    · exact h.calls x hx
    · cases hx
  · cases hs

theorem inv_step (h : Inv s) {a : Move B} (hs : step hiredis s a = some s') : Inv s' := by
  cases a with
  | subscribe channel =>
    cases hs
    exact inv_call h nofun
  | unsubscribe channel =>
    cases hs
    exact inv_call h nofun
  | caller i => exact inv_go h hs
  | listen => exact inv_listen h hs
  | arrive bytes =>
    cases hs
    exact ⟨h.running, h.alive, h.order, h.batch, h.woken, h.readable, h.keeps, h.calls⟩

theorem inv_fresh (h : s.Fresh) : Inv s where
  running := h.running
  alive := by
    rw [h.point]
    nofun
  order := by
    rw [h.executed, h.enqueued, h.pendingCommands, h.commandQueue]
    rfl
  batch hne := absurd h.pendingCommands hne
  woken hne := absurd h.commandQueue hne
  readable := by
    rw [h.point]
    nofun
  keeps := by
    rw [h.pendingCommands, h.commandQueue]
    nofun
  calls := by
    rw [h.callers]
    nofun

theorem not_lost (h : Inv s) : ¬ Lost s := by
  rintro ⟨⟨hp, _, hpipe, _⟩, hq, hw⟩
  obtain hne | hcall | ⟨readable, hs⟩ := h.woken hq
  · exact hne hpipe
  · exact hw hcall
  · rw [hp] at hs
    cases hs

/-! The listener left alone. -/

def weight : Point → Nat
  | .poll => 3
  | .wakeup _ => 2
  | .swap _ => 9
  | .commands _ => 8
  | .getReply => 2
  | .exited => 0

def work (s : Shared B) : Nat :=
  weight s.loop.point + 10 * s.loop.pipe + 3 * (s.loop.link.pendingCommands.length + s.loop.link.commandQueue.length) +
    4 * s.loop.reader.length + 6 * s.loop.socket.length

def Reading (hiredis : Decoder B RedisReply) (s : Shared B) : Prop :=
  s.loop.point = .getReply ∧ hiredis.next s.loop.reader = none ∧ s.loop.socket = []

theorem work_listen (hd : hiredis.Shortens) (h : Inv s) (hs : s.listen hiredis = some s') : work s' < work s := by
  obtain ⟨loop, hl, rfl⟩ := Option.map_eq_some_iff.mp hs
  have hrun := h.running
  unfold work
  dsimp only
  cases hp : s.loop.point with
  | poll =>
    simp only [Loop.listen, hp, hrun] at hl
    rw [if_neg (by simp)] at hl
    split at hl
    · cases hl
      simp [weight]
    split at hl
    · cases hl
    · cases hl
      simp [weight]
  | wakeup readable =>
    have hpipe := h.readable readable hp
    simp only [Loop.listen, hp] at hl
    cases hl
    simp only [weight]
    omega
  | swap readable =>
    have hpend := pending_nil h (by simp [hp])
    simp only [Loop.listen, hp, Link.swapCommands, if_pos hpend, Option.map_some] at hl
    cases hl
    simp [weight, hpend]
  | commands readable =>
    cases hc : s.loop.link.pendingCommands with
    | nil =>
      simp only [Loop.listen, hp, Link.nextCommand, hc] at hl
      cases hl
      rw [Loop.afterCommands, hrun]
      cases readable <;> simp [weight, hc]
    | cons c rest =>
      simp only [Loop.listen, hp, Link.nextCommand, hc] at hl
      cases hl
      obtain ⟨hq, hpend, _⟩ := handleCommand_queues c { s.loop.link with pendingCommands := rest }
      simp only [hq, hpend, List.length_cons]
      omega
  | getReply =>
    simp only [Loop.listen, hp] at hl
    split at hl
    · rename_i r rest hn
      cases hl
      have hlt := hd _ _ _ hn
      simp only [Loop.handle, weight]
      omega
    split at hl
    · cases hl
    · rename_i hsock
      cases hl
      have hpos : 0 < s.loop.socket.length := List.length_pos_iff.mpr (by simpa using hsock)
      simp only [List.length_append, List.length_nil, weight]
      omega
  | exited => exact absurd hp h.alive

theorem rest_cases (h : Inv s) (hs : s.listen hiredis = none) : Asleep s.loop ∨ Reading hiredis s := by
  have hl : s.loop.listen hiredis = none := Option.map_eq_none_iff.mp hs
  have hrun := h.running
  unfold Loop.listen at hl
  split at hl
  · rename_i hp
    rw [hrun, if_neg (by simp)] at hl
    split at hl
    · cases hl
    · rename_i hpipe
      split at hl
      · rename_i hsock
        exact Or.inl ⟨hp, hrun, by simpa using hpipe, by simpa using hsock⟩
      · cases hl
  · cases hl
  · rename_i readable hp
    rw [Link.swapCommands, if_pos (pending_nil h (by simp [hp]))] at hl
    cases hl
  · split at hl <;> cases hl
  · rename_i hp
    split at hl
    · cases hl
    · rename_i hn
      split at hl
      · rename_i hsock
        exact Or.inr ⟨hp, hn, by simpa using hsock⟩
      · cases hl
  · rename_i hp
    exact absurd hp h.alive

theorem comes_to_rest (hd : hiredis.Shortens) (h : Inv s) : ∃ n t,
    (shared hiredis).run s (List.replicate n .listen) = some t ∧ Inv t ∧ t.listen hiredis = none ∧
      t.callers = s.callers ∧ t.enqueued = s.enqueued := by
  induction hk : work s using Nat.strong_induction_on generalizing s with
  | _ k ih =>
    cases hs : s.listen hiredis with
    | none => exact ⟨0, s, rfl, h, hs, rfl, rfl⟩
    | some u =>
      have hu : u.callers = s.callers ∧ u.enqueued = s.enqueued := by
        obtain ⟨loop, _, rfl⟩ := Option.map_eq_some_iff.mp hs
        exact ⟨rfl, rfl⟩
      obtain ⟨n, t, hr, ht, hrest, hc, he⟩ := ih (work u) (hk ▸ work_listen hd h hs) (inv_listen h hs) rfl
      refine ⟨n + 1, t, ?_, ht, hrest, hc.trans hu.1, he.trans hu.2⟩
      rw [List.replicate_succ]
      exact Machine.run_cons_eq_some.mpr ⟨u, hs, hr⟩

theorem executed_of_asleep (h : Inv s) (hs : Asleep s.loop) (hw : .write ∉ s.callers) : s.executed = s.enqueued := by
  have hp := pending_nil h (by simp [hs.1])
  have hq : s.loop.link.commandQueue = [] := by
    by_contra hne
    exact not_lost h ⟨hs, hne, hw⟩
  have ho := h.order
  rwa [hp, hq, List.append_nil, List.append_nil] at ho

/-- No command is lost: the listener does not sleep on one, the commands are
executed once and in the order of the queue, and when every caller is done the
listener executes them all, unless it waits for the rest of a reply. -/
theorem commands_not_lost (hiredis : Decoder B RedisReply) (hd : hiredis.Shortens) (s₀ s : Shared B) (h₀ : s₀.Fresh)
    (as : List (Move B)) (hr : (shared hiredis).run s₀ as = some s) :
    ¬ Lost s ∧
    s.executed ++ (s.loop.link.pendingCommands ++ s.loop.link.commandQueue) = s.enqueued ∧
    (.write ∉ s.callers → ∃ n t, (shared hiredis).run s (List.replicate n .listen) = some t ∧
      (t.executed = s.enqueued ∨ Reading hiredis t)) := by
  have h : Inv s := Machine.run_invariant (inv_fresh h₀) (fun _ _ _ hi _ hs => inv_step hi hs)
    (Machine.meets_true _ as) hr
  refine ⟨not_lost h, h.order, fun hw => ?_⟩
  obtain ⟨n, t, hrun, ht, hrest, hc, he⟩ := comes_to_rest hd h
  refine ⟨n, t, hrun, ?_⟩
  obtain ha | hread := rest_cases ht hrest
  · exact Or.inl ((executed_of_asleep ht ha (hc ▸ hw)).trans he)
  · exact Or.inr hread

/-- The second command arrives between the read and the swap. -/
def overlap : List (Move Char) :=
  [.subscribe 1, .unsubscribe 2, .caller 0, .caller 0, .listen, .listen, .caller 1, .listen, .caller 1] ++
    List.replicate 7 .listen

theorem commands_not_lost_overlap : ∃ s, (shared Resp.reply).run {} overlap = some s ∧
    s.executed = [⟨.subscribe, 1⟩, ⟨.unsubscribe, 2⟩] ∧
    s.loop.link.written = [⟨.subscribe, "1"⟩, ⟨.unsubscribe, "2"⟩] ∧ ¬ Lost s := by
  have hs : ((shared Resp.reply).run {} overlap).map (fun s => (s.executed, s.loop.link.written)) =
      some ([⟨.subscribe, 1⟩, ⟨.unsubscribe, 2⟩], [⟨.subscribe, "1"⟩, ⟨.unsubscribe, "2"⟩]) := by
    decide +kernel
  obtain ⟨s, hs, hv⟩ := Option.map_eq_some_iff.mp hs
  obtain ⟨he, hw⟩ := Prod.mk.inj hv
  have h := commands_not_lost Resp.reply Resp.reply_shortens {} s ⟨rfl, rfl, rfl, rfl, rfl, rfl, rfl⟩ overlap hs
  exact ⟨s, hs, he, hw, h.1⟩

end BridgeIM.Redis.Wakeup
