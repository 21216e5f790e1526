import BridgeIM.Lib.Decoder
import BridgeIM.Lib.Machine
import BridgeIM.Redis.Resp

namespace BridgeIM.Redis.Listener

open Lib

/-- Where `listenerLoop` stands. While it handles the commands it remembers
whether `poll` has also reported the socket. -/
inductive Point
  | poll
  | wakeup (readable : Bool)
  | swap (readable : Bool)
  | commands (readable : Bool)
  | getReply
  | exited
  deriving DecidableEq, Repr

/-- The listener thread with its two descriptors. `pipe` counts the unread bytes
of the wakeup pipe, `socket` is what the kernel holds of the subscribe
connection, and `reader` is the buffer of hiredis. The last three fields are
histories: all bytes that have arrived, the replies that were handled and the
calls of the message handler. The replies of the link come as bytes here. -/
structure Loop (B : Type) where
  point : Point := .poll
  link : Link := {}
  pipe : Nat := 0
  socket : List B := []
  reader : List B := []
  arrived : List B := []
  handled : List RedisReply := []
  calls : List (Int × String) := []
  deriving DecidableEq

/-- The listener goes on, other threads send it a command, or bytes arrive. A
system call or `redisGetReply` may also fail. -/
inductive Move (B : Type)
  | listen
  | fail
  | enqueue (command : Command)
  | wakeup
  | arrive (bytes : List B)

variable {B : Type}

namespace Loop

def handle (r : RedisReply) (l : Loop B) : Loop B :=
  let (subscribed, message) := handleRedisReply l.link.messageHandler (some r) l.link.subscribedChannels
  { l with link := { l.link with subscribedChannels := subscribed }
           handled := l.handled ++ [r]
           calls := l.calls ++ message.toList }

/-- After the commands the loop looks at the socket, unless it has been stopped. -/
def afterCommands (readable : Bool) (l : Loop B) : Loop B :=
  { l with point := if l.link.running = false then .exited else if readable then .getReply else .poll }

/-- The next step of `listenerLoop`. In `poll` it sleeps until a descriptor is
readable, and `redisGetReply` reads the socket only when its reader holds no
complete reply. -/
def listen (hiredis : Decoder B RedisReply) (l : Loop B) : Option (Loop B) :=
  match l.point with
  | .poll =>
    if l.link.running = false then some { l with point := .exited }
    else if l.pipe ≠ 0 then some { l with point := .wakeup (!l.socket.isEmpty) }
    else if l.socket.isEmpty then none
    else some { l with point := .getReply }
  | .wakeup readable => some { l with point := .swap readable, pipe := l.pipe - 64 }
  | .swap readable => l.link.swapCommands.map fun link => { l with point := .commands readable, link := link }
  | .commands readable =>
    match l.link.nextCommand with
    | some link => some { l with link := link }
    | none => some (l.afterCommands readable)
  | .getReply =>
    match hiredis.next l.reader with
    | some (r, rest) => some { l.handle r with point := .poll, reader := rest }
    | none => if l.socket.isEmpty then none else some { l with reader := l.reader ++ l.socket, socket := [] }
  | .exited => none

end Loop

def step (hiredis : Decoder B RedisReply) (l : Loop B) : Move B → Option (Loop B)
  | .listen => l.listen hiredis
  | .fail =>
    if l.point = .exited then none
    else some { l with point := .exited, link := { l.link with running := false } }
  | .enqueue command => some { l with link := l.link.enqueueCommand command }
  | .wakeup => some { l with pipe := l.pipe + 1 }
  | .arrive bytes => some { l with socket := l.socket ++ bytes, arrived := l.arrived ++ bytes }

def listener (hiredis : Decoder B RedisReply) : Machine (Loop B) (Move B) := ⟨step hiredis⟩

/-- The loop sleeps in `poll`, and no descriptor is readable. -/
def Asleep (l : Loop B) : Prop :=
  l.point = .poll ∧ l.link.running = true ∧ l.pipe = 0 ∧ l.socket = []

/-- The reader holds no complete reply, and every complete reply among the bytes
that have arrived was handled, in the order of arrival. -/
def Dispatched (hiredis : Decoder B RedisReply) (l : Loop B) : Prop :=
  hiredis.next l.reader = none ∧ hiredis.Takes l.arrived l.handled l.reader ∧
    ∀ rs t, hiredis.Takes l.arrived rs t → rs <+: l.handled

/-- Every read of the socket completes at most one reply. -/
def OneByOne (hiredis : Decoder B RedisReply) (l : Loop B) : Move B → Prop
  | .listen => l.point = .getReply → hiredis.next l.reader = none → ∀ r rest,
      hiredis.next (l.reader ++ l.socket) = some (r, rest) → hiredis.next rest = none
  | _ => True

instance (hiredis : Decoder B RedisReply) (l : Loop B) : (a : Move B) → Decidable (OneByOne hiredis l a)
  | .listen =>
    have : Decidable (∀ r rest, hiredis.next (l.reader ++ l.socket) = some (r, rest) → hiredis.next rest = none) :=
      decidable_of_iff (∀ x ∈ hiredis.next (l.reader ++ l.socket), hiredis.next x.2 = none)
        ⟨fun h r rest hn => h (r, rest) hn, fun h x hx => h x.1 x.2 hx⟩
    inferInstanceAs (Decidable (l.point = .getReply → hiredis.next l.reader = none → _))
  | .fail | .enqueue _ | .wakeup | .arrive _ => isTrue trivial

structure Inv (hiredis : Decoder B RedisReply) (l : Loop B) : Prop where
  taken : ∃ s, l.arrived = s ++ l.socket ∧ hiredis.Takes s l.handled l.reader
  idle : l.point = .getReply ∨ l.point = .exited ∨ hiredis.next l.reader = none
  last : ∀ r rest, hiredis.next l.reader = some (r, rest) → hiredis.next rest = none

variable {hiredis : Decoder B RedisReply} {l l' : Loop B}

/-- What one step of the loop does to the bytes and the replies. -/
theorem listen_cases (h : l.listen hiredis = some l') :
    (l.socket = l'.socket ∧ l.reader = l'.reader ∧ l.arrived = l'.arrived ∧ l.handled = l'.handled ∧
      l.point ≠ .getReply ∧ l.point ≠ .exited) ∨
    (∃ r rest, l.point = .getReply ∧ hiredis.next l.reader = some (r, rest) ∧
      l' = { l.handle r with point := .poll, reader := rest }) ∨
    l.point = .getReply ∧ hiredis.next l.reader = none ∧ l.socket ≠ [] ∧
      l' = { l with reader := l.reader ++ l.socket, socket := [] } := by
  unfold Loop.listen at h
  split at h
  · rename_i hp
    refine Or.inl ?_
    have hne : l.point ≠ .getReply ∧ l.point ≠ .exited := by
      rw [hp]
      exact ⟨nofun, nofun⟩
    split at h
    · cases h
      exact ⟨rfl, rfl, rfl, rfl, hne⟩
    split at h
    · cases h
      exact ⟨rfl, rfl, rfl, rfl, hne⟩
    split at h
    · cases h
    · cases h
      exact ⟨rfl, rfl, rfl, rfl, hne⟩
  · rename_i readable hp
    cases h
    exact Or.inl ⟨rfl, rfl, rfl, rfl, by rw [hp]; exact ⟨nofun, nofun⟩⟩
  · rename_i readable hp
    obtain ⟨link, _, rfl⟩ := Option.map_eq_some_iff.mp h
    exact Or.inl ⟨rfl, rfl, rfl, rfl, by rw [hp]; exact ⟨nofun, nofun⟩⟩
  · rename_i readable hp
    refine Or.inl ?_
    split at h
    · cases h
      exact ⟨rfl, rfl, rfl, rfl, by rw [hp]; exact ⟨nofun, nofun⟩⟩
    · cases h
      exact ⟨rfl, rfl, rfl, rfl, by rw [hp]; exact ⟨nofun, nofun⟩⟩
  · rename_i hp
    split at h
    · rename_i r rest hn
      cases h
      exact Or.inr (Or.inl ⟨r, rest, hp, hn, rfl⟩)
    · rename_i hn
      split at h
      · cases h
      · rename_i hs
        cases h
        exact Or.inr (Or.inr ⟨hp, hn, fun he => hs (by rw [he]; rfl), rfl⟩)
  · cases h

theorem inv_listen (h : Inv hiredis l) (hok : OneByOne hiredis l .listen) (hs : l.listen hiredis = some l') :
    Inv hiredis l' := by
  obtain ⟨s, ha, ht⟩ := h.taken
  obtain ⟨hsock, hread, harr, hhand, hp⟩ | ⟨r, rest, hp, hn, rfl⟩ | ⟨hp, hn, _, rfl⟩ := listen_cases hs
  · refine ⟨⟨s, ?_, ?_⟩, Or.inr (Or.inr ?_), ?_⟩
    · rw [← harr, ← hsock]
      exact ha
    · rw [← hhand, ← hread]
      exact ht
    · rw [← hread]
      exact (h.idle.resolve_left hp.1).resolve_left hp.2
    · rw [← hread]
      exact h.last
  · have hrest := h.last r rest hn
    refine ⟨⟨s, ha, ht.concat hn⟩, Or.inr (Or.inr hrest), fun q u hq => ?_⟩
    rw [hrest] at hq
    cases hq
  · refine ⟨⟨l.arrived, (List.append_nil _).symm, ?_⟩, Or.inl hp, hok hp hn⟩
    rw [ha]
    exact ht.append l.socket

theorem inv_step (h : Inv hiredis l) {a : Move B} (hok : OneByOne hiredis l a) (hs : step hiredis l a = some l') :
    Inv hiredis l' := by
  cases a with
  | listen => exact inv_listen h hok hs
  | fail =>
    obtain ⟨_, hs⟩ := Option.ite_none_left_eq_some.mp hs
    cases hs
    exact ⟨h.taken, Or.inr (Or.inl rfl), h.last⟩
  | enqueue command =>
    cases hs
    exact ⟨h.taken, h.idle, h.last⟩
  | wakeup =>
    cases hs
    exact ⟨h.taken, h.idle, h.last⟩
  | arrive bytes =>
    cases hs
    obtain ⟨s, ha, ht⟩ := h.taken
    refine ⟨⟨s, ?_, ht⟩, h.idle, h.last⟩
    rw [ha, List.append_assoc]

structure Loop.Fresh (l : Loop B) : Prop where
  point : l.point = .poll
  socket : l.socket = []
  reader : l.reader = []
  arrived : l.arrived = []
  handled : l.handled = []

theorem inv_fresh (h : l.Fresh) (h₀ : hiredis.next [] = none) : Inv hiredis l where
  taken := by
    refine ⟨[], ?_, ?_⟩
    · rw [h.arrived, h.socket]
      rfl
    · rw [h.handled, h.reader]
      exact .nil []
  idle := by
    rw [h.reader]
    exact Or.inr (Or.inr h₀)
  last := by
    intro r rest hn
    rw [h.reader, h₀] at hn
    cases hn

/-- When every read completes at most one reply, a sleeping listener has
handled every reply. -/
theorem listener_dispatches (hiredis : Decoder B RedisReply) (hnil : hiredis.next [] = none) (l₀ l : Loop B)
    (h₀ : l₀.Fresh) (as : List (Move B)) (hone : (listener hiredis).Meets (OneByOne hiredis) l₀ as)
    (hr : (listener hiredis).run l₀ as = some l) (hsleep : Asleep l) : Dispatched hiredis l := by
  have h : Inv hiredis l := Machine.run_invariant (inv_fresh h₀ hnil)
    (fun _ _ _ hi hok hs => inv_step hi hok hs) hone hr
  obtain ⟨hp, _, _, hsock⟩ := hsleep
  obtain ⟨s, ha, ht⟩ := h.taken
  rw [hsock, List.append_nil] at ha
  subst ha
  have hn : hiredis.next l.reader = none := by
    obtain hg | he | hn := h.idle
    · cases hp.symm.trans hg
    · cases hp.symm.trans he
    · exact hn
  exact ⟨hn, ht, fun rs t h' => h'.before ht hn⟩

def hi : List Char := "*3\r\n$7\r\nmessage\r\n$1\r\n7\r\n$2\r\nhi\r\n".toList

def spaced : List (Move Char) := [.arrive hi, .listen, .listen, .listen, .arrive hi, .listen, .listen, .listen]

def burst : List (Move Char) := [.arrive (hi ++ hi), .listen, .listen, .listen]

def afterFirst (reader : List Char) (n : Nat) : Loop Char :=
  { reader := reader, arrived := hi ++ hi, handled := List.replicate n (Pushed.message "7" "hi" 0).reply
    calls := List.replicate n (7, "hi") }

theorem run_spaced : (listener Resp.reply).run {} spaced = some (afterFirst [] 2) := by decide +kernel

theorem run_burst : (listener Resp.reply).run {} burst = some (afterFirst hi 1) := by decide +kernel

theorem listener_dispatches_spaced : (listener Resp.reply).run {} spaced = some (afterFirst [] 2) ∧
    Dispatched Resp.reply (afterFirst [] 2) :=
  ⟨run_spaced, listener_dispatches Resp.reply rfl {} (afterFirst [] 2) ⟨rfl, rfl, rfl, rfl, rfl⟩ spaced
    (by decide +kernel) run_spaced ⟨rfl, rfl, rfl, rfl⟩⟩

/-- The listener sleeps while its reader holds the second message. -/
theorem burst_sleeps : ¬ ∀ (as : List (Move Char)) (l : Loop Char), (listener Resp.reply).run {} as = some l →
    Asleep l → Dispatched Resp.reply l := by
  intro h
  have hd := h burst (afterFirst hi 1) run_burst ⟨rfl, rfl, rfl, rfl⟩
  have hn : Resp.reply.next hi ≠ none := by decide +kernel
  exact hn hd.1

/-- After a read that completes more than one reply the listener falls asleep on
the second one. -/
theorem sleeps_of_burst (hp : l.point = .getReply) (hrun : l.link.running = true) (hpipe : l.pipe = 0)
    (hburst : ¬ OneByOne hiredis l .listen) : ∃ l', (listener hiredis).run l [.listen, .listen] = some l' ∧
      Asleep l' ∧ ¬ Dispatched hiredis l' := by
  simp only [OneByOne, Classical.not_imp, not_forall] at hburst
  obtain ⟨_, hn, r, rest, hr, hrest⟩ := hburst
  have hsock : l.socket ≠ [] := by
    intro he
    rw [he, List.append_nil, hn] at hr
    cases hr
  let l₁ : Loop B := { l with reader := l.reader ++ l.socket, socket := [] }
  refine ⟨{ l₁.handle r with point := .poll, reader := rest }, ?_, ⟨rfl, hrun, hpipe, rfl⟩, fun hd => hrest hd.1⟩
  simp [Machine.run, listener, step, Loop.listen, hp, hn, hsock, hr, l₁]

end BridgeIM.Redis.Listener
