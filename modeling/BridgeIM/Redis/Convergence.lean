import BridgeIM.Lib.History
import BridgeIM.Lib.Machine
import BridgeIM.Redis.Link

namespace BridgeIM.Redis.Convergence

open BridgeIM.CString BridgeIM.Lib

/-- One event on a link: a thread calls `subscribe` or `unsubscribe`, the
listener takes one step, Redis executes a command or pushes a message. -/
inductive Move
  | subscribe (channel : Int)
  | unsubscribe (channel : Int)
  | swapCommands
  | nextCommand
  | serve
  | push (channel text : String) (call : Nat)
  | nextReply
  deriving DecidableEq, Repr

def step (l : Link) : Move → Option Link
  | .subscribe c => some (l.subscribe c)
  | .unsubscribe c => some (l.unsubscribe c)
  | .swapCommands => l.swapCommands
  | .nextCommand => l.nextCommand
  | .serve => l.serve
  | .push c text call => some (l.push c text call)
  | .nextReply => l.nextReply.map Prod.fst

def machine : Machine Link Move := ⟨step⟩

def issued : List Move → List Command :=
  List.filterMap fun
    | .subscribe c => some ⟨.subscribe, c⟩
    | .unsubscribe c => some ⟨.unsubscribe, c⟩
    | _ => none

def lastCommand (c : Int) (commands : List Command) : Option CommandType :=
  (lastFor Command.channel c commands).map Command.type

def confirms : List Pushed → List Request :=
  List.filterMap fun
    | .confirm r => some r
    | .message .. => none

/-- The requests the listener has written and not yet seen confirmed. -/
def outstanding (l : Link) : List Request := confirms l.replies ++ l.written

def lastOutstanding (c : Int) (l : Link) : Option Verb :=
  (lastFor Request.channel (decimal c) (outstanding l)).map Request.verb

def Quiet (l : Link) : Prop :=
  l.commandQueue = [] ∧ l.pendingCommands = [] ∧ outstanding l = []

instance (l : Link) : Decidable (Quiet l) := inferInstanceAs (Decidable (_ ∧ _ ∧ _))

/-- The command handled next is not a `Subscribe` that the listener drops
because the channel is still in `_subscribedChannels` although the latest
request written for the channel is an unconfirmed `UNSUBSCRIBE`. -/
def SkipSound (l : Link) : Move → Prop
  | .nextCommand => ∀ command ∈ l.pendingCommands.head?, command.type = .subscribe →
      command.channel ∈ l.subscribedChannels → lastOutstanding command.channel l ≠ some .unsubscribe
  | _ => True

instance decidableSkipSound : ∀ (l : Link) (m : Move), Decidable (SkipSound l m)
  | l, .nextCommand => inferInstanceAs (Decidable (∀ command ∈ l.pendingCommands.head?,
      command.type = .subscribe → command.channel ∈ l.subscribedChannels →
        lastOutstanding command.channel l ≠ some .unsubscribe))
  | _, .subscribe _ | _, .unsubscribe _ | _, .swapCommands | _, .serve | _, .push .. | _, .nextReply =>
    isTrue trivial

/-- Redis and the listener agree on the channels of the connection, which are
those whose latest command is `Subscribe`. -/
def Converged (ms : List Move) (l : Link) : Prop :=
  (∀ c : Int, decimal c ∈ l.subscriptions ↔ lastCommand c (issued ms) = some .subscribe) ∧
    l.subscriptions = l.subscribedChannels.image decimal

def settle (rs : List Request) (channels : Finset String) : Finset String :=
  rs.foldl (fun s r => r.apply s) channels

def names (l : Link) : Finset String := l.subscribedChannels.image decimal

@[simp] theorem settle_append (rs qs : List Request) (channels : Finset String) :
    settle (rs ++ qs) channels = settle qs (settle rs channels) := List.foldl_append

@[simp] theorem settle_cons (r : Request) (rs : List Request) (channels : Finset String) :
    settle (r :: rs) channels = settle rs (r.apply channels) := rfl

@[simp] theorem settle_nil (channels : Finset String) : settle [] channels = channels := rfl

theorem mem_apply (name : String) (r : Request) (channels : Finset String) :
    name ∈ r.apply channels ↔
      if r.channel = name then r.verb = .subscribe else name ∈ channels := by
  obtain ⟨verb, c⟩ := r
  by_cases h : c = name
  · subst h
    cases verb <;> simp [Request.apply]
  · have h' : name ≠ c := Ne.symm h
    cases verb <;> simp [Request.apply, h, h']

/-- A name is subscribed after a list of requests when the latest request for
it says so, and without such a request when it was before. -/
theorem mem_settle (name : String) (rs : List Request) (channels : Finset String) :
    name ∈ settle rs channels ↔
      (lastFor Request.channel name rs).elim (name ∈ channels) (fun r => r.verb = .subscribe) := by
  induction rs using List.reverseRecOn with
  | nil => rfl
  | append_singleton rs r ih =>
    rw [settle_append, settle_cons, settle_nil, mem_apply, lastFor_concat]
    by_cases h : r.channel = name
    · simp [h]
    · simp [h, ih]

theorem image_applyLocal {r : Request} {c : Int} (hr : r.channel = decimal c) (s : Finset Int) :
    (r.applyLocal s).image decimal = r.apply (s.image decimal) := by
  obtain ⟨verb, name⟩ := r
  change name = decimal c at hr
  subst hr
  cases verb with
  | subscribe => simp [Request.applyLocal, Request.apply, leadingInt_decimal, Finset.image_insert]
  | unsubscribe =>
    simp only [Request.applyLocal, Request.apply, leadingInt_decimal]
    exact Finset.image_erase decimal_injective s c

/-- What holds of a link in every run: Redis is ahead of the listener by the
confirmations on their way, and every command issued is handled or waiting. -/
structure Inv (ms : List Move) (l : Link) : Prop where
  running : l.running = true
  numeric : ∀ r ∈ outstanding l, ∃ c : Int, r.channel = decimal c
  server : l.subscriptions = settle (confirms l.replies) (names l)
  handled : ∃ done, issued ms = done ++ l.pendingCommands ++ l.commandQueue ∧
    ∀ c : Int, decimal c ∈ settle (outstanding l) (names l) ↔ lastCommand c done = some .subscribe

theorem inv_init : Inv [] {} where
  running := rfl
  numeric := by simp [outstanding, confirms]
  server := rfl
  handled := ⟨[], rfl, by simp [outstanding, confirms, names, lastCommand]⟩

theorem issued_append (ms ms' : List Move) : issued (ms ++ ms') = issued ms ++ issued ms' :=
  List.filterMap_append

theorem lastCommand_concat (c : Int) (done : List Command) (command : Command) :
    lastCommand c (done ++ [command]) =
      if command.channel = c then some command.type else lastCommand c done := by
  rw [lastCommand, lastFor_concat]
  split <;> simp [lastCommand]

theorem inv_enqueue {ms : List Move} {l : Link} (h : Inv ms l) (m : Move) (command : Command)
    (hm : issued [m] = [command]) : Inv (ms ++ [m]) (l.enqueueCommand command) := by
  obtain ⟨done, hi, hd⟩ := h.handled
  refine ⟨h.running, h.numeric, h.server, done, ?_, hd⟩
  rw [issued_append, hi, hm]
  exact List.append_assoc _ _ _

theorem inv_frame {ms : List Move} {l : Link} (h : Inv ms l) (m : Move) (hm : issued [m] = []) :
    Inv (ms ++ [m]) l := by
  obtain ⟨done, hi, hd⟩ := h.handled
  exact ⟨h.running, h.numeric, h.server, done, by rw [issued_append, hm, List.append_nil, hi], hd⟩

theorem inv_swap {ms : List Move} {l l' : Link} (h : Inv ms l) (hs : l.swapCommands = some l') :
    Inv ms l' := by
  unfold Link.swapCommands at hs
  split at hs
  · rename_i hp
    cases hs
    obtain ⟨done, hi, hd⟩ := h.handled
    exact ⟨h.running, h.numeric, h.server, done, by simpa [hp] using hi, hd⟩
  · cases hs

theorem inv_write {ms : List Move} {l : Link} (h : Inv ms l) {command : Command}
    {rest : List Command} (hp : l.pendingCommands = command :: rest) (verb : Verb)
    (hv : verb = .subscribe ↔ command.type = .subscribe) :
    Inv ms (Link.write ⟨verb, decimal command.channel⟩ { l with pendingCommands := rest }) := by
  obtain ⟨done, hi, hd⟩ := h.handled
  refine ⟨h.running, ?_, h.server, done ++ [command], by simpa [Link.write, hp] using hi, ?_⟩
  · intro r hr
    simp only [outstanding, Link.write, ← List.append_assoc, List.mem_append, List.mem_singleton] at hr
    rcases hr with hr | rfl
    · exact h.numeric r (by simpa [outstanding] using hr)
    · exact ⟨command.channel, rfl⟩
  · intro c
    have hn : settle (outstanding (Link.write ⟨verb, decimal command.channel⟩
        { l with pendingCommands := rest })) (names l) =
        Request.apply ⟨verb, decimal command.channel⟩ (settle (outstanding l) (names l)) := by
      simp [outstanding, Link.write]
    have hk : decimal command.channel = decimal c ↔ command.channel = c :=
      decimal_injective.eq_iff
    change decimal c ∈ settle _ (names l) ↔ _
    rw [hn, mem_apply, lastCommand_concat]
    by_cases hc : command.channel = c
    · simpa [hc] using hv
    · simpa [hk, hc] using hd c

theorem inv_skip {ms : List Move} {l : Link} (h : Inv ms l) {c : Int} {rest : List Command}
    (hp : l.pendingCommands = ⟨.subscribe, c⟩ :: rest) (hc : c ∈ l.subscribedChannels)
    (hl : lastOutstanding c l ≠ some .unsubscribe) :
    Inv ms { l with pendingCommands := rest } := by
  obtain ⟨done, hi, hd⟩ := h.handled
  refine ⟨h.running, h.numeric, h.server, done ++ [⟨.subscribe, c⟩], by simpa [hp] using hi, ?_⟩
  intro c'
  change decimal c' ∈ settle (outstanding l) (names l) ↔ _
  rw [lastCommand_concat]
  by_cases he : c = c'
  · subst he
    simp only [if_true, iff_true]
    rw [mem_settle]
    rw [lastOutstanding] at hl
    cases hr : lastFor Request.channel (decimal c) (outstanding l) with
    | none => exact Finset.mem_image_of_mem decimal hc
    | some r =>
      cases hv : r.verb with
      | subscribe => exact hv
      | unsubscribe => simp [hr, hv] at hl
  · simpa [he] using hd c'

theorem inv_nextCommand {ms : List Move} {l l' : Link} (h : Inv ms l)
    (hi : ∀ command ∈ l.pendingCommands, command.type ≠ .stop)
    (hok : SkipSound l .nextCommand) (hs : l.nextCommand = some l') : Inv ms l' := by
  unfold Link.nextCommand at hs
  split at hs
  · cases hs
  · rename_i command rest hp
    cases hs
    obtain ⟨type, c⟩ := command
    cases type with
    | subscribe =>
      by_cases hc : c ∈ l.subscribedChannels
      · have he : Link.handleCommand ⟨.subscribe, c⟩ { l with pendingCommands := rest } =
            { l with pendingCommands := rest } := by
          simp [Link.handleCommand, Link.sendSubscribeCommand, hc]
        rw [he]
        exact inv_skip h hp hc (hok ⟨.subscribe, c⟩ (by simp [hp]) rfl hc)
      · have he : Link.handleCommand ⟨.subscribe, c⟩ { l with pendingCommands := rest } =
            Link.write ⟨.subscribe, decimal c⟩ { l with pendingCommands := rest } := by
          simp [Link.handleCommand, Link.sendSubscribeCommand, hc]
        rw [he]
        exact inv_write h hp .subscribe (by simp)
    | unsubscribe => exact inv_write h hp .unsubscribe (by simp)
    | stop => exact absurd rfl (hi _ (hp ▸ List.mem_cons_self))

theorem issued_type_ne_stop (ms : List Move) : ∀ command ∈ issued ms, command.type ≠ .stop := by
  intro command hc
  obtain ⟨m, _, hm⟩ := List.mem_filterMap.mp hc
  cases m <;> simp only [reduceCtorEq, Option.some.injEq] at hm <;> subst hm <;> simp

theorem Inv.pending_ne_stop {ms : List Move} {l : Link} (h : Inv ms l) :
    ∀ command ∈ l.pendingCommands, command.type ≠ .stop := by
  obtain ⟨done, hi, _⟩ := h.handled
  intro command hc
  exact issued_type_ne_stop ms command (by simp [hi, hc])

theorem inv_serve {ms : List Move} {l l' : Link} (h : Inv ms l) (hs : l.serve = some l') :
    Inv ms l' := by
  unfold Link.serve at hs
  split at hs
  · cases hs
  · rename_i r rest hw
    cases hs
    obtain ⟨done, hi, hd⟩ := h.handled
    have ho : outstanding { l with written := rest, subscriptions := r.apply l.subscriptions,
                                   replies := l.replies ++ [.confirm r] } = outstanding l := by
      simp [outstanding, confirms, hw]
    refine ⟨h.running, fun q hq => h.numeric q (ho ▸ hq), ?_, done, hi, fun c => ho ▸ hd c⟩
    simp [confirms, names, h.server]

theorem inv_messages {ms : List Move} {l : Link} (h : Inv ms l) {ps : List Pushed}
    (hps : confirms ps = confirms l.replies) : Inv ms { l with replies := ps } := by
  obtain ⟨done, hi, hd⟩ := h.handled
  have ho : outstanding { l with replies := ps } = outstanding l := by simp only [outstanding, hps]
  refine ⟨h.running, fun q hq => h.numeric q (ho ▸ hq), ?_, done, hi, fun c => ho ▸ hd c⟩
  change l.subscriptions = settle (confirms ps) (names l)
  rw [hps, h.server]

theorem inv_push {ms : List Move} {l : Link} (h : Inv ms l) (c text : String) (call : Nat) :
    Inv ms (l.push c text call) := by
  unfold Link.push
  split
  · exact inv_messages h (by simp [confirms])
  · exact h

theorem inv_nextReply {ms : List Move} {l l' : Link} {message : Option (Int × String × Nat)}
    (h : Inv ms l) (hs : l.nextReply = some (l', message)) : Inv ms l' := by
  unfold Link.nextReply at hs
  split at hs
  · cases hs
  · rename_i p rest hr
    obtain ⟨done, hi, hd⟩ := h.handled
    cases p with
    | confirm r =>
      simp only [handleRedisReply_confirm, Option.some.injEq, Prod.mk.injEq] at hs
      rw [← hs.1]
      obtain ⟨c, hc⟩ := h.numeric r (by simp [outstanding, confirms, hr])
      have hn : (r.applyLocal l.subscribedChannels).image decimal = r.apply (names l) :=
        image_applyLocal hc l.subscribedChannels
      refine ⟨h.running, fun q hq => h.numeric q ?_, ?_, done, hi, fun c => ?_⟩
      · simp only [outstanding, confirms, hr, List.filterMap_cons] at hq ⊢
        exact List.mem_cons_of_mem _ hq
      · simpa [names, hn, confirms, hr] using h.server
      · simpa [names, hn, outstanding, confirms, hr] using hd c
    | message c text call =>
      have hf := handleRedisReply_message_fst l.messageHandler c text call l.subscribedChannels
      simp only [Option.some.injEq, Prod.mk.injEq] at hs
      rw [← hs.1, hf]
      exact inv_messages h (by simp [confirms, hr])

theorem inv_step {ms : List Move} {l l' : Link} {m : Move} (h : Inv ms l) (hok : SkipSound l m)
    (hs : machine.step l m = some l') : Inv (ms ++ [m]) l' := by
  cases m with
  | subscribe c =>
    simp only [machine, step, Link.subscribe, h.running, if_true, Option.some.injEq] at hs
    exact hs ▸ inv_enqueue h _ _ rfl
  | unsubscribe c =>
    simp only [machine, step, Link.unsubscribe, h.running, if_true, Option.some.injEq] at hs
    exact hs ▸ inv_enqueue h _ _ rfl
  | swapCommands => exact inv_frame (inv_swap h hs) _ rfl
  | nextCommand => exact inv_frame (inv_nextCommand h h.pending_ne_stop hok hs) _ rfl
  | serve => exact inv_frame (inv_serve h hs) _ rfl
  | push c text call =>
    cases hs
    exact inv_frame (inv_push h c text call) _ rfl
  | nextReply =>
    obtain ⟨⟨u, message⟩, hu, rfl⟩ := Option.map_eq_some_iff.mp hs
    exact inv_frame (inv_nextReply h hu) _ rfl

/-- When nothing is queued or unconfirmed, the link has converged. -/
theorem subscriptions_converge (ms : List Move) (l : Link) (hm : machine.Meets SkipSound {} ms)
    (hr : machine.run {} ms = some l) (hq : Quiet l) : Converged ms l := by
  have h : Inv ms l := Machine.run_induction inv_init (fun _ _ _ _ => inv_step) hm hr
  obtain ⟨hc, hp, ho⟩ := hq
  obtain ⟨done, hi, hd⟩ := h.handled
  have hw : confirms l.replies = [] := (List.append_eq_nil_iff.mp ho).1
  have hs : l.subscriptions = names l := by rw [h.server, hw, settle_nil]
  refine ⟨fun c => ?_, hs⟩
  have hdone : issued ms = done := by simpa [hp, hc] using hi
  rw [hs, hdone]
  simpa [ho] using hd c

def login (c : Int) : List Move :=
  [.subscribe c, .swapCommands, .nextCommand, .serve, .nextReply]

def logout (c : Int) : List Move :=
  [.unsubscribe c, .swapCommands, .nextCommand, .serve, .nextReply]

theorem subscriptions_converge_relogin :
    machine.Meets SkipSound {} (login 7 ++ logout 7 ++ login 7) ∧
      Converged (login 7 ++ logout 7 ++ login 7)
        { subscriptions := {decimal 7}, subscribedChannels := {7} } :=
  ⟨by decide, subscriptions_converge _ _ (by decide) (by decide) (by decide)⟩

/-- A logout and a login of one user whose commands are handled before the
`unsubscribe` is confirmed. -/
def quickRelogin : List Move :=
  login 7 ++ [.unsubscribe 7, .subscribe 7, .swapCommands, .nextCommand, .nextCommand, .serve, .nextReply]

theorem quickRelogin_diverges :
    ¬ ∀ (ms : List Move) (l : Link), machine.run {} ms = some l → Quiet l → Converged ms l := by
  intro h
  have hc := h quickRelogin {} (by decide) (by decide)
  exact absurd ((hc.1 7).mpr (by decide)) (by decide)

end BridgeIM.Redis.Convergence
