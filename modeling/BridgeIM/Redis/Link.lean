import BridgeIM.CString
import Mathlib.Data.Finset.Image

namespace BridgeIM.Redis

open BridgeIM.CString

inductive CommandType
  | subscribe | unsubscribe | stop
  deriving DecidableEq, Repr

structure Command where
  type : CommandType
  channel : Int
  deriving DecidableEq, Repr

inductive ReplyType
  | string | array | integer | nil | status | error
  deriving DecidableEq, Repr

structure ReplyElement where
  str : Option String
  deriving DecidableEq, Repr

/-- The fields of a `redisReply` that the listener reads. A missing entry of
`element` and a missing `str` are null pointers. -/
structure RedisReply where
  type : ReplyType
  str : Option String
  element : List (Option ReplyElement)
  deriving DecidableEq, Repr

def RedisReply.elementStr (r : RedisReply) (i : Nat) : Option String :=
  (r.element[i]?.join).bind ReplyElement.str

/-- What `handleRedisReply` does to `_subscribedChannels`, and the call of
`_messageHandler` it makes. The channels that `atoi` reads are texts of an `int`. -/
def handleRedisReply (messageHandler : Bool) (reply : Option RedisReply) (subscribed : Finset Int) :
    Finset Int × Option (Int × String) :=
  match reply with
  | none => (subscribed, none)
  | some r =>
    if r.type = .error then (subscribed, none)
    else if r.type ≠ .array ∨ r.element.length < 3 then (subscribed, none)
    else match r.elementStr 0 with
      | none => (subscribed, none)
      | some replyType =>
        if replyType = "subscribe" then
          match r.elementStr 1 with
          | some channel => (insert (leadingInt channel) subscribed, none)
          | none => (subscribed, none)
        else if replyType = "unsubscribe" then
          match r.elementStr 1 with
          | some channel => (subscribed.erase (leadingInt channel), none)
          | none => (subscribed, none)
        else if replyType = "message" then
          if messageHandler = false then (subscribed, none)
          else match r.elementStr 1, r.elementStr 2 with
            | some channel, some message => (subscribed, some (leadingInt channel, cstring message))
            | _, _ => (subscribed, none)
        else (subscribed, none)

inductive Verb
  | subscribe | unsubscribe
  deriving DecidableEq, Repr

/-- A command as written to the socket: the verb and the channel name. -/
structure Request where
  verb : Verb
  channel : String
  deriving DecidableEq, Repr

def Request.apply (r : Request) (channels : Finset String) : Finset String :=
  match r.verb with
  | .subscribe => insert r.channel channels
  | .unsubscribe => channels.erase r.channel

/-- What Redis pushes on a subscribe connection. The number `call` of a message
tells the `PUBLISH` it comes from; it is not on the wire. -/
inductive Pushed
  | confirm (request : Request)
  | message (channel text : String) (call : Nat)
  deriving DecidableEq, Repr

def Pushed.reply : Pushed → RedisReply
  | .confirm ⟨.subscribe, c⟩ =>
    { type := .array, str := none, element := [some ⟨some "subscribe"⟩, some ⟨some c⟩, some ⟨none⟩] }
  | .confirm ⟨.unsubscribe, c⟩ =>
    { type := .array, str := none, element := [some ⟨some "unsubscribe"⟩, some ⟨some c⟩, some ⟨none⟩] }
  | .message c text _ =>
    { type := .array, str := none, element := [some ⟨some "message"⟩, some ⟨some c⟩, some ⟨some text⟩] }

/-- The subscribe side of a running `Redis` object together with its connection:
`written` is on its way to Redis, `subscriptions` is what Redis holds for the
connection, `replies` is on its way back. `pendingCommands` is the batch that
`handlePendingCommands` has swapped out of `_commandQueue`. -/
structure Link where
  commandQueue : List Command := []
  pendingCommands : List Command := []
  subscribedChannels : Finset Int := ∅
  messageHandler : Bool := true
  running : Bool := true
  written : List Request := []
  subscriptions : Finset String := ∅
  replies : List Pushed := []
  deriving DecidableEq

namespace Link

def enqueueCommand (command : Command) (l : Link) : Link :=
  { l with commandQueue := l.commandQueue ++ [command] }

def subscribe (channel : Int) (l : Link) : Link :=
  if l.running then l.enqueueCommand ⟨.subscribe, channel⟩ else l

def unsubscribe (channel : Int) (l : Link) : Link :=
  if l.running then l.enqueueCommand ⟨.unsubscribe, channel⟩ else l

def write (r : Request) (l : Link) : Link := { l with written := l.written ++ [r] }

def sendSubscribeCommand (channel : Int) (l : Link) : Link :=
  if channel ∈ l.subscribedChannels then l else l.write ⟨.subscribe, decimal channel⟩

def sendUnsubscribeCommand (channel : Int) (l : Link) : Link :=
  l.write ⟨.unsubscribe, decimal channel⟩

def handleCommand (command : Command) (l : Link) : Link :=
  match command.type with
  | .subscribe => l.sendSubscribeCommand command.channel
  | .unsubscribe => l.sendUnsubscribeCommand command.channel
  | .stop => { l with running := false }

def swapCommands (l : Link) : Option Link :=
  if l.pendingCommands = [] then
    some { l with commandQueue := [], pendingCommands := l.commandQueue }
  else none

def nextCommand (l : Link) : Option Link :=
  match l.pendingCommands with
  | [] => none
  | command :: rest => some (handleCommand command { l with pendingCommands := rest })

def serve (l : Link) : Option Link :=
  match l.written with
  | [] => none
  | r :: rest => some { l with written := rest, subscriptions := r.apply l.subscriptions,
                               replies := l.replies ++ [.confirm r] }

def push (channel : String) (text : String) (call : Nat) (l : Link) : Link :=
  if channel ∈ l.subscriptions then { l with replies := l.replies ++ [.message channel text call] }
  else l

/-- The listener reads the next reply. The result carries the call of the
message handler, with the number of the `PUBLISH`. -/
def nextReply (l : Link) : Option (Link × Option (Int × String × Nat)) :=
  match l.replies with
  | [] => none
  | p :: rest =>
    let (subscribed, message) := handleRedisReply l.messageHandler (some p.reply) l.subscribedChannels
    let call := match p with
      | .message _ _ call => call
      | .confirm _ => 0
    some ({ l with replies := rest, subscribedChannels := subscribed },
      message.map (fun m => (m.1, m.2, call)))

end Link

def Request.applyLocal (r : Request) (channels : Finset Int) : Finset Int :=
  match r.verb with
  | .subscribe => insert (leadingInt r.channel) channels
  | .unsubscribe => channels.erase (leadingInt r.channel)

theorem handleRedisReply_confirm (handler : Bool) (r : Request) (channels : Finset Int) :
    handleRedisReply handler (some (Pushed.confirm r).reply) channels = (r.applyLocal channels, none) := by
  obtain ⟨verb, c⟩ := r
  cases verb <;> simp [handleRedisReply, Pushed.reply, RedisReply.elementStr, Request.applyLocal]

theorem handleRedisReply_message (c text : String) (call : Nat) (channels : Finset Int) :
    handleRedisReply true (some (Pushed.message c text call).reply) channels =
      (channels, some (leadingInt c, cstring text)) := by
  simp [handleRedisReply, Pushed.reply, RedisReply.elementStr]

theorem handleRedisReply_message_fst (handler : Bool) (c text : String) (call : Nat)
    (channels : Finset Int) :
    (handleRedisReply handler (some (Pushed.message c text call).reply) channels).1 = channels := by
  cases handler <;> simp [handleRedisReply, Pushed.reply, RedisReply.elementStr]

end BridgeIM.Redis
