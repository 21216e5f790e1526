import BridgeIM.Lib.Machine
import BridgeIM.Model.OfflineMsgModel
import BridgeIM.Redis.Link
import BridgeIM.Server.Handler
import Mathlib.Data.List.AList

namespace BridgeIM.Server

open CString Db Lib Model Model.UserModel Redis

/-- The MySQL server as the statements on `User` and on `OfflineMessage` see it. -/
structure Engine where
  users : Mysql UserModel.Table
  offline : Mysql OfflineMsgModel.Table

structure Engine.Rules (same : String → String → Bool) (E : Engine) : Prop where
  users : UserModel.Rules same E.users
  offline : OfflineMsgModel.Rules E.offline

/-- An engine that refuses every statement that is not of an intended form. -/
def Engine.strict (same : String → String → Bool) : Engine :=
  ⟨UserModel.strictMysql same, OfflineMsgModel.strictMysql⟩

theorem Engine.strict_rules (same : String → String → Bool) : (Engine.strict same).Rules same :=
  ⟨UserModel.strictMysql_rules same, OfflineMsgModel.strictMysql_rules⟩

abbrev ConnMap (N : Type) := AList (fun _ : Int => Conn N)

structure Node (N : Type) where
  userConnMap : ConnMap N := ∅
  redis : Link := {}

/-- A task of the business pool, or a message that the Redis listener handles. -/
structure Thread (N : Type) where
  task : Task N
  pc : Pc N

/-- The nodes with the stores they share. `log` is the history of the effects,
each with the number of its thread. -/
structure World (N : Type) where
  node : N → Node N := fun _ => {}
  users : UserModel.Table
  offline : OfflineMsgModel.Table := []
  friends : FriendModel.Table := []
  groups : GroupModel.Table := {}
  threads : List (Thread N) := []
  log : List (Nat × Effect N) := []

variable {N : Type} [DecidableEq N]

def ConnMap.holds (conn : Conn N) (m : ConnMap N) : Bool :=
  m.entries.any (fun e => e.2 = conn)

/-- The next effect of a thread on node `n`, and where the thread goes from
there. The order of `_userConnMap` is not known: `pick` is the key that
`clientCloseException` finds first. -/
def Pc.next (E : Engine) (n : N) (pick : Option Int) (w : World N) : Pc N → Option (Effect N × Pc N)
  | .queryName conn name password =>
    let user := UserModel.queryName E.users name w.users
    some (.queryName name user, checkLogin conn password user)
  | .updateOnline l => some (.updateState l.user.id .online, .insertConn l)
  | .insertConn l => some (.insertConn l.user.id l.conn, .subscribe l)
  | .subscribe l => some (.subscribe l.user.id, .queryOffline l)
  | .queryOffline l =>
    let msgs := OfflineMsgModel.query E.offline l.user.id w.offline
    some (.queryOffline l.user.id msgs,
      if msgs = [] then .queryFriends l else .removeOffline { l with offlineMsgs := msgs })
  | .removeOffline l =>
    some (.removeOffline l.user.id (OfflineMsgModel.messages l.user.id w.offline), .queryFriends l)
  | .queryFriends l =>
    let friends := FriendModel.query l.user.id w.friends w.users
    some (.queryFriends l.user.id friends, .queryGroup { l with friends := friends })
  | .queryGroup l =>
    let groups := GroupModel.queryGroup l.user.id w.groups
    some (.queryGroup l.user.id groups, nextGroup l groups)
  | .queryMembers l g todo =>
    let users := GroupModel.queryMembers g.id w.groups w.users
    some (.queryMembers g.id users, nextGroup { l with groups := l.groups ++ [{ g with users := users }] } todo)
  | .sendAck l => some (.sendJson l.conn (loginAck l), .done)
  | .eraseConn userid => some (.eraseConn userid, .unsubscribe userid)
  | .unsubscribe userid => some (.unsubscribe userid, .updateOffline userid)
  | .updateOffline userid => some (.updateState userid .offline, .done)
  | .insertUser conn user =>
    let id := (UserModel.insert E.users user w.users).map Prod.fst
    some (.insertUser user id, .sendJson conn (regAck id))
  | .scanConn conn =>
    match pick with
    | some userid =>
      if (w.node n).userConnMap.lookup userid = some conn then
        some (.scanConn conn (some userid), if userid = -1 then .done else .unsubscribe userid)
      else none
    | none =>
      if (w.node n).userConnMap.holds conn then none else some (.scanConn conn none, .done)
  | .isFriend conn userid toid payload =>
    let found := FriendModel.isFriend userid toid w.friends
    some (.isFriend userid toid found, if found then .findConn toid payload else .sendJson conn notFriends)
  | .findConn targetId payload =>
    let found := (w.node n).userConnMap.lookup targetId
    some (.findConn targetId found, found.elim (.queryState targetId payload) (.sendPayload · payload))
  | .queryState targetId payload =>
    let user := UserModel.queryId E.users targetId w.users
    some (.queryId targetId user,
      if user.state = "online" then .publish targetId payload else .insertOffline targetId payload)
  | .publish targetId payload => some (.publish targetId payload, .done)
  | .findSubscribed userid msg =>
    let found := (w.node n).userConnMap.lookup userid
    some (.findConn userid found, found.elim (.insertOffline userid msg) (.sendPayload · msg))
  | .insertOffline userid msg => some (.insertOffline userid msg, .done)
  | .sendPayload conn payload => some (.sendPayload conn payload, .done)
  | .sendJson conn js => some (.sendJson conn js, .done)
  | .resetState => some (.resetState, .done)
  | .done => none

/-- `insert` keeps the entry of a key that the map holds already. -/
def ConnMap.insertNew (u : Int) (conn : Conn N) (m : ConnMap N) : ConnMap N :=
  if u ∈ m then m else m.insert u conn

omit [DecidableEq N] in
theorem ConnMap.lookup_of_erase {m : ConnMap N} {u v : Int} {conn : Conn N} (h : (m.erase v).lookup u = some conn) :
    u ≠ v ∧ m.lookup u = some conn := by
  by_cases hv : u = v
  · rw [hv, AList.lookup_erase] at h
    cases h
  · rw [AList.lookup_erase_ne hv] at h
    exact ⟨hv, h⟩

omit [DecidableEq N] in
theorem ConnMap.lookup_of_insertNew {m : ConnMap N} {u v : Int} {conn c : Conn N}
    (h : (m.insertNew v c).lookup u = some conn) : m.lookup u = some conn ∨ u = v ∧ conn = c := by
  rw [ConnMap.insertNew] at h
  split at h
  · exact Or.inl h
  by_cases hv : u = v
  · rw [hv, AList.lookup_insert] at h
    exact Or.inr ⟨hv, (Option.some.inj h).symm⟩
  · rw [AList.lookup_insert_ne hv] at h
    exact Or.inl h

namespace Effect

def onUsers (E : Engine) (t : UserModel.Table) : Effect N → UserModel.Table
  | .insertUser user _ => ((UserModel.insert E.users user t).map Prod.snd).getD t
  | .updateState userid s => UserModel.updateState E.users { id := userid, state := s.text } t
  | .resetState => UserModel.resetState E.users t
  | _ => t

def onOffline (E : Engine) (t : OfflineMsgModel.Table) : Effect N → OfflineMsgModel.Table
  | .insertOffline userid msg => OfflineMsgModel.insert E.offline userid msg t
  | .removeOffline userid _ => OfflineMsgModel.remove E.offline userid t
  | _ => t

def onMap (m : ConnMap N) : Effect N → ConnMap N
  | .insertConn userid conn => m.insertNew userid conn
  | .eraseConn userid | .scanConn _ (some userid) => m.erase userid
  | _ => m

/-- The change to the Redis link of a node, which is the thread's own if `own`
holds. Redis pushes a message of thread `tid` to every node that is subscribed. -/
def onRedis (tid : Nat) (own : Bool) (l : Link) : Effect N → Link
  | .subscribe userid => if own then l.subscribe userid else l
  | .unsubscribe userid => if own then l.unsubscribe userid else l
  | .publish channel message => l.push (decimal channel) (cstring message) tid
  | _ => l

def onNode (tid : Nat) (own : Bool) (s : Node N) (e : Effect N) : Node N where
  userConnMap := if own then e.onMap s.userConnMap else s.userConnMap
  redis := e.onRedis tid own s.redis

end Effect

namespace World

/-- The world after thread `tid`, which is `th`, has had the effect `e` and has
moved on to `pc`. -/
def advance (E : Engine) (tid : Nat) (th : Thread N) (e : Effect N) (pc : Pc N) (w : World N) : World N where
  node n := e.onNode tid (n = th.task.node) (w.node n)
  users := e.onUsers E w.users
  offline := e.onOffline E w.offline
  friends := w.friends
  groups := w.groups
  threads := w.threads.set tid { th with pc := pc }
  log := w.log ++ [(tid, e)]

def spawn (task : Task N) (w : World N) : World N :=
  { w with threads := w.threads ++ [⟨task, task.start⟩] }

def runThread (E : Engine) (tid : Nat) (pick : Option Int) (w : World N) : Option (World N) :=
  (w.threads[tid]?).bind fun th =>
    (th.pc.next E th.task.node pick w).map fun (e, pc) => w.advance E tid th e pc

def setRedis (n : N) (l : Link) (w : World N) : World N :=
  { w with node := Function.update w.node n { w.node n with redis := l } }

end World

def Task.isSubscribed : Task N → Bool
  | .subscribed .. => true
  | _ => false

def Pc.isDone : Pc N → Bool
  | .done => true
  | _ => false

def World.dispatching (n : N) (w : World N) : Bool :=
  w.threads.any (fun th => th.task.isSubscribed && th.task.node = n && !th.pc.isDone)

inductive Listen
  | swapCommands | nextCommand | serve | nextReply
  deriving DecidableEq, Repr

def World.listen (n : N) (l : Listen) (w : World N) : Option (World N) :=
  let redis := (w.node n).redis
  match l with
  | .serve => redis.serve.map (w.setRedis n ·)
  | .swapCommands => if w.dispatching n then none else redis.swapCommands.map (w.setRedis n ·)
  | .nextCommand => if w.dispatching n then none else redis.nextCommand.map (w.setRedis n ·)
  | .nextReply =>
    if w.dispatching n then none
    else redis.nextReply.map fun (l, message) =>
      match message with
      | some (userid, msg, call) => (w.setRedis n l).spawn (.subscribed n userid msg call)
      | none => w.setRedis n l

inductive Action (N : Type)
  | start (task : Task N)
  | run (tid : Nat) (pick : Option Int)
  | listen (node : N) (l : Listen)

def step (E : Engine) (w : World N) : Action N → Option (World N)
  | .start task => if task.isSubscribed then none else some (w.spawn task)
  | .run tid pick => w.runThread E tid pick
  | .listen n l => w.listen n l

def cluster (N : Type) [DecidableEq N] (E : Engine) : Machine (World N) (Action N) := ⟨step E⟩

end BridgeIM.Server
