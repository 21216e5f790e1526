import BridgeIM.Lib.Machine
import BridgeIM.Lib.Slots
import Mathlib.Algebra.Order.Group.Multiset
import Mathlib.Tactic.Abel

namespace BridgeIM.Db.ConnectionPool

open Lib

structure DbConfig where
  ip : String
  port : Nat
  username : String
  password : String
  dbname : String

structure PoolConfig where
  initSize : Int := 0
  maxSize : Int := 0
  connectionTimeout : Int := 0

/-- The fields of a `ConnectionPoolConfig`. A flag tells whether the item has
been set. -/
structure ConnectionPoolConfig where
  dbConfig : DbConfig
  poolConfig : PoolConfig
  hasIp : Bool
  hasPort : Bool
  hasUsername : Bool
  hasPassword : Bool
  hasDbName : Bool
  hasInitSize : Bool
  hasMaxSize : Bool
  hasConnectionTimeout : Bool

def ConnectionPoolConfig.validate (c : ConnectionPoolConfig) : Bool :=
  if !c.hasIp || c.dbConfig.ip = "" then false
  else if !c.hasPort then false
  else if !c.hasUsername || c.dbConfig.username = "" then false
  else if !c.hasPassword then false
  else if !c.hasDbName || c.dbConfig.dbname = "" then false
  else if !c.hasInitSize || c.poolConfig.initSize ≤ 0 then false
  else if !c.hasMaxSize || c.poolConfig.maxSize < c.poolConfig.initSize then false
  else if !c.hasConnectionTimeout || c.poolConfig.connectionTimeout ≤ 0 then false
  else true

/-- A `MySQL` object, by the number of its creation. -/
abbrev Conn := Nat

/-- Where the party that holds `_queueMutex` stands in its critical section. A
caller of `getConnection` has a number. -/
inductive Critical
  | producerTest
  | producerBlock
  | producerCheck
  | producerRecheck (conn : Conn)
  | producerAdmit (conn : Conn)
  | callerTest (i : Nat) (timedOut : Bool)
  | callerCheck (i : Nat)
  | callerPop (i : Nat)
  | deleterTest (i : Nat) (conn : Conn)
  | deleterPut (i : Nat) (conn : Conn) (running : Bool)
  | destructorTest
  | drain
  deriving DecidableEq, Repr

/-- The producer thread outside its critical sections. -/
inductive Producer
  | loop | lockWait | blocked | create
  | lockAdmit (conn : Conn)
  | notify | inside | exited
  deriving DecidableEq, Repr

/-- A call of `getConnection` and the `shared_ptr` it returns. -/
inductive Caller
  | enter | waiting
  | relock (timedOut : Bool)
  | inside
  | holding (conn : Conn)
  | returned | undefined
  deriving DecidableEq, Repr

inductive Destructor
  | idle | stopped | notified | joining | lockShutdown | inside | returned
  deriving DecidableEq, Repr

/-- The fields of the pool and where its parties stand. `made` counts what
`createConnection` has returned; the last three fields are histories: what was
put under the pool's management, what of it was deleted, and what the producer
deleted on its own. -/
structure Pool where
  connectionQueue : List Conn := []
  borrowedCnt : Int := 0
  connectionCnt : Int := 0
  isRunning : Bool := false
  mutex : Option Critical := none
  producer : Producer := .loop
  callers : List Caller := []
  destructor : Destructor := .idle
  made : Nat := 0
  admitted : List Conn := []
  deleted : List Conn := []
  discarded : List Conn := []
  deriving DecidableEq, Repr

namespace Pool

/-- The loop of the constructor, with what `createConnection` does at each turn. -/
def fill : Nat → List Bool → Pool → Option Pool
  | 0, _, s => some s
  | n + 1, true :: connects, s =>
    fill n connects { s with connectionQueue := s.connectionQueue ++ [s.made], connectionCnt := s.connectionCnt + 1,
                             made := s.made + 1, admitted := s.admitted ++ [s.made] }
  | _ + 1, _, _ => none

/-- The pool that the constructor builds, unless the process exits. -/
def construct (c : ConnectionPoolConfig) (connects : List Bool) : Option Pool :=
  if c.validate then
    (fill c.poolConfig.initSize.toNat connects {}).map fun s => { s with isRunning := true }
  else none

def enter (k : Critical) (s : Pool) : Option Pool :=
  match s.mutex with
  | none => some { s with mutex := some k }
  | some _ => none

def full (c : PoolConfig) (s : Pool) : Bool :=
  c.initSize ≤ s.connectionQueue.length || c.maxSize ≤ s.connectionCnt

def notifyProducer (s : Pool) : Pool :=
  { s with producer := if s.producer = .blocked then .lockWait else s.producer }

def setCaller (i : Nat) (x : Caller) (s : Pool) : Pool := { s with callers := s.callers.set i x }

def critical (c : PoolConfig) (s : Pool) : Critical → Pool
  | .producerTest =>
    if s.full c && s.isRunning then { s with mutex := some .producerBlock }
    else { s with mutex := some .producerCheck }
  | .producerBlock => { s with mutex := none, producer := .blocked }
  | .producerCheck => { s with mutex := none, producer := if s.isRunning then .create else .exited }
  | .producerRecheck conn =>
    if s.isRunning then { s with mutex := some (.producerAdmit conn) }
    else { s with mutex := none, producer := .exited, discarded := s.discarded ++ [conn] }
  | .producerAdmit conn =>
    if s.full c then { s with mutex := none, producer := .loop, discarded := s.discarded ++ [conn] }
    else { s with mutex := none, producer := .notify, connectionQueue := s.connectionQueue ++ [conn],
                  connectionCnt := s.connectionCnt + 1, admitted := s.admitted ++ [conn] }
  | .callerTest i timedOut =>
    if !s.connectionQueue.isEmpty || !s.isRunning then { s with mutex := some (.callerCheck i) }
    else { s with mutex := none }.setCaller i (if timedOut then .returned else .waiting)
  | .callerCheck i =>
    if s.isRunning then { s with mutex := some (.callerPop i) }
    else { s with mutex := none }.setCaller i .returned
  | .callerPop i =>
    match s.connectionQueue with
    | [] => { s with mutex := none }.setCaller i .undefined
    | conn :: rest =>
      let s' := { s with mutex := none, connectionQueue := rest, borrowedCnt := s.borrowedCnt + 1 }.setCaller i
        (.holding conn)
      if rest.length < c.initSize then s'.notifyProducer else s'
  | .deleterTest i conn => { s with mutex := some (.deleterPut i conn s.isRunning) }
  | .deleterPut i conn true =>
    { s with mutex := none, connectionQueue := s.connectionQueue ++ [conn],
             borrowedCnt := s.borrowedCnt - 1 }.setCaller i .returned
  | .deleterPut i conn false =>
    { s with mutex := none, deleted := s.deleted ++ [conn], borrowedCnt := s.borrowedCnt - 1 }.setCaller i .returned
  | .destructorTest =>
    if s.borrowedCnt = 0 then { s with mutex := some .drain }
    else { s with mutex := none, destructor := .lockShutdown }
  | .drain =>
    match s.connectionQueue with
    | [] => { s with mutex := none, destructor := .returned }
    | conn :: rest => { s with connectionQueue := rest, deleted := s.deleted ++ [conn] }

def produce (created : Bool) (s : Pool) : Option Pool :=
  match s.producer with
  | .loop => some { s with producer := if s.isRunning then .lockWait else .exited }
  | .lockWait => { s with producer := .inside }.enter .producerTest
  | .create =>
    if created then some { s with producer := .lockAdmit s.made, made := s.made + 1 }
    else some { s with producer := .loop }
  | .lockAdmit conn => { s with producer := .inside }.enter (.producerRecheck conn)
  | .notify => some { s with producer := .loop }
  | .blocked | .inside | .exited => none

/-- The next step of a caller outside its critical sections. A wait ends with a
notification or with the timeout. -/
def caller (i : Nat) (timedOut : Bool) (s : Pool) : Option Pool :=
  match s.callers[i]? with
  | some .enter => (s.setCaller i .inside).enter (.callerTest i false)
  | some .waiting => some (s.setCaller i (.relock timedOut))
  | some (.relock timedOut) => (s.setCaller i .inside).enter (.callerTest i timedOut)
  | some (.holding conn) => (s.setCaller i .inside).enter (.deleterTest i conn)
  | _ => none

def destruct (s : Pool) : Option Pool :=
  match s.destructor with
  | .idle => some { s with isRunning := false, destructor := .stopped }
  | .stopped => some { s.notifyProducer with destructor := .notified }
  | .notified => some { s with destructor := .joining }
  | .joining => if s.producer = .exited then some { s with destructor := .lockShutdown } else none
  | .lockShutdown => { s with destructor := .inside }.enter .destructorTest
  | .inside | .returned => none

end Pool

/-- The producer, the party in the critical section, a new or an earlier caller
or the destructor takes its next step, or the wait of the producer ends without
a notification. -/
inductive Move
  | produce (created : Bool)
  | critical
  | call
  | caller (i : Nat) (timedOut : Bool)
  | destruct
  | spurious
  deriving DecidableEq, Repr

def step (c : PoolConfig) (s : Pool) : Move → Option Pool
  | .produce created => s.produce created
  | .critical => s.mutex.map (s.critical c)
  | .call => some { s with callers := s.callers ++ [.enter] }
  | .caller i timedOut => s.caller i timedOut
  | .destruct => s.destruct
  | .spurious => if s.producer = .blocked then some { s with producer := .lockWait } else none

def pool (c : PoolConfig) : Machine Pool Move := ⟨step c⟩

end BridgeIM.Db.ConnectionPool
