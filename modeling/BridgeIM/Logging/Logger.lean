import BridgeIM.Lib.Machine
import BridgeIM.Logging.LockQueue

namespace BridgeIM.Logging

open Lib

inductive LogLevel
  | INFO | ERROR
  deriving DecidableEq, Repr

/-- The fields of a `tm` that a prefix shows. -/
structure Time where
  hour : Nat
  min : Nat
  sec : Nat
  deriving DecidableEq, Repr

def twoDigits (n : Nat) : String := if n < 10 then "0" ++ toString n else toString n

def buildPrefix (level : LogLevel) (now : Option Time) : String :=
  let name := match level with
    | .INFO => "INFO"
    | .ERROR => "ERROR"
  match now with
  | some t => "[" ++ name ++ "] " ++ twoDigits t.hour ++ ":" ++ twoDigits t.min ++ ":" ++ twoDigits t.sec ++ " => "
  | none => "[" ++ name ++ "] => "

/-- What `writeLine` is called with. -/
inductive Line
  | note (dropped : Nat)
  | message (msg : String)
  deriving DecidableEq, Repr

def Line.text : Line → String
  | .note dropped => "[WARN] dropped " ++ toString dropped ++ " log message(s) due to full queue\n"
  | .message msg => msg

structure Config where
  logDir : String
  programName : String
  instanceTag : String
  deriving DecidableEq, Repr

inductive Caller
  | log (msg : String) (level : LogLevel)
  | push (logMsg : String)
  | init (c : Config)
  | ensureDirectory (c : Config)
  | lockConfig (c : Config)
  | setDir (c : Config)
  | setName (c : Config)
  | setTag (c : Config)
  | setCapacity (c : Config)
  | setEpoch (c : Config)
  | shutdown
  | stop
  | join
  | returned
  | initReturned (c : Config) (ok : Bool)
  deriving DecidableEq, Repr

inductive Place
  | pop
  | loadEpoch (msg : String)
  | lockConfig (msg : String) (epoch : Nat)
  | copyDir (msg : String) (epoch : Nat)
  | copyName (msg : String) (epoch : Nat)
  | copyTag (msg : String) (epoch : Nat)
  | count (msg : String)
  | note (msg : String) (dropped : Nat)
  | write (msg : String)
  | left
  deriving DecidableEq, Repr

/-- The local variables of the consumer, and what it called `writeLine` with. -/
structure Consumer where
  place : Place := .pop
  logDir : String := ""
  programName : String := ""
  instanceTag : String := ""
  localEpoch : Nat := 0
  reportedDropped : Nat := 0
  lines : List Line := []
  deriving DecidableEq, Repr

/-- The fields of the logger and its parties. A mutex is `true` while it is
held; `accepted` is the history of the pushes before `Stop`. -/
structure Logger where
  configMutex : Bool := false
  logDir : String := "."
  programName : String := "log"
  instanceTag : String := ""
  initialized : Bool := false
  configEpoch : Nat := 1
  lockQueue : LockQueue String := {}
  lifecycleMutex : Bool := false
  isShutdown : Bool := false
  consumer : Consumer := {}
  callers : List Caller := []
  accepted : List String := []
  deriving DecidableEq, Repr

/-- What the system answers to a caller: the time, whether `stat` finds something
at the path of the directory and it is one, whether `mkdir` succeeds or fails with
`EEXIST`, and the capacity that the environment variable gives. -/
structure System where
  now : Option Time := none
  stat : Option Bool := some true
  mkdir : Bool := false
  eexist : Bool := false
  capacity : Nat := 10000
  deriving DecidableEq, Repr

def ensureDirectory (path : String) (sys : System) : Bool :=
  if path = "" then false
  else match sys.stat with
    | some isDirectory => isDirectory
    | none => sys.mkdir || sys.eexist

namespace Logger

def construct (capacity : Nat) : Logger := { lockQueue := { capacity := capacity } }

def setCaller (i : Nat) (x : Caller) (s : Logger) : Logger := { s with callers := s.callers.set i x }

/-- `IsShutdown`, which waits for the lifecycle mutex. -/
def checked (i : Nat) (yes no : Caller) (s : Logger) : Option Logger :=
  if s.lifecycleMutex then none else some (s.setCaller i (if s.isShutdown then yes else no))

def caller (i : Nat) (sys : System) (s : Logger) : Option Logger :=
  match s.callers[i]? with
  | some (.log msg level) => s.checked i .returned (.push (buildPrefix level sys.now ++ msg ++ "\n"))
  | some (.push logMsg) =>
    some ({ s with lockQueue := s.lockQueue.push logMsg,
                   accepted := if s.lockQueue.stop then s.accepted else s.accepted ++ [logMsg] }.setCaller i .returned)
  | some (.init c) => s.checked i (.initReturned c false) (.ensureDirectory c)
  | some (.ensureDirectory c) =>
    some (s.setCaller i (if ensureDirectory c.logDir sys then .lockConfig c else .initReturned c false))
  | some (.lockConfig c) => if s.configMutex then none else some ({ s with configMutex := true }.setCaller i (.setDir c))
  | some (.setDir c) => some ({ s with logDir := c.logDir }.setCaller i (.setName c))
  | some (.setName c) =>
    some ({ s with programName := if c.programName = "" then "log" else c.programName }.setCaller i (.setTag c))
  | some (.setTag c) =>
    some ({ s with instanceTag := c.instanceTag, initialized := true, configMutex := false }.setCaller i
      (.setCapacity c))
  | some (.setCapacity c) => some ({ s with lockQueue := s.lockQueue.setCapacity sys.capacity }.setCaller i (.setEpoch c))
  | some (.setEpoch c) => some ({ s with configEpoch := s.configEpoch + 1 }.setCaller i (.initReturned c true))
  | some .shutdown =>
    if s.lifecycleMutex then none
    else if s.isShutdown then some (s.setCaller i .returned)
    else some ({ s with lifecycleMutex := true, isShutdown := true }.setCaller i .stop)
  | some .stop => some ({ s with lockQueue := s.lockQueue.stopped }.setCaller i .join)
  | some .join =>
    if s.consumer.place = .left then some ({ s with lifecycleMutex := false }.setCaller i .returned) else none
  | some .returned | some (.initReturned ..) | none => none

def goto (place : Place) (s : Logger) : Logger := { s with consumer := { s.consumer with place := place } }

def consume (s : Logger) : Option Logger :=
  match s.consumer.place with
  | .pop =>
    match s.lockQueue.pop with
    | some (some msg, q) => some ({ s with lockQueue := q }.goto (.loadEpoch msg))
    | some (none, q) => some ({ s with lockQueue := q }.goto .left)
    | none => none
  | .loadEpoch msg =>
    some (s.goto (if s.configEpoch = s.consumer.localEpoch then .count msg else .lockConfig msg s.configEpoch))
  | .lockConfig msg epoch => if s.configMutex then none else some ({ s with configMutex := true }.goto (.copyDir msg epoch))
  | .copyDir msg epoch =>
    some ({ s with consumer := { s.consumer with logDir := if s.initialized then s.logDir else "." } }.goto
      (.copyName msg epoch))
  | .copyName msg epoch =>
    some ({ s with consumer := { s.consumer with programName := if s.initialized then s.programName else "log" } }.goto
      (.copyTag msg epoch))
  | .copyTag msg epoch =>
    some ({ s with consumer := { s.consumer with instanceTag := if s.initialized then s.instanceTag else "",
                                                 localEpoch := epoch },
                   configMutex := false }.goto (.count msg))
  | .count msg =>
    some (s.goto (if s.consumer.reportedDropped < s.lockQueue.dropped then .note msg s.lockQueue.dropped else .write msg))
  | .note msg dropped =>
    some { s with consumer := { s.consumer with lines := s.consumer.lines ++ [.note (dropped - s.consumer.reportedDropped)],
                                                reportedDropped := dropped, place := .write msg } }
  | .write msg => some { s with consumer := { s.consumer with lines := s.consumer.lines ++ [.message msg], place := .pop } }
  | .left => none

end Logger

inductive Move
  | log (msg : String) (level : LogLevel)
  | init (c : Config)
  | shutdown
  | caller (i : Nat) (sys : System)
  | consume
  deriving DecidableEq, Repr

def step (s : Logger) : Move → Option Logger
  | .log msg level => some { s with callers := s.callers ++ [.log msg level] }
  | .init c => some { s with callers := s.callers ++ [.init c] }
  | .shutdown => some { s with callers := s.callers ++ [.shutdown] }
  | .caller i sys => s.caller i sys
  | .consume => s.consume

def logger : Machine Logger Move := ⟨step⟩

end BridgeIM.Logging
