import BridgeIM.Db.Numbers
import Mathlib.Data.List.AList

namespace BridgeIM.Model.Requests

open CString Lib.SqlText Db

/-- The column type `ENUM('pending', 'accepted', 'rejected')`. -/
inductive Status
  | pending | accepted | rejected
  deriving DecidableEq, Repr

namespace Status

def text : Status → String
  | pending => "pending"
  | accepted => "accepted"
  | rejected => "rejected"

def ofText (s : String) : Option Status :=
  if s = "pending" then some pending else if s = "accepted" then some accepted
  else if s = "rejected" then some rejected else none

@[simp] theorem ofText_text (s : Status) : ofText s.text = some s := by cases s <;> decide

/-- The moves that answers and repeated requests make. -/
def Legal (s s' : Status) : Prop :=
  s = s' ∨ s = pending ∧ s' = accepted ∨ s = pending ∧ s' = rejected ∨ s = rejected ∧ s' = pending

instance (s s' : Status) : Decidable (s.Legal s') := inferInstanceAs (Decidable (_ ∨ _))

end Status

/-- The other columns of a row of `FriendRequest` or `GroupRequest`. Both may be `NULL`. -/
structure Request where
  status : Option Status
  handledAt : Option Int
  deriving DecidableEq, Repr

/-- The rows of `FriendRequest` or `GroupRequest` by their primary key: the
requester, and the target or the group. -/
abbrev Table := AList (fun _ : Int × Int => Request)

namespace Table

def insertPending (k : Int × Int) (t : Table) : Option Table :=
  if IsInt k.1 ∧ IsInt k.2 ∧ k ∉ t then some (t.insert k ⟨some .pending, none⟩) else none

/-- The row with another status. Setting it to pending clears the time of the answer. -/
def setStatus (k : Int × Int) (s : Status) (now : Int) (t : Table) : Table :=
  match t.lookup k with
  | none => t
  | some _ => t.insert k ⟨some s, if s = .pending then none else some now⟩

def status (k : Int × Int) (t : Table) : Option (Option Status) := (t.lookup k).map Request.status

variable {k k' : Int × Int} {t t' : Table} {s : Status} {now : Int}

theorem lookup_setStatus_self (h : t.lookup k ≠ none) :
    (t.setStatus k s now).lookup k = some ⟨some s, if s = .pending then none else some now⟩ := by
  unfold setStatus
  split
  · contradiction
  · exact AList.lookup_insert t

theorem lookup_setStatus_ne (h : k' ≠ k) : (t.setStatus k s now).lookup k' = t.lookup k' := by
  unfold setStatus
  split
  · rfl
  · exact AList.lookup_insert_ne h

theorem status_setStatus_ne (h : k' ≠ k) : (t.setStatus k s now).status k' = t.status k' := by
  rw [status, lookup_setStatus_ne h, status]

theorem status_eq_none : t.status k = none ↔ t.lookup k = none := Option.map_eq_none_iff

theorem status_setStatus_self (h : t.status k ≠ none) : (t.setStatus k s now).status k = some (some s) := by
  rw [status, lookup_setStatus_self (fun hn => h (status_eq_none.mpr hn))]
  rfl

theorem insertPending_eq_some : t.insertPending k = some t' ↔
    (IsInt k.1 ∧ IsInt k.2 ∧ t.lookup k = none) ∧ t' = t.insert k ⟨some .pending, none⟩ := by
  rw [insertPending, Option.ite_none_right_eq_some, AList.lookup_eq_none, Option.some.injEq, eq_comm]

theorem status_insertPending_self (h : t.insertPending k = some t') : t'.status k = some (some .pending) := by
  rw [(insertPending_eq_some.mp h).2, status, AList.lookup_insert]
  rfl

theorem status_setStatus (h : t.status k ≠ none) (s : Status) (now : Int) (x : Int × Int) :
    (t.setStatus k s now).status x = if x = k then some (some s) else t.status x := by
  split
  · rename_i hx
    rw [hx, status_setStatus_self h]
  · rename_i hx
    exact status_setStatus_ne hx

theorem status_insertPending (h : t.insertPending k = some t') (x : Int × Int) :
    t'.status x = if x = k then some (some .pending) else t.status x := by
  split
  · rename_i hx
    rw [hx, status_insertPending_self h]
  · rename_i hx
    rw [(insertPending_eq_some.mp h).2, status, AList.lookup_insert_ne hx, status]

theorem lookup_insertPending_ne (h : t.insertPending k = some t') (hk : k' ≠ k) : t'.lookup k' = t.lookup k' := by
  rw [(insertPending_eq_some.mp h).2]
  exact AList.lookup_insert_ne hk

end Table

inductive Kind
  | friend | group
  deriving DecidableEq, Repr

namespace Kind

def table : Kind → String
  | friend => "FriendRequest"
  | group => "GroupRequest"

def column : Kind → String
  | friend => "target_id"
  | group => "group_id"

variable (c : Kind)

def insertHead : List Token :=
  [kw "insert", kw "into", kw c.table, .sym '(', kw "requester_id", .sym ',', kw c.column, .sym ',', kw "status",
    .sym ')', kw "values", .sym '(']

def insertTokens (k : Int × Int) : List Token :=
  c.insertHead ++ intTokens k.1 ++ [.sym ','] ++ intTokens k.2 ++
    [.sym ',', .lit "pending".toList, .sym ')', .sym ';']

def statusHead : List Token :=
  [kw "select", kw "status", kw "from", kw c.table, kw "where", kw "requester_id", .sym '=']

def andColumn : List Token := [kw "and", kw c.column, .sym '=']

def statusTokens (k : Int × Int) : List Token :=
  c.statusHead ++ intTokens k.1 ++ c.andColumn ++ intTokens k.2 ++ [.sym ';']

def handledAt : Status → List Token
  | .pending => [kw "null"]
  | .accepted | .rejected => [kw "now", .sym '(', .sym ')']

def setHead (s : Status) : List Token :=
  [kw "update", kw c.table, kw "set", kw "status", .sym '=', .lit s.text.toList, .sym ',', kw "handled_at", .sym '='] ++
    handledAt s ++ [kw "where", kw "requester_id", .sym '=']

def setTokens (k : Int × Int) (s : Status) : List Token :=
  c.setHead s ++ intTokens k.1 ++ c.andColumn ++ intTokens k.2 ++ [.sym ';']

end Kind

end BridgeIM.Model.Requests
