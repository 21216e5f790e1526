import BridgeIM.Db.Session

namespace BridgeIM.Db

variable {D : Type}

/-- A `DbSession`. The pool may have had no connection to lend, and a connection
that is lost before the result arrives reports a failure. -/
structure DbSession (D : Type) where
  conn : Option (Mysql D)
  lost : Bool := false

/-- The rows of a `QueryResult`. A query that failed has none and is not valid. -/
structure QueryResult where
  rows : List Row
  valid : Bool

namespace QueryResult

def next (r : QueryResult) : Bool := !r.rows.isEmpty

def currentRow (r : QueryResult) : Row := r.rows.headD []

end QueryResult

namespace DbSession

def update (s : DbSession D) (sql : String) (d : D) : Bool × D :=
  match s.conn.bind fun m => m.execUpdate sql d with
  | some d' => (!s.lost, d')
  | none => (false, d)

def query (s : DbSession D) (sql : String) (d : D) : QueryResult :=
  match s.conn.bind fun m => m.execQuery sql d with
  | some rows => if s.lost then ⟨[], false⟩ else ⟨rows, true⟩
  | none => ⟨[], false⟩

/-- The id that the last insert has given out, on the connection of the session. -/
def lastInsertId (s : DbSession D) (sql : String) (d : D) : Int :=
  s.conn.elim (-1) fun m => m.lastInsertId sql d

/-- A connection could be borrowed, the server has executed the update and its
result has arrived. -/
def Updates (s : DbSession D) (sql : String) (d : D) : Prop :=
  (s.conn.bind fun m => m.execUpdate sql d).isSome = true ∧ s.lost = false

def Queries (s : DbSession D) (sql : String) (d : D) : Prop :=
  (s.conn.bind fun m => m.execQuery sql d).isSome = true ∧ s.lost = false

theorem update_fst (s : DbSession D) (sql : String) (d : D) : (s.update sql d).1 = true ↔ s.Updates sql d := by
  rw [update, Updates]
  cases s.conn.bind fun m => m.execUpdate sql d <;> simp

theorem query_valid (s : DbSession D) (sql : String) (d : D) : (s.query sql d).valid = true ↔ s.Queries sql d := by
  rw [query, Queries]
  cases s.conn.bind fun m => m.execQuery sql d <;> cases s.lost <;> simp

theorem query_of_not {s : DbSession D} {sql : String} {d : D} (h : ¬ s.Queries sql d) :
    s.query sql d = ⟨[], false⟩ := by
  rw [Queries] at h
  rw [query]
  cases hq : s.conn.bind fun m => m.execQuery sql d with
  | none => rfl
  | some rows =>
    rw [hq] at h
    have hl : s.lost = true := by simpa using h
    simp [hl]

end DbSession

end BridgeIM.Db
