import BridgeIM.Server.Framing

namespace BridgeIM.Server.Buffers

open Lib Lib.Lines Framing

/-- Where the callback of a connection stands. A connection belongs to one
event loop, so at most one of its callbacks is running. -/
inductive Place where
  | shut
  | idle
  | find
  | loop (pos : Option Nat)
  | handle (frame : Bytes) (pos : Option Nat)
  | erase
  deriving DecidableEq

/-- A connection: the bytes received since it was opened, the frames cut from
its buffer, those passed to the pool and what `onMessage` sent. -/
structure Conn where
  place : Place := .shut
  received : Bytes := []
  frames : List Bytes := []
  passed : List (Int × Json) := []
  sent : List Json := []

structure ChatServer (C : Type*) where
  recvBufMap : C → Option Bytes
  conns : C → Conn

inductive Move (C : Type*) where
  | up (conn : C)
  | data (conn : C) (readbuf : Bytes)
  | turn (conn : C) (full : Bool)
  | down (conn : C)

def Move.conn {C : Type*} : Move C → C
  | .up conn | .data conn _ | .turn conn _ | .down conn => conn

variable {C : Type*} [DecidableEq C]

namespace ChatServer

def start : ChatServer C := ⟨fun _ => none, fun _ => {}⟩

def buffer (s : ChatServer C) (conn : C) : Bytes := (s.recvBufMap conn).getD []

def set (s : ChatServer C) (conn : C) (buf : Option Bytes) (c : Conn) : ChatServer C :=
  ⟨Function.update s.recvBufMap conn buf, Function.update s.conns conn c⟩

/-- One section of a callback: what is done under one lock of `_recvBufMutex`,
or to one frame without the lock. -/
def turn (parse : Bytes → Option Json) (s : ChatServer C) (conn : C) (full : Bool) : Option (ChatServer C) :=
  let c := s.conns conn
  let buf := s.buffer conn
  match c.place with
  | .shut | .idle => none
  | .find => some (s.set conn (some buf) { c with place := .loop (buf.findIdx? (· = newline)) })
  | .loop none => some (s.set conn (s.recvBufMap conn) { c with place := .idle })
  | .loop (some pos) =>
    let rest := buf.drop (pos + 1)
    some (s.set conn (some rest)
      { c with place := .handle (buf.take pos) (rest.findIdx? (· = newline)), frames := c.frames ++ [buf.take pos] })
  | .handle frame pos =>
    let r := onFrame parse (fun _ => full) frame { passed := c.passed, sent := c.sent }
    some (s.set conn (s.recvBufMap conn)
      { c with place := if r.2 then .loop pos else .idle, passed := r.1.passed, sent := r.1.sent })
  | .erase => some (s.set conn none { c with place := .shut })

def step (parse : Bytes → Option Json) (s : ChatServer C) : Move C → Option (ChatServer C)
  | .up conn => if (s.conns conn).place = .shut then some (s.set conn (s.recvBufMap conn) { place := .idle }) else none
  | .data conn readbuf =>
    if (s.conns conn).place = .idle then
      some (s.set conn (some (s.buffer conn ++ readbuf))
        { s.conns conn with place := .find, received := (s.conns conn).received ++ readbuf })
    else none
  | .turn conn full => s.turn parse conn full
  | .down conn =>
    if (s.conns conn).place = .idle then
      some (s.set conn (s.recvBufMap conn) { s.conns conn with place := .erase })
    else none

end ChatServer

def server (parse : Bytes → Option Json) : Machine (ChatServer C) (Move C) := ⟨ChatServer.step parse⟩

/-- The frames cut from the buffer, ended again, and the buffer are what the
connection has received; a call in progress knows where the next frame ends. -/
structure Conn.Books (c : Conn) (buf : Bytes) : Prop where
  bytes : c.frames.flatMap (· ++ [newline]) ++ buf = c.received
  pieces : ∀ frame ∈ c.frames, newline ∉ frame
  next : ∀ pos, (c.place = .loop pos ∨ ∃ frame, c.place = .handle frame pos) → pos = buf.findIdx? (· = newline)

/-- A connection that is closed has no entry. -/
def Inv (s : ChatServer C) (conn : C) : Prop :=
  if (s.conns conn).place = .shut then s.recvBufMap conn = none else (s.conns conn).Books (s.buffer conn)

variable {parse : Bytes → Option Json} {s t : ChatServer C} {conn : C}

omit [DecidableEq C] in
theorem Inv.books (h : Inv s conn) (ho : (s.conns conn).place ≠ .shut) : (s.conns conn).Books (s.buffer conn) := by
  rwa [Inv, if_neg ho] at h

theorem set_conns (buf : Option Bytes) (c : Conn) : (s.set conn buf c).conns conn = c := Function.update_self ..

theorem set_recvBufMap (buf : Option Bytes) (c : Conn) : (s.set conn buf c).recvBufMap conn = buf :=
  Function.update_self ..

theorem inv_set {buf : Option Bytes} {c : Conn} (ho : c.place ≠ .shut) (h : c.Books (buf.getD [])) :
    Inv (s.set conn buf c) conn := by
  rw [Inv, set_conns, if_neg ho, ChatServer.buffer, set_recvBufMap]
  exact h

theorem Conn.Books.place {c c' : Conn} {buf : Bytes} (h : c.Books buf) (hr : c'.received = c.received)
    (hf : c'.frames = c.frames)
    (hn : ∀ pos, (c'.place = .loop pos ∨ ∃ frame, c'.place = .handle frame pos) → pos = buf.findIdx? (· = newline)) :
    c'.Books buf :=
  ⟨by rw [hr, hf]; exact h.bytes, by rw [hf]; exact h.pieces, hn⟩

theorem Conn.Books.cutOff {c : Conn} {buf : Bytes} {pos : Nat} (h : c.Books buf)
    (hp : buf.findIdx? (· = newline) = some pos) :
    Conn.Books { c with
      place := .handle (buf.take pos) ((buf.drop (pos + 1)).findIdx? (· = newline)), frames := c.frames ++ [buf.take pos] }
      (buf.drop (pos + 1)) := by
  obtain ⟨hlt, hat, hbefore⟩ := List.findIdx?_eq_some_iff_getElem.mp hp
  have hat : buf[pos] = newline := of_decide_eq_true hat
  have hsplit : buf.take pos ++ newline :: buf.drop (pos + 1) = buf := by
    rw [← hat, List.getElem_cons_drop, List.take_append_drop]
  refine ⟨?_, ?_, ?_⟩
  · have hb := h.bytes
    rw [← hsplit] at hb
    rw [List.flatMap_append, List.flatMap_singleton, List.append_assoc, List.append_assoc, List.singleton_append]
    exact hb
  · intro frame hf
    obtain hf | hf := List.mem_append.mp hf
    · exact h.pieces frame hf
    · rw [List.mem_singleton.mp hf]
      intro hm
      obtain ⟨i, hi, hnl⟩ := List.mem_take_iff_getElem.mp hm
      exact hbefore i (by omega) (decide_eq_true hnl)
  · rintro pos' (hl | ⟨frame, hl⟩)
    · cases hl
    · cases hl
      rfl

theorem step_others {m : Move C} (h : s.step parse m = some t) {conn' : C} (hne : conn' ≠ m.conn) :
    t.recvBufMap conn' = s.recvBufMap conn' ∧ t.conns conn' = s.conns conn' := by
  have hset : ∀ buf c, s.set m.conn buf c = t →
      t.recvBufMap conn' = s.recvBufMap conn' ∧ t.conns conn' = s.conns conn' := by
    rintro buf c rfl
    exact ⟨Function.update_of_ne hne .., Function.update_of_ne hne ..⟩
  cases m with
  | turn conn full =>
    unfold ChatServer.step ChatServer.turn at h
    dsimp only at h
    split at h
    · cases h
    · cases h
    all_goals exact hset _ _ (Option.some.inj h)
  | _ =>
    unfold ChatServer.step at h
    dsimp only at h
    split at h
    · exact hset _ _ (Option.some.inj h)
    · cases h

omit [DecidableEq C] in
theorem inv_start (conn : C) : Inv .start conn := by
  simp [Inv, ChatServer.start]

theorem inv_turn (h : Inv s conn) {full : Bool} (hs : s.turn parse conn full = some t) : Inv t conn := by
  unfold ChatServer.turn at hs
  dsimp only at hs
  split at hs
  · cases hs
  · cases hs
  · rename_i hp
    have hb := h.books (by simp [hp])
    rw [← Option.some.inj hs]
    refine inv_set (by simp) (hb.place rfl rfl ?_)
    rintro pos (hl | ⟨frame, hl⟩)
    · cases hl
      rfl
    · cases hl
  · rename_i hp
    have hb := h.books (by simp [hp])
    rw [← Option.some.inj hs]
    refine inv_set (by simp) (hb.place rfl rfl ?_)
    rintro pos (hl | ⟨frame, hl⟩)
    · cases hl
    · cases hl
  · rename_i pos hp
    have hb := h.books (by simp [hp])
    rw [← Option.some.inj hs]
    exact inv_set (by simp) (hb.cutOff (hb.next _ (Or.inl hp)).symm)
  · rename_i frame pos hp
    have hb := h.books (by simp [hp])
    rw [← Option.some.inj hs]
    refine inv_set (by dsimp only; split <;> simp) (hb.place rfl rfl ?_)
    rintro pos' (hl | ⟨frame', hl⟩)
    · dsimp only at hl
      split at hl
      · cases hl
        exact hb.next pos (Or.inr ⟨frame, hp⟩)
      · cases hl
    · dsimp only at hl
      split at hl
      · cases hl
      · cases hl
  · rw [← Option.some.inj hs, Inv, set_conns, if_pos rfl, set_recvBufMap]

theorem inv_step (h : ∀ conn, Inv s conn) (m : Move C) (hs : s.step parse m = some t) (conn : C) : Inv t conn := by
  by_cases hne : conn = m.conn
  · subst hne
    cases m with
    | turn conn full => exact inv_turn (h conn) hs
    | up conn =>
      unfold ChatServer.step at hs
      dsimp only at hs
      split at hs
      · rename_i hp
        have hi := h conn
        rw [Inv, if_pos hp] at hi
        rw [← Option.some.inj hs]
        refine inv_set (by simp) ⟨?_, by simp, by simp⟩
        rw [hi]
        rfl
      · cases hs
    | data conn readbuf =>
      unfold ChatServer.step at hs
      dsimp only at hs
      split at hs
      · rename_i hp
        have hb := (h conn).books (by simp [hp])
        rw [← Option.some.inj hs]
        refine inv_set (by simp) ⟨?_, hb.pieces, by simp⟩
        rw [Option.getD_some, ← List.append_assoc, hb.bytes]
      · cases hs
    | down conn =>
      unfold ChatServer.step at hs
      dsimp only at hs
      split at hs
      · rename_i hp
        have hb := (h conn).books (by simp [hp])
        rw [← Option.some.inj hs]
        exact inv_set (by simp) (hb.place rfl rfl (by simp))
      · cases hs
  · obtain ⟨hm, hc⟩ := step_others hs hne
    have hi := h conn
    unfold Inv ChatServer.buffer at hi ⊢
    rwa [hm, hc]

/-- The frames and the buffer of a connection are its own stream. -/
structure Kept (c : Conn) (buf : Bytes) : Prop where
  bytes : c.frames.flatMap (· ++ [newline]) ++ buf = c.received
  split : c.frames <+: (cut newline c.received).1

theorem Conn.Books.kept {c : Conn} {buf : Bytes} (h : c.Books buf) : Kept c buf := by
  refine ⟨h.bytes, ?_⟩
  rw [← h.bytes, cut_flatMap h.pieces]
  exact List.prefix_append c.frames (cut newline buf).1

theorem erase_recvBufMap {m : Move C} (hs : s.step parse m = some t) (hp : (s.conns m.conn).place = .erase) :
    t.recvBufMap m.conn = none := by
  cases m with
  | turn conn full =>
    have he : (s.conns conn).place = .erase := hp
    unfold ChatServer.step ChatServer.turn at hs
    dsimp only at hs
    rw [he] at hs
    rw [← Option.some.inj hs]
    exact set_recvBufMap ..
  | _ =>
    unfold ChatServer.step at hs
    dsimp only [Move.conn] at hs hp
    rw [hp] at hs
    cases hs

/-- In every run of the callbacks every connection that is open keeps its own
bytes, and a move concerns its own connection alone: the erasing of a down
event discards one buffer. -/
theorem bytes_kept (parse : Bytes → Option Json) (as : List (Move C)) (s : ChatServer C)
    (hr : (server parse).run .start as = some s) :
    (∀ conn, (s.conns conn).place ≠ .shut → Kept (s.conns conn) (s.buffer conn)) ∧
      ∀ m t, (server parse).step s m = some t →
        (∀ conn', conn' ≠ m.conn → t.recvBufMap conn' = s.recvBufMap conn' ∧ t.conns conn' = s.conns conn') ∧
        ((s.conns m.conn).place = .erase → t.recvBufMap m.conn = none) := by
  have h : ∀ conn, Inv s conn := Machine.run_invariant (I := fun s : ChatServer C => ∀ conn, Inv s conn)
    inv_start (fun _ m _ hi _ hs => inv_step hi m hs) (Machine.meets_true _ as) hr
  refine ⟨fun conn ho => ((h conn).books ho).kept, fun m t hs => ⟨fun conn' hne => step_others hs hne, ?_⟩⟩
  exact erase_recvBufMap hs

/-- Two connections, the second of which stops at a frame without `msgid`
while the first is at its second frame. -/
def mixed : List (Move Bool) :=
  [.up false, .up true, .data false (ascii "a\nb\nc"), .data true twoFrames, .turn false false, .turn true false,
    .turn false false, .turn true false, .turn true false, .turn false false, .turn false false]

theorem bytes_kept_mixed : ∃ s, (server parsed).run .start mixed = some s ∧
    Kept (s.conns false) (ascii "c") ∧ (s.conns true).place = .idle ∧ Kept (s.conns true) (s.buffer true) := by
  refine ⟨_, rfl, ?_, by decide, ?_⟩
  · exact (bytes_kept parsed mixed _ rfl).1 false (by decide)
  · exact (bytes_kept parsed mixed _ rfl).1 true (by decide)

end BridgeIM.Server.Buffers
