import BridgeIM.Json
import BridgeIM.Lib.Lines
import BridgeIM.Lib.Machine
import Mathlib.Data.List.Induction

namespace BridgeIM.Server.Framing

open Lib Lib.Lines

abbrev Bytes := List UInt8

def newline : UInt8 := 10

/-- The state of one connection: its entry of `_recvBufMap`, the frames passed
to `getHandler` and `enqueue`, and what `onMessage` has sent itself. -/
structure State where
  recvBuf : Bytes := []
  passed : List (Int × Json) := []
  sent : List Json := []

def serverBusy : Json := .mkObj [("errno", .int 1), ("errmsg", .str "server busy")]

section OnMessage

variable (parse : Bytes → Option Json) (full : Nat → Bool)

def enqueue (msgid : Int) (js : Json) (s : State) : State where
  recvBuf := s.recvBuf
  passed := s.passed ++ [(msgid, js)]
  sent := if full s.passed.length then s.sent ++ [serverBusy] else s.sent

/-- The body of the loop of `onMessage` after the frame has been cut off. The
result tells whether the loop goes on. -/
def onFrame (frame : Bytes) (s : State) : State × Bool :=
  if frame = [] then (s, true)
  else match parse frame with
    | none => (s, true)
    | some js => match js.get? "msgid" with
      | none => (s, false)
      | some v => match v.toInt? with
        | none => (s, true)
        | some msgid => (enqueue full msgid js s, true)

def loop (buf : Bytes) (s : State) : State :=
  match h : buf.findIdx? (· = newline) with
  | none => { s with recvBuf := buf }
  | some pos =>
    if (onFrame parse full (buf.take pos) s).2 then
      loop (buf.drop (pos + 1)) (onFrame parse full (buf.take pos) s).1
    else { (onFrame parse full (buf.take pos) s).1 with recvBuf := buf.drop (pos + 1) }
termination_by buf.length
decreasing_by
  have hlt := (List.findIdx?_eq_some_iff_getElem.mp h).1
  rw [List.length_drop]
  omega

def onMessage (data : Bytes) (s : State) : State := loop parse full (s.recvBuf ++ data) s

def connection : Machine State Bytes := ⟨fun s data => some (onMessage parse full data s)⟩

/-- The frame that a piece of the stream is. An empty piece, one that is not
JSON, one without `msgid` and one whose `msgid` is no number is no frame. -/
def frame (piece : Bytes) : Option (Int × Json) :=
  if piece = [] then none
  else (parse piece).bind fun js => ((js.get? "msgid").bind Json.toInt?).map fun msgid => (msgid, js)

/-- After a call the buffer holds no newline, and the frames of the stream
received so far have been passed on in order. -/
def Framed (stream : Bytes) (s : State) : Prop :=
  newline ∉ s.recvBuf ∧ s.passed = (cut newline stream).1.filterMap (frame parse)

/-- A piece at which `onMessage` returns: JSON without `msgid`. -/
def noMsgid (piece : Bytes) : Bool := piece ≠ [] && (parse piece).any (fun js => !js.contains "msgid")

/-- No call meets JSON without `msgid` before its last complete piece. -/
def NoMsgidLast (s : State) (data : Bytes) : Prop :=
  ∀ piece ∈ (cut newline (s.recvBuf ++ data)).1.dropLast, noMsgid parse piece = false

end OnMessage

variable {parse : Bytes → Option Json} {full : Nat → Bool}

theorem onFrame_snd (piece : Bytes) (s : State) : (onFrame parse full piece s).2 = !noMsgid parse piece := by
  unfold onFrame noMsgid
  split
  · rename_i h
    simp [h]
  · rename_i h
    cases parse piece with
    | none => simp
    | some js =>
      cases hm : js.get? "msgid" with
      | none => simp [h, hm, Json.contains]
      | some v => cases hv : v.toInt? <;> simp [hm, hv, Json.contains]

theorem onFrame_passed (piece : Bytes) (s : State) :
    (onFrame parse full piece s).1.passed = s.passed ++ (frame parse piece).toList := by
  unfold onFrame frame
  split
  · simp
  · cases parse piece with
    | none => simp
    | some js =>
      cases hm : js.get? "msgid" with
      | none => simp [hm]
      | some v => cases hv : v.toInt? <;> simp [hm, hv, enqueue]

theorem frame_of_noMsgid {piece : Bytes} (h : noMsgid parse piece = true) : frame parse piece = none := by
  unfold noMsgid at h
  unfold frame
  split
  · rfl
  · cases hp : parse piece with
    | none => rfl
    | some js =>
      cases hm : js.get? "msgid" with
      | none => simp [hm]
      | some v => simp [hp, hm, Json.contains] at h

theorem findIdx?_piece {p : Bytes} (hp : newline ∉ p) (t : Bytes) :
    (p ++ newline :: t).findIdx? (· = newline) = some p.length := by
  have hn : p.findIdx? (· = newline) = none :=
    List.findIdx?_eq_none_iff.mpr fun c hc => decide_eq_false fun he => hp (he ▸ hc)
  rw [List.findIdx?_append, hn, List.findIdx?_cons]
  simp

theorem loop_rest {buf : Bytes} (h : newline ∉ buf) (s : State) :
    loop parse full buf s = { s with recvBuf := buf } := by
  have hf : buf.findIdx? (· = newline) = none :=
    List.findIdx?_eq_none_iff.mpr fun c hc => decide_eq_false fun he => h (he ▸ hc)
  rw [loop]
  split
  · rfl
  · rename_i hs
    rw [hf] at hs
    cases hs

theorem loop_piece {p : Bytes} (hp : newline ∉ p) (t : Bytes) (s : State) :
    loop parse full (p ++ newline :: t) s =
      if noMsgid parse p then { (onFrame parse full p s).1 with recvBuf := t }
      else loop parse full t (onFrame parse full p s).1 := by
  have hdrop : (p ++ newline :: t).drop (p.length + 1) = t := by simp
  rw [loop]
  split
  · rename_i hs
    rw [findIdx?_piece hp] at hs
    cases hs
  · rename_i pos hs
    rw [findIdx?_piece hp] at hs
    cases hs
    rw [List.take_left, hdrop, onFrame_snd]
    cases noMsgid parse p <;> rfl

/-- A call that meets JSON without `msgid` at most in its last piece handles
all its pieces. -/
theorem loop_framed (buf : Bytes) (s : State)
    (h : ∀ piece ∈ (cut newline buf).1.dropLast, noMsgid parse piece = false) :
    (loop parse full buf s).recvBuf = (cut newline buf).2 ∧
      (loop parse full buf s).passed = s.passed ++ (cut newline buf).1.filterMap (frame parse) := by
  induction buf using cut_induction (d := newline) generalizing s with
  | hrest buf hbuf =>
    rw [loop_rest hbuf, cut_of_not_mem hbuf]
    exact ⟨rfl, (List.append_nil _).symm⟩
  | hpiece p t hp ih =>
    rw [cut_append_cons hp] at h ⊢
    rw [loop_piece hp, List.filterMap_cons]
    cases hno : noMsgid parse p with
    | true =>
      have ht : newline ∉ t := by
        intro ht
        have hne : (cut newline t).1 ≠ [] := by
          intro he
          obtain ⟨q, u, rfl, hq⟩ := List.eq_append_cons_of_mem ht
          rw [cut_append_cons hq] at he
          cases he
        have hf := h p (by rw [List.dropLast_cons_of_ne_nil hne]; exact List.mem_cons_self)
        rw [hno] at hf
        cases hf
      rw [if_pos rfl, cut_of_not_mem ht, frame_of_noMsgid hno]
      refine ⟨rfl, ?_⟩
      rw [onFrame_passed, frame_of_noMsgid hno]
      rfl
    | false =>
      have hsub : ∀ piece ∈ (cut newline t).1.dropLast, noMsgid parse piece = false := by
        intro piece hpiece
        refine h piece ?_
        have hne : (cut newline t).1 ≠ [] := by
          rintro he
          rw [he] at hpiece
          cases hpiece
        rw [List.dropLast_cons_of_ne_nil hne]
        exact List.mem_cons_of_mem _ hpiece
      obtain ⟨hr, hpassed⟩ := ih (onFrame parse full p s).1 hsub
      rw [if_neg Bool.false_ne_true, hr, hpassed, onFrame_passed, List.append_assoc]
      refine ⟨rfl, congrArg _ ?_⟩
      cases frame parse p <;> rfl

/-- JSON without `msgid` before the last piece leaves a piece in the buffer. -/
theorem loop_stopped (buf : Bytes) (s : State) {piece : Bytes} (hp : piece ∈ (cut newline buf).1.dropLast)
    (hno : noMsgid parse piece = true) : newline ∈ (loop parse full buf s).recvBuf := by
  induction buf using cut_induction (d := newline) generalizing s with
  | hrest buf hbuf =>
    rw [cut_of_not_mem hbuf] at hp
    cases hp
  | hpiece p t hpn ih =>
    rw [cut_append_cons hpn] at hp
    have hne : (cut newline t).1 ≠ [] := by
      intro he
      simp only [he] at hp
      cases hp
    rw [List.dropLast_cons_of_ne_nil hne] at hp
    rw [loop_piece hpn]
    split
    · exact mem_of_pieces hne
    · rename_i hcont
      obtain rfl | hp := List.mem_cons.mp hp
      · exact absurd hno hcont
      · exact ih _ hp

theorem framed_step {stream : Bytes} {s : State} (h : Framed parse stream s)
    (hbuf : s.recvBuf = (cut newline stream).2) {data : Bytes} (hok : NoMsgidLast parse s data) :
    Framed parse (stream ++ data) (onMessage parse full data s) ∧
      (onMessage parse full data s).recvBuf = (cut newline (stream ++ data)).2 := by
  obtain ⟨hr, hp⟩ : (onMessage parse full data s).recvBuf = _ ∧ (onMessage parse full data s).passed = _ :=
    loop_framed (s.recvBuf ++ data) s hok
  have hcut := cut_append (d := newline) stream data
  rw [← hbuf] at hcut
  rw [Framed, hcut, hr, hp, h.2, List.filterMap_append]
  exact ⟨⟨not_mem_rest _, rfl⟩, rfl⟩

theorem framed_of_meets {chunks : List Bytes} {s : State}
    (hm : (connection parse full).Meets (NoMsgidLast parse) {} chunks)
    (hr : (connection parse full).run {} chunks = some s) :
    Framed parse chunks.flatten s ∧ s.recvBuf = (cut newline chunks.flatten).2 := by
  refine Machine.run_induction (P := fun chunks s => Framed parse chunks.flatten s ∧
    s.recvBuf = (cut newline chunks.flatten).2) ⟨⟨List.not_mem_nil, rfl⟩, rfl⟩ ?_ hm hr
  intro chunks s data t h hok hs
  cases hs
  rw [List.flatten_append, List.flatten_singleton]
  exact framed_step h.1 h.2 hok

/-- Every call leaves the buffer without a newline and has passed on exactly
the frames of the stream, if and only if no call meets JSON without `msgid`
before its last complete piece. -/
theorem framed_iff (parse : Bytes → Option Json) (full : Nat → Bool) (chunks : List Bytes) :
    (∀ k s, (connection parse full).run {} (chunks.take k) = some s →
      Framed parse (chunks.take k).flatten s) ↔
      (connection parse full).Meets (NoMsgidLast parse) {} chunks := by
  constructor
  · intro h
    induction chunks using List.reverseRecOn with
    | nil => trivial
    | append_singleton chunks data ih =>
      rw [Machine.meets_append]
      have hm : (connection parse full).Meets (NoMsgidLast parse) {} chunks := by
        refine ih fun k s hs => ?_
        obtain hk | hk := Nat.le_total k chunks.length
        · have hh := h k s
          rw [List.take_append_of_le_length hk] at hh
          exact hh hs
        · have hh := h chunks.length s
          rw [List.take_left] at hh
          rw [List.take_of_length_le hk] at hs ⊢
          exact hh hs
      refine ⟨hm, fun s hs => ⟨fun piece hp => ?_, fun _ _ => trivial⟩⟩
      by_contra hno
      have hrun : (connection parse full).run {} (chunks ++ [data]) = some (onMessage parse full data s) := by
        rw [Machine.run_append, hs]
        rfl
      have hf := h (chunks ++ [data]).length (onMessage parse full data s)
      rw [List.take_length] at hf
      exact (hf hrun).1 (loop_stopped _ s hp (by simpa using hno))
  · intro hm k s hs
    rw [← List.take_append_drop k chunks] at hm
    exact (framed_of_meets hm.prefix hs).1

def ascii (s : String) : Bytes := s.toList.map (fun c => UInt8.ofNat c.toNat)

def parsed (piece : Bytes) : Option Json :=
  if piece = ascii "\x7b\x7d" then some (.obj [])
  else if piece = ascii "\x7b\"msgid\":3\x7d" then some (.obj [("msgid", .int 3)])
  else none

def twoFrames : Bytes := ascii "\x7b\x7d\n\x7b\"msgid\":3\x7d\n"

theorem twoFrames_unframed : ¬ ∀ parse full (chunks : List Bytes) k s,
    (connection parse full).run {} (chunks.take k) = some s → Framed parse (chunks.take k).flatten s := by
  intro h
  have hp : ascii "\x7b\x7d" ∈ (cut newline twoFrames).1.dropLast := by decide
  have hs : newline ∈ (loop parsed (fun _ => false) twoFrames {}).recvBuf := loop_stopped twoFrames {} hp (by decide)
  exact (h parsed (fun _ => false) [twoFrames] 1 _ rfl).1 hs

end BridgeIM.Server.Framing
