import BridgeIM.Client.Responses
import BridgeIM.Server.ChatService

namespace BridgeIM.Client.ReadTask

open Lib Lib.Lines Server Server.Framing

/-- The receiving thread: `recvbuf`, the messages handed to the JSON parser and
the globals that it writes. -/
structure Reader where
  recvbuf : Bytes := []
  handed : List Bytes := []
  client : ChatClient := {}

section Read

variable (parse : Bytes → Option Json)

def handle (message : Bytes) (s : Reader) : Option Reader :=
  (Client.onMessage parse message s.client).map fun client =>
    { s with handed := if message = [] then s.handed else s.handed ++ [message], client := client }

/-- The inner loop of `readTaskHandler`; the result is `none` when an exception
leaves it. -/
def loop (buf : Bytes) (s : Reader) : Option Reader :=
  match h : buf.findIdx? (· = newline) with
  | none => some { s with recvbuf := buf }
  | some pos => (handle parse (buf.take pos) s).bind fun t => loop (buf.drop (pos + 1)) t
termination_by buf.length
decreasing_by
  have hlt := (List.findIdx?_eq_some_iff_getElem.mp h).1
  rw [List.length_drop]
  omega

/-- The thread takes the blocks that `recv` returns. -/
def readTaskHandler : Machine Reader Bytes where
  step s block := if 1 ≤ block.length ∧ block.length ≤ 1024 then loop parse (s.recvbuf ++ block) s else none

def Handled (message : Bytes) : Prop := ∀ s, (Client.onMessage parse message s).isSome

end Read

/-- What the server writes to a connection: a payload, a response, or the
answer to a request that the pool has refused. -/
inductive Sending
  | sendPayload (payload : Bytes)
  | sendJson (response : Json)
  | serverBusy

def Sending.text : Sending → Bytes
  | sendPayload payload => payload
  | sendJson response => utf8 response.dump
  | serverBusy => utf8 Framing.serverBusy.dump

def stream (sends : List Sending) : Bytes := (sends.map Sending.text).flatMap (· ++ [newline])

variable {parse : Bytes → Option Json}

section Written

variable {N : Type} [DecidableEq N] {E : RequestHandlers.Engines} {os : Nat → ChatService.Chance}
  {w : ChatService.System N} {conn : Conn N}

def written (conn : Conn N) (w : ChatService.System N) : Bytes :=
  (w.sent.filter fun f => f.1 = conn).flatMap fun f => utf8 f.2

/-- Sending a payload appends its part of the stream. -/
theorem written_sendPayload (payload : String) :
    written conn ((ChatService.sendPayload conn payload).run (ChatService.ServiceCall.exec E) os w).2 =
      written conn w ++ stream [.sendPayload (utf8 payload)] := by
  have hs : ((ChatService.sendPayload conn payload).run (ChatService.ServiceCall.exec E) os w).2.sent =
      w.sent ++ [(conn, payload ++ "\n")] := rfl
  have hu : utf8 (payload ++ "\n") = utf8 payload ++ [newline] := by
    rw [utf8, String.toList_append, List.flatMap_append]
    rfl
  rw [written, hs, List.filter_append, List.flatMap_append, written]
  simp [hu, stream, Sending.text]

end Written

theorem newline_not_mem_utf8EncodeChar {c : Char} (h : c ≠ '\n') : newline ∉ String.utf8EncodeChar c := by
  have hv : c.val.toNat ≠ 10 := fun he => h (Char.ext (UInt32.toNat_inj.mp he))
  have hn : ∀ n : Nat, newline = UInt8.ofNat n → n % 256 = 10 := fun n hn => by
    have ht := congrArg UInt8.toNat hn
    rw [UInt8.toNat_ofNat'] at ht
    exact ht.symm
  intro hm
  unfold String.utf8EncodeChar at hm
  dsimp only at hm
  split at hm
  · have := hn _ (List.mem_singleton.mp hm)
    omega
  split at hm
  · simp only [List.mem_cons, List.not_mem_nil, or_false] at hm
    obtain hm | hm := hm <;> have := hn _ hm <;> omega
  split at hm
  · simp only [List.mem_cons, List.not_mem_nil, or_false] at hm
    obtain hm | hm | hm := hm <;> have := hn _ hm <;> omega
  · simp only [List.mem_cons, List.not_mem_nil, or_false] at hm
    obtain hm | hm | hm | hm := hm <;> have := hn _ hm <;> omega

theorem newline_not_mem_dump (j : Json) : newline ∉ utf8 j.dump := by
  intro hm
  obtain ⟨c, hc, hn⟩ := List.mem_flatMap.mp hm
  have hp := (Json.clean_dump j).printable c hc
  exact newline_not_mem_utf8EncodeChar (by rintro rfl; exact absurd hp (by decide)) hn

theorem loop_piece {p : Bytes} (hp : newline ∉ p) (t : Bytes) (s : Reader) :
    loop parse (p ++ newline :: t) s = (handle parse p s).bind (loop parse t) := by
  have hdrop : (p ++ newline :: t).drop (p.length + 1) = t := by simp
  rw [loop]
  split
  · rename_i hs
    rw [findIdx?_piece hp] at hs
    cases hs
  · rename_i pos hs
    rw [findIdx?_piece hp] at hs
    cases hs
    rw [List.take_left, hdrop]

theorem loop_rest {buf : Bytes} (h : newline ∉ buf) (s : Reader) : loop parse buf s = some { s with recvbuf := buf } := by
  have hf : buf.findIdx? (· = newline) = none :=
    List.findIdx?_eq_none_iff.mpr fun c hc => decide_eq_false fun he => h (he ▸ hc)
  rw [loop]
  split
  · rfl
  · rename_i hs
    rw [hf] at hs
    cases hs

theorem loop_handed (buf : Bytes) (s : Reader) (h : ∀ piece ∈ (cut newline buf).1, Handled parse piece) :
    ∃ t, loop parse buf s = some t ∧ t.recvbuf = (cut newline buf).2 ∧
      t.handed = s.handed ++ (cut newline buf).1.filter (· ≠ []) := by
  induction buf using cut_induction (d := newline) generalizing s with
  | hrest buf hbuf =>
    rw [loop_rest hbuf, cut_of_not_mem hbuf]
    exact ⟨_, rfl, rfl, (List.append_nil _).symm⟩
  | hpiece p t hp ih =>
    rw [cut_append_cons hp] at h ⊢
    rw [loop_piece hp]
    obtain ⟨client, hc⟩ := Option.isSome_iff_exists.mp (h p List.mem_cons_self s.client)
    rw [handle, hc, Option.map_some, Option.bind_some]
    obtain ⟨u, hu, hr, hh⟩ := ih { s with
      handed := if p = [] then s.handed else s.handed ++ [p], client := client }
      fun piece hm => h piece (List.mem_cons_of_mem p hm)
    refine ⟨u, hu, hr, hh.trans ?_⟩
    by_cases hnil : p = []
    · simp [hnil]
    · simp [hnil]

/-- What the thread holds when it waits for the next block. -/
structure Read (got : Bytes) (s : Reader) : Prop where
  recvbuf : s.recvbuf = (cut newline got).2
  handed : s.handed = (cut newline got).1.filter (· ≠ [])

theorem step_block {block : Bytes} (hb : 1 ≤ block.length ∧ block.length ≤ 1024) (s : Reader) :
    (readTaskHandler parse).step s block = loop parse (s.recvbuf ++ block) s := by
  simp only [readTaskHandler, if_pos hb]

theorem read_step {got block : Bytes} {s : Reader} (h : Read got s) (hb : 1 ≤ block.length ∧ block.length ≤ 1024)
    (hh : ∀ piece ∈ (cut newline (got ++ block)).1, Handled parse piece) :
    ∃ t, (readTaskHandler parse).step s block = some t ∧ Read (got ++ block) t := by
  have hcut := cut_append (d := newline) got block
  rw [← h.recvbuf] at hcut
  rw [hcut] at hh
  obtain ⟨t, ht, hr, hd⟩ := loop_handed (s.recvbuf ++ block) s
    fun piece hm => hh piece (List.mem_append_right _ hm)
  refine ⟨t, (step_block hb s).trans ht, ?_, ?_⟩
  · rw [hcut, hr]
  · rw [hcut, hd, h.handed, List.filter_append]

theorem read_run {blocks : List Bytes} (hb : ∀ block ∈ blocks, 1 ≤ block.length ∧ block.length ≤ 1024) {got : Bytes}
    {s : Reader} (h : Read got s) (hh : ∀ piece ∈ (cut newline (got ++ blocks.flatten)).1, Handled parse piece) :
    ∃ t, (readTaskHandler parse).run s blocks = some t ∧ Read (got ++ blocks.flatten) t := by
  induction blocks generalizing got s with
  | nil => exact ⟨s, rfl, by rwa [List.flatten_nil, List.append_nil]⟩
  | cons block blocks ih =>
    rw [List.flatten_cons, ← List.append_assoc] at hh ⊢
    obtain ⟨u, hu, hr⟩ := read_step h (hb block List.mem_cons_self) fun piece hm => hh piece (by
      rw [cut_append]
      exact List.mem_append_left _ hm)
    obtain ⟨t, ht, hrt⟩ := ih (fun block hm => hb block (List.mem_cons_of_mem _ hm)) hr hh
    exact ⟨t, Machine.run_cons_eq_some.mpr ⟨u, hu, ht⟩, hrt⟩

/-- The pieces of what has arrived are the first of the lines that are sent. -/
theorem read_stream {ps : List Bytes} (hn : ∀ p ∈ ps, newline ∉ p) (hh : ∀ p ∈ ps, Handled parse p) {blocks : List Bytes}
    (hb : ∀ block ∈ blocks, 1 ≤ block.length ∧ block.length ≤ 1024) (hs : blocks.flatten <+: ps.flatMap (· ++ [newline]))
    {s : Reader} (h : Read [] s) : (cut newline blocks.flatten).1 = ps.take (blocks.flatten.count newline) ∧
      ∃ t, (readTaskHandler parse).run s blocks = some t ∧ Read blocks.flatten t := by
  have hcut : (cut newline blocks.flatten).1 = ps.take (blocks.flatten.count newline) := by
    have hw := cut_flatMap hn ([] : Bytes)
    rw [List.append_nil, show cut newline ([] : Bytes) = ([], []) from rfl, List.append_nil] at hw
    rw [cut_take hs, hw]
  refine ⟨hcut, ?_⟩
  have hp : ∀ piece ∈ (cut newline ([] ++ blocks.flatten)).1, Handled parse piece := by
    intro piece hm
    rw [List.nil_append, hcut] at hm
    exact hh piece (List.mem_of_mem_take hm)
  obtain ⟨t, ht, hr⟩ := read_run hb h hp
  exact ⟨t, ht, by rwa [List.nil_append] at hr⟩

/-- The thread has handed on the non-empty payloads whose newline has arrived,
and `recvbuf` is what has arrived after the last newline. -/
structure Received (payloads : List Bytes) (got : Bytes) (s : Reader) : Prop where
  handed : s.handed = (payloads.take (got.count newline)).filter (· ≠ [])
  recvbuf : (payloads.take (got.count newline)).flatMap (· ++ [newline]) ++ s.recvbuf = got
  unterminated : newline ∉ s.recvbuf

theorem newline_not_mem_text {sends : List Sending} (hn : ∀ payload, .sendPayload payload ∈ sends → newline ∉ payload) :
    ∀ p ∈ sends.map Sending.text, newline ∉ p := by
  intro p hp
  obtain ⟨m, hm, rfl⟩ := List.mem_map.mp hp
  cases m with
  | sendPayload payload => exact hn payload hm
  | sendJson response => exact newline_not_mem_dump response
  | serverBusy => exact newline_not_mem_dump Framing.serverBusy

/-- However `recv` cuts what the server writes to a connection, the client
hands on the payloads as they arrive. -/
theorem payloads_received (parse : Bytes → Option Json) (sends : List Sending)
    (hn : ∀ payload, .sendPayload payload ∈ sends → newline ∉ payload) (hh : ∀ m ∈ sends, Handled parse m.text)
    (blocks : List Bytes) (hb : ∀ block ∈ blocks, 1 ≤ block.length ∧ block.length ≤ 1024)
    (hs : blocks.flatten <+: stream sends) :
    ∃ s, (readTaskHandler parse).run {} blocks = some s ∧ Received (sends.map Sending.text) blocks.flatten s := by
  have hp : ∀ p ∈ sends.map Sending.text, Handled parse p := by
    intro p hp
    obtain ⟨m, hm, rfl⟩ := List.mem_map.mp hp
    exact hh m hm
  have hstart : Read [] {} := ⟨rfl, rfl⟩
  obtain ⟨hcut, s, hr, hread⟩ := read_stream (newline_not_mem_text hn) hp hb hs hstart
  refine ⟨s, hr, ?_, ?_, ?_⟩
  · rw [hread.handed, hcut]
  · rw [hread.recvbuf, ← hcut]
    exact flatMap_cut _
  · rw [hread.recvbuf]
    exact not_mem_rest _

def quiet : Bytes := ascii "\x7b\"msgid\":3\x7d"

theorem handled_quiet : Handled parsed quiet := fun _ => rfl

theorem handled_nil : Handled parsed [] := fun _ => rfl

theorem payloads_received_halves : ∃ s,
    (readTaskHandler parsed).run {} [quiet.take 5, quiet.drop 5 ++ 10 :: 10 :: quiet] = some s ∧ s.handed = [quiet] ∧ s.recvbuf = quiet := by
  obtain ⟨s, hr, hs⟩ := payloads_received parsed [.sendPayload quiet, .sendPayload [], .sendPayload quiet]
    (by
      intro payload hp
      simp only [List.mem_cons, Sending.sendPayload.injEq, List.not_mem_nil, or_false] at hp
      obtain rfl | rfl | rfl := hp <;> decide)
    (by
      intro m hm
      simp only [List.mem_cons, List.not_mem_nil, or_false] at hm
      obtain rfl | rfl | rfl := hm
      · exact handled_quiet
      · exact handled_nil
      · exact handled_quiet)
    [quiet.take 5, quiet.drop 5 ++ 10 :: 10 :: quiet] (by decide) (by decide)
  refine ⟨s, hr, hs.handed.trans (by decide), ?_⟩
  have h := hs.recvbuf
  exact List.append_cancel_left (h.trans (by decide : _ = (quiet ++ [10] ++ [10]) ++ quiet))

end BridgeIM.Client.ReadTask
