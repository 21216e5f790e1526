import BridgeIM.Client.Authentic
import BridgeIM.Client.Conversation
import BridgeIM.Client.FrontPage

namespace BridgeIM.Client.Signed

open Db Lib Model Model.UserModel Server Server.ChatService Server.Framing Server.Sending Server.Privacy Objects LoginData
open Requests Session Authentic FrontPage

variable {N : Type} [DecidableEq N] {E : RequestHandlers.Engines} {db : Database.Tables}
  {as : List (ThreadMove (Arrival N) Chance)} {w : Run N} {parse : Bytes → Option Json} {conn : Conn N}

/-- What a client may send: a form that stands in its input, or a request in the
name of a user whose password has been checked on its connection. An answer to a
group request names nobody. -/
inductive Authored (E : RequestHandlers.Engines) (db : Database.Tables) (as : List (ThreadMove (Arrival N) Chance))
    (conn : Conn N) (input : List Char) : String → Prop
  | form {m : Menu} (hm : m.input <:+ input) {k : FrontPage.Kind} {name pwd : String} (hf : Form m k name pwd) :
      Authored E db as conn input ((k.request name pwd).dump ++ "\n")
  | command {u : Int} {js : Json} (hv : Verified E db as conn u)
      (hs : sender js = some (Json.wrap u) ∨ msgid js = some EnMsgType.addGroupHandle.code) :
      Authored E db as conn input (js.dump ++ "\n")

variable {s : Terminal}

theorem verified_of_place (hr : (service E).run (fresh db) as = some w)
    (hp : ∀ js, Dumped as js → parse (utf8 js.dump) = some js) {input : List Char} {cs : List Act}
    (hc : ∀ message, Act.message message ∈ cs → ∃ text, (conn, text ++ "\n") ∈ w.state.sent ∧ message = utf8 text)
    (hs : (program parse).run (start input) cs = some s) (hm : s.place = some .mainMenu) :
    ∃ u, Verified E db as conn u ∧ s.client.currentUser.id = Json.wrap u := by
  obtain ⟨bs, p, hb, hf, hg⟩ := session_of_run hs
  have hmem : ∀ message, Move.message message ∈ bs →
      ∃ text, (conn, text ++ "\n") ∈ w.state.sent ∧ message = utf8 text := by
    intro message hmb
    have hgiven : message ∈ bs.filterMap given := List.mem_filterMap.mpr ⟨_, hmb, rfl⟩
    rw [hg (by rw [hm]; exact Option.some_ne_none _)] at hgiven
    obtain ⟨c, hca, ht⟩ := List.mem_filterMap.mp hgiven
    cases c with
    | message m =>
      cases ht
      exact hc _ hca
    | main currentTime sent => cases ht
    | closed => cases ht
  rw [← hf.client]
  exact verified_of_menu hr hp hmem hb (place_of_follows hf hm nofun)

/-- Whatever is typed, and whatever arrives at the nodes: the requests that a
client sends are the forms of its front page, and requests in the name of a user
whose password has been checked on its own connection. -/
theorem program_authentic (E : RequestHandlers.Engines) (db : Database.Tables)
    (as : List (ThreadMove (Arrival N) Chance)) (w : Run N) (hr : (service E).run (fresh db) as = some w)
    (parse : Bytes → Option Json) (hp : ∀ js, Dumped as js → parse (utf8 js.dump) = some js) (conn : Conn N)
    (input : List Char) (cs : List Act)
    (hc : ∀ message, Act.message message ∈ cs → ∃ text, (conn, text ++ "\n") ∈ w.state.sent ∧ message = utf8 text)
    (s : Terminal) (hs : (program parse).run (start input) cs = some s) :
    (∀ text ∈ s.menu.sends, Authored E db as conn input text) ∧
      (s.place = some .mainMenu → ∃ u, Verified E db as conn u ∧ s.client.currentUser.id = Json.wrap u) := by
  refine ⟨?_, verified_of_place hr hp hc hs⟩
  refine Machine.reached_induction (P := fun cs s => (∀ message, Act.message message ∈ cs →
    ∃ text, (conn, text ++ "\n") ∈ w.state.sent ∧ message = utf8 text) →
      ∀ text ∈ s.menu.sends, Authored E db as conn input text)
    (fun _ _ ht => absurd ht List.not_mem_nil) ?_ hs hc
  intro cs s a t hrun ih hstep hc text ht
  have hcs : ∀ message, Act.message message ∈ cs → ∃ text, (conn, text ++ "\n") ∈ w.state.sent ∧ message = utf8 text :=
    fun m hm => hc m (List.mem_append_left _ hm)
  obtain he | ⟨k, name, pwd, hform, he⟩ | ⟨hm, currentTime, line, js, hj, he⟩ := sends_step hstep
  · exact ih hcs text (he ▸ ht)
  · rw [he, List.mem_append, List.mem_singleton] at ht
    obtain ht | rfl := ht
    · exact ih hcs text ht
    · exact .form (suffix_run hrun) hform
  · rw [he, List.mem_append, List.mem_singleton] at ht
    obtain ht | rfl := ht
    · exact ih hcs text ht
    · obtain ⟨u, hu, hid⟩ := verified_of_place hr hp hcs hrun hm
      exact .command hu (hid ▸ sender_mainMenu (hid ▸ isInt_wrap u) hj)

open Conversation (helloAcross friendsOfBob shipped_helloAcross)

def aliceAck : String := "\x7b\"errmsg\":\"登陆成功！\\n\",\"errno\":0,\"id\":1,\"msgid\":2,\"name\":\"alice\"\x7d"

def typed : List Char := "1\nalice\na\nchat:2:hi\n".toList

/-- What happens meanwhile: bob, whose node is not hers, writes to her. -/
def aliceVisit : List Act :=
  [.main "" true, .message (utf8 aliceAck), .main "" true, .message (utf8 OfflineReplay.hello.dump), .main "12:00" true]

theorem program_authentic_across : ∃ w s, (service engines).run (fresh friendsOfBob) helloAcross = some w ∧
    (program parseFlat).run (start typed) aliceVisit = some s ∧ s.menu.sends.length = 2 ∧
      (∀ text ∈ s.menu.sends, Authored engines friendsOfBob helloAcross ⟨true, 0⟩ typed text) ∧
      ∃ u, Verified engines friendsOfBob helloAcross ⟨true, 0⟩ u ∧ s.client.currentUser.id = Json.wrap u := by
  have h : ((service engines).run (fresh friendsOfBob) helloAcross).map (fun w => w.state.sent) =
      some [(⟨true, 0⟩, aliceAck ++ "\n"), (⟨true, 0⟩, OfflineReplay.hello.dump ++ "\n")] := by decide +kernel
  have hclient : ((program parseFlat).run (start typed) aliceVisit).map (fun s => (s.place, s.menu.sends.length)) =
      some (some .mainMenu, 2) := by decide +kernel
  obtain ⟨w, hw, hsent⟩ := Option.map_eq_some_iff.mp h
  obtain ⟨s, hs, hm⟩ := Option.map_eq_some_iff.mp hclient
  obtain ⟨hplace, hlen⟩ := Prod.mk.inj hm
  have hc : ∀ message, Act.message message ∈ aliceVisit →
      ∃ text, ((⟨true, 0⟩ : Conn Bool), text ++ "\n") ∈ w.state.sent ∧ message = utf8 text := by
    intro message hmem
    simp only [aliceVisit, List.mem_cons, List.not_mem_nil, or_false, reduceCtorEq, false_or, Act.message.injEq] at hmem
    obtain rfl | rfl := hmem
    · exact ⟨aliceAck, hsent ▸ List.mem_cons_self, rfl⟩
    · exact ⟨OfflineReplay.hello.dump, hsent ▸ List.mem_cons_of_mem _ List.mem_cons_self, rfl⟩
  obtain ⟨hsends, hmenu⟩ := program_authentic engines friendsOfBob helloAcross w hw parseFlat
    (fun js hj => readsBack_parseFlat js (flat_dumped shipped_helloAcross hj)) ⟨true, 0⟩ typed aliceVisit hc s hs
  exact ⟨w, s, hw, hs, hlen, hsends, hmenu hplace⟩

end BridgeIM.Client.Signed
