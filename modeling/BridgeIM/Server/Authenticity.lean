import BridgeIM.Server.Run
import BridgeIM.Server.Sending

namespace BridgeIM.Server.Authenticity

open Db Lib Model Model.UserModel Model.Requests Services RequestHandlers ChatService Sending

variable {N : Type} {stored : String → Prop} {asked : Kind → Int × Int → Prop} {conn : Conn N} {js : Json}

/-- A message whose sender, if it names one, satisfies `P`. -/
def Signed (P : Int → Prop) (payload : String) : Prop :=
  ∃ message : Json, payload = message.dump ∧ ∀ u, userid message = some u → P u

/-- A call that speaks, creates a group or logs out only for users who satisfy `P`. -/
def InNameOf (P : Int → Prop) : ServiceCall N → Prop
  | .publish _ payload | .offline (.insert _ payload) => Signed P payload
  | .send _ text => ∃ payload, text = payload ++ "\n" ∧ Signed P payload
  | .group (.addGroup u _ role) => role = "creator" → P u
  | .atNode _ (.eraseConn u) | .atNode _ (.unsubscribe u) | .updateState u .offline => P u
  | _ => True

theorem signed_of_none {P : Int → Prop} {message : Json} (h : userid message = none) : Signed P message.dump := by
  refine ⟨message, rfl, fun u hu => ?_⟩
  rw [h] at hu
  cases hu

theorem userid_set {key : String} (hk : key ≠ "userid") (j v : Json) : userid (j.set key v) = userid j := by
  rw [userid, Json.get?_set_ne hk, userid]

theorem userid_reply (t : EnMsgType) (errno : Int) (errmsg : String) :
    userid (RequestHandlers.reply t errno errmsg) = none := by
  simp [userid, RequestHandlers.reply, Json.get?_mkObj]

theorem userid_loginAck (l : Login N) : userid (loginAck l) = none := by
  have hset {c : Prop} [Decidable c] (key : String) (hk : key ≠ "userid") (j v : Json) :
      userid (if c then j else j.set key v) = userid j := by
    split
    · rfl
    · exact userid_set hk j v
  unfold loginAck
  dsimp only
  rw [hset "groups" (by decide), hset "friends" (by decide), hset "offlinemsg" (by decide)]
  simp [userid, Json.get?_mkObj]

theorem userid_of_reply {id : Int} {response : Json} (h : Reply N stored id response) : userid response = none := by
  cases h with
  | loginAck l => exact userid_loginAck l
  | regAck id => cases id <;> simp [userid, regAck, Json.get?_mkObj]
  | loginError => simp [userid, loginError, Json.get?_mkObj]
  | notFriends => simp [userid, notFriends, Json.get?_mkObj]
  | reply => exact userid_reply _ _ _

theorem signed_of_forwarded {payload : String} (h : Forwarded js payload) :
    Signed (fun u => userid js = some u) payload := by
  cases h with
  | request ht hm => exact ⟨js, rfl, fun u hu => hu⟩
  | groupChat hm groupname =>
    refine ⟨_, rfl, fun u hu => ?_⟩
    rwa [userid_set (by decide)] at hu
  | _ => exact signed_of_none (userid_reply _ _ _)

theorem inNameOf_of_emitted {op : ServiceCall N} (h : Emitted stored asked (.frame conn js) op) :
    InNameOf (fun u => userid js = some u) op := by
  have hpass {payload : String} (h : Passes stored (.frame conn js) payload) :
      Signed (fun u => userid js = some u) payload := by
    cases h with
    | forwarded h => exact signed_of_forwarded h
  cases op with
  | send c text =>
    obtain ⟨payload, rfl, hs⟩ := h
    refine ⟨payload, rfl, ?_⟩
    cases hs with
    | reply hm hr => exact signed_of_none (userid_of_reply hr)
    | forwarded _ hf => exact signed_of_forwarded hf
  | publish channel message => exact hpass h
  | offline c =>
    cases c with
    | insert u msg => exact hpass h
    | _ => trivial
  | group c =>
    cases c with
    | addGroup u g role =>
      obtain ⟨conn', js', he, hen⟩ := h
      cases he
      intro hr
      cases hen with
      | creator hm hu => exact hu
      | normal => exact absurd hr (by decide)
    | _ => trivial
  | atNode n c =>
    cases c with
    | eraseConn u =>
      obtain ⟨conn', js', he, -, hu⟩ := h
      cases he
      exact hu
    | unsubscribe u => exact h conn js rfl
    | _ => trivial
  | updateState u state =>
    cases state with
    | offline => exact h conn js rfl
    | online => trivial
  | _ => trivial

variable [DecidableEq N] {E : Engines} {db : Database.Tables} {as : List (ThreadMove (Arrival N) Chance)} {s : Run N}

theorem sender_claimed (hr : (service E).run (fresh db) as = some s) {i : Nat} {op : ServiceCall N}
    (hq : (started as)[i]? = some (.frame conn js)) (hc : s.nextCall i = some op) :
    InNameOf (fun u => userid js = some u) op := by
  obtain ⟨next, hp⟩ := Threads.nextCall_eq_some hc
  exact inNameOf_of_emitted (Threads.stage_of_forall₂ (emits_run hr) hq hp).1

open Server.Sample

def engines : Engines := .strict fun a b => a = b

def alice : Conn Unit := ⟨(), 0⟩

def stranger : Conn Unit := ⟨(), 1⟩

/-- User 1 logs in, and a frame of another connection logs him out. -/
def visit : List (ThreadMove (Arrival Unit) Chance) :=
  .start (.frame alice (loginFrame "alice" "a")) :: List.replicate 3 (.step 0 {}) ++
    [.start (.frame stranger (loginoutFrame 1))]

theorem run_visit : ∃ s, (service engines).run (fresh { users := accounts }) visit = some s ∧
    s.nextCall 1 = some (.atNode () (.eraseConn 1)) ∧ (s.state.node ()).userConnMap.lookup 1 = some alice := by
  have h : ((service engines).run (fresh { users := accounts }) visit).map
      (fun s => (s.nextCall 1, (s.state.node ()).userConnMap.lookup 1)) =
      some (some (.atNode () (.eraseConn 1)), some alice) := by
    decide +kernel
  obtain ⟨s, hs, h⟩ := Option.map_eq_some_iff.mp h
  exact ⟨s, hs, congrArg Prod.fst h, congrArg Prod.snd h⟩

theorem sender_claimed_visit : ∃ s, (service engines).run (fresh { users := accounts }) visit = some s ∧
    s.nextCall 1 = some (.atNode () (.eraseConn 1)) ∧
    InNameOf (fun u => userid (loginoutFrame 1) = some u) (.atNode () (.eraseConn 1) : ServiceCall Unit) := by
  obtain ⟨s, hs, hc, -⟩ := run_visit
  have hq : (started visit)[1]? = some (.frame stranger (loginoutFrame 1)) := rfl
  exact ⟨s, hs, hc, sender_claimed hs hq hc⟩

theorem logout_forged : ¬ ∀ (E : Engines) (db : Database.Tables) (as : List (ThreadMove (Arrival Unit) Chance))
    (s : Run Unit), (service E).run (fresh db) as = some s → ∀ (i : Nat) (conn : Conn Unit) (js : Json)
    (op : ServiceCall Unit), (started as)[i]? = some (.frame conn js) → s.nextCall i = some op →
    InNameOf (fun u => (s.state.node conn.node).userConnMap.lookup u = some conn) op := by
  intro h
  obtain ⟨s, hs, hc, hm⟩ := run_visit
  have hl : (s.state.node ()).userConnMap.lookup 1 = some stranger :=
    h engines _ _ s hs 1 stranger (loginoutFrame 1) _ rfl hc
  rw [hm] at hl
  exact absurd hl (by decide)

end BridgeIM.Server.Authenticity
