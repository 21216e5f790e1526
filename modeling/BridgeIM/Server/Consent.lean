import BridgeIM.Server.Groups
import BridgeIM.Server.Run
import BridgeIM.Server.Sending

namespace BridgeIM.Server.Consent

open Db Lib Model Model.UserModel Model.Requests Model.Database Services RequestHandlers ChatService Sending

variable {N : Type}

/-- Friends and normal members are inserted for accepting frames only, each for a
request and on a connection that satisfy `P`. -/
def Consented (P : Conn N → Kind → Int × Int → Prop) (q : Arrival N) : ServiceCall N → Prop
  | .friend (.insertFriend a b) => ∃ conn js, q = .frame conn js ∧ Befriends (P conn) js a b
  | .group (.addGroup u g role) =>
    role = "normal" → ∃ conn js, q = .frame conn js ∧ Enters (P conn) js u g role
  | _ => True

theorem consented_of_emitted {stored : String → Prop} {asked : Kind → Int × Int → Prop} {q : Arrival N}
    {op : ServiceCall N} (h : Emitted stored asked q op) : Consented (fun _ => asked) q op := by
  cases op with
  | friend c =>
    cases c with
    | insertFriend a b => exact h
    | _ => trivial
  | group c =>
    cases c with
    | addGroup u g role => exact fun _ => h
    | _ => trivial
  | _ => trivial

variable [DecidableEq N] {same : String → String → Bool} {E : Engines} {db : Database.Tables}

def Pending (c : Kind) (k : Int × Int) (s : Run N) : Prop := (s.state.db.requests c).status k = some (some .pending)

def Asked (E : Engines) (db : Database.Tables) (as : List (ThreadMove (Arrival N) Chance)) (c : Kind) (k : Int × Int) :
    Prop :=
  (service E).Once (Pending c k) (fresh db) as

theorem told_exec (hE : E.Rules same) {asked : Kind → Int × Int → Prop} {s : Run N}
    (h : ∀ c k, Pending c k s → asked c k) (op : ServiceCall N) (o : Chance) :
    Told asked op (op.exec E o s.state).1 := by
  cases op with
  | friend c =>
    cases c with
    | isPendingRequest u f =>
      intro hok
      change ((FriendCall.isPendingRequest u f).exec E.db o.toOutcome s.state.db).1.status = .ok at hok
      rw [exec_isPendingRequest hE.db] at hok
      refine h .friend (u, f) ?_
      by_contra hn
      have hn' : ¬ (s.state.db.requests .friend).status (u, f) = some (some .pending) := hn
      rw [decide_eq_false hn'] at hok
      split at hok <;> cases hok
    | _ => trivial
  | group c =>
    cases c with
    | isPendingRequest u g =>
      intro hp
      change ((GroupCall.isPendingRequest u g).exec E.db o.toOutcome s.state.db).1 = true at hp
      rw [exec_isPendingGroup hE.db, Bool.and_eq_true] at hp
      have hpending : (s.state.db.requests .group).status (u, g) = some (some .pending) := of_decide_eq_true hp.2
      exact h .group (u, g) hpending
    | _ => trivial
  | _ => trivial

/-- A thread keeps to the requests that have been pending, as their set grows. -/
def Stage (asked : Kind → Int × Int → Prop) (q : Arrival N) (p : Service N) : Prop :=
  ∀ asked', (∀ c k, asked c k → asked' c k) → Emits (fun _ => True) asked' q p

theorem stage_run (hE : E.Rules same) {as : List (ThreadMove (Arrival N) Chance)} {s : Run N}
    (hr : (service E).run (fresh db) as = some s) :
    List.Forall₂ (Stage (Asked E db as)) (started as) s.threads := by
  refine Machine.reached_induction (P := fun as s => List.Forall₂ (Stage (Asked E db as)) (started as) s.threads) .nil ?_ hr
  intro as s a s' hr h hs
  refine Threads.forall₂_step h hs (fun q _ _ => program_emits q) (fun q p hp asked' hle => ?_) ?_
  · exact hp asked' fun c k hk => hle c k (Machine.Once.append hk [a])
  · intro q i o op next _ _ hq asked' hle
    have hask : ∀ c k, Asked E db as c k → asked' c k := fun c k hk => hle c k (Machine.Once.append hk [a])
    refine (hq asked' hask).2 _ ⟨fun _ _ => trivial, ints_exec E op o s.state, told_exec hE (fun c k hk => ?_) op o⟩
    exact hask c k (Machine.once_of_run hr hk)

theorem consent_asked (hE : E.Rules same) {as : List (ThreadMove (Arrival N) Chance)} {s : Run N}
    (hr : (service E).run (fresh db) as = some s) {i : Nat} {q : Arrival N} {op : ServiceCall N}
    (hq : (started as)[i]? = some q) (hc : s.nextCall i = some op) : Consented (fun _ => Asked E db as) q op := by
  obtain ⟨next, hp⟩ := Threads.nextCall_eq_some hc
  exact consented_of_emitted ((Threads.stage_of_forall₂ (stage_run hE hr) hq hp) _ fun _ _ => id).1

open Server.Sample

def alice : Conn Unit := ⟨(), 0⟩

/-- The connection is the one of the user who must approve the request. -/
def Approver (s : Run Unit) (conn : Conn Unit) (c : Kind) (k : Int × Int) : Prop :=
  match c with
  | .friend => (s.state.node conn.node).userConnMap.lookup k.2 = some conn
  | .group => ∃ u, ⟨k.2, u, some "creator"⟩ ∈ s.state.db.group.members ∧
    (s.state.node conn.node).userConnMap.lookup u = some conn

def asked : Database.Tables where
  users := accounts
  requests := Function.update (fun _ => ∅) .friend ((∅ : Requests.Table).insert (1, 2) ⟨some .pending, none⟩)

def acceptFrame (userid friendid : Int) : Json :=
  .obj [("action", .str "accept"), ("friendid", .int friendid), ("msgid", .int 9), ("userid", .int userid)]

def engines : Engines := .strict fun a b => a = b

/-- User 1 logs in and accepts his own request. -/
def selfMade : List (ThreadMove (Arrival Unit) Chance) :=
  .start (.frame alice (loginFrame "alice" "a")) :: List.replicate 3 (.step 0 {}) ++
    .start (.frame alice (acceptFrame 1 2)) :: List.replicate 2 (.step 1 {})

theorem run_selfMade : ∃ s, (service engines).run (fresh asked) selfMade = some s ∧
    s.nextCall 1 = some (.friend (.insertFriend 1 2)) ∧ (s.state.node ()).userConnMap.lookup 1 = some alice ∧
    (s.state.node ()).userConnMap.lookup 2 = none := by
  have h : ((service engines).run (fresh asked) selfMade).map (fun s => (s.nextCall 1,
      (s.state.node ()).userConnMap.lookup 1, (s.state.node ()).userConnMap.lookup 2)) =
      some (some (.friend (.insertFriend 1 2)), some alice, none) := by
    decide +kernel
  obtain ⟨s, hs, h⟩ := Option.map_eq_some_iff.mp h
  obtain ⟨h₁, h₂⟩ := Prod.mk.inj h
  exact ⟨s, hs, h₁, congrArg Prod.fst h₂, congrArg Prod.snd h₂⟩

theorem consent_asked_selfMade : ∃ s, (service engines).run (fresh asked) selfMade = some s ∧
    s.nextCall 1 = some (.friend (.insertFriend 1 2)) ∧
    Consented (fun _ => Asked engines asked selfMade) (.frame alice (acceptFrame 1 2)) (.friend (.insertFriend 1 2)) := by
  obtain ⟨s, hs, hc, -⟩ := run_selfMade
  exact ⟨s, hs, hc, consent_asked (Engines.strict_rules _) hs rfl hc⟩

theorem approved_by_requester : ¬ ∀ (same : String → String → Bool) (E : Engines), E.Rules same →
    ∀ (db : Database.Tables) (as : List (ThreadMove (Arrival Unit) Chance)) (s : Run Unit),
    (service E).run (fresh db) as = some s → ∀ (i : Nat) (q : Arrival Unit) (op : ServiceCall Unit),
    (started as)[i]? = some q → s.nextCall i = some op → Consented (Approver s) q op := by
  intro h
  obtain ⟨s, hs, hc, -, hm⟩ := run_selfMade
  obtain ⟨conn, js, he, hb⟩ := h _ engines (Engines.strict_rules _) asked selfMade s hs 1 _ _ rfl hc
  cases he
  obtain ⟨u, f, -, hf, happ, -⟩ := hb.users
  cases hf
  have hl : (s.state.node ()).userConnMap.lookup 2 = some alice := happ
  rw [hm] at hl
  cases hl

end BridgeIM.Server.Consent
