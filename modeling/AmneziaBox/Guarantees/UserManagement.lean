import AmneziaBox.Source.SSMAPI.UserManager

/-!
# Managed users and served users

A call of the user manager changes its map and then asks the server to take the new list. If the
server refuses, the call returns its error and the map stays changed: what the manager reports is
no longer what the server serves, and the refused entry is part of every later list. A run is
atomic exactly if no list that a call has changed is refused.
-/
namespace AmneziaBox.Guarantees.UserManagement
open Library Source.SSMAPI UserManager

variable {σ κ ε : Type} (server : Server σ κ ε)

/-- The users that `List` and `Get` report are those the server serves. -/
def Agrees (m : UserManager σ) : Prop :=
  ∀ name, (m.get name).map server.credential = server.serves m.server name

/-- After the call the manager and the server agree; if it returns an error, both are as before. -/
def AtomicCall (m : UserManager σ) (event : Call × List UserEntry) : Prop :=
  ∀ after, step server m event = some after → Agrees server after ∧
    ((m.call server event.1 event.2).1.isSome → after.list = m.list ∧ after.server = m.server)

/-- The server refuses no list that the call has changed. -/
def Accepted (m : UserManager σ) (event : Call × List UserEntry) : Prop :=
  ∀ users ∈ event.1.changed m.usersMap, users ≠ m.usersMap → Lists event.2 users →
    ∃ served, server.updateUsers event.2 m.server = .ok served

instance (m : UserManager σ) (event : Call × List UserEntry) : Decidable (Accepted server m event) :=
  decidable_of_iff (∀ users ∈ event.1.changed m.usersMap, users ≠ m.usersMap → Lists event.2 users →
      (server.updateUsers event.2 m.server).isOk) <| by
    unfold Accepted
    cases server.updateUsers event.2 m.server <;> simp [Except.isOk, Except.toBool]

variable {server}

variable (server) in
/-- A call that returns before it asks the server, or hands it a changed map. -/
theorem call_eq (m : UserManager σ) (call : Call) (order : List UserEntry) :
    m.call server call order =
      match call.changed m.usersMap with
      | none => ((m.call server call order).1, m)
      | some users => postUpdate server order true { m with usersMap := users } := by
  cases call with
  | add username password =>
    simp only [call, add, Call.changed]
    split <;> rfl
  | update | delete => rfl

variable {order : List UserEntry} {users : Users}

theorem lists_nodupKeys (lists : Lists order users) : order.NodupKeys := by
  have distinct := users.nodupKeys
  rw [← lists] at distinct
  exact Multiset.coe_nodupKeys.mp distinct

/-- A list of the users of a map finds what the map finds. -/
theorem dlookup_of_lists (lists : Lists order users) (name : String) :
    order.dlookup name = users.lookup name := by
  have distinct := lists_nodupKeys lists
  have same : users = (⟨order, distinct⟩ : AList fun _ : String => String).toFinmap :=
    Finmap.ext lists.symm
  rw [same]
  rfl

/-- What one call does, given the order it lists the users in. -/
theorem step_cases {m after : UserManager σ} {event : Call × List UserEntry}
    (stepped : step server m event = some after) :
    (event.1.changed m.usersMap = none ∧ after = m) ∨
    ∃ users, event.1.changed m.usersMap = some users ∧ Lists event.2 users ∧
      ((∃ served, server.updateUsers event.2 m.server = .ok served ∧
          (m.call server event.1 event.2).1 = none ∧
          after = { usersMap := users, server := served, trafficUsers := event.2.keys }) ∨
        (∃ err, server.updateUsers event.2 m.server = .error err ∧
          (m.call server event.1 event.2).1 = some (.rejected err) ∧
          after = { m with usersMap := users })) := by
  unfold step at stepped
  split at stepped
  · rename_i lists
    cases stepped
    cases changed : event.1.changed m.usersMap with
    | none =>
      refine .inl ⟨rfl, ?_⟩
      rw [call_eq, changed]
    | some users =>
      refine .inr ⟨users, rfl, lists users changed, ?_⟩
      have result := call_eq server m event.1 event.2
      rw [changed] at result
      rw [result]
      simp only [postUpdate]
      cases asked : server.updateUsers event.2 m.server with
      | ok served => exact .inl ⟨served, rfl, rfl, rfl⟩
      | error err => exact .inr ⟨err, rfl, rfl, rfl⟩
  · cases stepped

/-- A list that was taken is what the manager reports. -/
theorem agrees_of_accepted {before served : σ} (lists : Lists order users)
    (accepted : server.updateUsers order before = .ok served) (names : List String) :
    Agrees server { usersMap := users, server := served, trafficUsers := names } := by
  intro name
  rw [server.serves_accepted (lists_nodupKeys lists) accepted, dlookup_of_lists lists]
  rfl

/-- One call of a manager that agrees with its server. -/
theorem atomicCall_iff {m : UserManager σ} (agrees : Agrees server m)
    (event : Call × List UserEntry) : AtomicCall server m event ↔ Accepted server m event := by
  constructor
  · intro atomic users changed differs lists
    have possible : step server m event = some (m.call server event.1 event.2).2 := by
      apply if_pos
      intro other same
      cases Option.some.inj (changed.symm.trans same)
      exact lists
    rcases step_cases possible with ⟨unchanged, -⟩ | ⟨other, same, -, accepted | refused⟩
    · cases changed.symm.trans unchanged
    · obtain ⟨served, accepted, -⟩ := accepted
      exact ⟨served, accepted⟩
    · obtain ⟨err, -, returned, after⟩ := refused
      cases Option.some.inj (changed.symm.trans same)
      have kept := ((atomic _ possible).2 (by rw [returned]; rfl)).1
      rw [after] at kept
      exact absurd kept differs
  · intro accepted after stepped
    rcases step_cases stepped with ⟨-, rfl⟩ | ⟨users, changed, lists, taken | refused⟩
    · exact ⟨agrees, fun _ => ⟨rfl, rfl⟩⟩
    · obtain ⟨served, taken, returned, rfl⟩ := taken
      refine ⟨agrees_of_accepted lists taken _, fun failed => ?_⟩
      rw [returned] at failed
      cases failed
    · obtain ⟨err, refused, -, rfl⟩ := refused
      by_cases same : users = m.usersMap
      · subst same
        exact ⟨agrees, fun _ => ⟨rfl, rfl⟩⟩
      · obtain ⟨served, taken⟩ := accepted users changed same lists
        rw [refused] at taken
        cases taken

/-- For every sequence of calls and every server: each call is atomic exactly if no list that a call
has changed is refused. -/
theorem calls_atomic_iff {m : UserManager σ} (agrees : Agrees server m)
    (events : List (Call × List UserEntry)) :
    Along (step server) (AtomicCall server) m events ↔
      Along (step server) (Accepted server) m events := by
  induction events generalizing m with
  | nil => exact Iff.rfl
  | cons event rest ih =>
    have one := atomicCall_iff agrees event
    constructor
    · rintro ⟨atomic, onward⟩
      exact ⟨one.mp atomic, fun next stepped =>
        (ih (atomic next stepped).1).mp (onward next stepped)⟩
    · rintro ⟨accepted, onward⟩
      have atomic := one.mpr accepted
      exact ⟨atomic, fun next stepped => (ih (atomic next stepped).1).mpr (onward next stepped)⟩

/-! ## A password used twice -/

/-- The trojan service with the password itself as the key. -/
def plainTrojan : Server (Source.Trojan.Service String String) String TrojanError := trojanServer id

def firstCalls : List (Call × List UserEntry) :=
  [(.add "alice" "secret", [⟨"alice", "secret"⟩]),
    (.add "bob" "secret", [⟨"alice", "secret"⟩, ⟨"bob", "secret"⟩])]

def laterCall : Call × List UserEntry :=
  (.add "carol" "other", [⟨"alice", "secret"⟩, ⟨"bob", "secret"⟩, ⟨"carol", "other"⟩])

/-- The second call is refused, its user is reported all the same and served by nobody, and adding a
third user with a password of its own fails because of it. -/
theorem refused_user_kept :
    (run (step plainTrojan) { server := {} } firstCalls).map (fun m =>
        (m.get "bob", plainTrojan.serves m.server "bob",
          (m.call plainTrojan laterCall.1 laterCall.2).1)) =
      some (some "secret", none, some (.rejected (.passwordUsedBy "alice"))) := by
  decide +kernel

/-- Adding a user twice fails and changes nothing. -/
theorem calls_atomic_one :
    Along (step plainTrojan) (AtomicCall plainTrojan) { server := {} }
      [(.add "alice" "secret", [⟨"alice", "secret"⟩]), (.add "alice" "other", []),
        (.add "bob" "other", [⟨"bob", "other"⟩, ⟨"alice", "secret"⟩]),
        (.update "alice" "third", [⟨"alice", "third"⟩, ⟨"bob", "other"⟩]),
        (.delete "bob", [⟨"alice", "third"⟩])] :=
  (calls_atomic_iff (fun _ => rfl) _).mpr (by decide +kernel)

end AmneziaBox.Guarantees.UserManagement
