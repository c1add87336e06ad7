import Mathlib.Data.Finmap
import AmneziaBox.Library.Machine
import AmneziaBox.Source.Trojan.Protocol

/-!
# The user manager of the Shadowsocks management API

Embeds `UserManager` of `service/ssmapi/user.go`, and `UpdateUsers` of
`transport/trojan/service.go` as one server it may manage. The manager holds its lock for a whole
call, so a call is one step. Go ranges over a map in any order: a call comes with the order in which
`postUpdate` lists the users. The two lists it builds, names and passwords, are one list of pairs
here. Of the traffic manager there are the names it was last told.
-/
namespace AmneziaBox.Source.SSMAPI
open Library

abbrev Users := Finmap fun _ : String => String

/-- A user name with its password. -/
abbrev UserEntry := Σ _ : String, String

/-- `adapter.ManagedSSMServer`. A server that refuses a list keeps what it serves; one that takes a
list serves exactly its users, each under the credential of the password. -/
structure Server (σ κ ε : Type) where
  updateUsers : List UserEntry → σ → Except ε σ
  credential : String → κ
  serves : σ → String → Option κ
  serves_accepted : ∀ {users : List UserEntry} {before after : σ}, users.NodupKeys →
    updateUsers users before = .ok after →
    ∀ name, serves after name = (users.dlookup name).map credential

structure UserManager (σ : Type) where
  usersMap : Users := ∅
  server : σ
  trafficUsers : List String := []

inductive CallError (ε : Type) where
  /-- "user ... already exists" -/
  | exists (username : String)
  /-- the error of the server's `UpdateUsers` -/
  | rejected (err : ε)
  deriving DecidableEq, Repr

inductive Call where
  | add (username password : String)
  | update (username password : String)
  | delete (username : String)
  deriving DecidableEq, Repr

section
variable {σ κ ε : Type} (server : Server σ κ ε)

namespace UserManager

def postUpdate (order : List UserEntry) (updated : Bool) (m : UserManager σ) :
    Option (CallError ε) × UserManager σ :=
  match server.updateUsers order m.server with
  | .error err => (some (.rejected err), m)
  | .ok served =>
    (none, { m with
      server := served
      trafficUsers := if updated then order.keys else m.trafficUsers })

def list (m : UserManager σ) : Users := m.usersMap

def get (m : UserManager σ) (username : String) : Option String := m.usersMap.lookup username

def add (username password : String) (order : List UserEntry) (m : UserManager σ) :
    Option (CallError ε) × UserManager σ :=
  if username ∈ m.usersMap then (some (.exists username), m)
  else postUpdate server order true { m with usersMap := m.usersMap.insert username password }

def update (username password : String) (order : List UserEntry) (m : UserManager σ) :
    Option (CallError ε) × UserManager σ :=
  postUpdate server order true { m with usersMap := m.usersMap.insert username password }

def delete (username : String) (order : List UserEntry) (m : UserManager σ) :
    Option (CallError ε) × UserManager σ :=
  postUpdate server order true { m with usersMap := m.usersMap.erase username }

def call : Call → List UserEntry → UserManager σ → Option (CallError ε) × UserManager σ
  | .add username password => add server username password
  | .update username password => update server username password
  | .delete username => delete server username

end UserManager

/-- The map that a call hands to `postUpdate`; `none` if it returns before. -/
def Call.changed (users : Users) : Call → Option Users
  | .add username password =>
    if username ∈ users then none else some (users.insert username password)
  | .update username password => some (users.insert username password)
  | .delete username => some (users.erase username)

/-- The order lists every user of the map once. -/
def Lists (order : List UserEntry) (users : Users) : Prop := (order : Multiset UserEntry) = users.entries

instance (order : List UserEntry) (users : Users) : Decidable (Lists order users) :=
  inferInstanceAs (Decidable (_ = _))

/-- A call with the order in which it lists the users it has left in the map. -/
def step (m : UserManager σ) (event : Call × List UserEntry) : Option (UserManager σ) :=
  if ∀ users ∈ event.1.changed m.usersMap, Lists event.2 users then
    some (m.call server event.1 event.2).2
  else none

end

/-! ## The trojan service -/

inductive TrojanError where
  /-- `ErrUserExists` -/
  | userExists
  /-- `ErrUserExists` extended by "password used by " -/
  | passwordUsedBy (oldUser : String)
  deriving DecidableEq, Repr

section
variable {κ : Type} [DecidableEq κ] (key : String → κ)

/-- The loop of `UpdateUsers` over the two maps it builds. -/
def buildUsers : List UserEntry → Trojan.Service String κ → Except TrojanError (Trojan.Service String κ)
  | [], built => .ok built
  | ⟨user, password⟩ :: rest, built =>
    if (built.users user).isSome then .error .userExists
    else
      match built.keys (key password) with
      | some oldUser => .error (.passwordUsedBy oldUser)
      | none =>
        buildUsers rest {
          users := Function.update built.users user (some (key password))
          keys := Function.update built.keys (key password) (some user) }

theorem buildUsers_ok {entries : List UserEntry} {built after : Trojan.Service String κ}
    (distinct : entries.NodupKeys) (done : buildUsers key entries built = .ok after)
    (name : String) :
    after.users name = ((entries.dlookup name).map key).or (built.users name) := by
  induction entries generalizing built with
  | nil =>
    cases done
    rfl
  | cons entry rest ih =>
    obtain ⟨user, password⟩ := entry
    obtain ⟨fresh, distinct⟩ := List.nodupKeys_cons.mp distinct
    unfold buildUsers at done
    split at done
    · cases done
    · split at done
      · cases done
      · rw [ih distinct done]
        by_cases same : name = user
        · subst same
          rw [List.dlookup_eq_none.mpr fresh, List.dlookup_cons_eq]
          simp
        · rw [List.dlookup_cons_ne _ _ same]
          simp [Function.update_of_ne same]

/-- `Service.UpdateUsers` replaces both maps or neither. -/
def trojanServer : Server (Trojan.Service String κ) κ TrojanError where
  updateUsers users _ := buildUsers key users {}
  credential := key
  serves service := service.users
  serves_accepted distinct done name := by
    rw [buildUsers_ok key distinct done]
    simp

end
end AmneziaBox.Source.SSMAPI
