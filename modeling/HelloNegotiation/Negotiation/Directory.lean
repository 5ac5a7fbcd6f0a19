import HelloNegotiation.Role
import Std.Data.TreeMap

/-!
# Which negotiators are bound to which connections

There is a table for each role. A binding stays when its negotiator is dropped, but is dead from
then on: it is not found, and another negotiator may take its place.
-/
namespace HelloNegotiation

structure Connection where
  number : Nat
  deriving DecidableEq, Repr

def Connection.label (c : Connection) : String := "conn#" ++ Nat.repr c.number

structure NegotiatorId where
  number : Nat
  deriving DecidableEq, Repr

/-- The bindings of one role by the number of the connection. -/
abbrev Bindings := Std.TreeMap Nat NegotiatorId

structure Directory where
  alpnClient : Bindings
  alpnServer : Bindings
  npnClient : Bindings
  npnServer : Bindings
  /-- The negotiators that are gone. -/
  dropped : List NegotiatorId

namespace Directory

def empty : Directory := ⟨∅, ∅, ∅, ∅, []⟩

def table (d : Directory) : Role → Bindings
  | .alpnClient => d.alpnClient
  | .alpnServer => d.alpnServer
  | .npnClient => d.npnClient
  | .npnServer => d.npnServer

def setTable (d : Directory) (t : Bindings) : Role → Directory
  | .alpnClient => { d with alpnClient := t }
  | .alpnServer => { d with alpnServer := t }
  | .npnClient => { d with npnClient := t }
  | .npnServer => { d with npnServer := t }

def isLive (d : Directory) (n : NegotiatorId) : Bool := !d.dropped.contains n

/-- The live negotiator bound to a connection in a role. -/
def lookup (d : Directory) (role : Role) (c : Connection) : Option NegotiatorId :=
  (d.table role)[c.number]?.filter d.isLive

/-- Binds a negotiator unless a live one is bound already; says whether it did. -/
def bind (d : Directory) (role : Role) (c : Connection) (n : NegotiatorId) : Bool × Directory :=
  match d.lookup role c with
  | some _ => (false, d)
  | none => (true, d.setTable ((d.table role).insert c.number n) role)

/-- Removes the binding, dead or alive; gives the negotiator that was bound if it is alive. -/
def unbind (d : Directory) (role : Role) (c : Connection) : Option NegotiatorId × Directory :=
  (d.lookup role c, d.setTable ((d.table role).erase c.number) role)

def unbindAll (d : Directory) (c : Connection) : Directory :=
  [Role.npnClient, .npnServer, .alpnClient, .alpnServer].foldl (fun d role => (d.unbind role c).2) d

/-- How many connections have a binding in a role; the dead ones count. -/
def size (d : Directory) (role : Role) : Nat := (d.table role).size

/-- The negotiator is gone; its bindings go dead. -/
def drop (d : Directory) (n : NegotiatorId) : Directory := { d with dropped := n :: d.dropped }

@[simp] theorem table_setTable_self (d : Directory) (t : Bindings) (role : Role) :
    (d.setTable t role).table role = t := by cases role <;> rfl

theorem table_setTable_of_ne (d : Directory) (t : Bindings) {role other : Role} (h : role ≠ other) :
    (d.setTable t role).table other = d.table other := by
  cases role <;> cases other <;> first | rfl | exact absurd rfl h

@[simp] theorem dropped_setTable (d : Directory) (t : Bindings) (role : Role) :
    (d.setTable t role).dropped = d.dropped := by cases role <;> rfl

@[simp] theorem isLive_setTable (d : Directory) (t : Bindings) (role : Role) (n : NegotiatorId) :
    (d.setTable t role).isLive n = d.isLive n := by simp [isLive]

end Directory

end HelloNegotiation
