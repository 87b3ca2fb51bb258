import Mathlib.Order.Basic
import Mathlib.Order.Lattice

/-! Identifiers, roles and errors shared by every haruspex store. -/
namespace Tomb.Haruspex

/-- Row identifiers. The random generator hands out each `v4` id once, and the name-based
`v5` id of a user is a different id for every user id and never a random one. -/
inductive Uuid where
  | v4 (serial : Nat)
  | v5 (userId : Nat)
  deriving DecidableEq

inductive Role where
  | viewer
  | member
  | admin
  | root
  deriving DecidableEq

namespace Role

def rank : Role → Nat
  | viewer => 0
  | member => 1
  | admin => 2
  | root => 3

theorem rank_injective : Function.Injective rank := by
  intro a b same
  cases a <;> cases b <;> first | rfl | cases same

instance : LinearOrder Role := LinearOrder.lift' rank rank_injective

theorem le_iff_rank (a b : Role) : a ≤ b ↔ a.rank ≤ b.rank := Iff.rfl

theorem viewer_le (a : Role) : viewer ≤ a := Nat.zero_le _

end Role

inductive KnockDirection where
  | inbound
  | outbound
  deriving DecidableEq

inductive KnockScope where
  | account (requestedUsername : Option String)
  | browse
  | resource (resourceId : String) (requestedRole : Option Role)
  deriving DecidableEq

inductive KnockStatus where
  | pending
  | accepted
  | denied
  deriving DecidableEq

/-- `database` carries the text of the constraint that the statement ran into. -/
inductive StoreError where
  | notFound
  | conflict (message : String)
  | database (constraint : String)

/-- The party making a request; the node id is the one the transport has verified. -/
structure Caller where
  identityId : Option Uuid
  nodeId : String
  role : Role

namespace Caller

def new (nodeId : String) (role : Role) : Caller := ⟨none, nodeId, role⟩

end Caller

end Tomb.Haruspex
