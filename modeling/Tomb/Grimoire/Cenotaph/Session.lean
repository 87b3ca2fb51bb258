import Mathlib.Data.List.Basic
import Tomb.Grimoire.Models

/-! The session of a native player: who may send it commands now. It is kept under one lock. -/
namespace Tomb.Grimoire.Cenotaph

inductive PeerRole where
  | admin
  | member
  | viewer
  deriving DecidableEq

def userRoleToPeerRole : UserRole → PeerRole
  | .root | .admin => .admin
  | .member => .member
  | .viewer => .viewer

inductive SessionMode where
  | everyone
  | selected
  deriving DecidableEq

structure PlayerSession where
  mode : SessionMode
  allowedNodeIds : List String
  lastActiveAt : Int

def sessionIdleMs : Int := 60 * 60 * 1000

namespace PlayerSession

def fresh (now : Int) : PlayerSession := ⟨.selected, [], now⟩

def ensureActive (existing : Option PlayerSession) (now : Int) : PlayerSession :=
  match existing with
  | none => fresh now
  | some session =>
    if sessionIdleMs < now - session.lastActiveAt then
      { session with allowedNodeIds := [], lastActiveAt := now }
    else session

variable (session : PlayerSession)

def touch (now : Int) : PlayerSession := { session with lastActiveAt := now }

def isPeerAllowed (nodeId : String) (role : Option PeerRole) : Bool :=
  role = some .admin || session.mode = .everyone || nodeId ∈ session.allowedNodeIds

def join (nodeId : String) (now : Int) : PlayerSession :=
  { session with
    allowedNodeIds := if nodeId ∈ session.allowedNodeIds then session.allowedNodeIds
      else session.allowedNodeIds ++ [nodeId] }.touch now

def leave (nodeId : String) (now : Int) : PlayerSession :=
  { session with allowedNodeIds := session.allowedNodeIds.filter (· ≠ nodeId) }.touch now

def setMode (mode : SessionMode) (now : Int) : PlayerSession := { session with mode }.touch now

theorem mem_join (nodeId : String) (now : Int) : nodeId ∈ (session.join nodeId now).allowedNodeIds := by
  unfold join touch
  dsimp only
  split
  · rename_i present
    exact present
  · exact List.mem_append_right _ (List.mem_singleton_self nodeId)

end PlayerSession

end Tomb.Grimoire.Cenotaph
