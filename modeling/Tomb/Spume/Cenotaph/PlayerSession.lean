import Mathlib.Data.List.Basic

/-! The session of a player: who may send it commands now. Every operation on the session takes a
copy of it and saves the whole copy with its change. -/
namespace Tomb.Spume.Cenotaph

inductive PeerRole where
  | admin
  | member
  | viewer
  deriving DecidableEq

def PeerRole.level : PeerRole → Nat
  | .admin => 10
  | .member => 20
  | .viewer => 30

inductive SessionMode where
  | everyone
  | selected
  deriving DecidableEq

structure PlayerSession where
  pin : String
  mode : SessionMode
  allowedNodeIds : List String
  adminGrantPending : Bool
  lastActiveAt : Nat
  deriving DecidableEq

def sessionIdleMs : Nat := 60 * 60 * 1000

def freshSession (pin : String) (now : Nat) : PlayerSession := ⟨pin, .selected, [], false, now⟩

namespace PlayerSession

variable (session : PlayerSession)

def isIdle (now : Nat) : Bool := decide (sessionIdleMs < now - session.lastActiveAt)

def renewed (pin : String) (now : Nat) : PlayerSession :=
  { session with pin, allowedNodeIds := [], adminGrantPending := false, lastActiveAt := now }

def touchSession (now : Nat) : PlayerSession := { session with lastActiveAt := now }

def isPeerAllowedInSession (nodeId : String) (role : Option PeerRole) : Bool :=
  role = some .admin || session.mode = .everyone || nodeId ∈ session.allowedNodeIds

def joinSession (nodeId : String) (now : Nat) : PlayerSession :=
  { session with
    allowedNodeIds := if nodeId ∈ session.allowedNodeIds then session.allowedNodeIds
      else session.allowedNodeIds ++ [nodeId]
    adminGrantPending := false
    lastActiveAt := now }

def setSessionMode (mode : SessionMode) (now : Nat) : PlayerSession :=
  { session with mode, lastActiveAt := now }

def leaveSession (nodeId : String) (now : Nat) : PlayerSession :=
  { session with
    allowedNodeIds := session.allowedNodeIds.filter (· ≠ nodeId)
    lastActiveAt := now }

def regenerateAdminPin (pin : String) (now : Nat) : PlayerSession :=
  { session with pin, adminGrantPending := true, lastActiveAt := now }

def regenerateSessionPin (pin : String) (now : Nat) : PlayerSession :=
  { session with pin, lastActiveAt := now }

end PlayerSession

inductive Change where
  | renew (pin : String)
  | touch
  | join (nodeId : String)
  | setMode (mode : SessionMode)
  | leave (nodeId : String)
  | regenerateAdminPin (pin : String)
  | regenerateSessionPin (pin : String)
  deriving DecidableEq

def Change.next (session : PlayerSession) (now : Nat) : Change → PlayerSession
  | .renew pin => session.renewed pin now
  | .touch => session.touchSession now
  | .join nodeId => session.joinSession nodeId now
  | .setMode mode => session.setSessionMode mode now
  | .leave nodeId => session.leaveSession nodeId now
  | .regenerateAdminPin pin => session.regenerateAdminPin pin now
  | .regenerateSessionPin pin => session.regenerateSessionPin pin now

inductive Save where
  | create (pin : String) (now : Nat)
  | update (change : Change) (copy : PlayerSession) (now : Nat)
  deriving DecidableEq

namespace Save

def session : Save → PlayerSession
  | create pin now => freshSession pin now
  | update change copy now => change.next copy now

def copy : Save → Option PlayerSession
  | create _ _ => none
  | update _ copy _ => some copy

def newPin : Save → Option String
  | create pin _ => some pin
  | update (.renew pin) _ _ => some pin
  | update (.regenerateAdminPin pin) _ _ => some pin
  | update (.regenerateSessionPin pin) _ _ => some pin
  | _ => none

def newMode : Save → Option SessionMode
  | update (.setMode mode) _ _ => some mode
  | _ => none

def admits (peer : String) : Save → Option Bool
  | update (.renew _) _ _ => some false
  | update (.join nodeId) _ _ => if nodeId = peer then some true else none
  | update (.leave nodeId) _ _ => if nodeId = peer then some false else none
  | _ => none

def newGrant : Save → Option Bool
  | update (.renew _) _ _ => some false
  | update (.join _) _ _ => some false
  | update (.regenerateAdminPin _) _ _ => some true
  | update (.regenerateSessionPin _) _ _ => some false
  | _ => none

def carriesGrant : Save → Bool
  | update (.regenerateSessionPin _) copy _ => copy.adminGrantPending
  | _ => false

end Save

section Views

variable (session : Option PlayerSession)

def pinOf : Option String := session.map (·.pin)

def modeOf : SessionMode := (session.map (·.mode)).getD .selected

def allowedIn : List String := (session.map (·.allowedNodeIds)).getD []

def grantOf : Bool := (session.map (·.adminGrantPending)).getD false

end Views

/-- What a save does not set itself is in its copy as it is in the store. -/
structure Save.Agrees (save : Save) (stored : Option PlayerSession) : Prop where
  pin : save.newPin = none → pinOf save.copy = pinOf stored
  mode : save.newMode = none → modeOf save.copy = modeOf stored
  allowed : ∀ peer ∈ allowedIn save.copy ++ allowedIn stored, save.admits peer = none →
    (peer ∈ allowedIn save.copy ↔ peer ∈ allowedIn stored)
  grant : save.newGrant = none → grantOf save.copy = grantOf stored
  plain : save.carriesGrant = false

instance (save : Save) (stored : Option PlayerSession) : Decidable (save.Agrees stored) :=
  decidable_of_iff
    ((save.newPin = none → pinOf save.copy = pinOf stored) ∧
      (save.newMode = none → modeOf save.copy = modeOf stored) ∧
      (∀ peer ∈ allowedIn save.copy ++ allowedIn stored, save.admits peer = none →
        (peer ∈ allowedIn save.copy ↔ peer ∈ allowedIn stored)) ∧
      (save.newGrant = none → grantOf save.copy = grantOf stored) ∧ save.carriesGrant = false)
    ⟨fun ⟨pin, mode, allowed, grant, plain⟩ => ⟨pin, mode, allowed, grant, plain⟩,
      fun ⟨pin, mode, allowed, grant, plain⟩ => ⟨pin, mode, allowed, grant, plain⟩⟩

namespace Save.Agrees

variable {save : Save} {stored : Option PlayerSession}

theorem pin_stored (agrees : save.Agrees stored) :
    pinOf (some save.session) = save.newPin.or (pinOf stored) := by
  have copied := agrees.pin
  match save, copied with
  | .create .., _ => rfl
  | .update (.renew _) .., _ => rfl
  | .update (.regenerateAdminPin _) .., _ => rfl
  | .update (.regenerateSessionPin _) .., _ => rfl
  | .update .touch .., copied => exact copied rfl
  | .update (.join _) .., copied => exact copied rfl
  | .update (.setMode _) .., copied => exact copied rfl
  | .update (.leave _) .., copied => exact copied rfl

theorem mode_stored (agrees : save.Agrees stored) :
    modeOf (some save.session) = save.newMode.getD (modeOf stored) := by
  have copied := agrees.mode
  match save, copied with
  | .create .., copied => exact copied rfl
  | .update (.setMode _) .., _ => rfl
  | .update (.renew _) .., copied => exact copied rfl
  | .update (.regenerateAdminPin _) .., copied => exact copied rfl
  | .update (.regenerateSessionPin _) .., copied => exact copied rfl
  | .update .touch .., copied => exact copied rfl
  | .update (.join _) .., copied => exact copied rfl
  | .update (.leave _) .., copied => exact copied rfl

theorem grant_stored (agrees : save.Agrees stored) :
    grantOf (some save.session) = save.newGrant.getD (grantOf stored) := by
  have copied := agrees.grant
  have plain := agrees.plain
  match save, copied, plain with
  | .create .., copied, _ => exact copied rfl
  | .update (.renew _) .., _, _ => rfl
  | .update (.join _) .., _, _ => rfl
  | .update (.regenerateAdminPin _) .., _, _ => rfl
  | .update (.regenerateSessionPin _) .., _, plain => exact plain
  | .update (.setMode _) .., copied, _ => exact copied rfl
  | .update .touch .., copied, _ => exact copied rfl
  | .update (.leave _) .., copied, _ => exact copied rfl

theorem copied (agrees : save.Agrees stored) {peer : String} (kept : save.admits peer = none) :
    peer ∈ allowedIn save.copy ↔ peer ∈ allowedIn stored := by
  by_cases named : peer ∈ allowedIn save.copy ++ allowedIn stored
  · exact agrees.allowed peer named kept
  · rw [List.mem_append, not_or] at named
    exact iff_of_false named.1 named.2

theorem allowed_stored (agrees : save.Agrees stored) (peer : String) :
    decide (peer ∈ allowedIn (some save.session)) =
      (save.admits peer).getD (decide (peer ∈ allowedIn stored)) := by
  have copied := @agrees.copied _ _ peer
  match save, copied with
  | .create .., copied => exact decide_eq_decide.mpr (copied rfl)
  | .update (.renew _) .., _ => rfl
  | .update (.setMode _) .., copied => exact decide_eq_decide.mpr (copied rfl)
  | .update (.regenerateAdminPin _) .., copied => exact decide_eq_decide.mpr (copied rfl)
  | .update (.regenerateSessionPin _) .., copied => exact decide_eq_decide.mpr (copied rfl)
  | .update .touch .., copied => exact decide_eq_decide.mpr (copied rfl)
  | .update (.join nodeId) copy now, copied =>
    have joined : peer ∈ (copy.joinSession nodeId now).allowedNodeIds ↔
        peer ∈ copy.allowedNodeIds ∨ peer = nodeId := by
      unfold PlayerSession.joinSession
      split
      · rename_i present
        exact ⟨.inl, fun either => either.elim id (fun same => same ▸ present)⟩
      · rw [List.mem_append, List.mem_singleton]
    by_cases same : nodeId = peer
    · rw [admits, if_pos same]
      exact decide_eq_true (joined.mpr (.inr same.symm))
    · have kept : (update (.join nodeId) copy now).admits peer = none := if_neg same
      rw [kept]
      refine decide_eq_decide.mpr (Iff.trans ?_ (copied kept))
      exact joined.trans (or_iff_left (Ne.symm same))
  | .update (.leave nodeId) copy now, copied =>
    have left : peer ∈ (copy.leaveSession nodeId now).allowedNodeIds ↔
        peer ∈ copy.allowedNodeIds ∧ peer ≠ nodeId := by
      unfold PlayerSession.leaveSession
      rw [List.mem_filter, decide_eq_true_iff]
    by_cases same : nodeId = peer
    · rw [admits, if_pos same]
      exact decide_eq_false (fun member => (left.mp member).2 same.symm)
    · have kept : (update (.leave nodeId) copy now).admits peer = none := if_neg same
      rw [kept]
      refine decide_eq_decide.mpr (Iff.trans ?_ (copied kept))
      exact left.trans (and_iff_left (Ne.symm same))

end Save.Agrees

end Tomb.Spume.Cenotaph
