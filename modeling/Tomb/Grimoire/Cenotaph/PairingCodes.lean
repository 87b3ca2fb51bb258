import Tomb.Grimoire.Cenotaph.Redemption
import Tomb.Grimoire.Cenotaph.Session

/-! The pairing codes of a native player. A code is an invite of the user service; the player shows
one of them. Random draws are arguments, and every call is performed alone. -/
namespace Tomb.Grimoire.Cenotaph
open Lib
open UserService

structure PairingCode where
  code : String
  grantsRole : PeerRole

structure PairRequest where
  (code displayName : String)

inductive PairResponseReason where
  | invalidCode
  | usernameTaken
  | rateLimited

structure PairResponse where
  ok : Bool
  reason : Option PairResponseReason

def PairResponse.accepted : PairResponse := ⟨true, none⟩

def PairResponse.err (reason : PairResponseReason) : PairResponse := ⟨false, some reason⟩

structure Pairing where
  db : Db
  currentCode : Option PairingCode := none
  session : Option PlayerSession := none
  /-- The codes that were shown and are not shown any more. -/
  replaced : List String := []
  /-- Who was accepted by which code. -/
  accepted : List (String × InviteCode) := []

def checkedCode (db : Db) (code : String) : Option InviteCode :=
  ((checkInviteCode code).run db).1.toOption.map (·.data)

def hasPeerNodes (db : Db) : Bool :=
  (((db.users.select fun user => user.deletedAt.isNone).insertionSort
    fun a b => b.createdAt ≤ a.createdAt).take 50).any fun user =>
      (db.stores.devicesForIdentity (identityIdForExistingUser user.id)).any (·.deletedAt.isNone)

def singleUseAdmin (invite : InviteCode) : Bool :=
  decide (invite.grantsRole = .admin) && decide (invite.maxUses = 1)

def resolvePairingUser (peer : String) (request : PairRequest) (db : Db) :
    Except PairResponseReason User × Db :=
  match ((getUserByNodeId peer).run db).1 with
  | .ok reply => (.ok reply.data, db)
  | .error _ =>
    match (registerUser ⟨request.displayName, none, some request.code⟩).run db with
    | (.ok reply, db) => (.ok reply.data, db)
    | (.error _, db) => (.error .usernameTaken, db)

namespace Pairing

variable (s : Pairing)

def display (code : String) (grantsRole : PeerRole) : Pairing :=
  { s with
    currentCode := some ⟨code, grantsRole⟩
    replaced := (s.replaced ++ (s.currentCode.map (·.code)).toList).filter (· ≠ code) }

def draw (role : UserRole) (maxUses : Int) (drawn : String) : Pairing :=
  match (createPlayerPairingCode role maxUses drawn).run s.db with
  | (.ok reply, db) => { s with db }.display reply.data.code (userRoleToPeerRole role)
  | (.error _, db) => { s with db }

def ensureCurrentPairingCode (hint : Option String) (drawn : String) : Pairing :=
  match hint.bind (checkedCode s.db) with
  | some invite => s.display invite.code (userRoleToPeerRole invite.grantsRole)
  | none => if hasPeerNodes s.db then s.draw .member 0 drawn else s.draw .admin 1 drawn

def regenerateAdminPin (drawn : String) : Pairing := s.draw .admin 1 drawn

def regenerateSessionPin (drawn : String) : Pairing := s.draw .member 0 drawn

def accept (peer : String) (invite : InviteCode) (user : User) (db : Db) (now : Int) : Pairing :=
  { s with
    db := ((addPeerNode user.id peer none).run db).2
    session := some ((PlayerSession.ensureActive s.session now).join peer now)
    accepted := s.accepted ++ [(peer, invite)] }

def handlePairRequest (peer : String) (request : Option PairRequest) (drawn : String) (now : Int) :
    PairResponse × Pairing :=
  match request with
  | none => (.err .invalidCode, s)
  | some request =>
    match (checkedCode s.db request.code).filter (·.codeType = .invite) with
    | none => (.err .invalidCode, s)
    | some invite =>
      match resolvePairingUser peer request s.db with
      | (.error reason, db) => (.err reason, { s with db })
      | (.ok user, db) =>
        let s := s.accept peer invite user db now
        (.accepted, if singleUseAdmin invite then s.ensureCurrentPairingCode none drawn else s)

end Pairing

inductive PairingOp where
  | ensureCurrentPairingCode (hint : Option String) (drawn : String)
  | regenerateAdminPin (drawn : String)
  | regenerateSessionPin (drawn : String)
  | handlePairRequest (peer : String) (request : Option PairRequest) (drawn : String) (now : Int)
  /-- The clock of the database moves. -/
  | tick (now : Int)

namespace Pairing

def step : PairingOp → Pairing → Pairing
  | .ensureCurrentPairingCode hint drawn, s => s.ensureCurrentPairingCode hint drawn
  | .regenerateAdminPin drawn, s => s.regenerateAdminPin drawn
  | .regenerateSessionPin drawn, s => s.regenerateSessionPin drawn
  | .handlePairRequest peer request drawn now, s => (s.handlePairRequest peer request drawn now).2
  | .tick now, s => { s with db := s.db.setNow now }

/-- A request by a valid invite: its code was not replaced; a peer that is known comes by no code
that makes one admin; a new peer whose name can be registered has a name that no identity has, and
its node is nobody's. -/
def FitsInvite (s : Pairing) (peer : String) (request : PairRequest) (invite : InviteCode) : Prop :=
  request.code ∉ s.replaced ∧
  match userOfNode s.db peer with
  | some _ => singleUseAdmin invite = false
  | none => Nameable s.db request.displayName →
      s.db.NameFree s.db.nextUser request.displayName ∧
      ∀ device ∈ s.db.stores.devices.get peer,
        device.identityId = identityIdForExistingUser s.db.nextUser

def Fits : PairingOp → Pairing → Prop
  | .handlePairRequest peer (some request) _ _, s =>
    ∀ invite ∈ (checkedCode s.db request.code).filter (·.codeType = .invite),
      s.FitsInvite peer request invite
  | _, _ => True

instance (s : Pairing) (peer : String) (request : PairRequest) (invite : InviteCode) :
    Decidable (s.FitsInvite peer request invite) :=
  match linked : userOfNode s.db peer with
  | some _ => decidable_of_iff (request.code ∉ s.replaced ∧ singleUseAdmin invite = false) (by
      unfold FitsInvite
      rw [linked])
  | none => decidable_of_iff (request.code ∉ s.replaced ∧ (Nameable s.db request.displayName →
      s.db.NameFree s.db.nextUser request.displayName ∧
      ∀ device ∈ s.db.stores.devices.get peer,
        device.identityId = identityIdForExistingUser s.db.nextUser)) (by
      unfold FitsInvite
      rw [linked])

instance : (op : PairingOp) → (s : Pairing) → Decidable (Fits op s)
  | .handlePairRequest peer (some request) _ _, s =>
    inferInstanceAs (Decidable (∀ invite ∈ (checkedCode s.db request.code).filter _,
      s.FitsInvite peer request invite))
  | .handlePairRequest _ none _ _, _ | .ensureCurrentPairingCode _ _, _
  | .regenerateAdminPin _, _ | .regenerateSessionPin _, _ | .tick _, _ => .isTrue trivial

end Pairing

/-! What the codes can do once more is counted down only. -/

def Counted (db : Db) : Prop := ∀ row ∈ db.stores.invites, 0 ≤ row.useCount

/-- Every code is still there, with its quota and at least as many uses. -/
def Grows (s t : Db) : Prop :=
  ∀ code row, s.stores.invites.get code = some row → ∃ used, t.stores.invites.get code = some used ∧
    used.maxUses = row.maxUses ∧ row.useCount ≤ used.useCount

theorem Grows.trans {s t r : Db} (first : Grows s t) (second : Grows t r) : Grows s r := by
  intro code row found
  obtain ⟨used, there, quota, count⟩ := first code row found
  obtain ⟨final, last, quota', count'⟩ := second code used there
  exact ⟨final, last, quota'.trans quota, count.trans count'⟩

theorem grows_of_invites {s t : Db} (same : t.stores.invites = s.stores.invites) : Grows s t := by
  intro code row found
  exact ⟨row, same ▸ found, rfl, Int.le_refl _⟩

theorem OnlyDrawn.grows {s t : Db} (drawn : OnlyDrawn s t) : Grows s t := by
  intro code row found
  obtain ⟨used, there, _, quota, count⟩ := drawn.2 code row found
  exact ⟨used, there, quota, by rw [count, Int.add_zero]⟩

theorem update_grows {s t : Db} {p : Haruspex.InviteCode → Bool}
    {f : Haruspex.InviteCode → Haruspex.InviteCode} (keeps : ∀ row, (f row).code = row.code)
    (same : t.stores.invites = s.stores.invites.update p f keeps)
    (grow : ∀ row, (f row).maxUses = row.maxUses ∧ row.useCount ≤ (f row).useCount) :
    Grows s t ∧ (Counted s → Counted t) := by
  constructor
  · intro code row found
    rw [same, Table.get_update, found]
    refine ⟨_, rfl, ?_⟩
    dsimp only
    split
    · exact grow row
    · exact ⟨rfl, Int.le_refl _⟩
  · intro counted row member
    rw [same] at member
    obtain ⟨old, there, rfl⟩ := (Table.mem_update ..).mp member
    split
    · exact (counted old there).trans (grow old).2
    · exact counted old there

theorem createInvite_grows (s : Db) (invite : Haruspex.InviteCode) :
    let t : Db := { s with stores := (s.stores.createInvite invite).2 }
    Grows s t ∧ (Counted s → Counted t) := by
  unfold Haruspex.Stores.createInvite
  dsimp only
  split
  · exact ⟨grows_of_invites rfl, id⟩
  · split
    · rename_i invites inserted
      constructor
      · intro code row found
        exact ⟨row, Table.get_of_insert inserted found, rfl, Int.le_refl _⟩
      · intro counted row member
        rcases (Table.insert_eq_some _ _ _ inserted row).mp member with old | rfl
        · exact counted row old
        · exact Int.le_refl 0
    · exact ⟨grows_of_invites rfl, id⟩

theorem stampUsed_grows (s : Db) (code : String) (usedBy : Haruspex.Uuid) (usedAt : Int) :
    let t : Db := { s with stores := (s.stores.stampUsed code usedBy usedAt).2 }
    Grows s t ∧ (Counted s → Counted t) := by
  unfold Haruspex.Stores.stampUsed
  dsimp only
  split
  · exact ⟨grows_of_invites rfl, id⟩
  · exact update_grows (by intro; rfl) rfl fun row => ⟨rfl, Int.le_refl _⟩

theorem exec_grows {β : Type} (command : Cmd β) (s : Db)
    (other : command.effect ≠ .haruspex .hardDeleteIdentity) :
    Grows s (command.exec s).2 ∧ (Counted s → Counted (command.exec s).2) := by
  have untouched (same : (command.exec s).2.stores.invites = s.stores.invites) :
      Grows s (command.exec s).2 ∧ (Counted s → Counted (command.exec s).2) := by
    refine ⟨grows_of_invites same, fun counted row member => ?_⟩
    rw [same] at member
    exact counted row member
  cases command with
  | users command => exact untouched (congrArg _ (command.exec_stores s))
  | haruspex command =>
    by_cases writes : Haruspex.Relation.invites ∈ command.effect.writes
    · cases command with
      | createInvite invite => exact createInvite_grows s invite
      | stampUsed code usedBy usedAt => exact stampUsed_grows s code usedBy usedAt
      | incrementUse code =>
        exact update_grows (by intro; rfl) rfl fun row => ⟨rfl, Int.le_add_of_nonneg_right (by decide)⟩
      | deactivate code => exact update_grows (by intro; rfl) rfl fun row => ⟨rfl, Int.le_refl _⟩
      | deactivateAllUnused => exact update_grows (by intro; rfl) rfl fun row => ⟨rfl, Int.le_refl _⟩
      | updateGrantsRole code role => exact update_grows (by intro; rfl) rfl fun row => ⟨rfl, Int.le_refl _⟩
      | hardDeleteIdentity id => exact absurd rfl other
      | _ => simp [Haruspex.Cmd.Effect.writes] at writes
    · exact untouched (command.exec_frame s.stores writes)

theorem run_grows {ε α : Type} {p : Prog Cmd ε α} {effects : Set Cmd.Effect}
    (uses : p.Within (Cmd.Uses effects)) (stays : .haruspex .hardDeleteIdentity ∉ effects) (s : Db) :
    Grows s (p.run s).2 ∧ (Counted s → Counted (p.run s).2) := by
  refine @Prog.Within.run_keeps _ _ _ _ _ _ p uses
    (fun t => Grows s t ∧ (Counted s → Counted t)) ?_ s ⟨grows_of_invites rfl, id⟩
  intro β command t used grown
  obtain ⟨grows, counted⟩ := exec_grows command t (fun same => stays (same ▸ used))
  exact ⟨grown.1.trans grows, fun start => counted (grown.2 start)⟩

theorem exec_counted {β : Type} (command : Cmd β) {s : Db} (counted : Counted s) :
    Counted (command.exec s).2 := by
  by_cases removes : command.effect = .haruspex .hardDeleteIdentity
  · cases command with
    | users command => cases command <;> simp at removes
    | haruspex command =>
      cases command with
      | hardDeleteIdentity id =>
        intro row member
        obtain ⟨old, there, rfl⟩ :=
          (Table.mem_update _ _ _ (by intro; rfl) row).mp member
        have kept := counted old ((Table.mem_deleteWhere ..).mp there).1
        split
        · exact kept
        · exact kept
      | _ => simp at removes
  · exact (exec_grows command s removes).2 counted

theorem run_counted {ε α : Type} (p : Prog Cmd ε α) (s : Db) (counted : Counted s) :
    Counted (p.run s).2 := by
  have uses : p.Within (fun _ => True) := Prog.within_of_forall p fun _ => trivial
  exact @Prog.Within.run_keeps _ _ _ _ _ _ p uses Counted
    (fun command _ _ kept => exec_counted command kept) s counted

theorem serve_counted (site : Webauthn.Site) (history : List Grimoire.Op) :
    Counted (serve site history Db.empty) := by
  refine runAll_keeps (fun op s counted => ?_) history (fun row none => ?_)
  · exact op.perform_keeps site Counted (fun _ _ same => same)
      (fun command _ _ kept => exec_counted command kept) counted
  · exact absurd none (Table.not_mem_empty row)

end Tomb.Grimoire.Cenotaph
