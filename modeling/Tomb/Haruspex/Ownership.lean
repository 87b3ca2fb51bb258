import Tomb.Haruspex.Program
import Tomb.Lib.Runs

/-! Which identity a node id belongs to, over whole runs of the identity store. -/
namespace Tomb.Haruspex
open Tomb.Lib

/-- The calls on the identity store that write, and the clock. A soft-deleted identity is an upsert
with a deletion time, a device is restored by adding it again. -/
inductive IdentityOp where
  | wait (now : Int)
  | upsertIdentity (identity : Identity)
  | addDevice (device : DeviceNode)
  | touchDevice (nodeId : String) (lastSeenAt : Int)
  | removeDevice (nodeId : String)
  | setApiKey (id : Uuid) (apiKey : Option String)
  | hardDeleteDevice (nodeId : String)
  | hardDeleteIdentity (id : Uuid)
  | forceReassignDevice (nodeId : String) (id : Uuid)

namespace IdentityOp

def perform : IdentityOp → Stores → Stores
  | .wait now, s => { s with now := now }
  | .upsertIdentity identity, s => (s.upsertIdentity identity).2
  | .addDevice device, s => ((Haruspex.addDevice device).run s).2
  | .touchDevice nodeId lastSeenAt, s => s.touchDevice nodeId lastSeenAt
  | .removeDevice nodeId, s => s.removeDevice nodeId
  | .setApiKey id apiKey, s => (s.setApiKey id apiKey).2
  | .hardDeleteDevice nodeId, s => s.hardDeleteDevice nodeId
  | .hardDeleteIdentity id, s => s.hardDeleteIdentity id
  | .forceReassignDevice nodeId id, s => (s.forceReassignDevice nodeId id).2

end IdentityOp

/-- The identity that a node id belongs to; a removed device still belongs to its identity. -/
@[grind =] def ownerIn (devices : Table DeviceNode.nodeId) (nodeId : String) : Option Uuid :=
  (devices.get nodeId).map DeviceNode.identityId

abbrev Stores.owner (s : Stores) (nodeId : String) : Option Uuid := ownerIn s.devices nodeId

inductive Releases (nodeId : String) (owner : Uuid) : IdentityOp → Prop where
  | forced (id : Uuid) : Releases nodeId owner (.forceReassignDevice nodeId id)
  | ownerDeleted : Releases nodeId owner (.hardDeleteIdentity owner)
  | deviceDeleted : Releases nodeId owner (.hardDeleteDevice nodeId)

inductive ReleasesOwner (nodeId : String) (owner : Uuid) : IdentityOp → Prop where
  | forced (id : Uuid) : ReleasesOwner nodeId owner (.forceReassignDevice nodeId id)
  | ownerDeleted : ReleasesOwner nodeId owner (.hardDeleteIdentity owner)

/-- After any run no node id belongs to two identities, and a node id that an earlier part of the
run left with one identity and a later part finds with another was released in between, while the
former identity still had it. -/
def OwnedExclusively (releases : String → Uuid → IdentityOp → Prop) : Prop :=
  ∀ (s : Stores) (before between : List IdentityOp),
    (∀ a ∈ (runAll IdentityOp.perform before s).devices,
      ∀ b ∈ (runAll IdentityOp.perform before s).devices,
        a.nodeId = b.nodeId → a.identityId = b.identityId) ∧
    ∀ nodeId former later,
      (runAll IdentityOp.perform before s).owner nodeId = some former →
      (runAll IdentityOp.perform (before ++ between) s).owner nodeId = some later →
      former ≠ later →
      ∃ kept op rest, between = kept ++ op :: rest ∧
        (runAll IdentityOp.perform (before ++ kept) s).owner nodeId = some former ∧
        releases nodeId former op

theorem ownerIn_eq_some (devices : Table DeviceNode.nodeId) (nodeId : String) (id : Uuid) :
    ownerIn devices nodeId = some id ↔
      ∃ row ∈ devices, row.nodeId = nodeId ∧ row.identityId = id := by
  simp only [ownerIn, Option.map_eq_some_iff, Table.get_eq_some, and_assoc]

theorem ownerIn_update (devices : Table DeviceNode.nodeId) (p : DeviceNode → Bool)
    (f : DeviceNode → DeviceNode) (keeps : ∀ row, (f row).nodeId = row.nodeId) (nodeId : String)
    (same : ∀ row, row.nodeId = nodeId → p row = true → (f row).identityId = row.identityId) :
    ownerIn (devices.update p f keeps) nodeId = ownerIn devices nodeId := by
  simp only [ownerIn, Table.get_update, Option.map_map]
  refine Option.map_congr fun row found => ?_
  have named := ((Table.get_eq_some _ _ _).mp found).2
  simp only [Function.comp_apply]
  split
  · rename_i chosen
    exact same row named chosen
  · rfl

variable {nodeId : String}

theorem ownerIn_deleteWhere {devices : Table DeviceNode.nodeId} {id : Uuid}
    (owned : ownerIn devices nodeId = some id) (p : DeviceNode → Bool)
    (spared : ∀ row, row.nodeId = nodeId → row.identityId = id → p row = false) :
    ownerIn (devices.deleteWhere p) nodeId = some id := by
  obtain ⟨row, present, named, belongs⟩ := (ownerIn_eq_some _ _ _).mp owned
  exact (ownerIn_eq_some _ _ _).mpr
    ⟨row, (Table.mem_deleteWhere _ _ _).mpr ⟨present, spared row named belongs⟩, named, belongs⟩

theorem owner_addDevice (s : Stores) (device : DeviceNode) {id : Uuid}
    (owned : s.owner nodeId = some id) : (s.addDevice device).2.owner nodeId = some id := by
  unfold Stores.addDevice
  split
  · rename_i existing found
    split
    · exact owned
    · refine Eq.trans (ownerIn_update _ _ _ ?_ _ fun _ _ _ => ?_) owned
      · exact fun _ => rfl
      · rfl
  · rename_i unknown
    split
    · exact owned
    · have differs : nodeId ≠ device.nodeId := by
        rintro rfl
        simp [Stores.owner, ownerIn, unknown] at owned
      simpa [Stores.owner, ownerIn, Table.get_upsert, differs] using owned

theorem owner_perform (op : IdentityOp) (s : Stores) {id : Uuid}
    (owned : s.owner nodeId = some id) (held : ¬Releases nodeId id op) :
    (op.perform s).owner nodeId = some id := by
  cases op with
  | wait now => exact owned
  | upsertIdentity identity =>
    have same : Relation.devices.same (IdentityOp.perform (.upsertIdentity identity) s) s :=
      Cmd.exec_frame (.upsertIdentity identity) s (by simp [Cmd.Effect.writes])
    rw [Relation.same] at same
    rwa [Stores.owner, same]
  | addDevice device =>
    have became : IdentityOp.perform (.addDevice device) s = (s.addDevice device).2 := by
      simp only [IdentityOp.perform, Haruspex.addDevice, Prog.run_bind, Prog.run_attempt,
        machine_exec, Cmd.exec, Prog.run_issue, Prog.run_ofOption]
      split
      · rename_i same
        rw [same]
      · rename_i same
        rw [same]
    rw [became]
    exact owner_addDevice s device owned
  | touchDevice other lastSeenAt =>
    refine Eq.trans (ownerIn_update _ _ _ ?_ _ fun _ _ _ => ?_) owned
    · exact fun _ => rfl
    · rfl
  | removeDevice other =>
    refine Eq.trans (ownerIn_update _ _ _ ?_ _ fun _ _ _ => ?_) owned
    · exact fun _ => rfl
    · rfl
  | setApiKey other apiKey =>
    have same : Relation.devices.same (IdentityOp.perform (.setApiKey other apiKey) s) s :=
      Cmd.exec_frame (.setApiKey other apiKey) s (by simp [Cmd.Effect.writes])
    rw [Relation.same] at same
    rwa [Stores.owner, same]
  | hardDeleteDevice other =>
    have differs : nodeId ≠ other := fun same => held (same ▸ .deviceDeleted)
    exact ownerIn_deleteWhere owned _ fun row named _ => by simpa [named] using differs
  | hardDeleteIdentity other =>
    have differs : id ≠ other := fun same => held (same ▸ .ownerDeleted)
    exact ownerIn_deleteWhere owned _ fun row _ belongs => by simpa [belongs] using differs
  | forceReassignDevice other heir =>
    have differs : nodeId ≠ other := fun same => held (same ▸ .forced heir)
    simp only [IdentityOp.perform, Stores.forceReassignDevice]
    split
    · exact owned
    · split
      · exact owned
      · refine Eq.trans (ownerIn_update _ _ _ ?_ _ fun row named chosen => ?_) owned
        · exact fun _ => rfl
        · exact absurd (named.symm.trans (of_decide_eq_true chosen)) differs

/-- A node id that a run takes from its identity is released by one call of the run. -/
theorem released_of_run {s : Stores} {former : Uuid} (ops : List IdentityOp)
    (owned : s.owner nodeId = some former)
    (lost : (runAll IdentityOp.perform ops s).owner nodeId ≠ some former) :
    ∃ kept op rest, ops = kept ++ op :: rest ∧
      (runAll IdentityOp.perform kept s).owner nodeId = some former ∧
      Releases nodeId former op := by
  induction ops generalizing s with
  | nil => exact absurd owned lost
  | cons op rest ih =>
    by_cases releases : Releases nodeId former op
    · exact ⟨[], op, rest, rfl, owned, releases⟩
    · obtain ⟨kept, last, later, split, still, ends⟩ := ih (owner_perform op s owned releases) lost
      exact ⟨op :: kept, last, later, congrArg (op :: ·) split, still, ends⟩

/-- A node id changes hands only by a forced reassignment, or after the hard delete of its
identity or of the device. -/
theorem device_ownership : OwnedExclusively Releases := by
  intro s before between
  refine ⟨fun a ha b hb same => congrArg _ (Table.eq_of_key_eq _ ha hb same), ?_⟩
  intro nodeId former later owned found differs
  rw [runAll_append] at found
  obtain ⟨kept, op, rest, split, still, releases⟩ := released_of_run between owned
    (by rw [found]; exact fun same => differs (Option.some.inj same).symm)
  exact ⟨kept, op, rest, split, by rw [runAll_append]; exact still, releases⟩

/-- The hard delete of a device frees its node id for another identity while the former one
stays. -/
theorem freed_device_changes_hands : ¬OwnedExclusively ReleasesOwner := by
  intro claimed
  let alice : Identity := ⟨.v4 0, some "alice", 0, none, none⟩
  let bob : Identity := ⟨.v4 1, some "bob", 0, none, none⟩
  obtain ⟨kept, op, rest, split, -, releases⟩ := (claimed Stores.empty
    [.upsertIdentity alice, .upsertIdentity bob, .addDevice ⟨.v4 0, "node-a", none, 0, 0, none⟩]
    [.hardDeleteDevice "node-a", .addDevice ⟨.v4 1, "node-a", none, 1, 1, none⟩]).2
      "node-a" (.v4 0) (.v4 1) (by decide) (by decide) (by decide)
  have member : op ∈ [IdentityOp.hardDeleteDevice "node-a",
      .addDevice ⟨.v4 1, "node-a", none, 1, 1, none⟩] := by
    rw [split]
    exact List.mem_append_right _ List.mem_cons_self
  rcases List.mem_pair.mp member with rfl | rfl <;> cases releases

end Tomb.Haruspex
