import Tomb.Grimoire.KnockSteps

/-! What accepting a knock grants, and what an acceptance that fails leaves behind. -/
namespace Tomb.Grimoire.Knock

open Lib
open Haruspex (Uuid KnockRecord)
open Outages (policyOf Acceptable Done Undone)

/-- The node leads to the user to whom it was linked, if that account is live. -/
theorem Accepted.resolves {s before t : Db} {policy : GrimoireKnockPolicy} {knock : KnockRecord}
    {id : Uuid} (accepted : Accepted s policy knock before) (decided : Decided before t id) :
    ∃ user first, Chosen s policy (usernameFor policy knock) first user ∧
      (user.deletedAt = none → Cenotaph.userOfNode t knock.nodeId = some user) := by
  obtain ⟨user, first, second, chosen, made, linked⟩ := accepted
  obtain ⟨identity, named, told, _, rfl⟩ := made
  obtain ⟨devices, rfl, _, device, found, live, own⟩ := linked
  obtain ⟨knocks, rfl, _⟩ := decided
  refine ⟨user, first, chosen, fun alive => ?_⟩
  refine Cenotaph.userOfNode_eq_some.mpr ⟨device, found, live, identity, ?_, told, chosen.stored, alive⟩
  exact (Table.get_upsert ..).trans (if_pos (own.trans named.symm))

theorem acceptKnock_done {s : Db} {id : Uuid} {request : ProcessKnockRequest} {adminUserId : String}
    {answer : KnockRequest} (accepted : ((acceptKnock id request adminUserId).run s).1 = .ok answer) :
    Done s id request ((acceptKnock id request adminUserId).run s).2 := by
  have leaves := (Outages.acceptKnock_leaves id request adminUserId s).reliable
  rw [Outages.acceptKnock_reliable, accepted] at leaves
  exact leaves

/-- Without a user picked by the admin, the node that knocked leads to the live account that has the
chosen name, with the role that it has; and where no account has the name, to a new one with the
role that the admin chose. -/
theorem accepted_node_resolves (s : Db) (id : Uuid) (request : ProcessKnockRequest)
    (adminUserId : String) (unnamed : request.userId = none) {answer : KnockRequest}
    (accepted : ((acceptKnock id request adminUserId).run s).1 = .ok answer) :
    let t := ((acceptKnock id request adminUserId).run s).2
    ∃ knock, s.stores.getKnock id = some knock ∧ knock.status = .pending ∧
      (s.findUserByUsername (usernameFor (policyOf request) knock) = none →
        ∃ user, (UserRepository.findUserByNodeId knock.nodeId).run t = (.ok (some user), t) ∧
          user.role = roleOf request.role ∧
          user.username = usernameFor (policyOf request) knock) ∧
      ∀ existing, s.findUserByUsername (usernameFor (policyOf request) knock) = some existing →
        existing.deletedAt = none →
          (UserRepository.findUserByNodeId knock.nodeId).run t = (.ok (some existing), t) := by
  intro t
  obtain ⟨knock, before, ⟨found, pending, _⟩, granted, decided⟩ := acceptKnock_done accepted
  obtain ⟨user, first, chosen, leads⟩ := granted.resolves decided
  refine ⟨knock, found, pending, fun nobody => ?_, fun existing there live => ?_⟩
  · cases chosen with
    | picked named _ => exact absurd (named.symm.trans unnamed) (Option.some_ne_none _)
    | existing _ there => exact absurd (there.symm.trans nobody) (Option.some_ne_none _)
    | opened _ opened =>
      refine ⟨user, ?_, opened.role, opened.name⟩
      rw [Cenotaph.run_findUserByNodeId, leads opened.live]
  · cases chosen with
    | picked named _ => exact absurd (named.symm.trans unnamed) (Option.some_ne_none _)
    | existing _ known =>
      have same : user = existing := Option.some.inj (known.symm.trans there)
      subst same
      rw [Cenotaph.run_findUserByNodeId, leads live]
    | opened _ opened => exact absurd (there.symm.trans opened.absent) (Option.some_ne_none _)

def knockAs (username : String) : Db :=
  serve Webauthn.trustingSite
    [.service (.bootstrapRootUser "captain"), .createKnock "phone" username "let me in"] Db.empty

def asViewer : ProcessKnockRequest := ⟨none, "viewer", none⟩

theorem accepted_node_resolves_to_viewer :
    let t := ((acceptKnock (.v4 0) asViewer "captain").run (knockAs "eve")).2
    ∃ knock, (knockAs "eve").stores.getKnock (.v4 0) = some knock ∧ knock.status = .pending ∧
      ((knockAs "eve").findUserByUsername (usernameFor (policyOf asViewer) knock) = none →
        ∃ user, (UserRepository.findUserByNodeId knock.nodeId).run t = (.ok (some user), t) ∧
          user.role = roleOf asViewer.role ∧
          user.username = usernameFor (policyOf asViewer) knock) ∧
      ∀ existing,
        (knockAs "eve").findUserByUsername (usernameFor (policyOf asViewer) knock) = some existing →
          existing.deletedAt = none →
            (UserRepository.findUserByNodeId knock.nodeId).run t = (.ok (some existing), t) :=
  @accepted_node_resolves (knockAs "eve") (.v4 0) asViewer "captain" rfl
    ⟨.v4 0, "phone", "eve", "let me in", .accepted, 0, some 0, some "captain"⟩ (by decide)

/-- Whoever knocks under the name of the root user and is accepted as a viewer is root. -/
theorem knock_as_root :
    let accepted := (acceptKnock (.v4 0) asViewer "captain").run (knockAs "captain")
    accepted.1.isOk = true ∧
      ((UserRepository.findUserByNodeId "phone").run accepted.2).1.toOption.join.map User.role =
        some .root ∧
      UserRole.root.level < (roleOf asViewer.role).level := by
  decide

/-- An acceptance that fails leaves the steps before the one that failed: the user chosen or created,
the identity brought up to date, the node linked. The knock stays as it was, unless its decision was
recorded and only could not be read back; that takes an outage. -/
theorem failed_acceptance_leaves_steps (s : Db) (id : Uuid) (request : ProcessKnockRequest)
    (adminUserId : String) (outages : List Bool) {error : GrimoireError}
    (failed : ((Outages.acceptKnock id request adminUserId).run ⟨s, outages⟩).1 = .error error) :
    let t := ((Outages.acceptKnock id request adminUserId).run ⟨s, outages⟩).2.store
    (t.stores.knocks = s.stores.knocks ∧
      (t = s ∨ ∃ knock, Acceptable s id request knock ∧ Reached s (policyOf request) knock t)) ∨
    ((∃ fails ∈ outages, fails = true) ∧ Done s id request t) := by
  intro t
  have leaves := Outages.acceptKnock_leaves id request adminUserId s outages
  rw [failed] at leaves
  by_cases steady : ∀ fails ∈ outages, fails = false
  · have same := Prog.run_steady (Outages.acceptKnock id request adminUserId) steady s
    rw [Outages.acceptKnock_reliable, failed] at same
    have undone := Prog.ends_true.mp (acceptKnock_undone id request adminUserId s)
    rw [← same.1, ← same.2] at undone
    exact .inl ⟨undone.knocks, undone⟩
  · rcases leaves with undone | done
    · exact .inl ⟨undone.knocks, undone⟩
    · push Not at steady
      obtain ⟨fails, there, out⟩ := steady
      exact .inr ⟨⟨fails, there, Bool.eq_true_of_not_eq_false out⟩, done⟩

def linkedMeanwhile : Db :=
  serve Webauthn.trustingSite [.service (.addPeerNode 0 "phone" none)] (knockAs "eve")

theorem failed_acceptance_leaves_account :
    let t := ((Outages.acceptKnock (.v4 0) asViewer "captain").run ⟨linkedMeanwhile, []⟩).2.store
    (t.stores.knocks = linkedMeanwhile.stores.knocks ∧
      (t = linkedMeanwhile ∨ ∃ knock, Acceptable linkedMeanwhile (.v4 0) asViewer knock ∧
        Reached linkedMeanwhile (policyOf asViewer) knock t)) ∨
    ((∃ fails ∈ ([] : List Bool), fails = true) ∧ Done linkedMeanwhile (.v4 0) asViewer t) :=
  @failed_acceptance_leaves_steps linkedMeanwhile (.v4 0) asViewer "captain" []
    (.processingFailed "failed to link peer node") (by decide)

/-- The knock cannot be accepted, for the node is another user's by now; the account made for it
stays. -/
theorem account_left_behind :
    let failed := (acceptKnock (.v4 0) asViewer "captain").run linkedMeanwhile
    failed.1.isOk = false ∧ linkedMeanwhile.users.rows.length = 1 ∧
      failed.2.users.rows.length = 2 ∧ failed.2.stores.knocks.rows = linkedMeanwhile.stores.knocks.rows := by
  decide

end Tomb.Grimoire.Knock
