import Tomb.Grimoire.Cenotaph.PairingCodes

/-! What holds of the pairing codes in every run. -/
namespace Tomb.Grimoire.Cenotaph
open Lib
open UserService

theorem checkedCode_some {s : Db} {code : String} {invite : InviteCode}
    (checked : checkedCode s code = some invite) :
    ∃ row, s.stores.invites.get code = some row ∧ row.isValidForUse s.stores.now = true ∧
      (validateInviteCode code).run s = (.ok invite, s) ∧ invite.maxUses = row.maxUses ∧
      invite.code = code := by
  unfold checkedCode at checked
  cases passed : ((checkInviteCode code).run s).1 with
  | error error =>
    rw [passed] at checked
    cases checked
  | ok reply =>
    rw [passed] at checked
    cases checked
    obtain ⟨row, found, valid, answer, _, uses, _, named⟩ := checkInviteCode_ok passed
    exact ⟨row, found, valid, answer, uses, named⟩

/-- What becomes of a request by a good code: the user of the node comes back, a new user has used
the code, or nothing changes. -/
inductive Resolved (s : Db) (peer : String) (request : PairRequest) :
    Except PairResponseReason User → Db → Prop
  | known {user : User} (linked : userOfNode s peer = some user) :
      Resolved s peer request (.ok user) s
  | registered {user : User} {t : Db} (unlinked : userOfNode s peer = none)
      (nameable : Nameable s request.displayName) (opened : Registered s t request.code user) :
      Resolved s peer request (.ok user) t
  | refused (reason : PairResponseReason) : Resolved s peer request (.error reason) s

theorem resolvePairingUser_resolved {s : Db} {peer : String} {request : PairRequest}
    {invite : InviteCode} (checked : checkedCode s request.code = some invite)
    (type : invite.codeType = .invite)
    (free : userOfNode s peer = none → Nameable s request.displayName →
      s.NameFree s.nextUser request.displayName) :
    Resolved s peer request (resolvePairingUser peer request s).1
      (resolvePairingUser peer request s).2 := by
  obtain ⟨row, found, _, valid, _, _⟩ := checkedCode_some checked
  unfold resolvePairingUser
  cases looked : ((getUserByNodeId peer).run s).1 with
  | ok reply => exact .known (getUserByNodeId_ok.mp ⟨reply, looked, rfl⟩)
  | error error =>
    have unlinked : userOfNode s peer = none := by
      refine Option.eq_none_iff_forall_ne_some.mpr fun user linked => ?_
      obtain ⟨reply, told, _⟩ := getUserByNodeId_ok.mpr linked
      rw [looked] at told
      cases told
    have outcome := Prog.ends_true.mp (registerUser_always valid type found (free unlinked))
    dsimp only
    rcases outcome with ⟨reply, told, nameable, opened⟩ | ⟨⟨error, told⟩, same⟩
    · split
      · rename_i reply' t' run
        rw [run] at told opened
        cases told
        exact .registered unlinked nameable opened
      · rename_i error' t' run
        rw [run] at told
        cases told
    · split
      · rename_i reply' t' run
        rw [run] at told
        cases told
      · rename_i error' t' run
        rw [run] at same
        cases same
        exact .refused .usernameTaken

theorem resolvePairingUser_grows (peer : String) (request : PairRequest) (s : Db) :
    Grows s (resolvePairingUser peer request s).2 ∧
      (Counted s → Counted (resolvePairingUser peer request s).2) := by
  have registers := run_grows (registerUser_uses ⟨request.displayName, none, some request.code⟩
    (Set.Subset.refl _)) (by simp) s
  unfold resolvePairingUser
  split
  · exact ⟨grows_of_invites rfl, id⟩
  · split
    · rename_i run
      rw [run] at registers
      exact registers
    · rename_i run
      rw [run] at registers
      exact registers

namespace Pairing

/-- Another code may be drawn and shown; whatever a request is decided by is the same. -/
structure Shown (s t : Pairing) : Prop where
  drawn : OnlyDrawn s.db t.db
  counted : Counted s.db → Counted t.db
  session : t.session = s.session
  accepted : t.accepted = s.accepted

theorem draw_shown (s : Pairing) (role : UserRole) (maxUses : Int) (drawn : String) :
    Shown s (s.draw role maxUses drawn) := by
  have left := createPlayerPairingCode_drawn role maxUses drawn s.db
  have counts := run_counted (createPlayerPairingCode role maxUses drawn) s.db
  unfold draw
  split
  · rename_i run
    rw [run] at left counts
    exact ⟨left, counts, rfl, rfl⟩
  · rename_i run
    rw [run] at left counts
    exact ⟨left, counts, rfl, rfl⟩

theorem ensureCurrentPairingCode_shown (s : Pairing) (hint : Option String) (drawn : String) :
    Shown s (s.ensureCurrentPairingCode hint drawn) := by
  unfold ensureCurrentPairingCode
  split
  · exact ⟨.refl s.db, id, rfl, rfl⟩
  · split
    · exact draw_shown s .member 0 drawn
    · exact draw_shown s .admin 1 drawn

def adminCodes (s : Pairing) : List String :=
  (s.accepted.filter fun entry => singleUseAdmin entry.2).map fun entry => entry.2.code

def Spent (db : Db) (code : String) : Prop :=
  ∃ row, db.stores.invites.get code = some row ∧ row.maxUses = 1 ∧ 1 ≤ row.useCount

theorem Spent.grows {db next : Db} {code : String} (spent : Spent db code)
    (grows : Grows db next) : Spent next code := by
  obtain ⟨row, found, quota, count⟩ := spent
  obtain ⟨used, there, same, more⟩ := grows code row found
  exact ⟨used, there, same.trans quota, count.trans more⟩

/-- No single-use code accepted two, for the one whom it accepted has used it. -/
structure OncePerCode (s : Pairing) : Prop where
  counted : Counted s.db
  spent : ∀ code ∈ s.adminCodes, Spent s.db code
  once : s.adminCodes.Nodup

theorem OncePerCode.shown {s t : Pairing} (kept : OncePerCode s) (shown : Shown s t) :
    OncePerCode t := by
  have same : t.adminCodes = s.adminCodes := by
    unfold adminCodes
    rw [shown.accepted]
  refine ⟨shown.counted kept.counted, fun code used => ?_, same ▸ kept.once⟩
  exact (kept.spent code (same ▸ used)).grows shown.drawn.grows

/-- What accepting a peer comes to: the node leads to the user, and the peer is in the session. -/
structure Accepted (s : Pairing) (db : Db) (t : Pairing) (peer : String) (invite : InviteCode)
    (user : User) : Prop where
  linked : userOfNode t.db peer = some user
  joined : ∃ session, t.session = some session ∧ peer ∈ session.allowedNodeIds
  accepted : t.accepted = s.accepted ++ [(peer, invite)]
  invites : t.db.stores.invites = db.stores.invites

theorem accept_accepted {s : Pairing} {peer : String} {request : PairRequest} {invite : InviteCode}
    {user : User} {db : Db} {now : Int} (fits : s.FitsInvite peer request invite)
    (resolved : Resolved s.db peer request (.ok user) db) :
    Accepted s db (s.accept peer invite user db now) peer invite user := by
  have linked : userOfNode ((addPeerNode user.id peer none).run db).2 peer = some user ∧
      ((addPeerNode user.id peer none).run db).2.stores.invites = db.stores.invites := by
    cases resolved with
    | known linked =>
      obtain ⟨_, _, _, _, _, _, stored, live⟩ := userOfNode_eq_some.mp linked
      have ends := Prog.ends_true.mp (addPeerNode_always stored live (.inl linked))
      exact ⟨ends.1, ends.2.2⟩
    | registered unlinked nameable opened =>
      have own := fits.2
      rw [unlinked] at own
      obtain ⟨_, ours⟩ := own nameable
      have free : ∀ device ∈ db.stores.devices.get peer,
          device.identityId = identityIdForExistingUser user.id := by
        rw [opened.devices, opened.id]
        exact ours
      have ends := Prog.ends_true.mp
        (addPeerNode_always opened.stored opened.live (.inr ⟨opened.free, free⟩))
      exact ⟨ends.1, ends.2.2⟩
  exact ⟨linked.1, ⟨_, rfl, PlayerSession.mem_join ..⟩, rfl, linked.2⟩

theorem accepted_once {s t : Pairing} {peer : String} {request : PairRequest} {invite : InviteCode}
    {user : User} {db : Db} (checked : checkedCode s.db request.code = some invite)
    (fits : s.FitsInvite peer request invite) (kept : OncePerCode s)
    (resolved : Resolved s.db peer request (.ok user) db) (grows : Grows s.db db)
    (counts : Counted db) (accepted : Accepted s db t peer invite user) : OncePerCode t := by
  have after : Grows db t.db := grows_of_invites accepted.invites
  have counted : Counted t.db := fun row member => counts row (accepted.invites ▸ member)
  have codes : t.adminCodes =
      s.adminCodes ++ if singleUseAdmin invite then [invite.code] else [] := by
    unfold adminCodes
    rw [accepted.accepted, List.filter_append, List.map_append]
    congr 1
    cases single : singleUseAdmin invite <;> simp [single]
  have old (code : String) (used : code ∈ s.adminCodes) : Spent t.db code :=
    (kept.spent code used).grows (grows.trans after)
  cases single : singleUseAdmin invite with
  | false =>
    rw [single, if_neg Bool.false_ne_true, List.append_nil] at codes
    exact ⟨counted, codes ▸ old, codes ▸ kept.once⟩
  | true =>
    rw [single, if_pos rfl] at codes
    obtain ⟨row, found, valid, _, uses, named⟩ := checkedCode_some checked
    have quota : row.maxUses = 1 := by
      have both := single
      unfold singleUseAdmin at both
      rw [Bool.and_eq_true, decide_eq_true_iff, decide_eq_true_iff] at both
      exact uses.symm.trans both.2
    have fresh : invite.code ∉ s.adminCodes := by
      intro used
      obtain ⟨again, there, _, count⟩ := kept.spent _ used
      rw [named, found] at there
      cases there
      unfold Haruspex.InviteCode.isValidForUse at valid
      rw [quota] at valid
      simp only [Bool.and_eq_true, Bool.or_eq_true, decide_eq_true_eq] at valid
      omega
    have spent : Spent t.db invite.code := by
      cases resolved with
      | known linked =>
        have plain := fits.2
        rw [linked] at plain
        exact absurd single (Bool.eq_false_iff.mp plain)
      | registered _ _ opened =>
        obtain ⟨used, there, _, same, count⟩ := opened.counts row found
        have nonneg := kept.counted row ((Table.get_eq_some _ _ _).mp found).1
        rw [named]
        exact Spent.grows ⟨used, there, same.trans quota, by omega⟩ after
    refine ⟨counted, fun code used => ?_, ?_⟩
    · rw [codes] at used
      rcases List.mem_append.mp used with before | last
      · exact old code before
      · rw [List.mem_singleton.mp last]
        exact spent
    · rw [codes]
      exact kept.once.append (List.nodup_singleton _)
        fun code before last => fresh (List.mem_singleton.mp last ▸ before)

/-- A request that is answered well comes by a code that was not replaced, and its peer is linked
and in the session; any other request changes nothing. -/
def Answered (s t : Pairing) (peer : String) (request : Option PairRequest)
    (response : PairResponse) : Prop :=
  (response.ok = true → (∀ asked ∈ request, asked.code ∉ s.replaced) ∧
    (∃ user, userOfNode t.db peer = some user) ∧
    ∃ session, t.session = some session ∧ peer ∈ session.allowedNodeIds) ∧
  (response.ok = false → t = s)

theorem answered_refused (s : Pairing) (peer : String) (request : Option PairRequest)
    (reason : PairResponseReason) : Answered s s peer request (.err reason) :=
  ⟨fun ok => absurd ok Bool.false_ne_true, fun _ => rfl⟩

theorem handlePairRequest_spec {s : Pairing} {peer : String} {request : Option PairRequest}
    {drawn : String} {now : Int} (fits : Fits (.handlePairRequest peer request drawn now) s)
    (kept : OncePerCode s) :
    let answer := s.handlePairRequest peer request drawn now
    Answered s answer.2 peer request answer.1 ∧ OncePerCode answer.2 := by
  cases request with
  | none => exact ⟨answered_refused s peer none .invalidCode, kept⟩
  | some request =>
    unfold handlePairRequest
    dsimp only
    cases good : (checkedCode s.db request.code).filter (·.codeType = .invite) with
    | none => exact ⟨answered_refused s peer _ .invalidCode, kept⟩
    | some invite =>
      have fitting : s.FitsInvite peer request invite := fits invite good
      obtain ⟨checked, type⟩ := Option.filter_eq_some_iff.mp good
      have free (unlinked : userOfNode s.db peer = none) (named : Nameable s.db request.displayName) :
          s.db.NameFree s.db.nextUser request.displayName := by
        have own := fitting.2
        rw [unlinked] at own
        exact (own named).1
      have resolved := resolvePairingUser_resolved checked (of_decide_eq_true type) free
      obtain ⟨grows, counted⟩ := resolvePairingUser_grows peer request s.db
      cases outcome : resolvePairingUser peer request s.db with
      | mk result db =>
        rw [outcome] at resolved grows counted
        dsimp only at resolved grows counted ⊢
        cases result with
        | error reason =>
          cases resolved
          exact ⟨answered_refused s peer _ reason, kept⟩
        | ok user =>
          dsimp only
          have accepted := @accept_accepted s peer request invite user db now fitting resolved
          have once := accepted_once checked fitting kept resolved grows (counted kept.counted)
            accepted
          refine ⟨⟨fun _ => ⟨fun asked same => ?_, ?_⟩, fun failed => (nomatch failed)⟩, ?_⟩
          · cases same
            exact fitting.1
          · split
            · have shown := ensureCurrentPairingCode_shown (s.accept peer invite user db now) none drawn
              refine ⟨⟨user, ?_⟩, ?_⟩
              · rw [shown.drawn.1.userOfNode]
                exact accepted.linked
              · rw [shown.session]
                exact accepted.joined
            · exact ⟨⟨user, accepted.linked⟩, accepted.joined⟩
          · split
            · exact once.shown (ensureCurrentPairingCode_shown _ none drawn)
            · exact once

theorem step_once (op : PairingOp) (s : Pairing) (fits : Fits op s) (kept : OncePerCode s) :
    OncePerCode (step op s) := by
  cases op with
  | ensureCurrentPairingCode hint drawn =>
    exact kept.shown (ensureCurrentPairingCode_shown s hint drawn)
  | regenerateAdminPin drawn => exact kept.shown (draw_shown s .admin 1 drawn)
  | regenerateSessionPin drawn => exact kept.shown (draw_shown s .member 0 drawn)
  | handlePairRequest peer request drawn now => exact (handlePairRequest_spec fits kept).2
  | tick now => exact ⟨kept.counted, kept.spent, kept.once⟩

/-- In a run whose requests come by codes that are shown, where no known peer takes a code that makes
one admin and no new peer the name or the node of another identity: such a code accepts one peer,
no replaced code accepts any, an accepted peer has a live user and is in the session, and a
rejected request changes nothing. -/
theorem pairing_codes_kept (site : Webauthn.Site) (history : List Grimoire.Op)
    (currentCode : Option PairingCode) (session : Option PlayerSession) (ops : List PairingOp)
    (meets : Meets step Fits ops { db := serve site history Db.empty, currentCode, session }) :
    let s : Pairing := { db := serve site history Db.empty, currentCode, session }
    (runAll step ops s).adminCodes.Nodup ∧
    ∀ before peer request drawn now rest,
      ops = before ++ PairingOp.handlePairRequest peer request drawn now :: rest →
        let t := runAll step before s
        let answer := t.handlePairRequest peer request drawn now
        (answer.1.ok = true → (∀ asked ∈ request, asked.code ∉ t.replaced) ∧
          (∃ reply, ((getUserByNodeId peer).run answer.2.db).1 = .ok reply ∧
            reply.data.deletedAt = none) ∧
          ∃ session, answer.2.session = some session ∧ peer ∈ session.allowedNodeIds) ∧
        (answer.1.ok = false → answer.2 = t) := by
  intro s
  have start : OncePerCode s :=
    ⟨serve_counted site history, fun code none => (nomatch none), List.nodup_nil⟩
  refine ⟨(Meets.keeps step_once meets start).once, ?_⟩
  intro before peer request drawn now rest split t answer
  rw [split] at meets
  have still : Meets step Fits before s := meets.of_prefix (List.prefix_append _ _)
  have answered := (handlePairRequest_spec meets.fits_at (still.keeps step_once start)).1
  refine ⟨fun ok => ?_, answered.2⟩
  obtain ⟨asked, ⟨user, linked⟩, joined⟩ := answered.1 ok
  obtain ⟨reply, told, same⟩ := getUserByNodeId_ok.mpr linked
  obtain ⟨_, _, _, _, _, _, _, live⟩ := userOfNode_eq_some.mp linked
  exact ⟨asked, ⟨reply, told, same ▸ live⟩, joined⟩

def pairTwice : List PairingOp :=
  [.ensureCurrentPairingCode none "K4T9QX",
    .handlePairRequest "phone" (some ⟨"K4T9QX", "ada"⟩) "M7RB2C" 1,
    .handlePairRequest "tablet" (some ⟨"M7RB2C", "ben"⟩) "" 2]

/-- A known phone comes back by a code that makes one admin, and a tablet takes it, too. -/
def redeemTwice : List PairingOp :=
  [.regenerateSessionPin "M7RB2C",
    .handlePairRequest "phone" (some ⟨"M7RB2C", "ada"⟩) "" 1,
    .regenerateAdminPin "K4T9QX",
    .handlePairRequest "phone" (some ⟨"K4T9QX", "ada"⟩) "P3WN8D" 2,
    .handlePairRequest "tablet" (some ⟨"K4T9QX", "ben"⟩) "Q6XC5F" 3]

theorem pairing_codes_kept_in_turn :
    (runAll step pairTwice { db := serve Webauthn.trustingSite [] Db.empty }).adminCodes.Nodup ∧
    let t := runAll step (pairTwice.take 2) { db := serve Webauthn.trustingSite [] Db.empty }
    let answer := t.handlePairRequest "tablet" (some ⟨"M7RB2C", "ben"⟩) "" 2
    (answer.1.ok = true → (∀ asked ∈ some (⟨"M7RB2C", "ben"⟩ : PairRequest), asked.code ∉ t.replaced) ∧
      (∃ reply, ((getUserByNodeId "tablet").run answer.2.db).1 = .ok reply ∧
        reply.data.deletedAt = none) ∧
      ∃ session, answer.2.session = some session ∧ "tablet" ∈ session.allowedNodeIds) ∧
    (answer.1.ok = false → answer.2 = t) :=
  have kept := pairing_codes_kept Webauthn.trustingSite [] none none pairTwice (by decide)
  ⟨kept.1, kept.2 (pairTwice.take 2) "tablet" (some ⟨"M7RB2C", "ben"⟩) "" 2 [] rfl⟩

/-- The phone does not use up the code, so that one code makes two admins; and a code that was
replaced is still accepted. -/
theorem pairing_code_redeemed_twice :
    let s := runAll step redeemTwice { db := serve Webauthn.trustingSite [] Db.empty }
    s.adminCodes = ["K4T9QX", "K4T9QX"] ∧ "M7RB2C" ∈ s.replaced ∧
      (s.handlePairRequest "laptop" (some ⟨"M7RB2C", "eve"⟩) "" 4).1.ok = true := by
  decide

end Pairing

end Tomb.Grimoire.Cenotaph
