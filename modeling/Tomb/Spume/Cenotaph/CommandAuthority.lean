import Tomb.Grimoire.Cenotaph.Endpoint
import Tomb.Spume.Cenotaph.Player

/-! Whether the commands of a peer that get to the player are authorised when they do, in the browser
and in the native player. In the browser a control session keeps the session that it began with. -/
namespace Tomb.Spume.Cenotaph
open Tomb.Lib

def Event.tells (peer : String) : Event → Option Bool
  | paired other _ _ _ => if other = peer then some true else none
  | trusted other => if other = peer then some true else none
  | forgot other => if other = peer then some false else none
  | dispatched _ _ => none

/-- A command was authorised, and its peer was not forgotten. -/
def Event.Right (before : List Event) : Event → Prop
  | dispatched peer authorised =>
    authorised = true ∧ lastTold (Event.tells peer) before ≠ some false
  | _ => True

def Await.Renewing : Await → Prop
  | .saveSession save (.ensured _) => save.session.allowedNodeIds = []
  | _ => True

namespace Player

variable {s s' : Player}

/-- What the stream knows of its peer and of the session is still so. -/
structure Vouched (s : Player) (stream : Stream) (session : PlayerSession) (now : Nat) : Prop where
  known : s.roleOf stream.peer ≠ none
  role : stream.role = s.roleOf stream.peer
  mode : session.mode = modeOf (s.active now)
  listed : stream.peer ∈ session.allowedNodeIds ↔ stream.peer ∈ allowedIn (s.active now)

instance (s : Player) (stream : Stream) (session : PlayerSession) (now : Nat) :
    Decidable (s.Vouched stream session now) :=
  decidable_of_iff (s.roleOf stream.peer ≠ none ∧ stream.role = s.roleOf stream.peer ∧
      session.mode = modeOf (s.active now) ∧
      (stream.peer ∈ session.allowedNodeIds ↔ stream.peer ∈ allowedIn (s.active now)))
    ⟨fun ⟨known, role, mode, listed⟩ => ⟨known, role, mode, listed⟩,
      fun ⟨known, role, mode, listed⟩ => ⟨known, role, mode, listed⟩⟩

theorem Vouched.authorised {stream : Stream} {session : PlayerSession} {now : Nat}
    (vouched : s.Vouched stream session now)
    (allowed : session.isPeerAllowedInSession stream.peer stream.role = true) :
    s.authorised stream.peer now = true := by
  obtain ⟨known, role, mode, listed⟩ := vouched
  obtain ⟨current, found⟩ := Option.ne_none_iff_exists'.mp known
  unfold PlayerSession.isPeerAllowedInSession at allowed
  unfold Player.authorised
  rw [role, found, mode, decide_eq_decide.mpr listed] at allowed
  rw [found]
  dsimp only
  rwa [decide_eq_decide.mpr (Option.some_inj (a := current) (b := .admin))] at allowed

/-- Every command was authorised, and whoever the log has as forgotten is not trusted. -/
structure Authorised (s : Player) : Prop where
  right : EachRight Event.Right s.log
  forgotten : ∀ peer, lastTold (Event.tells peer) s.log = some false → s.roleOf peer = none
  renewing : ∀ await ∈ s.running, await.Renewing

theorem Authorised.same (inv : Authorised s) (log : s'.log = s.log) (trusted : s'.trusted = s.trusted)
    (renewing : ∀ await ∈ s'.running, await.Renewing) : Authorised s' := by
  refine ⟨log ▸ inv.right, fun peer told => ?_, renewing⟩
  rw [log] at told
  rw [roleOf, trusted]
  exact inv.forgotten peer told

theorem Authorised.goto {await : Await} (inv : Authorised s) (call : Nat) (renewing : await.Renewing) :
    Authorised (s.goto call await) := by
  refine inv.same rfl rfl fun other there => ?_
  rcases List.mem_or_eq_of_mem_set there with old | rfl
  · exact inv.renewing other old
  · exact renewing

theorem Authorised.start {await : Await} (inv : Authorised s) (renewing : await.Renewing) :
    Authorised (s.start await) := by
  refine inv.same rfl rfl fun other there => ?_
  rcases List.mem_append.mp there with old | new
  · exact inv.renewing other old
  · exact List.mem_singleton.mp new ▸ renewing

/-- The log does not change what it tells of the trust in a peer by anything but these. -/
theorem Authorised.note {event : Event} (inv : Authorised s) (right : event.Right s.log)
    (silent : ∀ peer, event.tells peer = none) : Authorised (s.note event) := by
  refine ⟨inv.right.concat right, fun peer told => inv.forgotten peer ?_, inv.renewing⟩
  rwa [show (s.note event).log = s.log ++ [event] from rfl, lastTold_concat, silent peer,
    Option.none_or] at told

theorem serveLine_authorised {stream : Stream} {session : PlayerSession} {line : Line} {now : Nat}
    (inv : Authorised s) (vouched : line ≠ .getStatus → s.Vouched stream session now) (call : Nat) :
    Authorised (s.serveLine call stream session line now) := by
  unfold serveLine
  split
  · exact inv.goto call trivial
  · rename_i admitted
    split
    · exact inv.goto call trivial
    · have vouched := vouched Line.noConfusion
      have allowed : session.isPeerAllowedInSession stream.peer stream.role = true := by
        cases allowed : session.isPeerAllowedInSession stream.peer stream.role with
        | true => rfl
        | false => exact absurd ⟨Line.noConfusion, allowed⟩ admitted
      have noted : Authorised
          (s.note (.dispatched stream.peer (s.authorised stream.peer now))) :=
        inv.note ⟨vouched.authorised allowed, fun told => vouched.known (inv.forgotten _ told)⟩
          fun _ => rfl
      exact noted.goto call trivial
    · exact inv.goto call trivial

/-- The commands that the operation may let in are those of peers that are still what they were. -/
def VouchedAt (s : Player) (input : Input) : Await → Prop
  | .nextLine stream session => ∀ line ∈ input.line, line ≠ .getStatus →
      s.Vouched stream session input.now
  | .loadSession (.serve stream line) => ∀ existing ∈ s.stored, existing.isIdle input.now = false →
      line ≠ .getStatus → s.roleOf stream.peer ≠ none ∧ stream.role = s.roleOf stream.peer
  | .saveSession _ (.ensured (.serve stream line)) => line ≠ .getStatus →
      s.roleOf stream.peer ≠ none ∧ stream.role = s.roleOf stream.peer
  | _ => True

def StillTrue : Op → Player → Prop
  | .resume call input, s => ∀ await ∈ s.running[call]?, s.VouchedAt input await
  | _, _ => True

instance (s : Player) (input : Input) : (await : Await) → Decidable (s.VouchedAt input await)
  | .nextLine stream session =>
    inferInstanceAs (Decidable (∀ line ∈ input.line, line ≠ .getStatus →
      s.Vouched stream session input.now))
  | .loadSession (.serve stream line) =>
    inferInstanceAs (Decidable (∀ existing ∈ s.stored, existing.isIdle input.now = false →
      line ≠ .getStatus → s.roleOf stream.peer ≠ none ∧ stream.role = s.roleOf stream.peer))
  | .saveSession _ (.ensured (.serve stream line)) =>
    inferInstanceAs (Decidable (line ≠ .getStatus →
      s.roleOf stream.peer ≠ none ∧ stream.role = s.roleOf stream.peer))
  | .loadSession (.pair _ _) => .isTrue trivial
  | .loadSession .rotate => .isTrue trivial
  | .loadSession .track => .isTrue trivial
  | .saveSession _ (.ensured (.pair _ _)) => .isTrue trivial
  | .saveSession _ (.ensured .rotate) => .isTrue trivial
  | .saveSession _ (.ensured .track) => .isTrue trivial
  | .saveSession _ (.joined _) => .isTrue trivial
  | .saveSession _ .rotated => .isTrue trivial
  | .saveSession _ (.touched _) => .isTrue trivial
  | .saveSession _ .track => .isTrue trivial
  | .isTrusted _ => .isTrue trivial
  | .firstLine _ _ => .isTrue trivial
  | .getTrusted _ _ => .isTrue trivial
  | .listTrusted _ _ _ => .isTrue trivial
  | .trust _ _ _ _ => .isTrue trivial
  | .reload => .isTrue trivial
  | .dispatching _ _ => .isTrue trivial
  | .done => .isTrue trivial

instance : (op : Op) → (s : Player) → Decidable (StillTrue op s)
  | .resume call input, s =>
    inferInstanceAs (Decidable (∀ await ∈ s.running[call]?, s.VouchedAt input await))
  | .connect _, _ => .isTrue trivial
  | .initSessionSignal, _ => .isTrue trivial
  | .change _ _, _ => .isTrue trivial
  | .trustController _ _ _ _, _ => .isTrue trivial
  | .forgetController _, _ => .isTrue trivial
  | .fail _, _ => .isTrue trivial

theorem handlePairRequest_authorised (inv : Authorised s) (call : Nat) (peer : String)
    (request : Option PairRequest) (session : PlayerSession) (now : Nat) :
    Authorised (s.handlePairRequest call peer request session now) := by
  have failed (failures : String → List Nat) : Authorised { s with failures } :=
    inv.same rfl rfl inv.renewing
  cases request with
  | none =>
    dsimp only [handlePairRequest]
    split
    · exact (failed _).goto call trivial
    · exact (failed _).goto call trivial
  | some request =>
    dsimp only [handlePairRequest]
    split
    · exact (failed _).goto call trivial
    · split
      · exact (failed _).goto call trivial
      · exact (failed _).goto call trivial

theorem proceed_authorised (inv : Authorised s) (call : Nat) (session : PlayerSession)
    (input : Input) (purpose : Purpose) (vouched : ∀ stream line, purpose = .serve stream line →
      line ≠ .getStatus → s.Vouched stream session input.now) :
    Authorised (s.proceed call session input purpose) := by
  unfold proceed
  split
  · exact handlePairRequest_authorised inv _ _ _ _ _
  · exact inv.goto call trivial
  · exact inv.goto call trivial
  · exact serveLine_authorised inv (vouched _ _ rfl) call
  · exact inv.goto call trivial
  · have shown : Authorised { s with signal := some session } := inv.same rfl rfl inv.renewing
    exact shown.goto call trivial

theorem ensureActiveSession_authorised {purpose : Purpose} (inv : Authorised s) (call : Nat)
    (input : Input) (vouched : s.VouchedAt input (.loadSession purpose)) :
    Authorised (s.ensureActiveSession call purpose input) := by
  unfold ensureActiveSession
  split
  · exact inv.goto call (show _ = [] from rfl)
  · rename_i existing stored
    split
    · exact inv.goto call (show _ = [] from rfl)
    · rename_i active
      have current : s.active input.now = some existing := by
        rw [Player.active, stored, Option.map_some, if_neg active]
      refine proceed_authorised inv call existing input purpose fun stream line same told => ?_
      subst same
      obtain ⟨known, role⟩ := vouched existing stored (Bool.eq_false_iff.mpr active) told
      exact ⟨known, role, current ▸ rfl, current ▸ Iff.rfl⟩

theorem saveSession_authorised {save : Save} {after : After} (inv : Authorised s) (call : Nat)
    (input : Input) (renewing : (Await.saveSession save after).Renewing)
    (vouched : s.VouchedAt input (.saveSession save after)) :
    Authorised (s.resume call input (.saveSession save after)) := by
  have stored : Authorised (s.store save) := inv.same rfl rfl inv.renewing
  dsimp only [resume]
  cases after with
  | ensured purpose =>
    refine proceed_authorised stored call save.session input purpose fun stream line same told => ?_
    subst same
    obtain ⟨known, role⟩ := vouched told
    have empty : save.session.allowedNodeIds = [] := renewing
    refine ⟨known, role, ?_, ?_⟩
    · show save.session.mode = modeOf (some (if _ then _ else _))
      split <;> rfl
    · refine iff_of_false (fun there => ?_) (fun there => ?_)
      · rw [empty] at there
        cases there
      · rw [show (s.store save).active input.now = some (if _ then _ else _) from rfl] at there
        split at there
        · cases there
        · rw [show allowedIn (some save.session) = [] from empty] at there
          cases there
  | joined grantsAdmin =>
    cases grantsAdmin with
    | true => exact stored.goto call trivial
    | false => exact stored.goto call trivial
  | rotated => exact stored.goto call trivial
  | touched stream => exact stored.goto call trivial
  | track =>
    have shown : Authorised { s.store save with signal := some save.session } :=
      stored.same rfl rfl stored.renewing
    exact shown.goto call trivial

theorem roleOf_eq_none {peer : String} :
    s.roleOf peer = none ↔ ∀ controller ∈ s.trusted, controller.nodeId ≠ peer := by
  unfold roleOf
  rw [Option.map_eq_none_iff, List.find?_eq_none]
  exact forall₂_congr fun controller _ => not_congr decide_eq_true_iff

theorem trustController_authorised {controller : TrustedController} {event : Event}
    (inv : Authorised s) (right : event.Right s.log)
    (tells : ∀ peer, event.tells peer = if controller.nodeId = peer then some true else none) :
    Authorised ((s.trustController controller).note event) := by
  refine ⟨inv.right.concat right, fun peer told => ?_, inv.renewing⟩
  rw [show ((s.trustController controller).note event).log = s.log ++ [event] from rfl,
    lastTold_concat, tells peer] at told
  by_cases same : controller.nodeId = peer
  · rw [if_pos same] at told
    cases told
  · rw [if_neg same, Option.none_or] at told
    refine roleOf_eq_none.mpr fun other there => ?_
    rcases List.mem_append.mp there with old | new
    · exact roleOf_eq_none.mp (inv.forgotten peer told) other (List.mem_filter.mp old).1
    · exact List.mem_singleton.mp new ▸ same

theorem forgetController_authorised (inv : Authorised s) (nodeId : String) :
    Authorised (step (.forgetController nodeId) s) := by
  refine ⟨inv.right.concat trivial, fun peer told => ?_, inv.renewing⟩
  rw [show (step (.forgetController nodeId) s).log = s.log ++ [.forgot nodeId] from rfl,
    lastTold_concat] at told
  refine roleOf_eq_none.mpr fun other there => ?_
  obtain ⟨there, kept⟩ := List.mem_filter.mp there
  by_cases same : nodeId = peer
  · exact same ▸ of_decide_eq_true kept
  · rw [show (Event.forgot nodeId).tells peer = none from if_neg same, Option.none_or] at told
    exact roleOf_eq_none.mp (inv.forgotten peer told) other there

theorem resume_authorised {await : Await} (inv : Authorised s) (call : Nat) (input : Input)
    (renewing : await.Renewing) (vouched : s.VouchedAt input await) :
    Authorised (s.resume call input await) := by
  cases await with
  | loadSession purpose => exact ensureActiveSession_authorised inv call input vouched
  | saveSession save after => exact saveSession_authorised inv call input renewing vouched
  | nextLine stream session =>
    dsimp only [resume]
    split
    · exact inv.goto call trivial
    · rename_i line read
      exact serveLine_authorised inv (vouched line read) call
  | firstLine peer trusted =>
    dsimp only [resume]
    split
    · exact inv.goto call trivial
    · exact inv.goto call trivial
    · split
      · exact inv.goto call trivial
      · exact inv.goto call trivial
  | trust peer request session grantsAdmin =>
    have trusted := @trustController_authorised s
      ⟨peer, request.displayName, if grantsAdmin then .admin else .viewer, input.now⟩
      (.paired peer request.code (if grantsAdmin then .admin else .viewer) (s.roleOf peer)) inv
      trivial fun _ => rfl
    exact trusted.goto call trivial
  | reload =>
    have shown : Authorised { s with signal := s.stored <|> s.signal } :=
      inv.same rfl rfl inv.renewing
    exact shown.goto call trivial
  | isTrusted peer => exact inv.goto call trivial
  | getTrusted peer line => exact inv.goto call trivial
  | listTrusted peer request session => exact inv.goto call trivial
  | dispatching stream session => exact inv.goto call trivial
  | done => exact inv

theorem step_authorised (op : Op) (s : Player) (still : StillTrue op s) (inv : Authorised s) :
    Authorised (step op s) := by
  cases op with
  | connect peer => exact inv.start trivial
  | initSessionSignal => exact inv.start trivial
  | change change now =>
    unfold step
    dsimp only
    split
    · exact inv.start trivial
    · exact inv.start trivial
    · exact inv
  | trustController nodeId displayName role now =>
    exact @trustController_authorised s ⟨nodeId, displayName, role, now⟩ (.trusted nodeId) inv trivial
      fun _ => rfl
  | forgetController nodeId => exact forgetController_authorised inv nodeId
  | fail call => exact inv.goto call trivial
  | resume call input =>
    cases waiting : s.running[call]? with
    | none =>
      rw [step_resume_none waiting]
      exact inv
    | some await =>
      rw [step_resume waiting]
      exact resume_authorised inv call input (inv.renewing await (List.mem_of_getElem? waiting))
        (still await waiting)

end Player

open Grimoire.Cenotaph (Endpoint) in
/-- Where no command reaches its player on a stream whose peer or session has changed since the
stream learned of them, every command is authorised at that moment; and a peer that was forgotten
sends none until it is trusted again. -/
theorem commands_authorised (session : Option Grimoire.Cenotaph.PlayerSession)
    (roles : String → Option Grimoire.Cenotaph.PeerRole) (stored : Option PlayerSession)
    (trusted : List TrustedController) :
    (∀ ops, Meets Endpoint.step Endpoint.Current ops { session, roles } →
      let log := (runAll Endpoint.step ops { session, roles }).log
      ∀ before peer authorised rest,
        log = before ++ Grimoire.Cenotaph.Event.dispatched peer authorised :: rest →
        authorised = true ∧ ∀ older between,
          before = older ++ Grimoire.Cenotaph.Event.forgot peer :: between →
            ∃ event ∈ between, event.tells peer = some true) ∧
    ∀ ops, Meets Player.step Player.StillTrue ops { stored, trusted } →
      let log := (runAll Player.step ops { stored, trusted }).log
      ∀ before peer authorised rest, log = before ++ Event.dispatched peer authorised :: rest →
        authorised = true ∧ ∀ older between, before = older ++ Event.forgot peer :: between →
          ∃ event ∈ between, event.tells peer = some true := by
  constructor
  · intro ops current log before peer authorised rest split
    have inv := Meets.keeps Endpoint.step_authorised current
      ⟨eachRight_nil _, fun _ none => (nomatch none)⟩
    obtain ⟨right, known⟩ := inv.right before _ rest split
    refine ⟨right, fun older between earlier => ?_⟩
    have denied : (Grimoire.Cenotaph.Event.forgot peer).tells peer = some false := if_pos rfl
    rw [earlier] at known
    exact told_again denied known
  · intro ops still log before peer authorised rest split
    have inv := Meets.keeps Player.step_authorised still
      ⟨eachRight_nil _, fun _ none => (nomatch none), fun _ there => (nomatch there)⟩
    obtain ⟨right, known⟩ := inv.right before _ rest split
    refine ⟨right, fun older between earlier => ?_⟩
    have denied : (Event.forgot peer).tells peer = some false := if_pos rfl
    rw [earlier] at known
    exact told_again denied known

def playNatively (mode : Grimoire.Cenotaph.SessionMode) : List Grimoire.Cenotaph.Op :=
  [.trust "phone" .member, .setSessionMode mode 0, .join "phone" 0, .handleStream "phone",
    .line 0 .playback 1, .dispatch 0 1, .reply 0]

def removeNatively : List Grimoire.Cenotaph.Op :=
  [.removeController "phone" 2, .removePeerNode 0, .line 0 .playback 3, .dispatch 0 3]

def playInBrowser : List Op :=
  [.connect "phone", .resume 0 {}, .resume 0 { line := some .playback }, .resume 0 {},
    .resume 0 { now := 1 }, .resume 0 { now := 1 }, .resume 0 { now := 1 }]

def forgetInBrowser : List Op :=
  [.forgetController "phone", .resume 0 { line := some .playback, now := 2 }]

def phoneSession : PlayerSession := ⟨"K4T9QX", .selected, ["phone"], false, 0⟩

open Grimoire.Cenotaph (Endpoint) in
/-- In the selected mode the native player refuses a controller that it has removed. -/
theorem commands_authorised_while_trusted :
    (∀ before peer authorised rest,
      (runAll Endpoint.step (playNatively .selected ++ removeNatively) {}).log =
        before ++ Grimoire.Cenotaph.Event.dispatched peer authorised :: rest → authorised = true) ∧
    ∀ before peer authorised rest,
      (runAll Player.step playInBrowser
        { stored := some phoneSession, trusted := [⟨"phone", "phone", .viewer, 0⟩] }).log =
        before ++ Event.dispatched peer authorised :: rest → authorised = true :=
  have law := commands_authorised none (fun _ => none) (some phoneSession)
    [⟨"phone", "phone", .viewer, 0⟩]
  ⟨fun before peer authorised rest split => (law.1 (playNatively .selected ++ removeNatively)
      (by decide) before peer authorised rest split).1,
    fun before peer authorised rest split => (law.2 playInBrowser (by decide) before peer
      authorised rest split).1⟩

/-- Where everyone is let in, a phone that was removed still controls the native player on the stream
that it has. In the browser it does in any mode, by the session that the stream began with. -/
theorem forgotten_still_commands :
    (runAll Grimoire.Cenotaph.Endpoint.step (playNatively .everyone ++ removeNatively) {}).log =
      [.trusted "phone", .dispatched "phone" true, .forgot "phone", .dispatched "phone" false] ∧
    (runAll Player.step (playInBrowser ++ forgetInBrowser)
      { stored := some phoneSession, trusted := [⟨"phone", "phone", .viewer, 0⟩] }).log =
      [.dispatched "phone" true, .forgot "phone", .dispatched "phone" false] := by
  decide

end Tomb.Spume.Cenotaph
