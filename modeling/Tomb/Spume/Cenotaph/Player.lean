import Mathlib.Logic.Function.Basic
import Tomb.Spume.Cenotaph.PlayerSession

/-! The player in the browser: its stores, and the handlers of its connections and of its settings
panel, each of which waits at every call of a store, of the stream or of the backend. -/
namespace Tomb.Spume.Cenotaph
open Function (update)

structure TrustedController where
  (nodeId displayName : String)
  role : PeerRole
  pairedAt : Nat

structure PairRequest where
  (code displayName : String)
  deriving DecidableEq

inductive Line where
  /-- The request, when its schema accepts it. -/
  | pairRequest (request : Option PairRequest)
  | presenceQuery
  | subscribe
  | getStatus
  /-- A command that the backend carries out. -/
  | playback
  /-- The schema of the commands refuses the line. -/
  | unknown
  /-- The line is not JSON. -/
  | garbled
  deriving DecidableEq

structure Stream where
  peer : String
  role : Option PeerRole
  deriving DecidableEq

inductive Purpose where
  | pair (peer : String) (request : Option PairRequest)
  | serve (stream : Stream) (line : Line)
  | rotate
  | track
  deriving DecidableEq

inductive After where
  | ensured (purpose : Purpose)
  | joined (grantsAdmin : Bool)
  | rotated
  | touched (stream : Stream)
  | track
  deriving DecidableEq

inductive Await where
  | isTrusted (peer : String)
  | firstLine (peer : String) (trusted : Bool)
  | getTrusted (peer : String) (line : Line)
  | loadSession (purpose : Purpose)
  | saveSession (save : Save) (after : After)
  | listTrusted (peer : String) (request : PairRequest) (session : PlayerSession)
  | trust (peer : String) (request : PairRequest) (session : PlayerSession) (grantsAdmin : Bool)
  | reload
  | nextLine (stream : Stream) (session : PlayerSession)
  | dispatching (stream : Stream) (session : PlayerSession)
  | done
  deriving DecidableEq

inductive Event where
  /-- A pair request with the code gave the role; the role before it is noted. -/
  | paired (peer code : String) (role : PeerRole) (before : Option PeerRole)
  | trusted (peer : String)
  | forgot (peer : String)
  /-- The backend got a command, which the peer was authorised to send or not. -/
  | dispatched (peer : String) (authorised : Bool)
  deriving DecidableEq

structure Player where
  stored : Option PlayerSession := none
  trusted : List TrustedController := []
  failures : String → List Nat := fun _ => []
  /-- The session that the settings panel shows. -/
  signal : Option PlayerSession := none
  running : List Await := []
  /-- The sessions that were stored. -/
  saves : List Save := []
  log : List Event := []

/-- What a call gets when it goes on: a line of its stream, the time and the pin that it would
generate. -/
structure Input where
  line : Option Line := none
  now : Nat := 0
  pin : String := ""

inductive Op where
  | connect (peer : String)
  | initSessionSignal
  /-- The settings panel changes the session that it shows. -/
  | change (change : Change) (now : Nat)
  | trustController (nodeId displayName : String) (role : PeerRole) (now : Nat)
  | forgetController (nodeId : String)
  | resume (call : Nat) (input : Input)
  /-- The call throws. -/
  | fail (call : Nat)

def maxAttempts : Nat := 5

def windowMs : Nat := 60000

namespace Player

variable (s : Player)

def roleOf (peer : String) : Option PeerRole :=
  (s.trusted.find? (·.nodeId = peer)).map (·.role)

def recentFailures (peer : String) (now : Nat) : List Nat :=
  (s.failures peer).filter (fun ts => now < ts + windowMs)

@[grind =] def active (now : Nat) : Option PlayerSession :=
  s.stored.map fun session => if session.isIdle now then session.renewed session.pin now else session

def authorised (peer : String) (now : Nat) : Bool :=
  match s.roleOf peer with
  | none => false
  | some role => role = .admin || modeOf (s.active now) = .everyone ||
      peer ∈ allowedIn (s.active now)

def start (await : Await) : Player := { s with running := s.running ++ [await] }

def goto (call : Nat) (await : Await) : Player := { s with running := s.running.set call await }

def trustController (controller : TrustedController) : Player :=
  { s with trusted := s.trusted.filter (·.nodeId ≠ controller.nodeId) ++ [controller] }

def note (event : Event) : Player := { s with log := s.log ++ [event] }

def recordPairingFailure (peer : String) (now : Nat) : Player :=
  { s with failures := update s.failures peer (s.failures peer ++ [now]) }

def handlePairRequest (call : Nat) (peer : String) (request : Option PairRequest)
    (session : PlayerSession) (now : Nat) : Player :=
  let recent := s.recentFailures peer now
  let s := { s with failures := update s.failures peer recent }
  if maxAttempts ≤ recent.length then s.goto call .reload
  else
    match request with
    | none => (s.recordPairingFailure peer now).goto call .reload
    | some request =>
      if request.code ≠ session.pin then (s.recordPairingFailure peer now).goto call .reload
      else { s with failures := update s.failures peer [] }.goto call
        (.listTrusted peer request session)

def serveLine (call : Nat) (stream : Stream) (session : PlayerSession) (line : Line)
    (now : Nat) : Player :=
  if line ≠ .getStatus ∧ session.isPeerAllowedInSession stream.peer stream.role = false then
    s.goto call (.nextLine stream session)
  else
    match line with
    | .garbled => s.goto call .done
    | .playback =>
      (s.note (.dispatched stream.peer (s.authorised stream.peer now))).goto call
        (.dispatching stream session)
    | _ => s.goto call (.dispatching stream session)

def proceed (call : Nat) (session : PlayerSession) (input : Input) : Purpose → Player
  | .pair peer request => s.handlePairRequest call peer request session input.now
  | .serve _ .presenceQuery => s.goto call .done
  | .serve _ .subscribe => s.goto call .done
  | .serve stream line => s.serveLine call stream session line input.now
  | .rotate => s.goto call
      (.saveSession (.update (.regenerateSessionPin input.pin) session input.now) .track)
  | .track => { s with signal := some session }.goto call .done

def ensureActiveSession (call : Nat) (purpose : Purpose) (input : Input) : Player :=
  match s.stored with
  | none => s.goto call (.saveSession (.create input.pin input.now) (.ensured purpose))
  | some existing =>
    if existing.isIdle input.now then
      s.goto call (.saveSession (.update (.renew input.pin) existing input.now) (.ensured purpose))
    else s.proceed call existing input purpose

def saved (call : Nat) (session : PlayerSession) (input : Input) : After → Player
  | .ensured purpose => s.proceed call session input purpose
  | .joined true => s.goto call
      (.saveSession (.update (.regenerateSessionPin input.pin) session input.now) .rotated)
  | .joined false => s.goto call .reload
  | .rotated => s.goto call .reload
  | .touched stream => s.goto call (.nextLine stream session)
  | .track => { s with signal := some session }.goto call .done

def store (save : Save) : Player :=
  { s with stored := some save.session, saves := s.saves ++ [save] }

def resume (call : Nat) (input : Input) : Await → Player
  | .isTrusted peer => s.goto call (.firstLine peer (s.roleOf peer).isSome)
  | .firstLine peer trusted =>
    match input.line with
    | none => s.goto call .done
    | some (.pairRequest request) => s.goto call (.loadSession (.pair peer request))
    | some line => if trusted then s.goto call (.getTrusted peer line) else s.goto call .done
  | .getTrusted peer line => s.goto call (.loadSession (.serve ⟨peer, s.roleOf peer⟩ line))
  | .loadSession purpose => s.ensureActiveSession call purpose input
  | .saveSession save after => (s.store save).saved call save.session input after
  | .listTrusted peer request session =>
    s.goto call (.trust peer request session (s.trusted.isEmpty || session.adminGrantPending))
  | .trust peer request session grantsAdmin =>
    let role := if grantsAdmin then PeerRole.admin else .viewer
    ((s.trustController ⟨peer, request.displayName, role, input.now⟩).note
      (.paired peer request.code role (s.roleOf peer))).goto call
        (.saveSession (.update (.join peer) session input.now) (.joined grantsAdmin))
  | .reload => { s with signal := s.stored <|> s.signal }.goto call .done
  | .nextLine stream session =>
    match input.line with
    | none => s.goto call .done
    | some line => s.serveLine call stream session line input.now
  | .dispatching stream session =>
    s.goto call (.saveSession (.update .touch session input.now) (.touched stream))
  | .done => s

def step : Op → Player → Player
  | .connect peer, s => s.start (.isTrusted peer)
  | .initSessionSignal, s => s.start (.loadSession .track)
  | .change change now, s =>
    match s.signal, change with
    | some session, change => s.start (.saveSession (.update change session now) .track)
    | none, .regenerateSessionPin _ => s.start (.loadSession .rotate)
    | none, _ => s
  | .trustController nodeId displayName role now, s =>
    (s.trustController ⟨nodeId, displayName, role, now⟩).note (.trusted nodeId)
  | .forgetController nodeId, s =>
    { s with trusted := s.trusted.filter (·.nodeId ≠ nodeId) }.note (.forgot nodeId)
  | .resume call input, s =>
    match s.running[call]? with
    | some await => s.resume call input await
    | none => s
  | .fail call, s => s.goto call .done

def saving : Op → Option Save
  | .resume call _ =>
    match s.running[call]? with
    | some (.saveSession save _) => some save
    | _ => none
  | _ => none

def Quiet : Prop := ∀ await ∈ s.running, await = .done

instance : Decidable s.Quiet := inferInstanceAs (Decidable (∀ await ∈ s.running, await = .done))

/-- The later state has the same stores, and they had the same saves. -/
structure SameStores (s' : Player) : Prop where
  stored : s'.stored = s.stored
  trusted : s'.trusted = s.trusted
  saves : s'.saves = s.saves

variable {s}

theorem handlePairRequest_same (call : Nat) (peer : String) (request : Option PairRequest)
    (session : PlayerSession) (now : Nat) :
    s.SameStores (s.handlePairRequest call peer request session now) := by
  cases request with
  | none =>
    dsimp only [handlePairRequest]
    split <;> exact ⟨rfl, rfl, rfl⟩
  | some request =>
    dsimp only [handlePairRequest]
    split
    · exact ⟨rfl, rfl, rfl⟩
    · split <;> exact ⟨rfl, rfl, rfl⟩

theorem serveLine_same (call : Nat) (stream : Stream) (session : PlayerSession) (line : Line)
    (now : Nat) : s.SameStores (s.serveLine call stream session line now) := by
  unfold serveLine
  split
  · exact ⟨rfl, rfl, rfl⟩
  · split <;> exact ⟨rfl, rfl, rfl⟩

theorem proceed_same (call : Nat) (session : PlayerSession) (input : Input) (purpose : Purpose) :
    s.SameStores (s.proceed call session input purpose) := by
  unfold proceed
  split
  · exact handlePairRequest_same _ _ _ _ _
  · exact ⟨rfl, rfl, rfl⟩
  · exact ⟨rfl, rfl, rfl⟩
  · exact serveLine_same _ _ _ _ _
  · exact ⟨rfl, rfl, rfl⟩
  · exact ⟨rfl, rfl, rfl⟩

theorem ensureActiveSession_same (call : Nat) (purpose : Purpose) (input : Input) :
    s.SameStores (s.ensureActiveSession call purpose input) := by
  unfold ensureActiveSession
  split
  · exact ⟨rfl, rfl, rfl⟩
  · split
    · exact ⟨rfl, rfl, rfl⟩
    · exact proceed_same _ _ _ _

theorem saved_same (call : Nat) (session : PlayerSession) (input : Input) (after : After) :
    s.SameStores (s.saved call session input after) := by
  unfold saved
  split
  · exact proceed_same _ _ _ _
  all_goals exact ⟨rfl, rfl, rfl⟩

theorem step_resume {call : Nat} {input : Input} {await : Await}
    (waiting : s.running[call]? = some await) :
    step (.resume call input) s = s.resume call input await := by
  simp only [step, waiting]

theorem step_resume_none {call : Nat} {input : Input} (finished : s.running[call]? = none) :
    step (.resume call input) s = s := by
  simp only [step, finished]

theorem step_session (op : Op) (s : Player) :
    match s.saving op with
    | some save => (step op s).stored = some save.session ∧ (step op s).saves = s.saves ++ [save]
    | none => (step op s).stored = s.stored ∧ (step op s).saves = s.saves := by
  cases op with
  | connect peer => exact ⟨rfl, rfl⟩
  | initSessionSignal => exact ⟨rfl, rfl⟩
  | trustController nodeId displayName role now => exact ⟨rfl, rfl⟩
  | forgetController nodeId => exact ⟨rfl, rfl⟩
  | fail call => exact ⟨rfl, rfl⟩
  | change change now =>
    rw [saving]
    · unfold step
      dsimp only
      split <;> exact ⟨rfl, rfl⟩
    · exact fun _ _ same => Op.noConfusion same
  | resume call input =>
    cases waiting : s.running[call]? with
    | none =>
      rw [step_resume_none waiting]
      simp only [saving, waiting, and_self]
    | some await =>
      rw [step_resume waiting]
      simp only [saving, waiting]
      cases await with
      | saveSession save after =>
        have same := saved_same (s := s.store save) call save.session input after
        exact ⟨same.stored, same.saves⟩
      | loadSession purpose =>
        have same := ensureActiveSession_same (s := s) call purpose input
        exact ⟨same.stored, same.saves⟩
      | nextLine stream session =>
        dsimp only [resume]
        split
        · exact ⟨rfl, rfl⟩
        · rename_i line _
          have same := serveLine_same (s := s) call stream session line input.now
          exact ⟨same.stored, same.saves⟩
      | firstLine peer trusted =>
        dsimp only [resume]
        split
        · exact ⟨rfl, rfl⟩
        · exact ⟨rfl, rfl⟩
        · split <;> exact ⟨rfl, rfl⟩
      | isTrusted peer => exact ⟨rfl, rfl⟩
      | getTrusted peer line => exact ⟨rfl, rfl⟩
      | listTrusted peer request session => exact ⟨rfl, rfl⟩
      | trust peer request session grantsAdmin => exact ⟨rfl, rfl⟩
      | reload => exact ⟨rfl, rfl⟩
      | dispatching stream session => exact ⟨rfl, rfl⟩
      | done => exact ⟨rfl, rfl⟩

end Player

end Tomb.Spume.Cenotaph
