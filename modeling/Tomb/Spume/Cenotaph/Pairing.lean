import Tomb.Lib.Runs
import Tomb.Spume.Cenotaph.Player

/-! Pairing in the browser. The first pair request of all, and the first after the settings panel has
made an admin code, give the admin role; a new code then replaces the one that did. -/
namespace Tomb.Spume.Cenotaph
open Tomb.Lib

namespace Event

def code : Event → Option String
  | paired _ code _ _ => some code
  | _ => none

def adminCode : Event → Option String
  | paired _ code .admin _ => some code
  | _ => none

def Keeps : Event → Prop
  | paired _ _ role before => ∀ old ∈ before, role.level ≤ old.level
  | _ => True

variable {event : Event}

theorem code_of_adminCode {code : String} (told : event.adminCode = some code) :
    event.code = some code := by
  match event, told with
  | .paired _ _ .admin _, told => exact told

theorem adminCode_none (unpaired : event.code = none) : event.adminCode = none := by
  cases told : event.adminCode with
  | none => rfl
  | some code => exact absurd ((code_of_adminCode told).symm.trans unpaired) (Option.some_ne_none _)

theorem keeps_of_unpaired (unpaired : event.code = none) : event.Keeps := by
  cases event with
  | paired peer code role before => exact absurd unpaired (Option.some_ne_none code)
  | trusted peer => trivial
  | forgot peer => trivial
  | dispatched peer authorised => trivial

end Event

/-- The call makes its peer an admin, or has not yet replaced the code by which it did. -/
def Await.grants : Await → Bool
  | .trust _ _ _ grantsAdmin => grantsAdmin
  | .saveSession _ (.joined grantsAdmin) => grantsAdmin
  | .saveSession _ .rotated => true
  | _ => false

/-- A request that is listed has the pin of its session; what replaces a code is a new one. -/
def Await.Sound : Await → Prop
  | .listTrusted _ request session => request.code = session.pin
  | .saveSession save .rotated => save.newPin ≠ none
  | _ => True

namespace Player

variable {s s' : Player}

def adminCodes (s : Player) : List String := s.log.filterMap Event.adminCode

theorem eq_of_adminCodes_nodup {log : List Event} (once : (log.filterMap Event.adminCode).Nodup)
    {code : String} {a b : Event} (first : a ∈ log) (second : b ∈ log)
    (left : a.adminCode = some code) (right : b.adminCode = some code) : a = b := by
  induction log with
  | nil => cases first
  | cons event log ih =>
    have absent {c : Event} (told : event.adminCode = some code) (later : c ∈ log) :
        c.adminCode ≠ some code := by
      intro same
      rw [List.filterMap_cons, told, List.nodup_cons] at once
      exact once.1 (List.mem_filterMap.mpr ⟨c, later, same⟩)
    have later : (log.filterMap Event.adminCode).Nodup :=
      once.sublist ((List.sublist_cons_self event log).filterMap Event.adminCode)
    rcases List.mem_cons.mp first with rfl | first <;> rcases List.mem_cons.mp second with same | second
    · exact same.symm
    · exact absurd right (absent left second)
    · exact absurd left (absent (same ▸ right) first)
    · exact ih later first second

def Unpaired (s s' : Player) : Prop :=
  ∃ added, s'.log = s.log ++ added ∧ ∀ event ∈ added, event.code = none

theorem Unpaired.of_eq (same : s'.log = s.log) : Unpaired s s' :=
  ⟨[], same.trans (List.append_nil _).symm, fun _ none => (nomatch none)⟩

theorem Unpaired.adminCodes (unpaired : Unpaired s s') : s'.adminCodes = s.adminCodes := by
  obtain ⟨added, log, none⟩ := unpaired
  have silent : added.filterMap Event.adminCode = [] :=
    List.filterMap_eq_nil_iff.mpr fun event there => Event.adminCode_none (none event there)
  rw [Player.adminCodes, log, List.filterMap_append, silent, List.append_nil, Player.adminCodes]

theorem Unpaired.kept (unpaired : Unpaired s s') (kept : ∀ event ∈ s.log, event.Keeps) :
    ∀ event ∈ s'.log, event.Keeps := by
  obtain ⟨added, log, none⟩ := unpaired
  intro event there
  rw [log] at there
  rcases List.mem_append.mp there with old | new
  · exact kept event old
  · exact Event.keeps_of_unpaired (none event new)

/-- What holds when every code makes at most one admin and nobody loses rights by pairing. -/
structure PairedInOrder (s : Player) : Prop where
  sound : ∀ await ∈ s.running, await.Sound
  single : ∀ (i j : Nat) (a b : Await), s.running[i]? = some a → s.running[j]? = some b →
    a.grants = true → b.grants = true → i = j
  current : (∀ await ∈ s.running, await.grants = false) →
    ∀ pin, pinOf s.stored = some pin → pin ∉ s.adminCodes
  awaiting : ∀ peer request session,
    .trust peer request session true ∈ s.running → request.code ∉ s.adminCodes
  once : s.adminCodes.Nodup
  kept : ∀ event ∈ s.log, event.Keeps

structure Turn (call : Nat) (await : Await) (s s' : Player) : Prop where
  running : s'.running = s.running.set call await
  log : Unpaired s s'

variable {call : Nat} {await : Await}

theorem getElem?_turned {running : List Await} {i : Nat} {a : Await}
    (there : (running.set call await)[i]? = some a) :
    (i = call ∧ a = await) ∨ (i ≠ call ∧ running[i]? = some a) := by
  rw [List.getElem?_set] at there
  split at there
  · rename_i same
    split at there
    · exact .inl ⟨same.symm, (Option.some.inj there).symm⟩
    · cases there
  · rename_i other
    exact .inr ⟨Ne.symm other, there⟩

theorem mem_turned {running : List Await} {a : Await}
    (there : a ∈ running.set call await) : a = await ∨ a ∈ running :=
  (List.mem_or_eq_of_mem_set there).symm

theorem PairedInOrder.turn {before : Await} (inv : PairedInOrder s)
    (waiting : s.running[call]? = some before) (idle : before.grants = false)
    (turn : Turn call await s s') (plain : await.grants = false) (sound : await.Sound)
    (pins : ∀ pin, pinOf s'.stored = some pin → pinOf s.stored = some pin ∨ pin ∉ s.adminCodes) :
    PairedInOrder s' := by
  constructor
  · intro a there
    rw [turn.running] at there
    rcases mem_turned there with rfl | old
    · exact sound
    · exact inv.sound a old
  · intro i j a b left right grantsA grantsB
    rw [turn.running] at left right
    rcases getElem?_turned left with ⟨_, rfl⟩ | ⟨_, left⟩
    · exact absurd (plain.symm.trans grantsA) Bool.false_ne_true
    · rcases getElem?_turned right with ⟨_, rfl⟩ | ⟨_, right⟩
      · exact absurd (plain.symm.trans grantsB) Bool.false_ne_true
      · exact inv.single i j a b left right grantsA grantsB
  · intro free pin stored
    rw [turn.log.adminCodes]
    rcases pins pin stored with old | new
    · refine inv.current (fun a there => ?_) pin old
      obtain ⟨i, found⟩ := List.mem_iff_getElem?.mp there
      by_cases own : i = call
      · subst own
        rw [waiting] at found
        exact (Option.some.inj found) ▸ idle
      · refine free a ?_
        rw [turn.running]
        refine List.mem_iff_getElem?.mpr ⟨i, ?_⟩
        rw [List.getElem?_set_ne (Ne.symm own)]
        exact found
    · exact new
  · intro peer request session there
    rw [turn.log.adminCodes]
    rw [turn.running] at there
    rcases mem_turned there with rfl | old
    · exact absurd plain Bool.noConfusion
    · exact inv.awaiting peer request session old
  · rw [turn.log.adminCodes]
    exact inv.once
  · exact turn.log.kept inv.kept

theorem PairedInOrder.start (inv : PairedInOrder s) (plain : await.grants = false)
    (sound : await.Sound) : PairedInOrder (s.start await) := by
  have granting {i : Nat} {a : Await} (there : (s.running ++ [await])[i]? = some a)
      (grants : a.grants = true) : s.running[i]? = some a := by
    rcases Nat.lt_or_ge i s.running.length with old | new
    · rwa [List.getElem?_append_left old] at there
    · rw [List.getElem?_append_right new] at there
      have last := List.mem_singleton.mp (List.mem_of_getElem? there)
      subst last
      exact absurd (plain.symm.trans grants) Bool.false_ne_true
  constructor
  · intro a there
    rcases List.mem_append.mp there with old | new
    · exact inv.sound a old
    · rw [List.mem_singleton.mp new]
      exact sound
  · intro i j a b left right grantsA grantsB
    exact inv.single i j a b (granting left grantsA) (granting right grantsB) grantsA grantsB
  · intro free
    exact inv.current (fun a there => free a (List.mem_append_left _ there))
  · intro peer request session there
    rcases List.mem_append.mp there with old | new
    · exact inv.awaiting peer request session old
    · rw [← List.mem_singleton.mp new] at plain
      exact absurd plain Bool.noConfusion
  · exact inv.once
  · exact inv.kept

theorem PairedInOrder.elsewhere (inv : PairedInOrder s) (unpaired : Unpaired s s')
    (running : s'.running = s.running) (stored : s'.stored = s.stored) : PairedInOrder s' := by
  constructor
  · rw [running]
    exact inv.sound
  · rw [running]
    exact inv.single
  · rw [running, stored, unpaired.adminCodes]
    exact inv.current
  · rw [running, unpaired.adminCodes]
    exact inv.awaiting
  · rw [unpaired.adminCodes]
    exact inv.once
  · exact unpaired.kept inv.kept

theorem PairedInOrder.others {i : Nat} {before a : Await} (inv : PairedInOrder s)
    (waiting : s.running[call]? = some before) (granting : before.grants = true)
    (there : s.running[i]? = some a) (other : i ≠ call) : a.grants = false := by
  cases grants : a.grants with
  | false => rfl
  | true => exact absurd (inv.single i call a before there waiting grants granting) other

theorem PairedInOrder.hold {before : Await} (inv : PairedInOrder s)
    (waiting : s.running[call]? = some before)
    (alone : ∀ i a, s.running[i]? = some a → i ≠ call → a.grants = false)
    (running : s'.running = s.running.set call await) (granting : await.grants = true)
    (sound : await.Sound) (codes : ∀ peer request session,
      await = .trust peer request session true → request.code ∉ s'.adminCodes)
    (once : s'.adminCodes.Nodup) (kept : ∀ event ∈ s'.log, event.Keeps) : PairedInOrder s' := by
  have own {i : Nat} {a : Await} (there : s'.running[i]? = some a) (grants : a.grants = true) :
      i = call ∧ a = await := by
    rw [running] at there
    rcases getElem?_turned there with own | ⟨other, old⟩
    · exact own
    · exact absurd ((alone i a old other).symm.trans grants) Bool.false_ne_true
  constructor
  · intro a there
    rw [running] at there
    rcases mem_turned there with rfl | old
    · exact sound
    · exact inv.sound a old
  · intro i j a b left right grantsA grantsB
    rw [(own left grantsA).1, (own right grantsB).1]
  · intro free
    have bound : call < s.running.length := (List.getElem?_eq_some_iff.mp waiting).1
    have member : await ∈ s'.running := by
      rw [running]
      exact List.mem_set bound await
    exact absurd ((free await member).symm.trans granting) Bool.false_ne_true
  · intro peer request session there
    obtain ⟨i, found⟩ := List.mem_iff_getElem?.mp there
    exact codes peer request session (own found rfl).2.symm
  · exact once
  · exact kept

theorem PairedInOrder.replace {call : Nat} {before await : Await} {pin : String} (inv : PairedInOrder s)
    (waiting : s.running[call]? = some before) (granting : before.grants = true)
    (turn : Turn call await s s') (plain : await.grants = false) (sound : await.Sound)
    (stored : pinOf s'.stored = some pin) (new : pin ∉ s.adminCodes) : PairedInOrder s' := by
  constructor
  · intro a there
    rw [turn.running] at there
    rcases mem_turned there with rfl | old
    · exact sound
    · exact inv.sound a old
  · intro i j a b left right grantsA grantsB
    rw [turn.running] at left right
    rcases getElem?_turned left with ⟨_, rfl⟩ | ⟨other, left⟩
    · exact absurd (plain.symm.trans grantsA) Bool.false_ne_true
    · have idle := inv.others waiting granting left other
      exact absurd (idle.symm.trans grantsA) Bool.false_ne_true
  · intro _ shown same
    rw [turn.log.adminCodes]
    rw [stored] at same
    exact (Option.some.inj same) ▸ new
  · intro peer request session there
    rw [turn.log.adminCodes]
    rw [turn.running] at there
    rcases mem_turned there with rfl | old
    · exact absurd plain Bool.noConfusion
    · exact inv.awaiting peer request session old
  · rw [turn.log.adminCodes]
    exact inv.once
  · exact turn.log.kept inv.kept

def Plain (call : Nat) (s s' : Player) : Prop :=
  ∃ await, Turn call await s s' ∧ await.grants = false ∧ await.Sound

theorem plain_goto (plain : await.grants = false)
    (sound : await.Sound) : Plain call s (s.goto call await) :=
  ⟨await, ⟨rfl, .of_eq rfl⟩, plain, sound⟩

theorem handlePairRequest_plain (call : Nat) (peer : String) (request : Option PairRequest)
    (session : PlayerSession) (now : Nat) :
    Plain call s (s.handlePairRequest call peer request session now) := by
  cases request with
  | none =>
    dsimp only [handlePairRequest]
    split <;> exact ⟨.reload, ⟨rfl, .of_eq rfl⟩, rfl, trivial⟩
  | some request =>
    dsimp only [handlePairRequest]
    split
    · exact ⟨.reload, ⟨rfl, .of_eq rfl⟩, rfl, trivial⟩
    · split
      · exact ⟨.reload, ⟨rfl, .of_eq rfl⟩, rfl, trivial⟩
      · rename_i right
        exact ⟨.listTrusted peer request session, ⟨rfl, .of_eq rfl⟩, rfl, not_not.mp right⟩

theorem serveLine_plain (call : Nat) (stream : Stream) (session : PlayerSession) (line : Line)
    (now : Nat) : Plain call s (s.serveLine call stream session line now) := by
  unfold serveLine
  split
  · exact plain_goto rfl trivial
  · split
    · exact plain_goto rfl trivial
    · refine ⟨.dispatching stream session, ⟨rfl, _, rfl, ?_⟩, rfl, trivial⟩
      intro event there
      rw [List.mem_singleton.mp there]
      rfl
    · exact plain_goto rfl trivial

theorem proceed_plain (call : Nat) (session : PlayerSession) (input : Input) (purpose : Purpose) :
    Plain call s (s.proceed call session input purpose) := by
  unfold proceed
  split
  · exact handlePairRequest_plain _ _ _ _ _
  · exact plain_goto rfl trivial
  · exact plain_goto rfl trivial
  · exact serveLine_plain _ _ _ _ _
  · exact plain_goto rfl trivial
  · exact ⟨.done, ⟨rfl, .of_eq rfl⟩, rfl, trivial⟩

theorem ensureActiveSession_plain (call : Nat) (purpose : Purpose) (input : Input) :
    Plain call s (s.ensureActiveSession call purpose input) := by
  unfold ensureActiveSession
  split
  · exact plain_goto rfl trivial
  · split
    · exact plain_goto rfl trivial
    · exact proceed_plain _ _ _ _

/-- The call may go on: a request grants the admin role alone and by the pin that is stored, and one
that does not grant it comes from a viewer or a stranger; a save keeps the pin or stores one that
nobody has paired with. -/
def OrderlyAt (s : Player) : Await → Prop
  | .listTrusted _ _ session => s.trusted = [] ∨ session.adminGrantPending = true →
      (∀ await ∈ s.running, await.grants = false) ∧ pinOf s.stored = some session.pin
  | .trust peer _ _ grantsAdmin => grantsAdmin = false → ∀ role ∈ s.roleOf peer, role = .viewer
  | .saveSession save _ => (save.newPin = none → pinOf save.copy = pinOf s.stored) ∧
      ∀ pin ∈ save.newPin, ∀ event ∈ s.log, event.code ≠ some pin
  | _ => True

def Orderly : Op → Player → Prop
  | .resume call _, s => ∀ await ∈ s.running[call]?, s.OrderlyAt await
  | .fail call, s => ∀ await ∈ s.running[call]?, await.grants = false
  | _, _ => True

instance (s : Player) : (await : Await) → Decidable (s.OrderlyAt await)
  | .listTrusted _ _ session =>
    inferInstanceAs (Decidable (s.trusted = [] ∨ session.adminGrantPending = true →
      (∀ await ∈ s.running, await.grants = false) ∧ pinOf s.stored = some session.pin))
  | .trust peer _ _ grantsAdmin =>
    inferInstanceAs (Decidable (grantsAdmin = false → ∀ role ∈ s.roleOf peer, role = .viewer))
  | .saveSession save _ =>
    inferInstanceAs (Decidable ((save.newPin = none → pinOf save.copy = pinOf s.stored) ∧
      ∀ pin ∈ save.newPin, ∀ event ∈ s.log, event.code ≠ some pin))
  | .isTrusted _ => .isTrue trivial
  | .firstLine _ _ => .isTrue trivial
  | .getTrusted _ _ => .isTrue trivial
  | .loadSession _ => .isTrue trivial
  | .reload => .isTrue trivial
  | .nextLine _ _ => .isTrue trivial
  | .dispatching _ _ => .isTrue trivial
  | .done => .isTrue trivial

instance : (op : Op) → (s : Player) → Decidable (Orderly op s)
  | .resume call _, s => inferInstanceAs (Decidable (∀ await ∈ s.running[call]?, s.OrderlyAt await))
  | .fail call, s => inferInstanceAs (Decidable (∀ await ∈ s.running[call]?, await.grants = false))
  | .connect _, _ => .isTrue trivial
  | .initSessionSignal, _ => .isTrue trivial
  | .change _ _, _ => .isTrue trivial
  | .trustController _ _ _ _, _ => .isTrue trivial
  | .forgetController _, _ => .isTrue trivial

theorem pin_of_orderly {save : Save} {after : After} (orderly : s.OrderlyAt (.saveSession save after))
    {pin : String} (stored : pinOf (some save.session) = some pin) :
    pinOf s.stored = some pin ∨ save.newPin = some pin ∧ pin ∉ s.adminCodes := by
  have shown : pinOf (some save.session) = save.newPin.or (pinOf save.copy) := by
    match save with
    | .create .. => rfl
    | .update (.renew _) .. => rfl
    | .update (.regenerateAdminPin _) .. => rfl
    | .update (.regenerateSessionPin _) .. => rfl
    | .update .touch .. => rfl
    | .update (.join _) .. => rfl
    | .update (.setMode _) .. => rfl
    | .update (.leave _) .. => rfl
  cases generated : save.newPin with
  | none =>
    rw [shown, generated, Option.none_or, orderly.1 generated] at stored
    exact .inl stored
  | some new =>
    rw [shown, generated, Option.some_or] at stored
    refine .inr ⟨stored, fun used => ?_⟩
    obtain ⟨event, there, told⟩ := List.mem_filterMap.mp used
    exact orderly.2 pin (generated.trans stored) event there (Event.code_of_adminCode told)

theorem PairedInOrder.plain {before : Await} (inv : PairedInOrder s)
    (waiting : s.running[call]? = some before) (idle : before.grants = false)
    (plain : Plain call s s') (same : s'.stored = s.stored) : PairedInOrder s' := by
  obtain ⟨await, turn, granting, sound⟩ := plain
  refine inv.turn waiting idle turn granting sound fun pin stored => ?_
  rw [same] at stored
  exact .inl stored

variable {session : PlayerSession}

theorem listTrusted_keeps {peer : String} {request : PairRequest} (input : Input) (inv : PairedInOrder s)
    (waiting : s.running[call]? = some (.listTrusted peer request session))
    (orderly : s.OrderlyAt (.listTrusted peer request session)) :
    PairedInOrder (s.resume call input (.listTrusted peer request session)) := by
  dsimp only [resume]
  cases granting : s.trusted.isEmpty || session.adminGrantPending with
  | false => exact inv.plain waiting rfl (plain_goto rfl trivial) rfl
  | true =>
    rw [Bool.or_eq_true, List.isEmpty_iff] at granting
    obtain ⟨free, pin⟩ := orderly granting
    have right : request.code = session.pin :=
      inv.sound _ (List.mem_of_getElem? waiting)
    refine inv.hold waiting (fun i a there _ => free a (List.mem_of_getElem? there)) rfl rfl trivial
      ?_ inv.once inv.kept
    intro _ request' _ same
    injection same with _ sameRequest
    rw [← sameRequest, right]
    exact inv.current free session.pin pin

theorem trust_keeps {peer : String} {request : PairRequest}
    {grantsAdmin : Bool} (input : Input) (inv : PairedInOrder s)
    (waiting : s.running[call]? = some (.trust peer request session grantsAdmin))
    (orderly : s.OrderlyAt (.trust peer request session grantsAdmin)) :
    PairedInOrder (s.resume call input (.trust peer request session grantsAdmin)) := by
  have kept : ∀ event ∈ s.log ++ [Event.paired peer request.code
      (if grantsAdmin then PeerRole.admin else .viewer) (s.roleOf peer)], event.Keeps := by
    intro event there
    rcases List.mem_append.mp there with old | new
    · exact inv.kept event old
    · rw [List.mem_singleton.mp new]
      intro old held
      cases grantsAdmin with
      | true => cases old <;> decide
      | false =>
        rw [orderly rfl old held]
        decide
  cases grantsAdmin with
  | false =>
    have codes : (s.resume call input (.trust peer request session false)).adminCodes =
        s.adminCodes := (List.filterMap_append ..).trans (List.append_nil _)
    have other : PairedInOrder (s.goto call
        (.saveSession (.update (.join peer) session input.now) (.joined false))) :=
      inv.plain waiting rfl (plain_goto rfl trivial) rfl
    refine ⟨other.sound, other.single, ?_, ?_, ?_, kept⟩
    · rw [codes]
      exact other.current
    · rw [codes]
      exact other.awaiting
    · rw [codes]
      exact inv.once
  | true =>
    have codes : (s.resume call input (.trust peer request session true)).adminCodes =
        s.adminCodes ++ [request.code] := List.filterMap_append ..
    have fresh := inv.awaiting peer request session (List.mem_of_getElem? waiting)
    refine inv.hold waiting (fun i a there other => inv.others waiting rfl there other) rfl rfl
      trivial (fun _ _ _ same => Await.noConfusion same) ?_ kept
    rw [codes, List.nodup_append]
    refine ⟨inv.once, List.pairwise_singleton _ _, ?_⟩
    intro code there other new same
    rw [List.mem_singleton.mp new] at same
    exact fresh (same ▸ there)

theorem saveSession_keeps {save : Save} {after : After} (input : Input)
    (inv : PairedInOrder s) (waiting : s.running[call]? = some (.saveSession save after))
    (orderly : s.OrderlyAt (.saveSession save after)) :
    PairedInOrder (s.resume call input (.saveSession save after)) := by
  have plain (idle : (Await.saveSession save after).grants = false)
      (plain : Plain call (s.store save) ((s.store save).saved call save.session input after)) :
      PairedInOrder ((s.store save).saved call save.session input after) := by
    obtain ⟨await, turn, granting, sound⟩ := plain
    refine inv.turn waiting idle ⟨turn.running, turn.log⟩ granting sound fun pin stored => ?_
    rw [(saved_same call save.session input after).stored] at stored
    exact (pin_of_orderly orderly stored).imp id And.right
  cases after with
  | ensured purpose => exact plain rfl (proceed_plain call save.session input purpose)
  | touched stream => exact plain rfl (plain_goto rfl trivial)
  | track => exact plain rfl ⟨.done, ⟨rfl, .of_eq rfl⟩, rfl, trivial⟩
  | rotated =>
    have generated : save.newPin ≠ none := inv.sound _ (List.mem_of_getElem? waiting)
    obtain ⟨pin, new⟩ := Option.ne_none_iff_exists'.mp generated
    have stored : pinOf (some save.session) = some pin := by
      match save, new with
      | .create .., new => exact new
      | .update (.renew _) .., new => exact new
      | .update (.regenerateAdminPin _) .., new => exact new
      | .update (.regenerateSessionPin _) .., new => exact new
    have unused : pin ∉ s.adminCodes := by
      intro used
      obtain ⟨event, there, told⟩ := List.mem_filterMap.mp used
      exact orderly.2 pin new event there (Event.code_of_adminCode told)
    exact @PairedInOrder.replace s _ call _ .reload pin inv waiting rfl ⟨rfl, .of_eq rfl⟩ rfl trivial
      stored unused
  | joined grantsAdmin =>
    cases grantsAdmin with
    | false => exact plain rfl (plain_goto rfl trivial)
    | true =>
      exact inv.hold waiting (fun i a there other => inv.others waiting rfl there other) rfl rfl
        (Option.some_ne_none input.pin) (fun _ _ _ same => Await.noConfusion same) inv.once inv.kept

theorem step_keeps_pairing (op : Op) (s : Player) (orderly : Orderly op s) (inv : PairedInOrder s) :
    PairedInOrder (step op s) := by
  cases op with
  | connect peer => exact inv.start rfl trivial
  | initSessionSignal => exact inv.start rfl trivial
  | change change now =>
    unfold step
    dsimp only
    split
    · exact inv.start rfl trivial
    · exact inv.start rfl trivial
    · exact inv
  | trustController nodeId displayName role now =>
    have unpaired : Unpaired s (step (.trustController nodeId displayName role now) s) :=
      ⟨[.trusted nodeId], rfl, fun event there => by rw [List.mem_singleton.mp there]; rfl⟩
    exact inv.elsewhere unpaired rfl rfl
  | forgetController nodeId =>
    have unpaired : Unpaired s (step (.forgetController nodeId) s) :=
      ⟨[.forgot nodeId], rfl, fun event there => by rw [List.mem_singleton.mp there]; rfl⟩
    exact inv.elsewhere unpaired rfl rfl
  | fail call =>
    unfold step
    cases waiting : s.running[call]? with
    | none =>
      have same : s.running.set call .done = s.running :=
        List.set_eq_of_length_le (List.getElem?_eq_none_iff.mp waiting)
      exact inv.elsewhere (.of_eq rfl) same rfl
    | some await => exact inv.plain waiting (orderly await waiting) (plain_goto rfl trivial) rfl
  | resume call input =>
    cases waiting : s.running[call]? with
    | none =>
      rw [step_resume_none waiting]
      exact inv
    | some await =>
      have orderly := orderly await waiting
      rw [step_resume waiting]
      cases await with
      | listTrusted peer request session => exact listTrusted_keeps input inv waiting orderly
      | trust peer request session grantsAdmin => exact trust_keeps input inv waiting orderly
      | saveSession save after => exact saveSession_keeps input inv waiting orderly
      | loadSession purpose =>
        exact inv.plain waiting rfl (ensureActiveSession_plain call purpose input)
          (ensureActiveSession_same call purpose input).stored
      | nextLine stream session =>
        dsimp only [resume]
        split
        · exact inv.plain waiting rfl (plain_goto rfl trivial) rfl
        · exact inv.plain waiting rfl (serveLine_plain _ _ _ _ _) (serveLine_same _ _ _ _ _).stored
      | firstLine peer trusted =>
        dsimp only [resume]
        split
        · exact inv.plain waiting rfl (plain_goto rfl trivial) rfl
        · exact inv.plain waiting rfl (plain_goto rfl trivial) rfl
        · split
          · exact inv.plain waiting rfl (plain_goto rfl trivial) rfl
          · exact inv.plain waiting rfl (plain_goto rfl trivial) rfl
      | isTrusted peer => exact inv.plain waiting rfl (plain_goto rfl trivial) rfl
      | getTrusted peer line => exact inv.plain waiting rfl (plain_goto rfl trivial) rfl
      | reload =>
        exact inv.plain waiting rfl ⟨.done, ⟨rfl, .of_eq rfl⟩, rfl, trivial⟩ rfl
      | dispatching stream session => exact inv.plain waiting rfl (plain_goto rfl trivial) rfl
      | done => exact inv

/-- A request with a wrong pin, or none that its schema accepts, is answered without a change. -/
theorem handlePairRequest_wrong {request : Option PairRequest}
    (wrong : ∀ told ∈ request, told.code ≠ session.pin) (call : Nat) (peer : String) (now : Nat) :
    s.SameStores (s.handlePairRequest call peer request session now) ∧
      (s.handlePairRequest call peer request session now).running = s.running.set call .reload := by
  refine ⟨handlePairRequest_same call peer request session now, ?_⟩
  cases request with
  | none =>
    dsimp only [handlePairRequest]
    split <;> rfl
  | some told =>
    dsimp only [handlePairRequest]
    split
    · rfl
    · rw [if_pos (wrong told rfl)]
      rfl

/-- Where the requests that grant the admin role come one after the other and nobody with more than
the least rights pairs again, a pin makes one admin and pairing takes no rights away. -/
theorem pairing_grants_once (stored : Option PlayerSession) (trusted : List TrustedController)
    (ops : List Op) (orderly : Meets step Orderly ops { stored, trusted }) :
    let s := runAll step ops { stored, trusted }
    (∀ p q code before before', .paired p code .admin before ∈ s.log →
      .paired q code .admin before' ∈ s.log → p = q) ∧
    (∀ peer code role before, .paired peer code role before ∈ s.log →
      ∀ old ∈ before, role.level ≤ old.level) ∧
    ∀ call peer request session now, (∀ told ∈ request, told.code ≠ session.pin) →
      s.SameStores (s.handlePairRequest call peer request session now) ∧
        (s.handlePairRequest call peer request session now).running =
          s.running.set call .reload := by
  have none {event : Event} (there : event ∈ []) : False := nomatch there
  have inv := Meets.keeps step_keeps_pairing orderly
    ⟨fun _ there => (nomatch there), fun i j a b there => (nomatch there),
      fun _ _ _ there => (nomatch there), fun _ _ _ there => (nomatch there), List.nodup_nil,
      fun _ there => (nomatch there)⟩
  refine ⟨?_, fun peer code role before there => inv.kept _ there,
    fun call peer request session now wrong => handlePairRequest_wrong wrong call peer now⟩
  intro p q code before before' first second
  have same := eq_of_adminCodes_nodup inv.once first second rfl rfl
  injection same

/-- A connection of the peer, at its turns, sends a pair request as far as the list. -/
def pairs (call : Nat) (code peer : String) : List Op :=
  [.connect peer, .resume call {},
    .resume call { line := some (.pairRequest (some ⟨code, peer⟩)) }, .resume call {}]

def pairInTurn : List Op :=
  pairs 0 "K4T9QX" "phone" ++ [Op.resume 0 {}, Op.resume 0 {}, Op.resume 0 { pin := "M2R7WB" },
    Op.resume 0 {}, Op.resume 0 {}] ++ pairs 1 "M2R7WB" "tablet" ++
    [Op.resume 1 {}, Op.resume 1 {}, Op.resume 1 {}]

theorem pairing_grants_once_in_turn :
    let s := runAll step pairInTurn { stored := some (freshSession "K4T9QX" 0), trusted := [] }
    ∀ p q code before before', .paired p code .admin before ∈ s.log →
      .paired q code .admin before' ∈ s.log → p = q :=
  (pairing_grants_once (some (freshSession "K4T9QX" 0)) [] pairInTurn (by decide)).1

/-- Both requests list the controllers before either peer is one of them, and both become admins by
one code. Then the phone pairs again, by the code that is shown now, and is no admin any more. -/
theorem pairing_grants_twice :
    let s := runAll step (pairs 0 "K4T9QX" "phone" ++ pairs 1 "K4T9QX" "tablet" ++
      [Op.resume 0 {}, Op.resume 1 {}, Op.resume 0 {}, Op.resume 1 {}, Op.resume 0 { pin := "M2R7WB" },
        Op.resume 1 { pin := "X3C8VN" }, Op.resume 0 {}, Op.resume 1 {}, Op.resume 0 {}, Op.resume 1 {}] ++
      pairs 2 "X3C8VN" "phone" ++ [Op.resume 2 {}, Op.resume 2 {}, Op.resume 2 {}, Op.resume 2 {}])
      { stored := some (freshSession "K4T9QX" 0) }
    s.Quiet ∧ s.log = [.paired "phone" "K4T9QX" .admin none, .paired "tablet" "K4T9QX" .admin none,
      .paired "phone" "X3C8VN" .viewer (some .admin)] := by
  decide

end Player

end Tomb.Spume.Cenotaph
