import Tomb.Lib.Entries
import Tomb.Lib.Runs
import Tomb.Spume.Cenotaph.Player

/-! Whether the stored session reflects all that was done to it. The last operation that says
something about a field decides it. -/
namespace Tomb.Spume.Cenotaph
open Tomb.Lib

/-- The stored session is what all the saves together have made of the first one. -/
structure Reflects (saves : List Save) (first stored : Option PlayerSession) : Prop where
  pin : pinOf stored = (lastTold Save.newPin saves).or (pinOf first)
  mode : modeOf stored = (lastTold Save.newMode saves).getD (modeOf first)
  allowed : ∀ peer, decide (peer ∈ allowedIn stored) =
    (lastTold (Save.admits peer) saves).getD (decide (peer ∈ allowedIn first))
  grant : grantOf stored = (lastTold Save.newGrant saves).getD (grantOf first)

theorem Reflects.concat {saves : List Save} {first stored : Option PlayerSession} {save : Save}
    (reflects : Reflects saves first stored) (agrees : save.Agrees stored) :
    Reflects (saves ++ [save]) first (some save.session) := by
  have chained : ∀ {α : Type} (said before : Option α) (initial : α),
      said.getD (before.getD initial) = (said.or before).getD initial := by
    intro α said before initial
    cases said <;> rfl
  constructor
  · rw [agrees.pin_stored, reflects.pin, lastTold_concat, Option.or_assoc]
  · rw [agrees.mode_stored, reflects.mode, lastTold_concat, chained]
  · intro peer
    rw [agrees.allowed_stored, reflects.allowed peer, lastTold_concat, chained]
  · rw [agrees.grant_stored, reflects.grant, lastTold_concat, chained]

namespace Player

/-- The session that the operation stores was computed from a copy that is not outdated. -/
def Current (op : Op) (s : Player) : Prop := ∀ save ∈ s.saving op, save.Agrees s.stored

instance (op : Op) (s : Player) : Decidable (Current op s) :=
  inferInstanceAs (Decidable (∀ save ∈ s.saving op, save.Agrees s.stored))

theorem step_reflects {first : Option PlayerSession} (op : Op) (s : Player)
    (current : Current op s) (reflects : Reflects s.saves first s.stored) :
    Reflects (step op s).saves first (step op s).stored := by
  have session := step_session op s
  cases saving : s.saving op with
  | none =>
    simp only [saving] at session
    rw [session.1, session.2]
    exact reflects
  | some save =>
    simp only [saving] at session
    rw [session.1, session.2]
    exact reflects.concat (current save saving)

theorem pin_retired {saves older newer : List Save} {save : Save}
    {first stored : Option PlayerSession} (reflects : Reflects saves first stored)
    (split : saves = older ++ save :: newer) (generated : save.newPin ≠ none) :
    pinOf stored ∈ (save :: newer).map Save.newPin := by
  obtain ⟨last, there, pin, told, final⟩ := lastTold_cons generated newer
  rw [reflects.pin, split, lastTold_append, final, Option.some_or, Option.some_or]
  exact List.mem_map.mpr ⟨last, there, told⟩

/-- Where no save is computed from an outdated copy, the stored session reflects every operation,
and a pin that was replaced does not come back. -/
theorem session_updates_kept (stored : Option PlayerSession) (trusted : List TrustedController)
    (ops : List Op) (current : Meets step Current ops { stored, trusted }) :
    let s := runAll step ops { stored, trusted }
    Reflects s.saves stored s.stored ∧
      ∀ older save newer, s.saves = older ++ save :: newer → save.newPin ≠ none →
        pinOf s.stored ∈ (save :: newer).map Save.newPin := by
  have reflects := @Meets.keeps _ _ step Current (fun s => Reflects s.saves stored s.stored)
    step_reflects ops _ current ⟨rfl, rfl, fun _ => rfl, rfl⟩
  exact ⟨reflects, fun older save newer split generated => pin_retired reflects split generated⟩

def gathering : PlayerSession := ⟨"K4T9QX", .selected, ["phone"], false, 0⟩

def phone : TrustedController := ⟨"phone", "phone", .viewer, 0⟩

def phonePlays : List Op :=
  [.initSessionSignal, .resume 0 {}, .connect "phone", .resume 1 {},
    .resume 1 { line := some .playback }, .resume 1 {}, .resume 1 {}]

/-- The command ends and its touch is stored before the pin is replaced and the phone leaves. -/
theorem session_updates_kept_in_order :
    let s := runAll step (phonePlays ++ [Op.resume 1 { now := 5 }, Op.resume 1 {}, Op.resume 1 {},
      Op.initSessionSignal, Op.resume 2 {}, Op.change (.regenerateSessionPin "M2R7WB") 6, Op.resume 3 {},
      Op.change (.leave "phone") 7, Op.resume 4 {}]) { stored := some gathering, trusted := [phone] }
    pinOf s.stored ∈ [some "M2R7WB", none] ∧ Reflects s.saves (some gathering) s.stored := by
  have kept := session_updates_kept (some gathering) [phone] (phonePlays ++
    [Op.resume 1 { now := 5 }, Op.resume 1 {}, Op.resume 1 {}, Op.initSessionSignal, Op.resume 2 {},
      Op.change (.regenerateSessionPin "M2R7WB") 6, Op.resume 3 {}, Op.change (.leave "phone") 7,
      Op.resume 4 {}]) (by decide)
  exact ⟨kept.2 [.update .touch gathering 5]
    (.update (.regenerateSessionPin "M2R7WB") (gathering.touchSession 5) 6)
    [.update (.leave "phone") ((gathering.touchSession 5).regenerateSessionPin "M2R7WB" 6) 7]
    rfl (Option.some_ne_none _), kept.1⟩

/-- Here the pin is replaced and the phone leaves while its command is carried out; the touch then
stores the session that the phone came with. -/
theorem session_update_lost :
    let s := runAll step (phonePlays ++ [Op.change (.regenerateSessionPin "M2R7WB") 6, Op.resume 2 {},
      Op.change (.leave "phone") 7, Op.resume 3 {}, Op.resume 1 { now := 8 }, Op.resume 1 {}, Op.resume 1 {}])
      { stored := some gathering, trusted := [phone] }
    s.Quiet ∧ lastTold Save.newPin s.saves = some "M2R7WB" ∧ pinOf s.stored = some "K4T9QX" ∧
      lastTold (Save.admits "phone") s.saves = some false ∧ "phone" ∈ allowedIn s.stored := by
  decide

end Player

end Tomb.Spume.Cenotaph
