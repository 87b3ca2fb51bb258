import Mathlib.Logic.Function.Basic
import Tomb.Lib.Runs
import Tomb.Lib.Table

/-! The cache of the blobs that a node serves to its peers: the ids that are tracked, each with the
timer that releases it, and the blobs in the node's own store, which knows them by their hash. A
node that cannot import, which the server refuses, is left out. -/
namespace Tomb.Reliquary.Transfer
open Function (update update_self update_of_ne)
open Tomb.Lib

structure ServedBlobInfo where
  blake3 : String
  size : Nat
  mime : Option String
  deriving DecidableEq

structure ServedEntry where
  id : String
  info : ServedBlobInfo
  due : Nat
  deriving DecidableEq

structure Blob where
  size : Nat
  mime : Option String

/-- A call that waits. `requesting` waits for the `resolve` of `serveBlobRequest`, and `resolved` is
the serve that goes on with its blob; the store has the bytes of an `imported` one. -/
inductive ServeCall where
  | requesting (id : String)
  | resolving (id : String)
  | resolved (id : String) (blob : Blob)
  | importing (id : String) (blob : Blob)
  | imported (id : String) (info : ServedBlobInfo)

def ServeCall.holds : ServeCall → Option String
  | imported _ info => some info.blake3
  | _ => none

/-- What a call gets that waits: a blob, the hash of an import, or nothing if there is no such blob
or something failed. -/
inductive Answer where
  | blob (blob : Blob)
  | imported (blake3 : String)
  | nothing

structure BlobServer where
  releaseAfterMs : Nat
  served : Table ServedEntry.id := ∅
  /-- The hashes of the blobs in the node's store. -/
  store : List String := []
  calls : List ServeCall := []
  now : Nat := 0
  /-- When an id was last served or touched, since it was last released. -/
  seen : String → Option Nat := fun _ => none
  /-- The server was disposed, and nothing was asked of it since. -/
  disposed : Bool := false

inductive Op where
  | serve (id : String)
  | request (id : String)
  | settle (call : Nat) (answer : Answer)
  | touch (id : String)
  | release (id : String)
  | expire (id : String)
  | dispose
  | wait (ms : Nat)

namespace BlobServer

variable (s : BlobServer)

def await (call : ServeCall) : BlobServer := { s with calls := s.calls ++ [call] }

def scheduleRelease (id : String) (info : ServedBlobInfo) : BlobServer :=
  { s with
    served := s.served.upsert ⟨id, info, s.now + s.releaseAfterMs⟩
    seen := update s.seen id (some s.now) }

def releaseFromNode (blake3 : String) : BlobServer :=
  { s with store := s.store.filter (· ≠ blake3) }

def serve (id : String) : BlobServer :=
  match s.served.get id with
  | some cached => s.scheduleRelease id cached.info
  | none => s.await (.resolving id)

def touch (id : String) : BlobServer :=
  match s.served.get id with
  | some cached => s.scheduleRelease id cached.info
  | none => s

def serveBlobRequest (id : String) : BlobServer :=
  match s.served.get id with
  | some _ => s.touch id
  | none => s.await (.requesting id)

def forget (entry : ServedEntry) : BlobServer :=
  releaseFromNode { s with served := s.served.deleteWhere (·.id = entry.id) } entry.info.blake3

def release (id : String) : BlobServer :=
  match s.served.get id with
  | some entry => { s.forget entry with seen := update s.seen id none }
  | none => s

def expire (id : String) : BlobServer :=
  match s.served.get id with
  | some entry => if entry.due ≤ s.now then s.forget entry else s
  | none => s

def dispose : BlobServer :=
  { s.served.rows.foldl (fun s entry => s.releaseFromNode entry.info.blake3) s with
    served := ∅
    seen := fun _ => none
    disposed := true }

def resume : ServeCall → Answer → BlobServer
  | .requesting id, .blob blob =>
    match s.served.get id with
    | some cached => s.scheduleRelease id cached.info
    | none => s.await (.resolved id blob)
  | .resolving id, .blob blob => s.await (.importing id blob)
  | .resolved id blob, _ => s.await (.importing id blob)
  | .importing id blob, .imported blake3 =>
    { s with store := s.store.insert blake3 }.await (.imported id ⟨blake3, blob.size, blob.mime⟩)
  | .imported id info, _ => s.scheduleRelease id info
  | .requesting _, _ | .resolving _, _ | .importing _ _, _ => s

def settle (i : Nat) (answer : Answer) : BlobServer :=
  match s.calls[i]? with
  | some call => resume { s with calls := s.calls.eraseIdx i } call answer
  | none => s

def step : Op → BlobServer → BlobServer
  | .serve id, s => { s with disposed := false }.serve id
  | .request id, s => { s with disposed := false }.serveBlobRequest id
  | .settle call answer, s => s.settle call answer
  | .touch id, s => s.touch id
  | .release id, s => s.release id
  | .expire id, s => s.expire id
  | .dispose, s => s.dispose
  | .wait ms, s => { s with now := s.now + ms }

/-- Some other tracked id or some call needs the bytes of the entry. -/
def Shared (entry : ServedEntry) : Prop :=
  (∃ other ∈ s.served.rows, other.id ≠ entry.id ∧ other.info.blake3 = entry.info.blake3) ∨
    ∃ call ∈ s.calls, call.holds = some entry.info.blake3

instance (entry : ServedEntry) : Decidable (s.Shared entry) :=
  inferInstanceAs (Decidable ((∃ other ∈ s.served.rows, _ ∧ _) ∨ ∃ call ∈ s.calls, _))

/-- A serve that tracks its id anew leaves no bytes behind that nothing needs any more. -/
def LeavesNone : Option ServeCall → Prop
  | some (.imported id _) => ∀ entry ∈ s.served.rows, entry.id = id → s.Shared entry
  | _ => True

instance : (call : Option ServeCall) → Decidable (s.LeavesNone call)
  | some (.imported id _) =>
    inferInstanceAs (Decidable (∀ entry ∈ s.served.rows, entry.id = id → s.Shared entry))
  | none | some (.requesting _) | some (.resolving _) | some (.resolved _ _)
  | some (.importing _ _) => .isTrue trivial

/-- An id is released when nothing else needs its bytes, a serve leaves no bytes behind, and the
server is disposed when no call waits. -/
def Fits : Op → BlobServer → Prop
  | .release id, s => ∀ entry ∈ s.served.rows, entry.id = id → ¬ s.Shared entry
  | .expire id, s => ∀ entry ∈ s.served.rows, entry.id = id → entry.due ≤ s.now → ¬ s.Shared entry
  | .settle i _, s => s.LeavesNone s.calls[i]?
  | .dispose, s => s.calls = []
  | _, _ => True

instance : (op : Op) → (s : BlobServer) → Decidable (Fits op s)
  | .release id, s =>
    inferInstanceAs (Decidable (∀ entry ∈ s.served.rows, entry.id = id → ¬ s.Shared entry))
  | .expire id, s => inferInstanceAs (Decidable
      (∀ entry ∈ s.served.rows, entry.id = id → entry.due ≤ s.now → ¬ s.Shared entry))
  | .settle i _, s => inferInstanceAs (Decidable (s.LeavesNone s.calls[i]?))
  | .dispose, s => inferInstanceAs (Decidable (s.calls = []))
  | .serve _, _ | .request _, _ | .touch _, _ | .wait _, _ => .isTrue trivial

/-- The store has the bytes of what is tracked and of the calls that imported them, and no others.
An id that was served or touched is tracked until its time is up. -/
structure Sound (s : BlobServer) : Prop where
  tracked : ∀ entry ∈ s.served, entry.info.blake3 ∈ s.store
  imported : ∀ call ∈ s.calls, ∀ blake3, call.holds = some blake3 → blake3 ∈ s.store
  needed : ∀ blake3 ∈ s.store, (∃ entry ∈ s.served, entry.info.blake3 = blake3) ∨
    ∃ call ∈ s.calls, call.holds = some blake3
  seen : ∀ id last, s.seen id = some last →
    (∃ entry ∈ s.served, entry.id = id ∧ entry.due = last + s.releaseAfterMs) ∨
      last + s.releaseAfterMs ≤ s.now
  disposed : s.disposed = true → s.served.rows = [] ∧ s.calls = []

section Steps

variable {s : BlobServer}

theorem fresh_sound (releaseAfterMs : Nat) : Sound { releaseAfterMs } where
  tracked entry member := absurd member (Table.not_mem_empty entry)
  imported _ member := (nomatch member)
  needed _ member := (nomatch member)
  seen _ _ was := (nomatch was)
  disposed closed := (nomatch closed)

theorem Sound.ask (sound : Sound s) : Sound { s with disposed := false } :=
  { sound with disposed := fun closed => (nomatch closed) }

variable {call : ServeCall}

theorem Sound.await (sound : Sound s) (going : s.disposed = false)
    (imported : ∀ blake3, call.holds = some blake3 → blake3 ∈ s.store) : Sound (s.await call) where
  tracked := sound.tracked
  imported := by
    intro other member
    rcases List.mem_append.mp member with old | new
    · exact sound.imported other old
    · rw [List.mem_singleton.mp new]
      exact imported
  needed := by
    intro blake3 held
    refine (sound.needed blake3 held).imp_right ?_
    rintro ⟨call, member, holds⟩
    exact ⟨call, List.mem_append_left _ member, holds⟩
  seen := sound.seen
  disposed closed := absurd (going.symm.trans closed) Bool.false_ne_true

/-- An id is tracked, or tracked anew, when the bytes are there and no others lose what needs
them. -/
theorem Sound.schedule (sound : Sound s) (going : s.disposed = false) {calls : List ServeCall}
    (sub : ∀ call ∈ calls, call ∈ s.calls) {id : String} {info : ServedBlobInfo}
    (there : info.blake3 ∈ s.store)
    (needed : ∀ blake3 ∈ s.store, blake3 = info.blake3 ∨
      (∃ entry ∈ s.served, entry.id ≠ id ∧ entry.info.blake3 = blake3) ∨
      ∃ call ∈ calls, call.holds = some blake3) :
    Sound ({ s with calls }.scheduleRelease id info) where
  tracked := by
    intro entry member
    rcases (Table.mem_upsert _ _ _).mp member with rfl | ⟨known, _⟩
    · exact there
    · exact sound.tracked entry known
  imported call member := sound.imported call (sub call member)
  needed := by
    intro blake3 held
    rcases needed blake3 held with rfl | ⟨entry, known, other, same⟩ | call
    · exact .inl ⟨_, (Table.mem_upsert _ _ _).mpr (.inl rfl), rfl⟩
    · exact .inl ⟨entry, (Table.mem_upsert _ _ _).mpr (.inr ⟨known, other⟩), same⟩
    · exact .inr call
  seen := by
    intro other last was
    change update s.seen id (some s.now) other = some last at was
    by_cases same : other = id
    · subst same
      rw [update_self] at was
      rw [← Option.some.inj was]
      exact .inl ⟨_, (Table.mem_upsert _ _ _).mpr (.inl rfl), rfl, rfl⟩
    · rw [update_of_ne same] at was
      refine (sound.seen other last was).imp_left ?_
      rintro ⟨entry, known, own, due⟩
      refine ⟨entry, (Table.mem_upsert _ _ _).mpr (.inr ⟨known, ?_⟩), own, due⟩
      rw [own]
      exact same
  disposed closed := absurd (going.symm.trans closed) Bool.false_ne_true

theorem Sound.going_of_mem (sound : Sound s) {entry : ServedEntry} (member : entry ∈ s.served) :
    s.disposed = false := by
  cases closed : s.disposed with
  | false => rfl
  | true =>
    rw [Table.mem_def, (sound.disposed closed).1] at member
    cases member

theorem Sound.retrack (sound : Sound s) {id : String} {cached : ServedEntry}
    (found : s.served.get id = some cached) : Sound (s.scheduleRelease id cached.info) := by
  obtain ⟨member, own⟩ := (Table.get_eq_some _ _ _).mp found
  apply sound.schedule (sound.going_of_mem member) (fun _ call => call)
  · exact sound.tracked cached member
  · intro blake3 held
    rcases sound.needed blake3 held with ⟨entry, known, same⟩ | call
    · by_cases other : entry.id = id
      · have equal := s.served.eq_of_key_eq known member (other.trans own.symm)
        subst equal
        exact .inl same.symm
      · exact .inr (.inl ⟨entry, known, other, same⟩)
    · exact .inr (.inr call)

theorem Sound.touch (sound : Sound s) (id : String) : Sound (s.touch id) := by
  unfold BlobServer.touch
  split
  · rename_i found
    exact sound.retrack found
  · exact sound

theorem Sound.serve (sound : Sound s) (going : s.disposed = false) (id : String) :
    Sound (s.serve id) := by
  unfold BlobServer.serve
  split
  · rename_i found
    exact sound.retrack found
  · exact sound.await going fun _ none => (nomatch none)

theorem Sound.request (sound : Sound s) (going : s.disposed = false) (id : String) :
    Sound (s.serveBlobRequest id) := by
  unfold serveBlobRequest
  split
  · exact sound.touch id
  · exact sound.await going fun _ none => (nomatch none)

theorem mem_of_eraseIdx {calls : List ServeCall} {i : Nat} {other : ServeCall}
    (found : calls[i]? = some call) (member : other ∈ calls) :
    other = call ∨ other ∈ calls.eraseIdx i := by
  obtain ⟨j, there⟩ := List.mem_iff_getElem?.mp member
  by_cases same : j = i
  · rw [same, found] at there
    exact .inl (Option.some.inj there).symm
  · exact .inr (List.mem_eraseIdx_iff_getElem?.mpr ⟨j, same, there⟩)

theorem Sound.drop (sound : Sound s) {i : Nat} (found : s.calls[i]? = some call)
    (holds : call.holds = none) : Sound { s with calls := s.calls.eraseIdx i } where
  tracked := sound.tracked
  imported other member := sound.imported other (List.mem_of_mem_eraseIdx member)
  needed := by
    intro blake3 held
    refine (sound.needed blake3 held).imp_right ?_
    rintro ⟨other, member, same⟩
    rcases mem_of_eraseIdx found member with rfl | left
    · rw [holds] at same
      cases same
    · exact ⟨other, left, same⟩
  seen := sound.seen
  disposed closed := by
    obtain ⟨none, calls⟩ := sound.disposed closed
    refine ⟨none, ?_⟩
    show s.calls.eraseIdx i = []
    rw [calls]
    rfl

theorem Sound.store (sound : Sound s) (going : s.disposed = false) (blake3 id : String)
    (blob : Blob) : Sound ({ s with store := s.store.insert blake3 }.await
      (.imported id ⟨blake3, blob.size, blob.mime⟩)) where
  tracked entry member := List.mem_insert_of_mem (sound.tracked entry member)
  imported := by
    intro call member other holds
    rcases List.mem_append.mp member with old | new
    · exact List.mem_insert_of_mem (sound.imported call old other holds)
    · rw [List.mem_singleton.mp new] at holds
      cases holds
      exact List.mem_insert_self
  needed := by
    intro other held
    rcases List.mem_insert_iff.mp held with rfl | before
    · exact .inr ⟨_, List.mem_append_right _ (.head _), rfl⟩
    · refine (sound.needed other before).imp_right ?_
      rintro ⟨call, member, holds⟩
      exact ⟨call, List.mem_append_left _ member, holds⟩
  seen := sound.seen
  disposed closed := absurd (going.symm.trans closed) Bool.false_ne_true

/-- A serve ends, and leaves nothing behind in the store that nothing needs. -/
theorem Sound.track (sound : Sound s) (going : s.disposed = false) {i : Nat} {id : String}
    {info : ServedBlobInfo} (found : s.calls[i]? = some (.imported id info))
    (leaves : ∀ entry ∈ s.served.rows, entry.id = id → s.Shared entry) :
    Sound ({ s with calls := s.calls.eraseIdx i }.scheduleRelease id info) := by
  have call {blake3 : String} (held : ∃ call ∈ s.calls, call.holds = some blake3) :
      blake3 = info.blake3 ∨ ∃ call ∈ s.calls.eraseIdx i, call.holds = some blake3 := by
    obtain ⟨other, member, holds⟩ := held
    rcases mem_of_eraseIdx found member with rfl | left
    · exact .inl (Option.some.inj holds).symm
    · exact .inr ⟨other, left, holds⟩
  apply sound.schedule going (fun _ => List.mem_of_mem_eraseIdx)
  · exact sound.imported _ (List.mem_of_getElem? found) info.blake3 rfl
  · intro blake3 held
    rcases sound.needed blake3 held with ⟨entry, known, rfl⟩ | calls
    · by_cases other : entry.id = id
      · rcases leaves entry known other with ⟨again, tracked, differs, same⟩ | calls
        · exact .inr (.inl ⟨again, tracked, other ▸ differs, same⟩)
        · exact (call calls).imp_right .inr
      · exact .inr (.inl ⟨entry, known, other, rfl⟩)
    · exact (call calls).imp_right .inr

theorem Sound.settle (sound : Sound s) (i : Nat) (answer : Answer)
    (leaves : s.LeavesNone s.calls[i]?) : Sound (s.settle i answer) := by
  unfold BlobServer.settle
  cases found : s.calls[i]? with
  | none => exact sound
  | some call =>
    have going : s.disposed = false := by
      cases closed : s.disposed with
      | false => rfl
      | true =>
        rw [(sound.disposed closed).2] at found
        cases found
    have dropped (holds : call.holds = none) := sound.drop found holds
    rw [found] at leaves
    dsimp only
    cases call with
    | requesting id =>
      cases answer with
      | blob blob =>
        show Sound (match s.served.get id with
          | some cached => _
          | none => _)
        split
        · rename_i cached
          exact (dropped rfl).retrack cached
        · exact (dropped rfl).await going fun _ none => (nomatch none)
      | imported | nothing => exact dropped rfl
    | resolving id =>
      cases answer with
      | blob blob => exact (dropped rfl).await going fun _ none => (nomatch none)
      | imported | nothing => exact dropped rfl
    | resolved id blob => exact (dropped rfl).await going fun _ none => (nomatch none)
    | importing id blob =>
      cases answer with
      | imported blake3 => exact (dropped rfl).store going blake3 id blob
      | blob | nothing => exact dropped rfl
    | imported id info => exact sound.track going found leaves

theorem Sound.forget (sound : Sound s) {entry : ServedEntry} (member : entry ∈ s.served)
    (alone : ¬ s.Shared entry) {seen : String → Option Nat}
    (later : ∀ id last, seen id = some last → s.seen id = some last ∧
      (id = entry.id → entry.due ≤ s.now)) : Sound { s.forget entry with seen } where
  tracked := by
    intro other known
    obtain ⟨known, differs⟩ := (Table.mem_deleteWhere _ _ _).mp known
    refine List.mem_filter.mpr ⟨sound.tracked other known, decide_eq_true ?_⟩
    intro same
    exact alone (.inl ⟨other, known, of_decide_eq_false differs, same⟩)
  imported := by
    intro call known blake3 holds
    refine List.mem_filter.mpr ⟨sound.imported call known blake3 holds, decide_eq_true ?_⟩
    rintro rfl
    exact alone (.inr ⟨call, known, holds⟩)
  needed := by
    intro blake3 held
    obtain ⟨held, differs⟩ := List.mem_filter.mp held
    refine (sound.needed blake3 held).imp_left ?_
    rintro ⟨other, known, rfl⟩
    refine ⟨other, (Table.mem_deleteWhere _ _ _).mpr ⟨known, decide_eq_false ?_⟩, rfl⟩
    intro same
    rw [s.served.eq_of_key_eq known member same] at differs
    exact of_decide_eq_true differs rfl
  seen := by
    intro id last was
    obtain ⟨was, due⟩ := later id last was
    rcases sound.seen id last was with ⟨other, known, rfl, time⟩ | past
    · by_cases same : other.id = entry.id
      · have past := due same
        rw [← s.served.eq_of_key_eq known member same, time] at past
        exact .inr past
      · exact .inl ⟨other, (Table.mem_deleteWhere _ _ _).mpr ⟨known, decide_eq_false same⟩,
          rfl, time⟩
    · exact .inr past
  disposed closed := absurd ((sound.going_of_mem member).symm.trans closed) Bool.false_ne_true

theorem Sound.release (sound : Sound s) (id : String)
    (alone : ∀ entry ∈ s.served.rows, entry.id = id → ¬ s.Shared entry) :
    Sound (s.release id) := by
  unfold BlobServer.release
  split
  · rename_i entry found
    obtain ⟨member, rfl⟩ := (Table.get_eq_some _ _ _).mp found
    apply sound.forget member (alone entry member rfl)
    intro id last was
    by_cases same : id = entry.id
    · rw [same, update_self] at was
      cases was
    · rw [update_of_ne same] at was
      exact ⟨was, fun equal => absurd equal same⟩
  · exact sound

theorem Sound.expire (sound : Sound s) (id : String)
    (alone : ∀ entry ∈ s.served.rows, entry.id = id → entry.due ≤ s.now → ¬ s.Shared entry) :
    Sound (s.expire id) := by
  unfold BlobServer.expire
  split
  · rename_i entry found
    obtain ⟨member, rfl⟩ := (Table.get_eq_some _ _ _).mp found
    split
    · rename_i due
      exact sound.forget member (alone entry member rfl due) fun _ _ was => ⟨was, fun _ => due⟩
    · exact sound
  · exact sound

theorem mem_store_released (entries : List ServedEntry) (s : BlobServer) (blake3 : String) :
    blake3 ∈ (entries.foldl (fun s entry => s.releaseFromNode entry.info.blake3) s).store ↔
      blake3 ∈ s.store ∧ ∀ entry ∈ entries, entry.info.blake3 ≠ blake3 := by
  induction entries generalizing s with
  | nil => simp
  | cons entry rest ih =>
    rw [List.foldl_cons, ih, List.forall_mem_cons, ← and_assoc]
    apply and_congr_left
    intro _
    show blake3 ∈ s.store.filter (· ≠ entry.info.blake3) ↔ _
    rw [List.mem_filter, decide_eq_true_eq, ne_comm]

theorem calls_released (entries : List ServedEntry) (s : BlobServer) :
    (entries.foldl (fun s entry => s.releaseFromNode entry.info.blake3) s).calls = s.calls := by
  induction entries generalizing s with
  | nil => rfl
  | cons entry rest ih => exact ih (s.releaseFromNode entry.info.blake3)

theorem Sound.dispose (sound : Sound s) (quiet : s.calls = []) : Sound s.dispose := by
  have calls : s.dispose.calls = [] := (calls_released _ s).trans quiet
  constructor
  case tracked => exact fun entry member => absurd member (Table.not_mem_empty entry)
  case imported =>
    intro call member
    rw [calls] at member
    cases member
  case needed =>
    intro blake3 held
    obtain ⟨held, none⟩ := (mem_store_released _ s blake3).mp held
    rcases sound.needed blake3 held with ⟨entry, known, same⟩ | ⟨call, member, _⟩
    · exact absurd same (none entry known)
    · rw [quiet] at member
      cases member
  case seen => exact fun _ _ was => (nomatch was)
  case disposed => exact fun _ => ⟨rfl, calls⟩

theorem step_sound (op : Op) (s : BlobServer) (fits : Fits op s) (sound : Sound s) :
    Sound (step op s) := by
  cases op with
  | serve id => exact sound.ask.serve rfl id
  | request id => exact sound.ask.request rfl id
  | settle call answer => exact sound.settle call answer fits
  | touch id => exact sound.touch id
  | release id => exact sound.release id fits
  | expire id => exact sound.expire id fits
  | dispose => exact sound.dispose fits
  | wait ms =>
    refine { sound with seen := ?_ }
    intro id last was
    exact (sound.seen id last was).imp_right fun past => Nat.le_trans past (Nat.le_add_right _ _)

end Steps

/-- What the cache of served blobs is for: the bytes of a tracked id are in the store, an id stays
tracked for its time, and bytes that nothing needs, or that were there when the server was disposed,
are no longer held. -/
structure Serves (s : BlobServer) : Prop where
  available : ∀ entry ∈ s.served, entry.info.blake3 ∈ s.store
  tracked : ∀ id last, s.seen id = some last → s.now < last + s.releaseAfterMs →
    (s.served.get id).isSome = true
  released : ∀ blake3, (∀ entry ∈ s.served, entry.info.blake3 ≠ blake3) →
    (∀ call ∈ s.calls, call.holds ≠ some blake3) → blake3 ∉ s.store
  disposed : s.disposed = true → s.calls = [] → s.store = []

/-- In every run whose steps fit, the cache serves what it tracks and holds nothing else. -/
theorem served_blobs_available (releaseAfterMs : Nat) (ops : List Op)
    (fits : Meets step Fits ops { releaseAfterMs }) :
    Serves (runAll step ops { releaseAfterMs }) := by
  have sound := fits.keeps step_sound (fresh_sound releaseAfterMs)
  constructor
  case available => exact sound.tracked
  case tracked =>
    intro id last was early
    rcases sound.seen id last was with ⟨entry, known, own, _⟩ | past
    · rw [(Table.get_eq_some _ _ _).mpr ⟨known, own⟩]
      rfl
    · exact absurd past (Nat.not_le_of_lt early)
  case released =>
    intro blake3 untracked unused held
    rcases sound.needed blake3 held with ⟨entry, known, same⟩ | ⟨call, member, holds⟩
    · exact untracked entry known same
    · exact unused call member holds
  case disposed =>
    intro closed quiet
    apply List.eq_nil_iff_forall_not_mem.mpr
    intro blake3 held
    rcases sound.needed blake3 held with ⟨entry, known, _⟩ | ⟨call, member, _⟩
    · rw [Table.mem_def, (sound.disposed closed).1] at known
      cases known
    · rw [quiet] at member
      cases member

def serveBoth (first second : String) : List Op :=
  let served (blake3 : String) : List Op :=
    [.settle 0 (.blob ⟨1, none⟩), .settle 0 (.imported blake3), .settle 0 .nothing]
  .serve "a" :: served first ++ .serve "b" :: served second

theorem served_blobs_available_released :
    Serves (runAll step (serveBoth "x" "y" ++ [Op.touch "b", .wait 1000, .expire "a"])
      { releaseAfterMs := 1000 }) :=
  served_blobs_available 1000 _ (by decide)

/-- The release of one of two ids with the same bytes takes the bytes from the other, two serves of
one id leave the bytes of the first behind, and a serve that is under way when the server is disposed
leaves its bytes. -/
theorem bytes_lost_or_left_behind :
    ¬ Serves (runAll step (serveBoth "x" "x" ++ [Op.release "a"]) { releaseAfterMs := 1000 }) ∧
      ¬ Serves (runAll step [.serve "a", .serve "a", .settle 0 (.blob ⟨1, none⟩),
        .settle 0 (.blob ⟨1, none⟩), .settle 0 (.imported "x"), .settle 0 (.imported "y"),
        .settle 0 .nothing, .settle 0 .nothing] { releaseAfterMs := 1000 }) ∧
      ¬ Serves (runAll step [.serve "a", .dispose, .settle 0 (.blob ⟨1, none⟩),
        .settle 0 (.imported "x"), .settle 0 .nothing] { releaseAfterMs := 1000 }) := by
  refine ⟨?_, ?_, ?_⟩
  · intro serves
    have there := serves.available ⟨"b", ⟨"x", 1, none⟩, 1000⟩
      ((Table.mem_def _ _).mpr (by decide))
    revert there
    decide
  · intro serves
    have gone := serves.released "x" (by decide) (by decide)
    revert gone
    decide
  · intro serves
    have empty := serves.disposed (by decide) (by decide)
    revert empty
    decide

end BlobServer

end Tomb.Reliquary.Transfer
