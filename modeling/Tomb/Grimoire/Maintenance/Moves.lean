import Tomb.Lib.Runs
import Tomb.Grimoire.Maintenance.Reorganize

/-! No file is lost or overwritten by a reorganization, however its moves interleave and wherever they
stop, while no move commits a path against a hash that another one has changed and none removes a
file that another row names. -/
namespace Tomb.Grimoire.Maintenance.Reorganize
open Tomb.Lib

variable (run : Run)

/-- Every row that names a file names one that is there and has the hash of the row. -/
def RowsHold (store : Store) : Prop :=
  ∀ row ∈ store.blobs, ∀ path, row.localPath = some path → ∃ content,
    store.disk path = some content ∧ ∀ blake3, row.blake3 = some blake3 → run.hash content = blake3

/-- A path without a new hash is committed against the hash that the move has selected, and no other
row names a source that is removed. -/
def StageFits (store : Store) : Stage → Prop
  | .updating move _ _ none selected =>
    ∀ row ∈ store.blobs, row.id = move.blobId → row.blake3 = selected
  | .removing move => ∀ row ∈ store.blobs, row.localPath = some move.source → row.id = move.blobId
  | _ => True

def Fits : Op → World → Prop
  | .advance index _, world =>
    ∀ item stage, world.items[index]? = some (item, stage) → StageFits world.store stage
  | .start _, _ | .forgetClaims, _ => True

instance (store : Store) : (stage : Stage) → Decidable (StageFits store stage)
  | .updating move _ _ none selected =>
    inferInstanceAs (Decidable (∀ row ∈ store.blobs.rows, row.id = move.blobId →
      row.blake3 = selected))
  | .removing move =>
    inferInstanceAs (Decidable (∀ row ∈ store.blobs.rows, row.localPath = some move.source →
      row.id = move.blobId))
  | .updating _ _ _ (some _) _ | .loading | .blobLoading _ | .resuming _ _ _
  | .claiming _ _ _ _ | .checking _ _ | .reading _ _ | .persisting _ _ _ | .embedding _ _
  | .measuring _ _ _ | .rehashing _ _ _ | .selecting _ _ _ _ | .ensuring _ _ _ _ _
  | .verifying _ _ _ | .moved | .alreadyDone | .failed => .isTrue trivial

instance (op : Op) (world : World) : Decidable (Fits op world) :=
  match op with
  | .start _ | .forgetClaims => .isTrue trivial
  | .advance index _ => decidable_of_iff
      (∀ entry ∈ world.items[index]?, StageFits world.store entry.2)
      ⟨fun all item stage held => all (item, stage) held, fun all _ held => all _ _ held⟩

/-- What is under the target from the start stays as it is, and each file that a move has made there
is written by this move alone. -/
structure Written (origin : Path → Option Bytes) (store : Store) : Prop where
  old : ∀ path content, run.underTarget path = true → origin path = some content →
    store.disk path = some content
  fresh : ∀ entry ∈ store.wrote, run.underTarget entry.2.1 = true ∧ origin entry.2.1 = none
  maker : ∀ a ∈ store.wrote, ∀ b ∈ store.wrote, a.2.1 = b.2.1 → a.1 = b.1
  latest : ∀ path index content,
    store.wrote.find? (·.2.1 = path) = some (index, path, content) → store.disk path = some content

def Unnamed (store : Store) (path : Path) : Prop :=
  ∀ row ∈ store.blobs, row.localPath ≠ some path

structure Outside (move : Move) : Prop where
  source : run.underTarget move.source = false
  dest : run.underTarget move.dest = true

structure Staged (store : Store) (index : Nat) (move : Move) : Prop where
  outside : Outside run move
  mine : ∃ content, (index, move.dest, content) ∈ store.wrote
  unnamed : Unnamed store move.dest

structure Committed (store : Store) (move : Move) : Prop where
  outside : Outside run move
  left : ∀ row ∈ store.blobs, row.id = move.blobId → row.localPath ≠ some move.source

def Knows (store : Store) (index : Nat) : Stage → Prop
  | .loading | .blobLoading _ | .moved | .alreadyDone | .failed => True
  | .resuming _ _ source | .claiming _ _ source _ => run.underTarget source = false
  | .checking move _ | .reading move _ | .persisting move _ _ => Outside run move
  | .embedding move _ | .measuring move _ _ | .rehashing move _ _ | .selecting move _ _ _
  | .ensuring move _ _ _ _ => Staged run store index move
  | .updating move _ _ contentHash selected => Staged run store index move ∧
      ∀ expected, contentHash.or selected = some expected →
        (store.disk move.dest).map run.hash = some expected
  | .verifying move _ _ | .removing move => Committed run store move

inductive Change (index : Nat) (store : Store) : Store → Prop where
  | same {next : Store} (disk : next.disk = store.disk) (blobs : next.blobs = store.blobs)
      (wrote : next.wrote = store.wrote) : Change index store next
  | persisted {path : Path} {content : Bytes} (under : run.underTarget path = true)
      (free : store.disk path = none) : Change index store (store.put index path content)
  | embedded {path : Path} {content : Bytes} (mine : ∃ old, (index, path, old) ∈ store.wrote)
      (unnamed : Unnamed store path) : Change index store (store.put index path content)
  | committed {blobId : String} {path : Path} {size : Nat} {contentHash : Option String}
      (mine : ∃ old, (index, path, old) ∈ store.wrote)
      (holds : ∀ row ∈ store.blobs, row.id = blobId → ∀ expected,
        contentHash.or row.blake3 = some expected →
          (store.disk path).map run.hash = some expected) :
      Change index store (store.relocate blobId path size contentHash)
  | removed {path : Path} (outside : run.underTarget path = false) (unnamed : Unnamed store path) :
      Change index store (store.removeFile path)

structure Sound (origin : Path → Option Bytes) (world : World) : Prop where
  rows : RowsHold run world.store
  written : Written run origin world.store
  knows : ∀ (index : Nat) item stage, world.items[index]? = some (item, stage) →
    Knows run world.store index stage

section Changes

variable {run} {origin : Path → Option Bytes} {index : Nat} {store next : Store}

variable {path : Path}

theorem Written.there (written : Written run origin store) {content : Bytes}
    (mine : (index, path, content) ∈ store.wrote) : ∃ latest, store.disk path = some latest := by
  cases found : store.wrote.find? (·.2.1 = path) with
  | none =>
    have missing := List.find?_eq_none.mp found _ mine
    exact absurd (decide_eq_true rfl) missing
  | some entry =>
    obtain ⟨maker, name, latest⟩ := entry
    have same : name = path := by simpa using List.find?_some found
    subst same
    exact ⟨latest, written.latest name maker latest found⟩

theorem put_disk (path : Path) (content : Bytes) (other : Path) :
    (store.put index path content).disk other =
      if other = path then some content else store.disk other := rfl

theorem mem_relocate {blobId : String} {size : Nat} {contentHash : Option String}
    {row : MediaBlob} (member : row ∈ (store.relocate blobId path size contentHash).blobs) :
    (∃ old ∈ store.blobs, old.id = blobId ∧ row = relocated path size contentHash old) ∨
      row ∈ store.blobs ∧ row.id ≠ blobId := by
  have member : row ∈ store.blobs.update (·.id = blobId) (relocated path size contentHash)
      fun _ => rfl := member
  obtain ⟨old, listed, rfl⟩ := (Table.mem_update _ _ _ _ _).mp member
  split
  · rename_i named
    exact .inl ⟨old, listed, of_decide_eq_true named, rfl⟩
  · rename_i other
    exact .inr ⟨listed, fun same => other (decide_eq_true same)⟩

theorem Change.rows (change : Change run index store next) (written : Written run origin store)
    (rows : RowsHold run store) : RowsHold run next := by
  intro row member path named
  cases change with
  | same disk blobs wrote =>
    rw [blobs] at member
    rw [disk]
    exact rows row member path named
  | persisted under free =>
    obtain ⟨content, held, hashed⟩ := rows row member path named
    refine ⟨content, ?_, hashed⟩
    rw [put_disk, if_neg]
    · exact held
    · intro same
      rw [same, free] at held
      cases held
  | embedded mine unnamed =>
    obtain ⟨content, held, hashed⟩ := rows row member path named
    refine ⟨content, ?_, hashed⟩
    rw [put_disk, if_neg]
    · exact held
    · intro same
      rw [same] at named
      exact unnamed row member named
  | committed mine holds =>
    rcases mem_relocate member with ⟨old, listed, same, rfl⟩ | ⟨listed, other⟩
    · cases Option.some.inj named
      obtain ⟨content, made⟩ := mine
      obtain ⟨latest, held⟩ := written.there made
      refine ⟨latest, held, ?_⟩
      intro blake3 known
      have hashed := holds old listed same blake3 known
      rw [held] at hashed
      exact Option.some.inj hashed
    · exact rows row listed path named
  | removed outside unnamed =>
    obtain ⟨content, held, hashed⟩ := rows row member path named
    refine ⟨content, ?_, hashed⟩
    dsimp only [Store.removeFile]
    rw [if_neg]
    · exact held
    · intro same
      rw [same] at named
      exact unnamed row member named

/-- A row names nothing outside the target that it did not name before. -/
theorem Change.named (change : Change run index store next) (written : Written run origin store)
    {row : MediaBlob} (member : row ∈ next.blobs)
    (outside : run.underTarget path = false) (named : row.localPath = some path) :
    ∃ old ∈ store.blobs, old.id = row.id ∧ old.localPath = some path := by
  cases change with
  | same disk blobs wrote =>
    rw [blobs] at member
    exact ⟨row, member, rfl, named⟩
  | persisted | embedded | removed => exact ⟨row, member, rfl, named⟩
  | committed mine holds =>
    rcases mem_relocate member with ⟨old, listed, same, rfl⟩ | ⟨listed, other⟩
    · obtain ⟨content, made⟩ := mine
      have under := (written.fresh _ made).1
      cases Option.some.inj named
      rw [outside] at under
      cases under
    · exact ⟨row, listed, rfl, named⟩

variable {entry : Nat × Path × Bytes}

theorem Change.wrote (change : Change run index store next) (member : entry ∈ next.wrote) :
    entry ∈ store.wrote ∨ entry.1 = index ∧ run.underTarget entry.2.1 = true ∧
      store.disk entry.2.1 = none ∨ entry.1 = index ∧ ∃ old, (index, entry.2.1, old) ∈ store.wrote := by
  cases change with
  | same disk blobs wrote =>
    rw [wrote] at member
    exact .inl member
  | persisted under free =>
    rcases List.mem_cons.mp member with rfl | before
    · exact .inr (.inl ⟨rfl, under, free⟩)
    · exact .inl before
  | embedded mine unnamed =>
    rcases List.mem_cons.mp member with rfl | before
    · exact .inr (.inr ⟨rfl, mine⟩)
    · exact .inl before
  | committed | removed => exact .inl member

theorem latest_put {content : Bytes} {other : Path}
    (found : (store.put index path content).wrote.find? (·.2.1 = other) = some entry) :
    (other = path ∧ entry = (index, path, content)) ∨
      (other ≠ path ∧ store.wrote.find? (·.2.1 = other) = some entry) := by
  have found : ((index, path, content) :: store.wrote).find? (·.2.1 = other) = some entry := found
  rw [List.find?_cons] at found
  split at found
  · rename_i same
    exact .inl ⟨(of_decide_eq_true same).symm, (Option.some.inj found).symm⟩
  · rename_i differs
    exact .inr ⟨fun same => of_decide_eq_false differs same.symm, found⟩

theorem Change.written (change : Change run index store next)
    (written : Written run origin store) : Written run origin next := by
  have gone {path : Path} {content : Bytes} (under : run.underTarget path = true)
      (old : origin path = some content) : store.disk path = some content :=
    written.old path content under old
  have made {path : Path} {content : Bytes} (mine : (index, path, content) ∈ store.wrote) :
      origin path = none := (written.fresh _ mine).2
  constructor
  · intro path content under old
    have before := gone under old
    cases change with
    | same disk blobs wrote =>
      rw [disk]
      exact before
    | persisted under' free =>
      rw [put_disk, if_neg]
      · exact before
      · intro same
        rw [same, free] at before
        cases before
    | embedded mine unnamed =>
      rw [put_disk, if_neg]
      · exact before
      · intro same
        obtain ⟨earlier, mine⟩ := mine
        rw [same, made mine] at old
        cases old
    | committed mine holds => exact before
    | removed outside unnamed =>
      dsimp only [Store.removeFile]
      rw [if_neg]
      · exact before
      · intro same
        rw [same, outside] at under
        cases under
  · intro entry member
    rcases change.wrote member with before | ⟨-, under, free⟩ | ⟨-, old, mine⟩
    · exact written.fresh entry before
    · refine ⟨under, ?_⟩
      cases old : origin entry.2.1 with
      | none => rfl
      | some content =>
        rw [gone under old] at free
        cases free
    · exact written.fresh (index, entry.2.1, old) mine
  · have owner {entry : Nat × Path × Bytes} (member : entry ∈ next.wrote)
        {other : Nat × Path × Bytes} (before : other ∈ store.wrote) (same : entry.2.1 = other.2.1) :
        entry.1 = other.1 := by
      rcases change.wrote member with also | ⟨rfl, under, free⟩ | ⟨rfl, old, mine⟩
      · exact written.maker entry also other before same
      · obtain ⟨latest, held⟩ := written.there before
        rw [← same, free] at held
        cases held
      · exact written.maker _ mine other before same
    have author {entry : Nat × Path × Bytes} (member : entry ∈ next.wrote) :
        entry ∈ store.wrote ∨ entry.1 = index := by
      rcases change.wrote member with before | ⟨own, -⟩ | ⟨own, -⟩
      · exact .inl before
      · exact .inr own
      · exact .inr own
    intro a memberA b memberB same
    rcases author memberA with before | own
    · exact (owner memberB before same.symm).symm
    · rcases author memberB with before | also
      · exact owner memberA before same
      · exact own.trans also.symm
  · intro path maker content found
    cases change with
    | same disk blobs wrote =>
      rw [wrote] at found
      rw [disk]
      exact written.latest path maker content found
    | persisted under free =>
      rw [put_disk]
      rcases latest_put found with ⟨same, new⟩ | ⟨other, before⟩
      · cases new
        rw [if_pos same]
      · rw [if_neg other]
        exact written.latest path maker content before
    | embedded mine unnamed =>
      rw [put_disk]
      rcases latest_put found with ⟨same, new⟩ | ⟨other, before⟩
      · cases new
        rw [if_pos same]
      · rw [if_neg other]
        exact written.latest path maker content before
    | committed mine holds => exact written.latest path maker content found
    | removed outside unnamed =>
      have held := written.latest path maker content found
      have under : run.underTarget path = true :=
        (written.fresh _ (List.mem_of_find?_eq_some found)).1
      dsimp only [Store.removeFile]
      rw [if_neg]
      · exact held
      · intro same
        rw [same, outside] at under
        cases under

theorem Change.keeps_wrote (change : Change run index store next)
    (member : entry ∈ store.wrote) : entry ∈ next.wrote := by
  cases change with
  | same disk blobs wrote =>
    rw [wrote]
    exact member
  | persisted | embedded => exact List.mem_cons_of_mem _ member
  | committed | removed => exact member

theorem Change.staged (change : Change run index store next) (written : Written run origin store)
    {other : Nat} (differs : other ≠ index) {move : Move} (staged : Staged run store other move) :
    Staged run next other move ∧ next.disk move.dest = store.disk move.dest := by
  obtain ⟨outside, ⟨content, mine⟩, unnamed⟩ := staged
  have foreign {old : Bytes} (theirs : (index, move.dest, old) ∈ store.wrote) : False :=
    differs (written.maker _ mine _ theirs rfl)
  have kept : Unnamed next move.dest := by
    intro row member named
    cases change with
    | same disk blobs wrote =>
      rw [blobs] at member
      exact unnamed row member named
    | persisted | embedded | removed => exact unnamed row member named
    | committed theirs holds =>
      obtain ⟨old, theirs⟩ := theirs
      rcases mem_relocate member with ⟨before, listed, same, rfl⟩ | ⟨listed, -⟩
      · cases Option.some.inj named
        exact foreign theirs
      · exact unnamed row listed named
  refine ⟨⟨outside, ⟨content, change.keeps_wrote mine⟩, kept⟩, ?_⟩
  cases change with
  | same disk blobs wrote => rw [disk]
  | persisted under free =>
    rw [put_disk, if_neg]
    intro same
    obtain ⟨latest, held⟩ := written.there mine
    rw [same, free] at held
    cases held
  | embedded theirs _ =>
    obtain ⟨old, theirs⟩ := theirs
    rw [put_disk, if_neg]
    intro same
    rw [← same] at theirs
    exact foreign theirs
  | committed => rfl
  | removed away _ =>
    dsimp only [Store.removeFile]
    rw [if_neg]
    intro same
    have under := outside.dest
    rw [same, away] at under
    cases under

theorem Change.knows_of_staged (change : Change run index store next)
    (written : Written run origin store) {other : Nat}
    (still : ∀ move, Staged run store other move →
      Staged run next other move ∧ next.disk move.dest = store.disk move.dest)
    {stage : Stage} (knows : Knows run store other stage) : Knows run next other stage := by
  cases stage with
  | loading | blobLoading | moved | alreadyDone | failed => trivial
  | resuming | claiming | checking | reading | persisting => exact knows
  | embedding | measuring | rehashing | selecting | ensuring => exact (still _ knows).1
  | updating =>
    obtain ⟨staged, checked⟩ := knows
    obtain ⟨kept, disk⟩ := still _ staged
    refine ⟨kept, ?_⟩
    rw [disk]
    exact checked
  | verifying | removing =>
    refine ⟨knows.outside, ?_⟩
    intro row member same named
    obtain ⟨old, listed, oldSame, name⟩ :=
      change.named written member knows.outside.source named
    exact knows.left old listed (oldSame.trans same) name

theorem Change.knows (change : Change run index store next) (written : Written run origin store)
    {other : Nat} (differs : other ≠ index) {stage : Stage} (knows : Knows run store other stage) :
    Knows run next other stage :=
  change.knows_of_staged written (fun _ staged => change.staged written differs staged) knows

end Changes

section Advances

variable {run} {origin : Path → Option Bytes} {index : Nat} {item : Item} {outcome : Outcome}
  {store next : Store} {stage later : Stage}

theorem outside_destination {blobId : String} {source relative : Path}
    (away : run.underTarget source = false) :
    Outside run ⟨blobId, source, run.destination relative⟩ :=
  ⟨away, run.under_destination relative⟩

structure Advanced (run : Run) (index : Nat) (store : Store) (later : Stage) (next : Store) :
    Prop where
  change : Change run index store next
  knows : Knows run next index later

theorem Advanced.quiet (knows : Knows run store index later) :
    Advanced run index store later store :=
  ⟨.same rfl rfl rfl, knows⟩

theorem advance_loading
    (advanced : run.advance index item outcome store .loading = some (later, next)) :
    Advanced run index store later next := by
  dsimp only [Run.advance] at advanced
  split at advanced
  · cases advanced
    exact .quiet trivial
  · cases advanced
    exact .quiet trivial

theorem advance_blobLoading {media : Media}
    (advanced : run.advance index item outcome store (.blobLoading media) = some (later, next)) :
    Advanced run index store later next := by
  dsimp only [Run.advance] at advanced
  split at advanced
  · cases advanced
    exact .quiet trivial
  · split at advanced
    · cases advanced
      exact .quiet trivial
    · split at advanced
      · cases advanced
        exact .quiet trivial
      · split at advanced
        · cases advanced
          exact .quiet trivial
        · rename_i outside
          cases advanced
          exact .quiet (Bool.eq_false_iff.mpr outside)

theorem advance_resuming {media : Media} {blob : MediaBlob} {source : Path}
    (advanced : run.advance index item outcome store (.resuming media blob source) =
      some (later, next))
    (knows : Knows run store index (.resuming media blob source)) :
    Advanced run index store later next := by
  dsimp only [Run.advance] at advanced
  split at advanced
  · split at advanced
    · cases advanced
      exact .quiet trivial
    · cases advanced
      exact .quiet (outside_destination knows)
  · split at advanced
    · cases advanced
      exact .quiet trivial
    · cases advanced
      exact .quiet knows

theorem advance_claiming {media : Media} {blob : MediaBlob} {source : Path} {attempted : List Path}
    (advanced : run.advance index item outcome store (.claiming media blob source attempted) =
      some (later, next))
    (knows : Knows run store index (.claiming media blob source attempted)) :
    Advanced run index store later next := by
  dsimp only [Run.advance] at advanced
  split at advanced
  · cases advanced
    exact .quiet trivial
  · split at advanced
    · cases advanced
      exact ⟨.same rfl rfl rfl, outside_destination knows⟩
    · cases advanced
      exact .quiet knows

variable {move : Move} {size : Option Nat}

theorem advance_checking
    (advanced : run.advance index item outcome store (.checking move size) = some (later, next))
    (outside : Outside run move) : Advanced run index store later next := by
  dsimp only [Run.advance] at advanced
  split at advanced
  · cases advanced
    exact .quiet trivial
  · cases advanced
    exact .quiet outside

theorem advance_reading
    (advanced : run.advance index item outcome store (.reading move size) = some (later, next))
    (outside : Outside run move) : Advanced run index store later next := by
  dsimp only [Run.advance] at advanced
  split at advanced
  · cases advanced
    exact .quiet trivial
  · split at advanced
    · cases advanced
      exact .quiet trivial
    · cases advanced
      exact .quiet outside

variable {sourceHash : String}

theorem staged_copied (staged : Staged run store index move) :
    Knows run store index (Run.copied item move size sourceHash) := by
  unfold Run.copied
  split
  · split
    · exact staged
    · exact staged
  · exact staged

theorem advance_persisting {temporary : Bytes}
    (advanced : run.advance index item outcome store (.persisting move size temporary) =
      some (later, next)) (outside : Outside run move) (rows : RowsHold run store) :
    Advanced run index store later next := by
  dsimp only [Run.advance] at advanced
  split at advanced
  · cases advanced
    exact .quiet trivial
  · rename_i goes
    have free : store.disk move.dest = none := by
      cases held : store.disk move.dest with
      | none => rfl
      | some content => exact absurd (by rw [held]; exact Bool.or_true _) goes
    have change : Change run index store (store.put index move.dest temporary) :=
      .persisted outside.dest free
    split at advanced
    · cases advanced
      exact ⟨change, trivial⟩
    · cases advanced
      refine ⟨change, staged_copied ⟨outside, ⟨temporary, List.mem_cons_self⟩, ?_⟩⟩
      intro row member named
      obtain ⟨content, held, -⟩ := rows row member move.dest named
      rw [free] at held
      cases held

theorem advance_embedding
    (advanced : run.advance index item outcome store (.embedding move sourceHash) =
      some (later, next))
    (staged : Staged run store index move) : Advanced run index store later next := by
  have change : ∀ content, Change run index store (store.put index move.dest content) :=
    fun content => .embedded staged.mine staged.unnamed
  have still : ∀ content, Staged run (store.put index move.dest content) index move := by
    intro content
    obtain ⟨outside, ⟨old, mine⟩, unnamed⟩ := staged
    exact ⟨outside, ⟨old, List.mem_cons_of_mem _ mine⟩, unnamed⟩
  dsimp only [Run.advance] at advanced
  split at advanced
  · cases advanced
    refine ⟨?_, trivial⟩
    split
    · exact .same rfl rfl rfl
    · exact change _
  · cases advanced
    split
    · exact .quiet staged
    · exact ⟨change _, still _⟩

theorem advance_measuring {embedded : Bool}
    (advanced : run.advance index item outcome store (.measuring move sourceHash embedded) =
      some (later, next))
    (staged : Staged run store index move) : Advanced run index store later next := by
  dsimp only [Run.advance] at advanced
  split at advanced
  · cases advanced
    exact .quiet trivial
  · split at advanced
    · cases advanced
      exact .quiet trivial
    · split at advanced
      · cases advanced
        exact .quiet staged
      · cases advanced
        exact .quiet staged

theorem advance_rehashing {size : Nat}
    (advanced : run.advance index item outcome store (.rehashing move sourceHash size) =
      some (later, next))
    (staged : Staged run store index move) : Advanced run index store later next := by
  dsimp only [Run.advance] at advanced
  split at advanced
  · cases advanced
    exact .quiet trivial
  · split at advanced
    · cases advanced
      exact .quiet trivial
    · cases advanced
      exact .quiet staged

variable {contentHash : Option String}

theorem advance_selecting {size : Nat} (advanced : run.advance index item outcome store
      (.selecting move sourceHash size contentHash) = some (later, next))
    (staged : Staged run store index move) : Advanced run index store later next := by
  dsimp only [Run.advance] at advanced
  split at advanced
  · cases advanced
    exact .quiet trivial
  · split at advanced
    · cases advanced
      exact .quiet trivial
    · cases advanced
      exact .quiet staged

theorem advance_ensuring {size : Nat} {selected : Option String}
    (advanced : run.advance index item outcome store
      (.ensuring move sourceHash size contentHash selected) = some (later, next))
    (staged : Staged run store index move) : Advanced run index store later next := by
  dsimp only [Run.advance] at advanced
  split at advanced
  · rename_i none
    cases advanced
    refine .quiet ⟨staged, ?_⟩
    intro expected known
    rw [none] at known
    cases known
  · rename_i expected wanted
    split at advanced
    · cases advanced
      exact .quiet trivial
    · rename_i agrees
      cases advanced
      refine .quiet ⟨staged, ?_⟩
      intro other known
      rw [wanted] at known
      cases known
      simp only [Bool.or_eq_true, decide_eq_true_eq, not_or, not_not] at agrees
      exact agrees.2

theorem advance_updating {size : Nat} {selected : Option String}
    (advanced : run.advance index item outcome store
      (.updating move sourceHash size contentHash selected) = some (later, next))
    (knows : Knows run store index (.updating move sourceHash size contentHash selected))
    (fits : StageFits store (.updating move sourceHash size contentHash selected)) :
    Advanced run index store later next := by
  obtain ⟨staged, checked⟩ := knows
  have change : Change run index store
      (store.relocate move.blobId move.dest size contentHash) := by
    refine .committed staged.mine ?_
    intro row member same expected known
    cases contentHash with
    | some new => exact checked expected known
    | none =>
      rw [fits row member same] at known
      exact checked expected known
  dsimp only [Run.advance] at advanced
  split at advanced
  · cases advanced
    exact .quiet trivial
  · split at advanced
    · cases advanced
      exact ⟨change, trivial⟩
    · cases advanced
      refine ⟨change, staged.outside, ?_⟩
      intro row member same named
      rcases mem_relocate member with ⟨old, listed, -, rfl⟩ | ⟨listed, other⟩
      · have away : move.dest = move.source := Option.some.inj named
        have under := staged.outside.dest
        rw [away, staged.outside.source] at under
        cases under
      · exact other same

theorem advance_verifying {destinationHash : String}
    (advanced : run.advance index item outcome store
      (.verifying move sourceHash destinationHash) = some (later, next))
    (committed : Committed run store move) : Advanced run index store later next := by
  dsimp only [Run.advance] at advanced
  split at advanced
  · cases advanced
    exact .quiet trivial
  · cases advanced
    exact .quiet committed

theorem advance_removing
    (advanced : run.advance index item outcome store (.removing move) = some (later, next))
    (committed : Committed run store move) (fits : StageFits store (.removing move)) :
    Advanced run index store later next := by
  dsimp only [Run.advance] at advanced
  split at advanced
  · cases advanced
    exact .quiet trivial
  · cases advanced
    refine ⟨.removed committed.outside.source ?_, trivial⟩
    intro row member named
    exact committed.left row member (fits row member named) named

theorem advance_sound (advanced : run.advance index item outcome store stage = some (later, next))
    (knows : Knows run store index stage) (rows : RowsHold run store)
    (fits : StageFits store stage) : Advanced run index store later next := by
  cases stage with
  | loading => exact advance_loading advanced
  | blobLoading => exact advance_blobLoading advanced
  | resuming => exact advance_resuming advanced knows
  | claiming => exact advance_claiming advanced knows
  | checking => exact advance_checking advanced knows
  | reading => exact advance_reading advanced knows
  | persisting => exact advance_persisting advanced knows rows
  | embedding => exact advance_embedding advanced knows
  | measuring => exact advance_measuring advanced knows
  | rehashing => exact advance_rehashing advanced knows
  | selecting => exact advance_selecting advanced knows
  | ensuring => exact advance_ensuring advanced knows
  | updating => exact advance_updating advanced knows fits
  | verifying => exact advance_verifying advanced knows
  | removing => exact advance_removing advanced knows fits
  | moved | alreadyDone | failed => cases advanced

end Advances

section Worlds

variable {run} {origin : Path → Option Bytes} {world : World}

theorem start_sound (item : Item) (sound : Sound run origin world) :
    Sound run origin (run.step (.start item) world) := by
  refine ⟨sound.rows, sound.written, ?_⟩
  intro index other stage held
  have held : (world.items ++ [(item, Stage.loading)])[index]? = some (other, stage) := held
  by_cases inside : index < world.items.length
  · rw [List.getElem?_append_left inside] at held
    exact sound.knows index other stage held
  · rw [List.getElem?_append_right (Nat.le_of_not_lt inside)] at held
    cases List.mem_singleton.mp (List.mem_of_getElem? held)
    trivial

theorem advance_world_sound {index : Nat} {outcome : Outcome} (sound : Sound run origin world)
    (fits : Fits (.advance index outcome) world) :
    Sound run origin (run.step (.advance index outcome) world) := by
  dsimp only [Run.step]
  cases listed : world.items[index]? with
  | none => exact sound
  | some entry =>
    obtain ⟨item, stage⟩ := entry
    dsimp only
    cases advanced : run.advance index item outcome world.store stage with
    | none => exact sound
    | some result =>
      obtain ⟨later, next⟩ := result
      have spec := advance_sound advanced (sound.knows index item stage listed) sound.rows
        (fits item stage listed)
      refine ⟨spec.change.rows sound.written sound.rows, spec.change.written sound.written, ?_⟩
      intro other work point held
      have held : (world.items.set index (item, later))[other]? = some (work, point) := held
      rw [List.getElem?_set] at held
      split at held
      · rename_i same
        split at held
        · cases held
          rw [← same]
          exact spec.knows
        · cases held
      · rename_i differs
        exact spec.change.knows sound.written (fun same => differs same.symm)
          (sound.knows other work point held)

theorem step_sound {op : Op} (fits : Fits op world) (sound : Sound run origin world) :
    Sound run origin (run.step op world) := by
  cases op with
  | start item => exact start_sound item sound
  | advance index outcome => exact advance_world_sound sound fits
  | forgetClaims =>
    have change : Change run 0 world.store { world.store with claims := ∅ } := .same rfl rfl rfl
    refine ⟨change.rows sound.written sound.rows, change.written sound.written, ?_⟩
    intro index item stage held
    refine change.knows_of_staged sound.written ?_ (sound.knows index item stage held)
    intro move staged
    exact ⟨⟨staged.outside, staged.mine, staged.unnamed⟩, rfl⟩

end Worlds

/-- Whatever the moves and the order of their steps, and wherever they have come: what lay under the
target is as it was, what a move has made there only this move has written, and every row names a
file with its hash. -/
theorem reorganizing_keeps_files (store : Store) (fresh : store.wrote = [])
    (rows : RowsHold run store) (ops : List Op)
    (meets : Meets run.step Fits ops { store }) :
    let last := (runAll run.step ops { store }).store
    Written run store.disk last ∧ RowsHold run last := by
  have start : Sound run store.disk { store } := by
    refine ⟨rows, ?_, fun _ _ _ held => nomatch held⟩
    constructor
    · exact fun _ _ _ old => old
    · rw [fresh]
      exact fun _ member => nomatch member
    · rw [fresh]
      exact fun _ member => nomatch member
    · rw [fresh]
      exact fun _ _ _ found => nomatch found
  have sound := meets.keeps (fun _ _ fits => step_sound fits) start
  exact ⟨sound.written, sound.rows⟩

/-- Songs and videos have directories of their own; the hash is the number of bytes. -/
def plainRun : Run where
  targetRoot := ['t']
  naming
    | .song, _, _ => ⟨['s'], ['n'], ['e']⟩
    | .video, _, _ => ⟨['v'], ['n'], ['e']⟩
  hash content := String.ofList (content.map fun _ => '1')

def sharedBlob : MediaBlob := ⟨"blob", some ['a'], some "1", none, none⟩

def sharedStore : Store where
  disk path := if path = ['a'] then some [0] else none
  blobs := ⟨[sharedBlob], List.nodup_singleton _⟩
  media
    | .song => ⟨[⟨"song", "blob", "n"⟩], List.nodup_singleton _⟩
    | .video => ⟨[⟨"video", "blob", "n"⟩], List.nodup_singleton _⟩
  claims := ∅

theorem sharedStore_rows : RowsHold plainRun sharedStore := by
  intro row member path named
  cases List.mem_singleton.mp member
  cases named
  refine ⟨[0], rfl, ?_⟩
  intro blake3 known
  cases known
  rfl

/-- The song alone, with its tags written. -/
theorem song_is_kept :
    let ops : List Op := Op.start ⟨.song, "song", false, true⟩ ::
      (List.replicate 7 (Op.advance 0 {}) ++ Op.advance 0 { tags := some [0, 0], saved := true } ::
        List.replicate 7 (Op.advance 0 {}))
    let last := (runAll plainRun.step ops { store := sharedStore }).store
    Written plainRun sharedStore.disk last ∧ RowsHold plainRun last := by
  intro ops
  have meets : Meets plainRun.step Fits ops { store := sharedStore } := by decide
  exact reorganizing_keeps_files plainRun sharedStore rfl sharedStore_rows ops meets

/-- The video commits its path against the hash of the song's tagged file. -/
theorem shared_blob_names_other_bytes :
    let ops : List Op := Op.start ⟨.video, "video", false, false⟩ ::
      (List.replicate 9 (Op.advance 0 {}) ++ Op.start ⟨.song, "song", false, true⟩ ::
        (List.replicate 7 (Op.advance 1 {}) ++ Op.advance 1 { tags := some [0, 0], saved := true } ::
          (List.replicate 5 (Op.advance 1 {}) ++ [Op.advance 0 {}])))
    RowsHold plainRun sharedStore ∧
      ¬ RowsHold plainRun (runAll plainRun.step ops { store := sharedStore }).store := by
  intro ops
  refine ⟨sharedStore_rows, ?_⟩
  intro rows
  have listed : (runAll plainRun.step ops { store := sharedStore }).store.blobs.get "blob" =
      some ⟨"blob", some "t/v/n.e".toList, some "11", some "n.e".toList, some 0⟩ := by
    decide
  have held : (runAll plainRun.step ops { store := sharedStore }).store.disk "t/v/n.e".toList =
      some [0] := by
    decide
  obtain ⟨content, there, hashed⟩ := rows _ ((Table.get_eq_some _ _ _).mp listed).1 _ rfl
  rw [held] at there
  cases there
  exact absurd (hashed "11" rfl) (by decide)

end Tomb.Grimoire.Maintenance.Reorganize
