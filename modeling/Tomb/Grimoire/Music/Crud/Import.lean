import Tomb.Grimoire.Music.Crud.Library

/-! How a song is imported: its artist and its album are looked up, and created where there are
none, then the song and its links. Each statement runs on its own, and between two of them any
other import may go on. -/
namespace Tomb.Grimoire.Music.Crud
open Lib

structure ImportSongRequest where
  (mediaBlobId title : String)
  (artistName albumTitle genreName : Option String)
  (trackNumber discNumber : Int)
  duration : Option Int
  isCompilation : Bool

structure ImportSongResult where
  song : String
  (artist album : Option String)
  genres : List String
  (createdNewArtist createdNewAlbum createdNewGenre existing : Bool)
deriving DecidableEq

inductive Response
  | success (message : String) (result : ImportSongResult)
  | failure (message : String)
deriving DecidableEq

structure Import where
  req : ImportSongRequest
  genres : List String
  (createdNewArtist createdNewAlbum createdNewGenre : Bool)

namespace Import

variable (i : Import)

def artistName : String := i.req.artistName.getD "Unknown Artist"

def albumTitle : String := i.req.albumTitle.getD "Unknown Album"

def albumType : String :=
  if i.req.albumTitle.isSome && i.req.isCompilation then "compilation" else "album"

def genreNames : List String :=
  match i.req.genreName with
  | none => []
  | some genreName =>
    ((genreName.toList.splitOn ',').map fun name => Text.trim (String.ofList name)).filter (· ≠ "")

def artistFailure : String :=
  if i.req.artistName.isSome then "Failed to import song" else "failed to import song"

def albumFailure : String :=
  match i.req.albumTitle, i.req.artistName with
  | some _, _ => "Failed to find or create album"
  | none, some _ => "Failed to find or create unknown album"
  | none, none => "failed to find or create unknown album"

def artistCreated : Import :=
  if i.req.artistName.isSome then { i with createdNewArtist := true }
  else if i.req.albumTitle.isSome then i
  else { i with createdNewAlbum := true }

end Import

def existingSong (song : String) (artist album : Option String) : Response :=
  .success "song already existed" ⟨song, artist, album, [], false, false, false, true⟩

/-- A call of `import_song_with_metadata`, by the statement that it runs next. -/
inductive Call
  | checking (req : ImportSongRequest)
  | fetching (song otherwise : String)
  | resolvingArtist (song : String)
  | readingArtist (song artist : String)
  | resolvingAlbum (song : String) (artist : Option String)
  | readingAlbum (song : String) (artist : Option String) (album : String)
  | seekingArtist (i : Import)
  | creatingArtist (i : Import)
  | findingGenre (i : Import) (artist : Option String) (name : String) (rest : List String)
  | seekingAlbum (i : Import) (artist : String)
  | upgradingAlbum (i : Import) (artist album : String)
  | creatingAlbum (i : Import) (artist : String)
  | linkingAlbum (i : Import) (artist album : String)
  | creatingSong (i : Import) (artist album : String)
  | findingSong (req : ImportSongRequest)
  | linkingArtistSong (i : Import) (artist album song : String)
  | linkingAlbumSong (i : Import) (artist album song : String)
  | linkingArtistAlbum (i : Import) (artist album song : String)
  | returned (response : Response)

/-- How the next statement goes: whether it runs, which row it finds first, and the id that the
row which it inserts is given; of a genre, whether it is new. -/
structure Answer where
  ok : Bool
  pick : Nat
  id : String
  created : Bool

namespace Call

@[grind =] def tried {α : Type} (answer : Answer) (result : Option α) : Option α :=
  if answer.ok then result else none

def findGenres (i : Import) (artist : Option String) : List String → Call
  | name :: rest => .findingGenre i artist name rest
  | [] => match artist with
    | some artist => .seekingAlbum i artist
    | none => .seekingArtist i

/-- The genres come behind an artist that the request names, but before an unknown one. -/
def withArtist (i : Import) (artist : String) : Call :=
  if i.req.artistName.isSome then findGenres i (some artist) i.genreNames
  else .seekingAlbum i artist

def start (req : ImportSongRequest) : Call :=
  let i : Import := ⟨req, [], false, false, false⟩
  if req.artistName.isSome then .seekingArtist i else findGenres i none i.genreNames

def enter (skipDuplicates : Bool) (req : ImportSongRequest) : Call :=
  if skipDuplicates && req.artistName.isSome && req.albumTitle.isSome &&
      req.duration.any fun duration => 0 < duration then .checking req
  else start req

-- one named proof for the membership test of the pairs below
local instance pairLawful : LawfulBEq (String × String) := inferInstance

def duplicates (lib : Library) (req : ImportSongRequest) : List Song :=
  lib.songs.select fun song =>
    lib.artists.rows.any (fun artist =>
      decide ((artist.id, song.id) ∈ lib.artistSongz) &&
        req.artistName.any fun name => Sqlite.lower artist.name = Sqlite.lower name) &&
    lib.albums.rows.any (fun album =>
      decide ((album.id, song.id) ∈ lib.albumSongz) &&
        req.albumTitle.any fun title => Sqlite.lower album.title = Sqlite.lower title) &&
    Sqlite.lower song.title = Sqlite.lower req.title &&
    song.trackNumber = req.trackNumber && song.discNumber = req.discNumber &&
    song.duration.any (fun known => req.duration.any fun duration =>
      duration - 3000 ≤ known && known ≤ duration + 3000) &&
    !song.deleted

def next (lib : Library) (answer : Answer) : Call → Library × Call
  | .checking req =>
    match tried answer (Library.limitOne answer.pick (duplicates lib req)) with
    | some song =>
      (lib, .fetching song.id "duplicate detected but could not fetch existing record")
    | none => (lib, start req)
  | .fetching song otherwise =>
    if answer.ok && lib.songs.rows.any fun row => row.id = song && !row.deleted then
      (lib, .resolvingArtist song)
    else (lib, .returned (.failure otherwise))
  | .resolvingArtist song =>
    match tried answer
        (Library.limitOne answer.pick (lib.artistSongz.filter fun link => link.2 = song)) with
    | some link => (lib, .readingArtist song link.1)
    | none => (lib, .resolvingAlbum song none)
  | .readingArtist song artist =>
    (lib, .resolvingAlbum song <| tried answer <|
      ((lib.artists.get artist).filter fun row => !row.deleted).map Artist.id)
  | .resolvingAlbum song artist =>
    match tried answer
        (Library.limitOne answer.pick (lib.albumSongz.filter fun link => link.2 = song)) with
    | some link => (lib, .readingAlbum song artist link.1)
    | none => (lib, .returned (existingSong song artist none))
  | .readingAlbum song artist album =>
    (lib, .returned <| existingSong song artist <| tried answer <|
      ((lib.albums.get album).filter fun row => !row.deleted).map Album.id)
  | .seekingArtist i =>
    if answer.ok then
      match Library.limitOne answer.pick (lib.artistsNamed i.artistName) with
      | some artist => (lib, withArtist i artist.id)
      | none => (lib, .creatingArtist i)
    else (lib, .returned (.failure i.artistFailure))
  | .creatingArtist i =>
    match tried answer (lib.insertArtist ⟨answer.id, i.artistName, false⟩) with
    | some lib' => (lib', withArtist i.artistCreated answer.id)
    | none => (lib, .returned (.failure i.artistFailure))
  | .findingGenre i artist _ rest =>
    if answer.ok then
      (lib, findGenres { i with
        genres := i.genres ++ [answer.id]
        createdNewGenre := i.createdNewGenre || answer.created } artist rest)
    else (lib, .returned (.failure "failed to import song"))
  | .seekingAlbum i artist =>
    if answer.ok then
      match Library.limitOne answer.pick (lib.albumsTitled artist i.albumTitle) with
      | some album =>
        if album.albumType = "album" ∧ i.albumType ≠ "album" then
          (lib, .upgradingAlbum i artist album.id)
        else (lib, .creatingSong i artist album.id)
      | none => (lib, .creatingAlbum i artist)
    else (lib, .returned (.failure i.albumFailure))
  | .upgradingAlbum i artist album =>
    (if answer.ok then lib.setAlbumType album i.albumType else lib, .creatingSong i artist album)
  | .creatingAlbum i artist =>
    match tried answer (lib.insertAlbum ⟨answer.id, i.albumTitle, i.albumType, false⟩) with
    | some lib' => (lib', .linkingAlbum i artist answer.id)
    | none => (lib, .returned (.failure i.albumFailure))
  | .linkingAlbum i artist album =>
    match tried answer (lib.createArtistAlbumRelationship artist album) with
    | some lib' => (lib', .creatingSong { i with createdNewAlbum := true } artist album)
    | none => (lib, .returned (.failure i.albumFailure))
  | .creatingSong i artist album =>
    if answer.ok then
      match lib.insertSong ⟨answer.id, i.req.mediaBlobId, i.req.title, i.req.trackNumber,
          i.req.discNumber, i.req.duration, false⟩ with
      | .row lib' => (lib', .linkingArtistSong i artist album answer.id)
      | .duplicate => (lib, .findingSong i.req)
      | .failed => (lib, .returned (.failure "Failed to create song"))
    else (lib, .returned (.failure "Failed to create song"))
  | .findingSong req =>
    match tried answer (Library.limitOne answer.pick
        (lib.songs.select fun song => song.mediaBlobId = req.mediaBlobId && !song.deleted)) with
    | some song => (lib, .fetching song.id "Failed to create song")
    | none => (lib, .returned (.failure "Failed to create song"))
  | .linkingArtistSong i artist album song =>
    match tried answer (lib.createArtistSongRelationship artist song) with
    | some lib' => (lib', .linkingAlbumSong i artist album song)
    | none => (lib, .returned (.failure "Failed to create artist-song relationship"))
  | .linkingAlbumSong i artist album song =>
    match tried answer (lib.createAlbumSongRelationship album song) with
    | some lib' => (lib', .linkingArtistAlbum i artist album song)
    | none => (lib, .returned (.failure "Failed to create album-song relationship"))
  | .linkingArtistAlbum i artist album song =>
    match tried answer (lib.createArtistAlbumRelationship artist album) with
    | some lib' => (lib', .returned (.success "Song imported successfully"
        ⟨song, some artist, some album, i.genres, i.createdNewArtist, i.createdNewAlbum,
          i.createdNewGenre, false⟩))
    | none => (lib, .returned (.failure "Failed to create artist-album relationship"))
  | .returned response => (lib, .returned response)

theorem next_returned (lib : Library) (answer : Answer) (response : Response) :
    (returned response).next lib answer = (lib, .returned response) := by
  rw [next]

def isReturned : Call → Bool
  | .returned _ => true
  | _ => false

end Call

structure Imports where
  library : Library
  calls : List Call

/-- A call is made, under the configuration it finds, or one of them runs its next statement. -/
inductive ImportOp
  | enter (skipDuplicates : Bool) (req : ImportSongRequest)
  | run (place : Nat) (answer : Answer)

namespace Imports

def step : ImportOp → Imports → Imports
  | .enter skipDuplicates req, s => { s with calls := s.calls ++ [.enter skipDuplicates req] }
  | .run place answer, s =>
    match s.calls[place]? with
    | none => s
    | some call =>
      let result := call.next s.library answer
      ⟨result.1, s.calls.modify place fun _ => result.2⟩

def Returned (s : Imports) : Prop := ∀ call ∈ s.calls, call.isReturned = true

instance (s : Imports) : Decidable s.Returned := inferInstanceAs (Decidable (∀ call ∈ _, _))

end Imports

end Tomb.Grimoire.Music.Crud
