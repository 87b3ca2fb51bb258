import Tomb.Grimoire.Radio.Mp4Duration

/-! The parser that cuts ffmpeg's output into chunks at the boundaries of its boxes: an init segment
up to the first `moov`, then fragments up to an `mdat` behind a `moof`. Each call walks the boxes from
the start of the buffer again. What is logged is left out. -/
namespace Tomb.Grimoire.Radio.BoxParser
open Tomb.Lib Mp4

structure Chunk where
  seq : UInt32
  isInit : Bool
  bytes : Bytes
  durationMs : Option Nat

structure Parser where
  initDone : Bool
  tracks : List TrackInfo
  seqCounter : UInt32

def new (seqCounter : UInt32) : Parser := ⟨false, [], seqCounter⟩

def moov : Bytes := fourcc 'm' 'o' 'o' 'v'

def moof : Bytes := fourcc 'm' 'o' 'o' 'f'

def mdat : Bytes := fourcc 'm' 'd' 'a' 't'

/-- What a turn of the loop does: it needs more bytes, or closes the chunk, or goes on behind the
box. -/
inductive Turn where
  | wait
  | close (next : Nat)
  | advance (next : Nat) (sawMoof : Bool)

def passBox (initDone : Bool) (kind : Bytes) (next : Nat) (sawMoof : Bool) : Turn :=
  if !initDone then if kind = moov then .close next else .advance next sawMoof
  else if kind = moof then .advance next true
  else if kind = mdat && sawMoof then .close next
  else .advance next sawMoof

def turn (initDone : Bool) (buf : Bytes) (cursor : Nat) (sawMoof : Bool) : Turn :=
  match readHeader (buf.drop cursor) with
  | none => .wait
  | some (size, kind) =>
    if size < boxHeaderLen then .wait
    else if buf.length < cursor + size then .wait
    else passBox initDone kind (cursor + size) sawMoof

/-- The loop of `next_chunk`: where the chunk ends, or that more bytes are needed; nothing where the
turns run out. -/
@[grind =] def walk (initDone : Bool) (buf : Bytes) : (turns cursor : Nat) → (sawMoof : Bool) →
    Option (Option Nat)
  | 0, _, _ => none
  | turns + 1, cursor, sawMoof =>
    match turn initDone buf cursor sawMoof with
    | .wait => some none
    | .close next => some (some next)
    | .advance next sawMoof => walk initDone buf turns next sawMoof

def chunkEnd (initDone : Bool) (buf : Bytes) : Option Nat :=
  (walk initDone buf (buf.length + 1) 0 false).join

def emit (toMs : Nat → Nat → Nat) (parser : Parser) (bytes : Bytes) : Chunk × Parser :=
  if parser.initDone then
    (⟨parser.seqCounter, false, bytes, (findBox bytes moof).bind fun body =>
        fragmentDurationMs toMs body parser.tracks⟩,
      { parser with seqCounter := parser.seqCounter + 1 })
  else
    (⟨parser.seqCounter, true, bytes, none⟩,
      ⟨true, (findBox bytes moov).elim [] parseMoovTracks, parser.seqCounter + 1⟩)

def nextChunk (toMs : Nat → Nat → Nat) (parser : Parser) (buf : Bytes) :
    Option (Chunk × Bytes × Parser) :=
  (chunkEnd parser.initDone buf).map fun next =>
    let (chunk, parser) := emit toMs parser (buf.take next)
    (chunk, buf.drop next, parser)

def feedAll (toMs : Nat → Nat → Nat) (seqCounter : UInt32) (parts : List Bytes) :
    Drained UInt8 Chunk Parser :=
  Lib.feedAll (nextChunk toMs) (new seqCounter) [] parts

end Tomb.Grimoire.Radio.BoxParser
