import Tomb.Lib.Streaming

/-! The duration of a media fragment, as its own boxes and the init segment's tell it. The one
division of floating point numbers, from ticks to milliseconds, is left open. -/
namespace Tomb.Grimoire.Radio.Mp4
open Tomb.Lib

def boxHeaderLen : Nat := 8

abbrev Bytes := List UInt8

def fourcc (a b c d : Char) : Bytes := [a.toUInt8, b.toUInt8, c.toUInt8, d.toUInt8]

def readHeader : Bytes → Option (Nat × Bytes)
  | a :: b :: c :: d :: e :: f :: g :: h :: _ => some (fromBe32 [a, b, c, d], [e, f, g, h])
  | _ => none

structure BoxRef where
  (kind body : Bytes)

def boxesFor : (fuel : Nat) → Bytes → List BoxRef
  | 0, _ => []
  | fuel + 1, data =>
    match readHeader data with
    | none => []
    | some (size, kind) =>
      if size < boxHeaderLen || data.length < size then []
      else ⟨kind, (data.take size).drop boxHeaderLen⟩ :: boxesFor fuel (data.drop size)

def iterBoxes (data : Bytes) : List BoxRef := boxesFor data.length data

def findBox (data kind : Bytes) : Option Bytes :=
  ((iterBoxes data).find? fun b => b.kind = kind).map BoxRef.body

def u32At (body : Bytes) (offset : Nat) : Option Nat :=
  if offset + 4 ≤ body.length then some (fromBe32 ((body.drop offset).take 4)) else none

structure TrackInfo where
  (trackId timescale : Nat)
  defaultSampleDuration : Option Nat

def readU32AfterTimes (body : Bytes) : Option Nat := do
  let version ← body.head?
  u32At body (if version = 1 then 4 + 16 else 4 + 8)

def parseTrex (body : Bytes) : Option (Nat × Nat) := do
  let trackId ← u32At body 4
  let defaultSampleDuration ← u32At body 12
  return (trackId, defaultSampleDuration)

def trexDefaults (moovBody : Bytes) : List (Nat × Nat) :=
  match findBox moovBody (fourcc 'm' 'v' 'e' 'x') with
  | none => []
  | some mvex =>
    (((iterBoxes mvex).filter fun b => b.kind = fourcc 't' 'r' 'e' 'x').filterMap fun b =>
      parseTrex b.body).reverse

def parseTrak (defaults : List (Nat × Nat)) (trak : Bytes) : Option TrackInfo := do
  let tkhd ← findBox trak (fourcc 't' 'k' 'h' 'd')
  let trackId ← readU32AfterTimes tkhd
  let mdia ← findBox trak (fourcc 'm' 'd' 'i' 'a')
  let hdlr ← findBox mdia (fourcc 'h' 'd' 'l' 'r')
  if hdlr.length < 12 then none
  else
    let handler := (hdlr.drop 8).take 4
    if handler ≠ fourcc 's' 'o' 'u' 'n' ∧ handler ≠ fourcc 'v' 'i' 'd' 'e' then none
    else
      let mdhd ← findBox mdia (fourcc 'm' 'd' 'h' 'd')
      let timescale ← readU32AfterTimes mdhd
      return ⟨trackId, timescale, defaults.lookup trackId⟩

def parseMoovTracks (moovBody : Bytes) : List TrackInfo :=
  ((iterBoxes moovBody).filter fun b => b.kind = fourcc 't' 'r' 'a' 'k').filterMap fun b =>
    parseTrak (trexDefaults moovBody) b.body

def flagsOf (body : Bytes) : Option Nat :=
  if body.length < 4 then none else some (fromBe32 ((body.drop 1).take 3))

def parseTfhd (body : Bytes) : Option (Nat × Option Nat) := do
  let flags ← flagsOf body
  let trackId ← u32At body 4
  let offset := 8 + (if flags.testBit 0 then 8 else 0) + if flags.testBit 1 then 4 else 0
  if flags.testBit 3 then
    let duration ← u32At body offset
    return (trackId, some duration)
  else return (trackId, none)

def sumDurations (body : Bytes) (stride : Nat) : (count offset total : Nat) → Option Nat
  | 0, _, total => some total
  | count + 1, offset, total =>
    match u32At body offset with
    | none => none
    | some duration => sumDurations body stride count (offset + stride) ((total + duration) % 2 ^ 64)

def parseTrunDurationTicks (body : Bytes) (defaultDuration : Option Nat) : Option Nat := do
  let flags ← flagsOf body
  let sampleCount ← u32At body 4
  let offset := 8 + (if flags.testBit 0 then 4 else 0) + if flags.testBit 2 then 4 else 0
  if flags.testBit 8 then
    let fields := 1 + ([flags.testBit 9, flags.testBit 10, flags.testBit 11].filter id).length
    sumDurations body (fields * 4) sampleCount offset 0
  else defaultDuration.map fun duration => sampleCount * duration

def totalTicks (traf : Bytes) (defaultDuration : Option Nat) : Option Nat :=
  match ((iterBoxes traf).filter fun b => b.kind = fourcc 't' 'r' 'u' 'n').filterMap fun b =>
      parseTrunDurationTicks b.body defaultDuration with
  | [] => none
  | ticks => some (ticks.foldl (fun total ticks => (total + ticks) % 2 ^ 64) 0)

def trafTicks (tracks : List TrackInfo) (traf : Bytes) : Option (TrackInfo × Nat) := do
  let tfhd ← findBox traf (fourcc 't' 'f' 'h' 'd')
  let (trackId, tfhdDefault) ← parseTfhd tfhd
  let info ← tracks.find? fun track => track.trackId = trackId
  if info.timescale = 0 then none
  else
    let ticks ← totalTicks traf (tfhdDefault.or info.defaultSampleDuration)
    return (info, ticks)

/-- The longest of the fragment's tracks; `toMs ticks timescale` is the rounded quotient. -/
def fragmentDurationMs (toMs : Nat → Nat → Nat) (moofBody : Bytes) (tracks : List TrackInfo) :
    Option Nat :=
  (((iterBoxes moofBody).filter fun b => b.kind = fourcc 't' 'r' 'a' 'f').filterMap fun b =>
    trafTicks tracks b.body).foldl
      (fun best traf =>
        let ms := toMs traf.2 traf.1.timescale
        some (best.elim ms (max ms))) none

end Tomb.Grimoire.Radio.Mp4
