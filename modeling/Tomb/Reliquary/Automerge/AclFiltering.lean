import Mathlib.Logic.Equiv.List
import Tomb.Reliquary.Blobz

/-! What the adapter hands to automerge-repo of the frames that arrive on a peer's stream: the read
loop stamps the sender, and the filter in front of the repo strips the changes of peers that may
only read. -/
namespace Tomb.Reliquary.Automerge

/-- A value of a decoded frame, as far as the filter looks at it. An `object` is any array, map or
date, with what it is spelled as where a property key is asked for. -/
inductive Value where
  | undefined
  | null
  | bool (b : Bool)
  | number (spelled : String)
  | string (text : String)
  | bytes (content : Bytes)
  | object (spelled : String)
  deriving DecidableEq

namespace Value

def truthy : Value → Bool
  | undefined | null => false
  | bool b => b
  | number spelled => spelled ≠ "0" && spelled ≠ "NaN"
  | string text => text ≠ ""
  | bytes _ | object _ => true

end Value

structure Message where
  (type senderId targetId documentId data : Value)
  others : List (String × Value)

/-- What a frame decodes to: something that properties can be set on, or not. -/
inductive Decoded where
  | primitive (value : Value)
  | object (message : Message)

structure Have where
  lastSync : List String
  bloom : Bytes

structure SyncMessage where
  (heads need : List String)
  haves : List Have
  changes : List Bytes
  supportedCapabilities : List String

/-- The sync messages of automerge as values of the `data` property: what is encoded decodes to
itself, and a value that is absent decodes to nothing. -/
structure SyncCodec where
  decodeSyncMessage : Value → Option SyncMessage
  encodeSyncMessage : SyncMessage → Value
  roundTrip : ∀ decoded, decodeSyncMessage (encodeSyncMessage decoded) = some decoded
  absent : ∀ value, value.truthy = false → decodeSyncMessage value = none

structure AclFilteringOptions (Role : Type) where
  resolveRole : Value → Value → Role
  isReadOnly : Role → Bool

namespace Message

def isSync (message : Message) : Bool :=
  message.type = .string "sync" || message.type = .string "request"

def stamp (peerId : String) (message : Message) : Message :=
  { message with senderId := .string peerId }

end Message

section Filter

variable {Role : Type}

def handleMessage (codec : SyncCodec) (options : AclFilteringOptions Role) (message : Message) :
    Option Message :=
  if !message.isSync then some message
  else if !message.documentId.truthy || !message.data.truthy then some message
  else if !options.isReadOnly (options.resolveRole message.documentId message.senderId) then
    some message
  else
    match codec.decodeSyncMessage message.data with
    | none => none
    | some decoded =>
      if decoded.changes.length = 0 then some message
      else some { message with data := codec.encodeSyncMessage { decoded with changes := [] } }

/-- A read of the stream: the frame that it gives, none where the peer has closed the stream, and
the roles at that moment. -/
structure Arrival (Role : Type) where
  data : Option Bytes
  options : AclFilteringOptions Role

structure Handover (Role : Type) where
  raw : Message
  options : AclFilteringOptions Role
  handed : Message

/-- The read loop of the stream of a peer, with the filter behind it. The loop ends where the stream
does, and at the first frame that something throws on: decoding it, setting its sender, or the
filter. -/
@[grind =]
def startReadLoop (decode : Bytes → Option Decoded) (codec : SyncCodec) (peerId : String) :
    List (Arrival Role) → List (Handover Role)
  | [] => []
  | arrival :: rest =>
    match arrival.data.bind decode with
    | some (.object raw) =>
      match handleMessage codec arrival.options (raw.stamp peerId) with
      | some handed =>
        ⟨raw, arrival.options, handed⟩ :: startReadLoop decode codec peerId rest
      | none => []
    | _ => []

end Filter

namespace Handover

variable {Role : Type} (codec : SyncCodec) (peerId : String) (entry : Handover Role)

end Handover

section Handle

variable {Role : Type} {codec : SyncCodec} {options : AclFilteringOptions Role} {peerId : String}
  {raw handed : Message}

end Handle

section ReadLoop

variable {Role : Type} {decode : Bytes → Option Decoded} {codec : SyncCodec} {peerId : String}

end ReadLoop

local instance encodableChar : Encodable Char :=
  Encodable.ofLeftInverse Char.toNat Char.ofNat Char.ofNat_toNat

local instance encodableString : Encodable String :=
  Encodable.ofLeftInverse String.toList String.ofList fun _ => String.ofList_toList

local instance encodableByte : Encodable UInt8 :=
  Encodable.ofLeftInverse UInt8.toNat UInt8.ofNat fun _ => UInt8.ofNat_toNat

local instance : Encodable Have :=
  Encodable.ofLeftInverse (fun entry => (entry.lastSync, entry.bloom))
    (fun parts => ⟨parts.1, parts.2⟩) fun _ => rfl

local instance : Encodable SyncMessage :=
  Encodable.ofLeftInverse (fun m => (m.heads, m.need, m.haves, m.changes, m.supportedCapabilities))
    (fun parts => ⟨parts.1, parts.2.1, parts.2.2.1, parts.2.2.2.1, parts.2.2.2.2⟩) fun _ => rfl

end Tomb.Reliquary.Automerge
