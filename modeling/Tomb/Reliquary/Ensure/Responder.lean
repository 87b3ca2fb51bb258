import Mathlib.Algebra.Ring.Nat
import Tomb.Lib.Json

/-! The responder of the ensure-blob protocol. What comes in on a stream is any json value, so a field
may be missing or have any type; reading it as javascript does may throw. -/
namespace Tomb.Reliquary.Ensure
open Tomb.Lib

abbrev Value := Json Rat

def maxRequest : Nat := 64 * 1024

structure EnsureBlobHandlerDeps where
  hasBlob : Value → Option Bool
  allow : Option (String → Value → Option Bool)

structure BiStream where
  peerNodeId : String
  /-- What is read up to a size, or `none` for an error, where the stream supports it. -/
  readToEnd : Option (Nat → Option (List UInt8))
  (writesRaw writes : Bool)

structure EnsureBlobResponse where
  id : Option Value
  available : Bool
  error : Option String

inductive Thrown where
  | typeError | read | allow | write

structure Served where
  answers : List EnsureBlobResponse
  closed : Bool
  thrown : Option Thrown

namespace Served

def closing : Served := ⟨[], true, none⟩

def throwing (thrown : Thrown) : Served := ⟨[], false, some thrown⟩

def Done (served : Served) : Prop :=
  served.answers.length = 1 ∨ served.answers = [] ∧ served.closed = true

end Served

section
variable (showNumber : Rat → String)

mutual

def text : Value → Option String
  | .null => some "null"
  | .bool value => some (toString value)
  | .number value => some (showNumber value)
  | .string value => some value
  | .array items => (textItems items).map (",".intercalate ·)
  | .object fields =>
    if "toString" ∈ fields.map Prod.fst then none else some "[object Object]"

def textItems : List Value → Option (List String)
  | [] => some []
  | .null :: rest => (textItems rest).map ("" :: ·)
  | item :: rest =>
    match text item, textItems rest with
    | some item, some rest => some (item :: rest)
    | _, _ => none

end

def textOrUndefined : Option Value → Option String
  | none => some "undefined"
  | some value => text showNumber value

end

def field (value : Value) (name : String) : Option (Option Value) :=
  match value with
  | .null => none
  | .object fields => some (lookup fields name)
  | _ => some none

def utf16Length (text : String) : Nat :=
  (text.toList.map fun c => if c.val < 0x10000 then 1 else 2).sum

def lengthOf : Option Value → Option (Option Value)
  | none => none
  | some (.string value) => some (some (.number (utf16Length value)))
  | some (.array items) => some (some (.number items.length))
  | some value => field value "length"

def isHashLength : Option Value → Bool
  | some (.number length) => length = 64
  | _ => false

def sliced : Value → Option Value
  | .string value => some (.string (value.take 16).toString)
  | .array items => some (.array (items.take 16))
  | _ => none

section
variable (showNumber : Rat → String) (parse : List UInt8 → Option Value)
  (deps : EnsureBlobHandlerDeps) (stream : BiStream)

def shortHash (hash : Value) : Option String := (sliced hash).bind (text showNumber)

def checkBlob (id : Option Value) (hash : Value) : Except Thrown EnsureBlobResponse :=
  match deps.hasBlob hash with
  | some available => .ok ⟨id, available, none⟩
  | none =>
    match shortHash showNumber hash with
    | none => .error .typeError
    | some _ => .ok ⟨id, false, some "hasBlob check failed"⟩

def checkAccess (id : Option Value) (hash : Value) (peerId : String) :
    Except Thrown EnsureBlobResponse :=
  match deps.allow with
  | none => checkBlob showNumber deps id hash
  | some allow =>
    match allow peerId hash with
    | none => .error .allow
    | some true => checkBlob showNumber deps id hash
    | some false =>
      match shortHash showNumber hash with
      | none => .error .typeError
      | some _ => .ok ⟨id, false, some "not authorized"⟩

def handleEnsureBlobRequest (id hash : Option Value) (peerId : String) :
    Except Thrown EnsureBlobResponse :=
  match hash, lengthOf hash with
  | none, _ | _, none => .error .typeError
  | some hash, some length =>
    if isHashLength length = false then
      match textOrUndefined showNumber length with
      | none => .error .typeError
      | some length => .ok ⟨id, false, some s!"expected 64-char blake3 hex, got {length}"⟩
    else checkAccess showNumber deps id hash peerId

def sendResponse (response : EnsureBlobResponse) : Served :=
  if stream.writes then ⟨[response], !stream.writesRaw, none⟩ else .throwing .write

def isRequest : Option Value → Bool
  | some (.string type) => type = "ensure_blob_request"
  | _ => false

def handleMessage (msg : Value) : Served :=
  match field msg "type" with
  | none => .throwing .typeError
  | some type =>
    if isRequest type = false then
      match textOrUndefined showNumber type with
      | none => .throwing .typeError
      | some _ => .closing
    else
      let id := (field msg "id").join
      let hash := (field msg "blake3_hash").join
      match handleEnsureBlobRequest showNumber deps id hash stream.peerNodeId with
      | .error thrown => .throwing thrown
      | .ok response => sendResponse stream response

def handleStream : Served :=
  match stream.readToEnd with
  | none => .closing
  | some read =>
    match read maxRequest with
    | none => .throwing .read
    | some msgBytes =>
      match parse msgBytes with
      | none => .closing
      | some msg => handleMessage showNumber deps stream msg

/-- The handler only starts the work. What is thrown there is logged and goes no further. -/
def createEnsureBlobHandler : Except Thrown Served := .ok (handleStream showNumber parse deps stream)

end

inductive Arrival where
  | stream (stream : BiStream)
  | closed
  | failed

/-- The adapter's loop, for the streams of this protocol and while the adapter runs. -/
def acceptLoop (handler : BiStream → Except Thrown Served) : List Arrival → List Served
  | [] | .closed :: _ => []
  | .failed :: rest => acceptLoop handler rest
  | .stream stream :: rest =>
    match handler stream with
    | .error _ => acceptLoop handler rest
    | .ok served => served :: acceptLoop handler rest

section
variable (showNumber : Rat → String) (parse : List UInt8 → Option Value)
  (deps : EnsureBlobHandlerDeps) (stream : BiStream)

def Receives (msg : Value) : Prop :=
  ∃ read msgBytes, stream.readToEnd = some read ∧ read maxRequest = some msgBytes ∧
    parse msgBytes = some msg

/-- The stream is answered once or closed, the loop serves it whatever came before and goes on, and what
is done with one whose hash is refused does not depend on the blobs. -/
structure Responds : Prop where
  done : (handleStream showNumber parse deps stream).Done
  goes_on : ∀ before after, (∀ arrival ∈ before, arrival ≠ .closed) →
    acceptLoop (createEnsureBlobHandler showNumber parse deps) (before ++ .stream stream :: after) =
      acceptLoop (createEnsureBlobHandler showNumber parse deps) before ++
        handleStream showNumber parse deps stream ::
          acceptLoop (createEnsureBlobHandler showNumber parse deps) after
  blind : ∀ hasBlob allow, deps.allow = some allow →
    (∀ msg hash, Receives parse stream msg → field msg "blake3_hash" = some (some hash) →
      allow stream.peerNodeId hash = some false) →
    handleStream showNumber parse { deps with hasBlob } stream =
      handleStream showNumber parse deps stream

/-- Where `hasBlob` throws, the hash can be written to the log. -/
def BlobFits (hash : Value) : Prop :=
  deps.hasBlob hash = none → (shortHash showNumber hash).isSome = true

/-- `allow` does not throw, and a hash that it refuses can be written to the log. -/
def AccessFits (peerId : String) (hash : Value) : Prop :=
  match deps.allow with
  | none => BlobFits showNumber deps hash
  | some allow =>
    match allow peerId hash with
    | none => False
    | some true => BlobFits showNumber deps hash
    | some false => (shortHash showNumber hash).isSome = true

/-- There is a hash, not `null`, and a length other than 64 can be written to the answer. -/
def RequestFits (peerId : String) : Option Value → Prop
  | none => False
  | some hash => ∃ length, lengthOf (some hash) = some length ∧
      if isHashLength length then AccessFits showNumber deps peerId hash
      else (textOrUndefined showNumber length).isSome = true

/-- The message is not `null`. A request fits and its answer is written without an error, and the type
of another one can be written to the log. -/
def MessageFits (msg : Value) : Prop :=
  ∃ type, field msg "type" = some type ∧
    if isRequest type then
      RequestFits showNumber deps stream.peerNodeId (field msg "blake3_hash").join ∧
        stream.writes = true
    else (textOrUndefined showNumber type).isSome = true

/-- A stream that can be read is read without an error, and a message on it fits. -/
def StreamFits : Prop :=
  ∀ read, stream.readToEnd = some read → ∃ msgBytes, read maxRequest = some msgBytes ∧
    ∀ msg, parse msgBytes = some msg → MessageFits showNumber deps stream msg

end

section
variable {showNumber : Rat → String} {parse : List UInt8 → Option Value}
  {deps : EnsureBlobHandlerDeps} {stream : BiStream}

@[simp] theorem done_closing : Served.closing.Done := .inr ⟨rfl, rfl⟩

@[simp] theorem not_done_throwing (thrown : Thrown) : ¬(Served.throwing thrown).Done := by
  rintro (one | ⟨-, closed⟩)
  · exact absurd one Nat.zero_ne_one
  · exact Bool.noConfusion closed

theorem checkBlob_ok (id : Option Value) (hash : Value) :
    (∃ response, checkBlob showNumber deps id hash = .ok response) ↔
      BlobFits showNumber deps hash := by
  unfold checkBlob BlobFits
  split
  · rename_i known
    simp [known]
  · rename_i thrown
    split
    · rename_i unwritable
      simp [thrown, unwritable]
    · rename_i text written
      simp [written]

theorem checkAccess_ok (id : Option Value) (hash : Value) (peerId : String) :
    (∃ response, checkAccess showNumber deps id hash peerId = .ok response) ↔
      AccessFits showNumber deps peerId hash := by
  unfold checkAccess AccessFits
  cases deps.allow with
  | none => exact checkBlob_ok id hash
  | some allow =>
    dsimp only
    cases allow peerId hash with
    | none => simp
    | some allowed =>
      cases allowed with
      | true => exact checkBlob_ok id hash
      | false => cases shortHash showNumber hash <;> simp

theorem handleEnsureBlobRequest_ok (id hash : Option Value) (peerId : String) :
    (∃ response, handleEnsureBlobRequest showNumber deps id hash peerId = .ok response) ↔
      RequestFits showNumber deps peerId hash := by
  cases hash with
  | none => simp [handleEnsureBlobRequest, RequestFits]
  | some hash =>
    cases known : lengthOf (some hash) with
    | none => simp [handleEnsureBlobRequest, RequestFits, known]
    | some length =>
      simp only [handleEnsureBlobRequest, RequestFits, known, Option.some.injEq, exists_eq_left']
      cases isHashLength length with
      | true => exact checkAccess_ok id hash peerId
      | false => cases textOrUndefined showNumber length <;> simp

theorem sendResponse_done (response : EnsureBlobResponse) :
    (sendResponse stream response).Done ↔ stream.writes = true := by
  unfold sendResponse
  cases stream.writes with
  | true => exact ⟨fun _ => rfl, fun _ => .inl rfl⟩
  | false => simp

theorem handleMessage_done (msg : Value) :
    (handleMessage showNumber deps stream msg).Done ↔ MessageFits showNumber deps stream msg := by
  unfold handleMessage MessageFits
  cases field msg "type" with
  | none => simp
  | some type =>
    simp only [Option.some.injEq, exists_eq_left']
    cases isRequest type with
    | false => cases textOrUndefined showNumber type <;> simp
    | true =>
      simp only [Bool.true_eq_false, if_false, if_true]
      rw [← handleEnsureBlobRequest_ok (field msg "id").join]
      cases handleEnsureBlobRequest showNumber deps (field msg "id").join
        (field msg "blake3_hash").join stream.peerNodeId with
      | error thrown => simp
      | ok response => simp [sendResponse_done]

theorem handleStream_done : (handleStream showNumber parse deps stream).Done ↔
    StreamFits showNumber parse deps stream := by
  unfold handleStream StreamFits
  cases stream.readToEnd with
  | none => simp
  | some read =>
    simp only [Option.some.injEq, forall_eq']
    cases read maxRequest with
    | none => simp
    | some msgBytes =>
      simp only [Option.some.injEq, exists_eq_left']
      cases parse msgBytes with
      | none => simp
      | some msg => simp [handleMessage_done]

theorem acceptLoop_append {handler : BiStream → Except Thrown Served} {before : List Arrival}
    (going : ∀ arrival ∈ before, arrival ≠ .closed) (rest : List Arrival) :
    acceptLoop handler (before ++ rest) = acceptLoop handler before ++ acceptLoop handler rest := by
  induction before with
  | nil => rfl
  | cons arrival before ih =>
    obtain ⟨first, later⟩ := List.forall_mem_cons.mp going
    cases arrival with
    | closed => exact absurd rfl first
    | failed => exact ih later
    | stream other =>
      simp only [List.cons_append, acceptLoop]
      cases handler other with
      | error thrown => exact ih later
      | ok served => exact congrArg (served :: ·) (ih later)

variable {allow : String → Value → Option Bool}

theorem checkAccess_refused (id : Option Value) {hash : Value}
    {peerId : String} (gated : deps.allow = some allow) (refused : allow peerId hash = some false)
    (hasBlob : Value → Option Bool) : checkAccess showNumber { deps with hasBlob } id hash peerId =
      checkAccess showNumber deps id hash peerId := by
  simp only [checkAccess, gated, refused]

theorem handleMessage_refused {msg : Value} (gated : deps.allow = some allow)
    (refused : ∀ hash, field msg "blake3_hash" = some (some hash) →
      allow stream.peerNodeId hash = some false) (hasBlob : Value → Option Bool) :
    handleMessage showNumber { deps with hasBlob } stream msg =
      handleMessage showNumber deps stream msg := by
  have same : handleEnsureBlobRequest showNumber { deps with hasBlob } (field msg "id").join
      (field msg "blake3_hash").join stream.peerNodeId =
      handleEnsureBlobRequest showNumber deps (field msg "id").join
        (field msg "blake3_hash").join stream.peerNodeId := by
    cases known : (field msg "blake3_hash").join with
    | none => rfl
    | some hash =>
      have there := refused hash (Option.join_eq_some_iff.mp known)
      unfold handleEnsureBlobRequest
      cases lengthOf (some hash) with
      | none => rfl
      | some length => simp only [checkAccess_refused _ gated there]
  simp only [handleMessage, same]

theorem handleStream_refused (gated : deps.allow = some allow)
    (refused : ∀ msg hash, Receives parse stream msg → field msg "blake3_hash" = some (some hash) →
      allow stream.peerNodeId hash = some false) (hasBlob : Value → Option Bool) :
    handleStream showNumber parse { deps with hasBlob } stream =
      handleStream showNumber parse deps stream := by
  unfold handleStream
  cases supported : stream.readToEnd with
  | none => rfl
  | some read =>
    dsimp only
    cases come : read maxRequest with
    | none => rfl
    | some msgBytes =>
      dsimp only
      cases parsed : parse msgBytes with
      | none => rfl
      | some msg =>
        have received : Receives parse stream msg := ⟨read, msgBytes, supported, come, parsed⟩
        exact handleMessage_refused gated (fun hash => refused msg hash received) hasBlob

/-- The responder does what it should on a stream exactly when the stream fits. -/
theorem responds_iff (showNumber : Rat → String) (parse : List UInt8 → Option Value)
    (deps : EnsureBlobHandlerDeps) (stream : BiStream) :
    Responds showNumber parse deps stream ↔ StreamFits showNumber parse deps stream := by
  constructor
  · exact fun responds => handleStream_done.mp responds.done
  · intro fits
    refine ⟨handleStream_done.mpr fits, fun before after going => ?_, ?_⟩
    · exact acceptLoop_append going (.stream stream :: after)
    · exact fun hasBlob allow gated refused => handleStream_refused gated refused hasBlob

/-- A stream on which the json value `null` comes in. -/
theorem null_not_responds : ¬Responds (fun _ => "") (fun _ => some .null)
    ⟨fun _ => some false, none⟩ ⟨"peer", some fun _ => some [110, 117, 108, 108], true, true⟩ := by
  intro responds
  exact not_done_throwing _ responds.done

end

end Tomb.Reliquary.Ensure
