import Tomb.Midden.Tags

/-! A text for the tag manifest: the compact JSON that serde_json writes for names without control
characters, read back strictly, and hashes in lower-case hex. -/
namespace Tomb.Midden.ManifestJson
open Tomb.Lib

def escape (byte : UInt8) : List UInt8 :=
  if byte = 0x22 ∨ byte = 0x5C then [0x5C, byte] else [byte]

def quote (bytes : List UInt8) : List UInt8 := bytes.flatMap escape ++ [0x22]

/-- The string whose bytes begin here, behind its opening quote, and what follows it. -/
def unquote : List UInt8 → Option (List UInt8 × List UInt8)
  | [] => none
  | 0x22 :: rest => some ([], rest)
  | [0x5C] => none
  | 0x5C :: byte :: rest => (unquote rest).map fun read => (byte :: read.1, read.2)
  | byte :: rest => (unquote rest).map fun read => (byte :: read.1, read.2)

theorem unquote_escape (byte : UInt8) (rest : List UInt8) :
    unquote (escape byte ++ rest) = (unquote rest).map fun read => (byte :: read.1, read.2) := by
  unfold escape
  split
  · rfl
  · rename_i plain
    obtain ⟨notQuote, notSlash⟩ := not_or.mp plain
    rw [List.singleton_append, unquote]
    · exact notQuote
    · exact fun same _ => notSlash same
    · exact fun _ _ same _ => notSlash same

theorem unquote_quote (bytes rest : List UInt8) : unquote (quote bytes ++ rest) = some (bytes, rest) := by
  induction bytes with
  | nil => rfl
  | cons byte bytes ih =>
    rw [quote, List.flatMap_cons, List.append_assoc, List.append_assoc, unquote_escape,
      ← List.append_assoc, ← quote, ih]
    rfl

def readText (bytes : List UInt8) : Option (Utf8 × List UInt8) :=
  match unquote bytes with
  | some (read, rest) =>
    if valid : Utf8.isUtf8 read = true then some (⟨read, valid⟩, rest) else none
  | none => none

theorem readText_quote (s : Utf8) (rest : List UInt8) :
    readText (quote s.val ++ rest) = some (s, rest) := by
  rw [readText, unquote_quote]
  exact dif_pos s.property

def writeRow (row : ManifestRow) : List UInt8 :=
  quote row.name.val ++ ([0x3A, 0x5B, 0x22] ++ (quote row.hashHex.val ++ ([0x2C, 0x22] ++
    (quote row.format.val ++ [0x5D]))))

def readRow (bytes : List UInt8) : Option (ManifestRow × List UInt8) :=
  match readText bytes with
  | some (name, 0x3A :: 0x5B :: 0x22 :: rest) =>
    match readText rest with
    | some (hashHex, 0x2C :: 0x22 :: rest) =>
      match readText rest with
      | some (format, 0x5D :: rest) => some (⟨name, hashHex, format⟩, rest)
      | _ => none
    | _ => none
  | _ => none

theorem readRow_writeRow (row : ManifestRow) (rest : List UInt8) :
    readRow (writeRow row ++ rest) = some (row, rest) := by
  simp only [readRow, writeRow, List.append_assoc, readText_quote, List.cons_append,
    List.nil_append]

@[grind =] def writeRows : List ManifestRow → List UInt8
  | [] => []
  | [row] => writeRow row ++ [0x7D, 0x7D]
  | row :: next :: rows => writeRow row ++ ([0x2C, 0x22] ++ writeRows (next :: rows))

def readRows : (fuel : Nat) → List UInt8 → Option (List ManifestRow)
  | 0, _ => none
  | fuel + 1, bytes =>
    match readRow bytes with
    | some (row, [0x7D, 0x7D]) => some [row]
    | some (row, 0x2C :: 0x22 :: rest) => (readRows fuel rest).map (row :: ·)
    | _ => none

theorem readRows_writeRows {rows : List ManifestRow} (some_ : rows ≠ []) {fuel : Nat}
    (enough : rows.length ≤ fuel) : readRows fuel (writeRows rows) = some rows := by
  induction rows generalizing fuel with
  | nil => exact absurd rfl some_
  | cons row rows ih =>
    cases fuel with
    | zero => cases enough
    | succ fuel =>
      cases rows with
      | nil => simp only [readRows, writeRows, readRow_writeRow]
      | cons next rows =>
        have later : readRows fuel (writeRows (next :: rows)) = some (next :: rows) :=
          ih (List.cons_ne_nil _ _) (Nat.le_of_succ_le_succ enough)
        simp only [readRows, writeRows, readRow_writeRow, List.cons_append, List.nil_append, later,
          Option.map_some]

def digit (n : Nat) : UInt8 := if n < 10 then UInt8.ofNat (0x30 + n) else UInt8.ofNat (0x57 + n)

def fromDigit (byte : UInt8) : Option Nat :=
  if 0x30 ≤ byte ∧ byte ≤ 0x39 then some (byte.toNat - 0x30)
  else if 0x61 ≤ byte ∧ byte ≤ 0x66 then some (byte.toNat - 0x57)
  else none

theorem digit_spec : ∀ n < 16, digit n < 0x80 ∧ fromDigit (digit n) = some n := by decide

def toHex (bytes : List UInt8) : List UInt8 :=
  bytes.flatMap fun byte => [digit (byte.toNat / 16), digit (byte.toNat % 16)]

def fromHex : List UInt8 → Option (List UInt8)
  | [] => some []
  | [_] => none
  | high :: low :: rest =>
    match fromDigit high, fromDigit low, fromHex rest with
    | some high, some low, some bytes => some (UInt8.ofNat (high * 16 + low) :: bytes)
    | _, _, _ => none

theorem digits_of_byte (byte : UInt8) : byte.toNat / 16 < 16 ∧ byte.toNat % 16 < 16 := by
  have small : byte.toNat < 256 := byte.toNat_lt
  constructor
  · omega
  · omega

theorem fromHex_toHex (bytes : List UInt8) : fromHex (toHex bytes) = some bytes := by
  induction bytes with
  | nil => rfl
  | cons byte bytes ih =>
    obtain ⟨high, low⟩ := digits_of_byte byte
    have whole : UInt8.ofNat (byte.toNat / 16 * 16 + byte.toNat % 16) = byte := by
      rw [Nat.div_add_mod', UInt8.ofNat_toNat]
    rw [toHex, List.flatMap_cons, ← toHex, List.cons_append, List.cons_append, List.nil_append,
      fromHex, (digit_spec _ high).2, (digit_spec _ low).2, ih]
    exact congrArg (fun byte => some (byte :: bytes)) whole

theorem validFrom_ascii {bytes : List UInt8} (ascii : ∀ byte ∈ bytes, byte < 0x80) :
    Utf8.validFrom 0 bytes = true := by
  induction bytes with
  | nil => rfl
  | cons byte bytes ih =>
    have here : Utf8.chunk byte bytes = (true, 0) := by
      rw [Utf8.chunk, Utf8.expected, if_pos (ascii byte List.mem_cons_self)]
      rfl
    rw [Utf8.validFrom, here]
    exact ih fun byte member => ascii byte (List.mem_cons_of_mem _ member)

theorem toHex_ascii (bytes : List UInt8) : ∀ byte ∈ toHex bytes, byte < 0x80 := by
  intro byte member
  obtain ⟨source, -, here⟩ := List.mem_flatMap.mp member
  obtain ⟨high, low⟩ := digits_of_byte source
  rcases List.mem_cons.mp here with rfl | here
  · exact (digit_spec _ high).1
  · cases List.mem_singleton.mp here
    exact (digit_spec _ low).1

def opening : List UInt8 := [0x7B, 0x22, 0x74, 0x61, 0x67, 0x73, 0x22, 0x3A, 0x7B]

def writeBody : List ManifestRow → List UInt8
  | [] => [0x7D, 0x7D]
  | row :: rows => 0x22 :: writeRows (row :: rows)

@[grind =] def toVec (manifest : TagsManifest) : List UInt8 := opening ++ writeBody manifest.rows

def readBody : List UInt8 → Option (List ManifestRow)
  | [0x7D, 0x7D] => some []
  | 0x22 :: rest => readRows rest.length rest
  | _ => none

def fromSlice (bytes : List UInt8) : Option TagsManifest :=
  if bytes.take opening.length = opening then
    (readBody (bytes.drop opening.length)).map Table.collect
  else none

theorem length_le_writeRows (rows : List ManifestRow) : rows.length ≤ (writeRows rows).length := by
  induction rows with
  | nil => exact Nat.le_refl 0
  | cons row rows ih =>
    cases rows with
    | nil =>
      rw [writeRows, List.length_append]
      exact Nat.le_add_left_of_le (Nat.le_succ 1)
    | cons next rows =>
      rw [writeRows, List.length_append, List.length_append]
      simp only [List.length_cons] at ih ⊢
      omega

theorem readBody_writeBody (rows : List ManifestRow) : readBody (writeBody rows) = some rows := by
  cases rows with
  | nil => rfl
  | cons row rows => exact readRows_writeRows (List.cons_ne_nil _ _) (length_le_writeRows _)

theorem fromSlice_toVec (manifest : TagsManifest) :
    ∃ back, fromSlice (toVec manifest) = some back ∧ back.Same manifest := by
  refine ⟨Table.collect manifest.rows, ?_, Table.mem_collect manifest.unique⟩
  rw [fromSlice, toVec, List.take_left, List.drop_left, if_pos rfl, readBody_writeBody]
  rfl

theorem fromSlice_take (manifest : TagsManifest) (len : Nat) (empty : manifest.rows = [])
    (short : len < (toVec manifest).length) : fromSlice ((toVec manifest).take len) = none := by
  have every : ∀ len < 11, (fromSlice ((opening ++ [0x7D, 0x7D]).take len)).isNone = true := by
    decide
  rw [toVec, empty] at short ⊢
  exact Option.isNone_iff_eq_none.mp (every len short)

/-- The texts as the store writes them; `Tag::auto` is given one name for every time. -/
def text : ManifestText where
  toVec := toVec
  fromSlice := fromSlice
  toHex hash := ⟨toHex hash.val, validFrom_ascii (toHex_ascii hash.val)⟩
  parseHash s :=
    match fromHex s.val with
    | some bytes => if size : bytes.length = 32 then some ⟨bytes, size⟩ else none
    | none => none
  autoTag _ _ := ⟨[0x61, 0x75, 0x74, 0x6F], by decide⟩
  fromSlice_nil := rfl
  fromSlice_toVec := fromSlice_toVec
  fromSlice_take := fromSlice_take
  parseHash_toHex hash := by
    simp only [fromHex_toHex]
    exact dif_pos hash.property

end Tomb.Midden.ManifestJson
