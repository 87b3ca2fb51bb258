import Tomb.Lib.Spacing
import Tomb.Lib.Text
import Tomb.Lib.Words

/-! Artist, album and track from the name of a music file, and which words of the name they keep. -/
namespace Tomb.Grimoire.Music.FilenameParser
open Tomb.Lib
open Tomb.Lib.Text (isWhiteSpace)

structure Script where
  (isCombiningMark isNumeric : Char → Bool)

structure FileName where
  text : List Char
  noSeparator : '/' ∉ text

structure ParsedFilename where
  (artist album track : Option (List Char))
  trackNumber : Option Int

def ParsedFilename.empty : ParsedFilename := ⟨none, none, none, none⟩

def trim (text : List Char) : List Char := (text.dropWhile isWhiteSpace).rdropWhile isWhiteSpace

@[grind =] def beforeLastDot : List Char → Option (List Char)
  | [] => none
  | c :: text =>
    match beforeLastDot text with
    | some before => some (c :: before)
    | none => if c = '.' then some [] else none

section Cleaning

def removeAll (width : Nat) (found : List Char → Bool) : Nat → List Char → List Char
  | _, [] => []
  | skip + 1, _ :: text => removeAll width found skip text
  | 0, c :: text =>
    if found (c :: text) then removeAll width found (width - 1) text
    else c :: removeAll width found 0 text

def isIdChar (c : Char) : Bool := c.isAlphanum || c = '_' || c = '-'

def bracketId (text : List Char) : Bool :=
  text.head? = some '[' && ((text.drop 1).take 11).all isIdChar && text[12]? = some ']'

def removeTrailingId (text : List Char) : List Char :=
  match text.drop (text.length - 12) with
  | mark :: id =>
    if (mark = '-' || mark = '.') && id.length = 11 && id.all isIdChar
    then text.take (text.length - 12) else text
  | [] => text

def removeYoutubeIds (text : List Char) : List Char :=
  trim (removeTrailingId (removeAll 13 bracketId 0 text))

def fullAlbumTag (text : List Char) : Bool :=
  (text.take 12).map Char.toLower = "[full album]".toList

def removeFullAlbumTags (text : List Char) : List Char := trim (removeAll 12 fullAlbumTag 0 text)

def isControl (c : Char) : Bool := c.toNat < 0x20 || (0x7F ≤ c.toNat && c.toNat ≤ 0x9F)

def isFormatChar (c : Char) : Bool :=
  let n := c.toNat
  (0x200B ≤ n && n ≤ 0x200F) || (0x2028 ≤ n && n ≤ 0x202E) || (0x2060 ≤ n && n ≤ 0x2064) ||
    (0x206A ≤ n && n ≤ 0x206F) || n = 0xFEFF

def removeCombiningChars (script : Script) (text : List Char) : List Char :=
  text.filter fun c => !script.isCombiningMark c && !isControl c && !isFormatChar c

def normalizeHyphens (text : List Char) : List Char :=
  text.map fun c => if 0x2010 ≤ c.toNat && c.toNat ≤ 0x2015 then '-' else c

def cleanFilename (script : Script) (filename : List Char) : List Char :=
  normalizeHyphens (removeCombiningChars script (removeFullAlbumTags (removeYoutubeIds filename)))

end Cleaning

section Parts

def underscoresToSpaces (text : List Char) : List Char :=
  text.map fun c => if c = '_' then ' ' else c

def replaceDoubleHyphens : List Char → List Char
  | '-' :: '-' :: text => ' ' :: '-' :: ' ' :: replaceDoubleHyphens text
  | c :: text => c :: replaceDoubleHyphens text
  | [] => []

/-- Whether the result ends with a blank, and whether the blanks behind a hyphen are skipped. -/
def spaceHyphens : (blank skipping : Bool) → List Char → List Char
  | _, _, [] => []
  | blank, skipping, c :: text =>
    if skipping && c = ' ' then spaceHyphens blank skipping text
    else if c = '-' then
      (if blank then [] else [' ']) ++ '-' :: ' ' :: spaceHyphens true true text
    else c :: spaceHyphens (c = ' ') false text

def normalizeSingleHyphens (text : List Char) : List Char := spaceHyphens false false text

def normalizeSeparators (text : List Char) : List Char :=
  if [' ', '-', ' '] <:+: text then text
  else if ['-', '-'] <:+: text then replaceDoubleHyphens text
  else if '-' ∈ text then normalizeSingleHyphens text
  else text

def splitParts : List Char → List (List Char)
  | ' ' :: '-' :: ' ' :: text => [] :: splitParts text
  | c :: text => (splitParts text).modifyHead (c :: ·)
  | [] => [[]]

def parts (script : Script) (filename : List Char) : List (List Char) :=
  (splitParts (normalizeSeparators (underscoresToSpaces (cleanFilename script filename)))).map trim

end Parts

section Numbers

def parseDigits (digits : List Char) : Option Nat :=
  if digits ≠ [] ∧ digits.all Char.isDigit then
    some (digits.foldl (fun value c => value * 10 + (c.toNat - 48)) 0)
  else none

def parseI64 (text : List Char) : Option Int :=
  match text with
  | '-' :: digits => ((parseDigits digits).filter (· ≤ 2 ^ 63)).map fun n => -Int.ofNat n
  | '+' :: digits => ((parseDigits digits).filter (· < 2 ^ 63)).map Int.ofNat
  | digits => ((parseDigits digits).filter (· < 2 ^ 63)).map Int.ofNat

def isNumber (text : List Char) : Bool := (parseI64 text).isSome

def trackNumber (text : List Char) : Option Int :=
  (parseI64 text).filter fun num => 0 < num ∧ num < 1000

def nonNumeric (script : Script) (words : List (List Char)) : Option (List Char) :=
  (words.map (·.filter fun c => !script.isNumeric c)).find? (· ≠ [])

end Numbers

def isMark (c : Char) : Bool := c = ',' || c = '-'

def trimMatches (text : List Char) : List Char := (text.dropWhile isMark).rdropWhile isMark

def stem (name : FileName) : List Char := (beforeLastDot name.text).getD name.text

def isWordChar (c : Char) : Bool := !(isWhiteSpace c || c = '-' || c = '_')

def wordsOf (text : List Char) : List (List Char) := words isWordChar text

section Spacing

theorem leadingWord_cons {c : Char} (gap : isWordChar c = false) (text : List Char) :
    leadingWord isWordChar (c :: text) = ([], wordsOf text) :=
  leadingWord_cons_skip gap text

end Spacing

section Kept

/-- What is left of the words of a part without the numbers in front, and without the numerals that
the next word begins with. -/
def unnumbered (script : Script) (words : List (List Char)) : List (List Char) :=
  match words.dropWhile isNumber with
  | first :: rest =>
    let withoutLeading := first.dropWhile script.isNumeric
    (if withoutLeading = [] then first else withoutLeading) :: rest
  | [] => if words.length = 1 then [] else (nonNumeric script words).toList

variable {text word : List Char}

def Visible (word : List Char) : Prop := ∀ c ∈ word, isWhiteSpace c = false

theorem Visible.subset {part : List Char} (visible : Visible word) (inside : part ⊆ word) :
    Visible part :=
  fun c member => visible c (inside member)

variable {words : List (List Char)}

/-- A word that is no number and has no numeral in front, and neither comma nor hyphen at an end. -/
structure Plain (script : Script) (word : List Char) : Prop where
  other : isNumber word = false
  front : ∀ c ∈ word.head?, script.isNumeric c = false ∧ isMark c = false
  back : ∀ c ∈ word.getLast?, isMark c = false

def written (field : Option (List Char)) : List (List Char) := wordsOf (field.getD [])

end Kept

section Stems

end Stems

def ascii : Script := ⟨fun _ => false, Char.isDigit⟩

end Tomb.Grimoire.Music.FilenameParser
