import KeyedLog.Path
import KeyedLog.Text

/-!
Archives. Those of a file stand beside it in slots that are numbered from one, the newest first, and hold
what the file held in the gzip format: in blocks as it is, with a checksum and its length behind it.
-/

namespace KeyedLog.Archive

def logEnding : List Char := ['.', 'l', 'o', 'g']

def stem? (name : List Char) : Option (List Char) :=
  if logEnding.isSuffixOf name then some (name.take (name.length - logEnding.length)) else none

def slotName (name : List Char) (slot : Nat) : List Char :=
  match stem? name with
  | some stem => stem ++ '.' :: Nat.toDigits 10 slot ++ logEnding ++ ['.', 'g', 'z']
  | none => name ++ '.' :: Nat.toDigits 10 slot ++ ['.', 'g', 'z']

def slotPath (base : String) (slot : Nat) : String :=
  Path.withFileName base (String.ofList (slotName ((Path.fileName? base).getD "").toList slot))

/-- Where the next archive is written before it takes the first slot. -/
def stagingPath (base : String) : String :=
  slotPath base 1 ++ ".tmp"

end KeyedLog.Archive

namespace KeyedLog.Gzip

def checksumBit (value : UInt32) : UInt32 :=
  if value &&& 1 = 1 then (value >>> 1) ^^^ 0xEDB88320 else value >>> 1

def checksumStep (value : UInt32) (byte : UInt8) : UInt32 :=
  (List.range 8).foldl (fun value _ => checksumBit value) (value ^^^ byte.toUInt32)

def checksum (bytes : Bytes) : UInt32 :=
  bytes.foldl checksumStep 0xFFFFFFFF ^^^ 0xFFFFFFFF

def littleEndian : (count : Nat) → Nat → Bytes
  | 0, _ => []
  | count + 1, n => UInt8.ofNat (n % 256) :: littleEndian count (n / 256)

def ofLittleEndian : Bytes → Nat
  | [] => 0
  | byte :: rest => byte.toNat + 256 * ofLittleEndian rest

def maxBlock : Nat := 65535

def block (final : Bool) (bytes : Bytes) : Bytes :=
  (if final then 1 else 0) :: littleEndian 2 bytes.length ++ littleEndian 2 (maxBlock - bytes.length) ++ bytes

/-- Content in blocks, the last of which says so. `fuel` bounds their number. -/
def blocks : (fuel : Nat) → Bytes → Bytes
  | 0, bytes => block true bytes
  | fuel + 1, bytes =>
    if bytes.length ≤ maxBlock then block true bytes
    else block false (bytes.take maxBlock) ++ blocks fuel (bytes.drop maxBlock)

def header : Bytes :=
  [0x1F, 0x8B, 8, 0, 0, 0, 0, 0, 0, 255]

def encode (content : Bytes) : Bytes :=
  header ++ blocks (content.length / maxBlock) content ++
    littleEndian 4 (checksum content).toNat ++ littleEndian 4 content.length

def decodeBlocks : (fuel : Nat) → (seen : List Bytes) → Bytes → Option (Bytes × Bytes)
  | 0, _, _ => none
  | fuel + 1, seen, bytes => do
    let kind :: rest := bytes | none
    let length := ofLittleEndian (rest.take 2)
    let complement := ofLittleEndian ((rest.drop 2).take 2)
    let body := rest.drop 4
    if kind > 1 || complement + length ≠ maxBlock || body.length < length then none
    let seen := body.take length :: seen
    if kind = 1 then return (seen.reverse.flatten, body.drop length)
    else decodeBlocks fuel seen (body.drop length)

def decode? (file : Bytes) : Option Bytes := do
  if !header.isPrefixOf file then none
  let (content, trailer) ← decodeBlocks file.length [] (file.drop header.length)
  if trailer = littleEndian 4 (checksum content).toNat ++ littleEndian 4 content.length then return content
  else none

end KeyedLog.Gzip
