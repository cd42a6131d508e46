/-! # Gzip streams

    The gzip format with stored blocks: a header of ten bytes, blocks of at most
    65535 bytes each in front of which its length stands twice, the second time
    with all bits turned, and at the end a checksum and the length of the whole.
    What has been written can be read back.
-/

namespace Logbook.Gzip

/-! ## Checksum -/

/-- One bit of the checksum. -/
def crcBit (c : UInt32) : UInt32 :=
  if c &&& 1 = 1 then (c >>> 1) ^^^ 0xEDB88320 else c >>> 1

/-- One byte of the checksum. -/
def crcByte (c : UInt32) (b : UInt8) : UInt32 :=
  Nat.repeat crcBit 8 (c ^^^ b.toUInt32)

/-- The checksum of bytes. -/
def checksum (bytes : List UInt8) : UInt32 :=
  bytes.foldl crcByte 0xFFFFFFFF ^^^ 0xFFFFFFFF

/-! ## Numbers -/

/-- A number in a given count of bytes, the lowest first. -/
def littleEndian : Nat → Nat → List UInt8
  | 0, _ => []
  | k + 1, n => n.toUInt8 :: littleEndian k (n / 256)

/-- The number that bytes stand for, the lowest first. -/
def number : List UInt8 → Nat
  | [] => 0
  | b :: rest => b.toNat + 256 * number rest

/-! ## Writing -/

/-- The header: magic bytes, method, no flags, no time, no system. -/
def header : List UInt8 := [0x1f, 0x8b, 8, 0, 0, 0, 0, 0, 0, 0xff]

/-- The greatest length of a block. -/
def blockLimit : Nat := 65535

/-- One stored block. -/
def block (last : Bool) (bytes : List UInt8) : List UInt8 :=
  (if last then 1 else 0) :: littleEndian 2 bytes.length ++
    littleEndian 2 (blockLimit - bytes.length) ++ bytes

/-- Bytes in stored blocks, the last one marked; at most the given number of
    blocks comes before the last. -/
def blocks : Nat → List UInt8 → List UInt8
  | 0, bytes => block true bytes
  | more + 1, bytes =>
    if bytes.length ≤ blockLimit then block true bytes
    else block false (bytes.take blockLimit) ++ blocks more (bytes.drop blockLimit)

/-- A stream that holds the given bytes. -/
def compress (bytes : List UInt8) : List UInt8 :=
  header ++ blocks (bytes.length / blockLimit) bytes ++
    littleEndian 4 (checksum bytes).toNat ++ littleEndian 4 bytes.length

/-! ## Reading -/

/-- The bytes of stored blocks and what follows the last one; at most the given
    number of blocks comes before the last. -/
def readBlocks : Nat → List UInt8 → Option (List UInt8 × List UInt8)
  | more, kind :: a :: b :: c :: d :: rest =>
    let length := number [a, b]
    if number [c, d] + length ≠ blockLimit || rest.length < length then none
    else if kind = 1 then some (rest.take length, rest.drop length)
    else if kind = 0 then
      match more with
      | 0 => none
      | more + 1 =>
        (readBlocks more (rest.drop length)).map fun (bytes, rest') =>
          (rest.take length ++ bytes, rest')
    else none
  | _, _ => none

/-- The bytes that a stream holds; what follows the stream is not looked at. -/
def decompress? (stream : List UInt8) : Option (List UInt8) :=
  if stream.take header.length ≠ header then none
  else
    match readBlocks stream.length (stream.drop header.length) with
    | none => none
    | some (bytes, rest) =>
      let trailer := rest.take 8
      if trailer = littleEndian 4 (checksum bytes).toNat ++ littleEndian 4 bytes.length then
        some bytes
      else none

end Logbook.Gzip
