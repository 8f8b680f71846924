/-
# Archives as bytes

An archive of named texts in the usual container format: a record for each entry with its
name and its bytes, then a directory that tells where every record starts, then an end
record that tells where the directory is. Entries are stored as they are, without
compression, so their sizes and checksums are those of the texts. Numbers are written with
the least byte first.
-/

import BlockForge.Files.Tree

namespace BlockForge.Files

abbrev Bytes := List UInt8

/-- A number in a fixed count of bytes, the least one first. -/
def littleEndian : Nat → Nat → Bytes
  | 0, _ => []
  | width + 1, n => UInt8.ofNat n :: littleEndian width (n / 256)

/-- One step of the checksum: a remainder that is shifted by one bit. -/
def checksumStep (remainder : UInt32) : UInt32 :=
  if remainder &&& 1 = 1 then (remainder >>> 1) ^^^ 0xEDB88320 else remainder >>> 1

def checksumByte (remainder : UInt32) (byte : UInt8) : UInt32 :=
  (List.range 8).foldl (fun shifted _ => checksumStep shifted) (remainder ^^^ byte.toUInt32)

/-- The cyclic redundancy check of bytes, with 32 bits. -/
def checksum (bytes : Bytes) : UInt32 :=
  bytes.foldl checksumByte 0xFFFFFFFF ^^^ 0xFFFFFFFF

def textBytes (text : String) : Bytes := text.toUTF8.toList

/-- What a record and its line in the directory have in common: the version needed, names
in UTF-8, no compression, no time of change, the checksum, both sizes, the length of the
name and that of further fields. -/
def entryFields (name : String) (bytes : Bytes) : Bytes :=
  littleEndian 2 20 ++ littleEndian 2 2048 ++ littleEndian 2 0 ++ littleEndian 4 2162688
    ++ littleEndian 4 (checksum bytes).toNat ++ littleEndian 4 bytes.length
    ++ littleEndian 4 bytes.length ++ littleEndian 2 (textBytes name).length
    ++ littleEndian 2 0

/-- The record of an entry. -/
def entryRecord (name text : String) : Bytes :=
  let bytes := textBytes text
  littleEndian 4 0x04034B50 ++ entryFields name bytes ++ textBytes name ++ bytes

/-- The line of an entry in the directory, whose record starts at a place. Its file may be
read by all and written by its owner. -/
def directoryLine (start : Nat) (name text : String) : Bytes :=
  littleEndian 4 0x02014B50 ++ littleEndian 2 798 ++ entryFields name (textBytes text)
    ++ littleEndian 2 0 ++ littleEndian 2 0 ++ littleEndian 2 0
    ++ littleEndian 4 2175008768 ++ littleEndian 4 start ++ textBytes name

def directoryLines : Nat → List (String × String) → Bytes
  | _, [] => []
  | start, (name, text) :: rest =>
    directoryLine start name text
      ++ directoryLines (start + (entryRecord name text).length) rest

/-- The end record of an archive. -/
def endRecord (count start length : Nat) : Bytes :=
  littleEndian 4 0x06054B50 ++ littleEndian 2 0 ++ littleEndian 2 0 ++ littleEndian 2 count
    ++ littleEndian 2 count ++ littleEndian 4 length ++ littleEndian 4 start
    ++ littleEndian 2 0

def archiveBytes (entries : List (String × String)) : Bytes :=
  let records := entries.flatMap fun (name, text) => entryRecord name text
  let lines := directoryLines 0 entries
  records ++ lines ++ endRecord entries.length records.length lines.length

/-- The bytes of what a file holds, if they are known. -/
def Content.bytes? : Content → Option Bytes
  | .text held => some (textBytes held)
  | .archive entries => some (archiveBytes entries)
  | .other => none

end BlockForge.Files
