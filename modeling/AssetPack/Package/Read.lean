import AssetPack.Log
import AssetPack.Files.Tree
import AssetPack.Package.Record
namespace AssetPack.Package

/-! Reading packages. -/

/-- A part of a package which was read whole. -/
inductive Part where
  | header (header : RunHeader)
  | item (item : Item)
  deriving DecidableEq, Repr

def Part.record? : Part → Option Record
  | item (.record record) => some record
  | _ => none

/-- The parts of a package in their order. A failure comes with the bytes which were left when it
happened. -/
structure Scan where
  parts : List Part
  failure : Option (DecodeError × Bytes)
  deriving DecidableEq, Repr

namespace Scan

def cons (part : Part) (scan : Scan) : Scan := { scan with parts := part :: scan.parts }

def fail (error : DecodeError) (left : Bytes) : Scan := ⟨[], some (error, left)⟩

def records (scan : Scan) : List Record := scan.parts.filterMap Part.record?

end Scan

/-- Reads runs to the end of the bytes. The first `count` records are of the given type and belong
to a run which has begun. -/
def scan (type : AssetType) (count : Nat) (bytes : Bytes) : Scan :=
  if count = 0 then
    if bytes = [] then ⟨[], none⟩
    else
      match _found : (Packed.decode : Decoder RunHeader).run bytes with
      | .ok (header, rest) =>
        (scan header.type header.count.toNat rest).cons (.header header)
      | .error error => .fail error bytes
  else
    match _found : (decodeItem type).run bytes with
    | .ok (item, rest) => (scan type (count - 1) rest).cons (.item item)
    | .error error => .fail error bytes
  termination_by bytes.length
  decreasing_by
    · have := takesAtLeast_header bytes _ _ _found
      omega
    · have := takesAtLeast_item type bytes _ _ _found
      omega

inductive Error where
  | empty
  | unsupportedVersion (version : UInt8)
  | corrupt (offset : Nat) (reason : DecodeError)
  | io (path : Path) (reason : IoError)
  deriving DecidableEq, Repr

def Error.message : Error → String
  | empty => "package is empty"
  | unsupportedVersion version =>
    s!"package version {version} is not supported (expected {formatVersion})"
  | corrupt offset _ => s!"package is corrupt at byte {offset}"
  | io path _ => s!"failed to read package file {path.text}"

def Error.source : Error → Option String
  | corrupt _ reason => some reason.message
  | io _ reason => some reason.message
  | _ => none

def Part.report : Part → Logged Unit
  | header ⟨type, count⟩ => AssetPack.report .debug .package s!"Reading {count} {type.label} records."
  | item (.record record) =>
    AssetPack.report .trace .package
      s!"Read {record.asset.type.label} {Text.quote record.name}."
  | item (.skipped type record) =>
    AssetPack.report .warn .package <|
      s!"Skipping {type.label} {Text.quote record.name}, " ++
        "it can't be loaded from packages."

/-- The records of a package. Records of types which are not packaged are left out with a
warning. -/
def read : Bytes → Attempt Error (List Record)
  | [] => fail .package "Failed to read package: it's empty." .empty
  | version :: runs => do
    if version ≠ formatVersion then
      fail .package s!"Failed to read package: unsupported version {version}."
        (.unsupportedVersion version)
    let scan := scan .invalid 0 runs
    scan.parts.forM fun part => part.report
    match scan.failure with
    | none => return scan.records
    | some (error, left) =>
      let offset := 1 + runs.length - left.length
      fail .package s!"Failed to read package: {error.message} (at byte {offset})."
        (.corrupt offset error)

def readFrom (files : FileTree) (path : Path) : Attempt Error (List Record) :=
  match files.read path with
  | .error reason =>
    fail .package s!"Failed to read package file {path.text}: {reason.message}" (.io path reason)
  | .ok bytes => read bytes

end AssetPack.Package
