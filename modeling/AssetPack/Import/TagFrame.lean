import AssetPack.Bytes
namespace AssetPack.Import

/-! The frames of a tag: their names, and what their contents have to hold. -/

inductive FrameKind where
  /-- An encoding and text. -/
  | text
  /-- An encoding, a language of three bytes and text. -/
  | comment
  /-- An encoding, a type which ends at a zero, a byte for the use, and the picture. -/
  | picture
  /-- A number of four to eight bytes. -/
  | counter
  /-- An address which ends at a zero, and a byte. -/
  | rating
  | anything
  deriving DecidableEq, Repr

namespace FrameKind

def isEncoding (b : UInt8) : Bool := b ≤ 3

/-- Whether a byte follows the first zero. -/
def hasMore (bytes : Bytes) : Bool :=
  match bytes.dropWhile (· ≠ 0) with
  | _ :: _ :: _ => true
  | _ => false

def accepts : FrameKind → Bytes → Bool
  | text, encoding :: _ => isEncoding encoding
  | comment, encoding :: _ :: _ :: _ :: _ => isEncoding encoding
  | picture, encoding :: rest => isEncoding encoding && hasMore rest
  | counter, bytes => 4 ≤ bytes.length && bytes.length ≤ 8
  | rating, bytes => hasMore bytes
  | anything, _ => true
  | _, _ => false

def longNames : List (FrameKind × List String) :=
  [(.text, ["GRP1", "IPLS", "MVIN", "MVNM", "TALB", "TBPM", "TCAT", "TCOM", "TCON", "TCOP", "TDAT",
      "TDEN", "TDES", "TDLY", "TDOR", "TDRC", "TDRL", "TDTG", "TENC", "TEXT", "TFLT", "TGID",
      "TIME", "TIPL", "TIT1", "TIT2", "TIT3", "TKEY", "TKWD", "TLAN", "TLEN", "TMCL", "TMED",
      "TMOO", "TOAL", "TOFN", "TOLY", "TOPE", "TORY", "TOWN", "TPE1", "TPE2", "TPE3", "TPE4",
      "TPOS", "TPRO", "TPUB", "TRCK", "TRDA", "TRSN", "TRSO", "TSIZ", "TSO2", "TSOA", "TSOC",
      "TSOP", "TSOT", "TSRC", "TSSE", "TSST", "TXXX", "TYER", "WFED", "WXXX"]),
    (.comment, ["COMM", "USLT"]), (.picture, ["APIC"]), (.counter, ["PCNT"]),
    (.rating, ["POPM"]),
    (.anything, ["MCDI", "PRIV", "WCOM", "WCOP", "WOAF", "WOAR", "WOAS", "WORS", "WPAY", "WPUB"])]

def shortNames : List (FrameKind × List String) :=
  [(.text, ["IPL", "TAL", "TBP", "TCM", "TCO", "TCR", "TDA", "TDY", "TEN", "TFT", "TIM", "TKE",
      "TLA", "TLE", "TMT", "TOA", "TOF", "TOL", "TOR", "TOT", "TP1", "TP2", "TP3", "TP4", "TPA",
      "TPB", "TRC", "TRD", "TRK", "TS2", "TSA", "TSC", "TSI", "TSP", "TSS", "TST", "TT1", "TT2",
      "TT3", "TXT", "TXX", "TYE", "WXX"]),
    (.comment, ["COM", "ULT"]), (.picture, ["PIC"]), (.counter, ["CNT"]), (.rating, ["POP"]),
    (.anything, ["MCI", "WAF", "WAR", "WAS", "WCM", "WCP", "WPB"])]

end FrameKind

/-- How frames are written. Sizes are given in digits of `sizeBase`, one in each byte, the highest
first. A frame may be packed, have a byte for its group or the size it has when unpacked before its
content, or be stuffed with zeros, as its flags tell. The flags of `unused` may not be set. -/
structure FrameLayout where
  nameSize : Nat
  sizeSize : Nat
  sizeBase : Nat
  flagSize : Nat
  unused : Nat
  packed : Nat
  group : Nat
  unpackedSize : Nat
  stuffed : Nat
  names : List (FrameKind × List String)
  name_pos : 0 < nameSize := by decide
  deriving Repr

namespace FrameLayout

def headSize (layout : FrameLayout) : Nat := layout.nameSize + layout.sizeSize + layout.flagSize

/-- The layout in tags of a version. -/
def ofVersion? (version : UInt8) : Option FrameLayout :=
  if version = 2 then
    some {
      nameSize := 3, sizeSize := 3, sizeBase := 256, flagSize := 0
      unused := 0, packed := 0, group := 0, unpackedSize := 0, stuffed := 0
      names := FrameKind.shortNames }
  else if version = 3 then
    some {
      nameSize := 4, sizeSize := 4, sizeBase := 256, flagSize := 2
      unused := 0x1f1f, packed := 0x80, group := 0x20, unpackedSize := 0, stuffed := 0
      names := FrameKind.longNames }
  else if version = 4 then
    some {
      nameSize := 4, sizeSize := 4, sizeBase := 128, flagSize := 2
      unused := 0x8fb0, packed := 0x0c, group := 0x40, unpackedSize := 0x01, stuffed := 0x02
      names := FrameKind.longNames }
  else none

def kind? (layout : FrameLayout) (name : Bytes) : Option FrameKind :=
  let name := String.ofList (name.map fun b => Char.ofNat b.toNat)
  (layout.names.find? fun (_, names) => names.contains name).map (·.1)

/-- The number of bytes between the head of a frame and its content. -/
def gap (layout : FrameLayout) (flags size : Nat) : Nat :=
  let group := if 1 ≤ size ∧ flags &&& layout.group ≠ 0 then 1 else 0
  group + if 4 + group ≤ size ∧ flags &&& layout.unpackedSize ≠ 0 then 4 else 0

end FrameLayout

end AssetPack.Import
