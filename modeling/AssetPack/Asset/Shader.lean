namespace AssetPack

/-! The sources of shader programs. -/

/-- A program is a pair of stages which draw, or one stage which computes. -/
inductive Shader where
  | graphics (vertex pixel : String)
  | compute (source : String)
  deriving DecidableEq, Repr

namespace Shader

def kind : Shader → String
  | graphics .. => "graphics"
  | compute .. => "compute"

/-- The number of bytes of source, over all stages. -/
def sourceSize : Shader → Nat
  | graphics vertex pixel => vertex.utf8ByteSize + pixel.utf8ByteSize
  | compute source => source.utf8ByteSize

end Shader

end AssetPack
