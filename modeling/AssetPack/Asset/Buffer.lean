import AssetPack.Bytes
namespace AssetPack

/-! Buffers of data for drawing. -/

inductive BufferUsage where
  | vertex | index | uniform
  deriving DecidableEq, Repr

structure Buffer where
  usage : BufferUsage
  data : Bytes
  deriving DecidableEq, Repr

end AssetPack
