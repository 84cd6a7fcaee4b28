import AssetPack.Log
import AssetPack.Files.Tree
import AssetPack.Package.Record
namespace AssetPack.Package

/-! Loaders, which make descriptors from source files. -/

inductive LoadKind where
  | texture | shader | audio
  deriving DecidableEq, Repr

structure Load where
  kind : LoadKind
  path : Path
  deriving DecidableEq, Repr

structure LoadError where
  message : String
  cause : Option String
  deriving DecidableEq, Repr

/-- A loader sees the calls made before, the files as they are, and the path to load. -/
abbrev Loader (α : Type) := List Load → FileTree → Path → Attempt LoadError α

structure Loaders where
  texture : Loader Texture
  shader : Loader Shader
  audio : Loader AudioBuffer

end AssetPack.Package
