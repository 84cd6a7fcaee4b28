import AssetPack.Asset.Audio
import AssetPack.Asset.Buffer
import AssetPack.Asset.Shader
import AssetPack.Asset.Texture
import AssetPack.Asset.Type
namespace AssetPack

/-! The backend, which owns the resources behind the assets. -/

/-- The name which the backend gives to a resource. -/
structure Ref where
  number : Nat
  deriving DecidableEq, Repr

inductive ResourceKind where
  | buffer | texture | shader | audioBuffer
  deriving DecidableEq, Repr

namespace ResourceKind

/-- The order in which the resources of a group are released. -/
def all : List ResourceKind := [buffer, texture, shader, audioBuffer]

def type : ResourceKind → AssetType
  | buffer => .buffer
  | texture => .texture
  | shader => .shader
  | audioBuffer => .audioBuffer

end ResourceKind

inductive Resource where
  | buffer (buffer : Buffer)
  | texture (texture : Texture)
  | shader (shader : Shader)
  | audioBuffer (audio : AudioBuffer)
  deriving DecidableEq, Repr

def Resource.kind : Resource → ResourceKind
  | buffer _ => .buffer
  | texture _ => .texture
  | shader _ => .shader
  | audioBuffer _ => .audioBuffer

/-- A uniform of a shader. The location -1 means that it has none. -/
structure Uniform where
  name : String
  location : Int32
  deriving DecidableEq, Repr

/-- A call of the backend, with the answer to a creation. -/
inductive Call where
  | create (resource : Resource) (answer : Option Ref)
  | destroy (kind : ResourceKind) (ref : Ref)
  | uniforms (ref : Ref)
  deriving DecidableEq, Repr

/-- A backend answers from the calls made before, the newest one first. It may refuse to create. -/
structure Backend where
  create : List Call → Resource → Option Ref
  uniforms : List Call → Ref → List Uniform

end AssetPack
