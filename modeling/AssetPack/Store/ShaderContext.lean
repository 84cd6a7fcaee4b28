import AssetPack.Log
import AssetPack.Text.Quoted
import AssetPack.Store.Backend
import AssetPack.Store.Id
namespace AssetPack

/-! Shaders with the locations of their uniforms. -/

structure ShaderContext where
  shader : AssetId
  uniforms : List Uniform
  deriving DecidableEq, Repr

namespace ShaderContext

def uniformLimit : Nat := 32

def nameLimit : Nat := 64

/-- The uniforms which have a location, a short name and some of the given room. -/
def keep (shader : AssetId) (room : Nat) : List Uniform → Logged (List Uniform)
  | [] => return []
  | uniform :: rest => do
    if uniform.location = -1 then
      report .trace .shaderContext
        s!"Uniform {uniform.name} of shader {shader.spelling} has no location, skipping."
      keep shader room rest
    else if nameLimit < uniform.name.utf8ByteSize then
      report .warn .shaderContext <|
        s!"Uniform name {Text.quote uniform.name} is longer than {nameLimit} bytes, " ++
          "it won't be cached."
      keep shader room rest
    else
      match room with
      | 0 =>
        report .warn .shaderContext <|
          s!"Shader {shader.spelling} has more than {uniformLimit} uniforms, " ++
            s!"uniform {uniform.name} won't be cached."
        keep shader 0 rest
      | room + 1 => return uniform :: (← keep shader room rest)

def make (shader : AssetId) (reported : List Uniform) : Logged ShaderContext := do
  return ⟨shader, ← keep shader uniformLimit reported⟩

/-- The location of the first uniform with the name. -/
def location? (context : ShaderContext) (name : String) : Option Int32 :=
  (context.uniforms.find? (·.name = name)).map (·.location)

end ShaderContext

end AssetPack
