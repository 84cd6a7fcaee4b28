import AssetPack.Import.Picture
import AssetPack.Import.Stages
import AssetPack.Import.Wave
import AssetPack.Package.Loader
namespace AssetPack.Import

/-! Loaders which read source files. -/

inductive TextureError where
  | unreadable (reason : IoError)
  | notAPicture
  deriving DecidableEq, Repr

def TextureError.loadError : TextureError → Package.LoadError
  | unreadable reason => ⟨"Failed to open texture file for importing", some reason.message⟩
  | notAPicture => ⟨"Failed to read image file as an image (unsupported format?)", none⟩

inductive ShaderError where
  | unreadable (reason : IoError)
  | malformed (path : Path) (error : StageError)
  deriving DecidableEq, Repr

def ShaderError.loadError : ShaderError → Package.LoadError
  | unreadable reason => ⟨"Failed to open shader file for importing", some reason.message⟩
  | malformed path error => ⟨s!"Failed to split {path.text} into stages", some error.message⟩

inductive AudioError where
  | unreadable | unrecognized | unknownLayout | silent
  deriving DecidableEq, Repr

def AudioError.cause : AudioError → String
  | unreadable => "Could not open audio file for reading"
  | unrecognized => "Could not recognize audio format"
  | unknownLayout => "Failed to create a decoder for the audio"
  | silent => "The audio track doesn't contain any audio"

def AudioError.loadError (error : AudioError) : Package.LoadError :=
  ⟨"Failed to read the audio file", some error.cause⟩

def loadTexture (files : FileTree) (path : Path) : Attempt TextureError Texture := do
  match files.read path with
  | .error reason => throw (.unreadable reason)
  | .ok bytes =>
    match Picture.read bytes with
    | none => throw .notAPicture
    | some picture =>
      report .debug .textureImport <|
        s!"Read a {picture.width}x{picture.height} {picture.layout} image from " ++
          s!"{path.text}."
      return picture.texture

def loadShader (files : FileTree) (path : Path) : Attempt ShaderError Shader := do
  match files.readText path with
  | .error reason => throw (.unreadable reason)
  | .ok source =>
    match splitStages source with
    | .error error => throw (.malformed path error)
    | .ok shader =>
      report .debug .shaderImport s!"Read a {shader.kind} shader from {path.text}."
      return shader

def reportPacket (format : WaveFormat) (packet : Bytes) : Logged Unit :=
  report .trace .audioImport <|
    s!"Decoded audio data, {Wave.frameCount format packet} frames of: " ++
      s!"SignalSpec \x7b rate: {format.sampleRate}, channels: {format.speakerText} \x7d"

/-- A folder can be opened, but nothing is recognized in it. -/
def loadAudio (files : FileTree) (path : Path) : Attempt AudioError AudioBuffer := do
  report .debug .audioImport s!"Reading audio data from: {path.text}"
  match files.read path with
  | .error .isADirectory => throw .unrecognized
  | .error _ => throw .unreadable
  | .ok bytes =>
    match Wave.read bytes with
    | none => throw .unrecognized
    | some ⟨none, _, _⟩ => throw .unknownLayout
    | some ⟨some format, size, data⟩ =>
      if format.speakers.isEmpty then throw .unknownLayout
      let packets := Wave.packets format.blockSize size data
      packets.forM fun packet => reportPacket format packet
      if packets.isEmpty then throw .silent
      let audio := Wave.audio format packets
      report .debug .audioImport <|
        s!"Read {audio.pcm.length / 2} samples of {audio.channels}-channel " ++
          s!"{audio.sampleRate} Hz audio from {path.text}."
      return audio

/-- The loaders do not look at the calls before. -/
def fileLoaders : Package.Loaders where
  texture _ files path := (loadTexture files path).adapt TextureError.loadError
  shader _ files path := (loadShader files path).adapt ShaderError.loadError
  audio _ files path := (loadAudio files path).adapt AudioError.loadError

end AssetPack.Import
