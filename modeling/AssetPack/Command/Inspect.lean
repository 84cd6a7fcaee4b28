import AssetPack.Command.Error
namespace AssetPack.Command

/-! Listing what is in a package. -/

def describe (record : Package.Record) : String :=
  let name := Text.quote record.name
  match record.asset with
  | .texture texture =>
    s!"texture {name}: {texture.width}x{texture.height} {texture.format.spelling}, " ++
      s!"{texture.pixels.length} bytes"
  | .shader shader => s!"shader {name}: {shader.kind}, {shader.sourceSize} bytes of source"
  | .audio audio =>
    s!"audio buffer {name}: {audio.channels} channels, {audio.sampleRate} Hz, " ++
      s!"{audio.format.spelling}, {audio.frames} frames"

/-- A line for each record, then one for each type which has records. -/
def inspect (files : FileTree) (path : Path) : Attempt Error Unit := do
  let records ← (Package.readFrom files path).adapt (Error.inspect path)
  records.forM fun record => report .info .tool (describe record)
  AssetType.all.forM fun type => do
    let count := records.countP (·.asset.type = type)
    if 0 < count then report .info .tool s!"{count} {type.label} assets in total."

end AssetPack.Command
