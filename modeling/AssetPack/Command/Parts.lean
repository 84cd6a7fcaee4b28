import AssetPack.Command.Options
import AssetPack.Import.FileLoader
import AssetPack.Settings.File
namespace AssetPack.Command

/-! The parts of the program in which files and arguments are given a meaning. Everything else is
the same with any of them. -/

structure Parts where
  loaders : Package.Loaders
  format : Settings.Format
  options : List String → Except Refusal Options

/-- The loaders know one format of pictures and one of sounds. -/
def Parts.standard : Parts := ⟨Import.fileLoaders, Settings.json, Options.parse⟩

end AssetPack.Command
