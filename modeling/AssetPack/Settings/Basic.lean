import AssetPack.Path
namespace AssetPack

/-! The settings, which remember the builds made so far. -/

structure BuildEntry where
  manifest : Path
  output : Path
  deriving DecidableEq, Repr

/-- Builds are the same if their paths are. -/
def BuildEntry.Same (a b : BuildEntry) : Prop :=
  a.manifest.Same b.manifest ∧ a.output.Same b.output

instance (a b : BuildEntry) : Decidable (a.Same b) := inferInstanceAs (Decidable (_ ∧ _))

structure Settings where
  builds : List BuildEntry
  deriving DecidableEq, Repr

namespace Settings

def empty : Settings := ⟨[]⟩

/-- Adds a build at the end, unless the same one is there. -/
def record (entry : BuildEntry) (settings : Settings) : Settings :=
  if settings.builds.any fun other => decide (other.Same entry) then settings
  else ⟨settings.builds ++ [entry]⟩

end Settings

end AssetPack
