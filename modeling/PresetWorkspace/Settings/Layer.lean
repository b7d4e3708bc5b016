import PresetWorkspace.Settings.Basic

/-!
# Layers of settings

A file, the environment and the command line may each give some of the
settings. A later layer wins field by field; what no layer gives keeps its
default.
-/

namespace PresetWorkspace

structure Layer where
  database : Option String := none
  presetFolder : Option String := none
  user : Option String := none
  deriving DecidableEq

def Settings.under (s : Settings) (l : Layer) : Settings where
  database := l.database.getD s.database
  presetFolder := l.presetFolder.or s.presetFolder
  user := l.user.getD s.user

/-- The defaults under some layers, the last one on top. -/
def Settings.ofLayers (layers : List Layer) : Settings := layers.foldl Settings.under {}

end PresetWorkspace
