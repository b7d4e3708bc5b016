/-!
# Settings

Where the workspace is kept, where the presets are, and who owns what is
created. Without a folder of its own a run takes the presets that come with
the program.
-/

namespace PresetWorkspace

structure Settings where
  database : String := ".todo-presets/presets.db"
  presetFolder : Option String := none
  user : String := "local"
  deriving DecidableEq

end PresetWorkspace
