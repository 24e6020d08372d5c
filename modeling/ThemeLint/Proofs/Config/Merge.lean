import ThemeLint.Command
import ThemeLint.Proofs.Config

namespace ThemeLint

open Bytes

def Options.settings (o : Options) : Settings := ⟨none, o.format?, o.color?⟩

structure ConfigFile where
  path : Bytes
  document : Toml.Document

namespace ConfigFile

def settings (traversal : Toml.Traversal) (file : ConfigFile) : Settings :=
  Settings.ofEntries (traversal.visit file.document.settings)

end ConfigFile

namespace Config

variable {traversal : Toml.Traversal} {disk : Disk} {workDir explicit path : Bytes} {o : Options}
  {s : Settings} {c : Config} {file : ConfigFile} {file? : Option ConfigFile}

end Config

end ThemeLint
