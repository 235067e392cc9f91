import Colorization.Path

/-! Where the user's own settings and logs are kept. -/
namespace Colorization

/-- The directories that the environment names. -/
structure Environment where
  configHome : Option Path
  home : Option Path

def appName : String := "colorsnap"

/-- The settings file in the working directory. -/
def projectConfig : Path := ⟨"colorsnap.yaml"⟩

namespace Environment

/-- The home directory; an empty name is none. -/
def home? (environment : Environment) : Option Path :=
  environment.home.filter fun home => !home.text.isEmpty

def configDir? (environment : Environment) : Option Path :=
  (environment.configHome <|> environment.home?.map (·.join ⟨".config"⟩)).map (·.join ⟨appName⟩)

def configFile? (environment : Environment) : Option Path :=
  environment.configDir?.map (·.join ⟨"config.yaml"⟩)

def logsDir? (environment : Environment) : Option Path :=
  environment.configDir?.map (·.join ⟨"logs"⟩)

end Environment

end Colorization
