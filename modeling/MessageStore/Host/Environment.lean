import MessageStore.Config
import MessageStore.Error
import MessageStore.Host.FileTree

/-!
# The environment

Where configuration and data are kept for the user, and which configuration of
the store is in force: the one in the configuration file if there is such a
file, even if it cannot be used; else the one that the environment names; else
the standard one.
-/

namespace MessageStore.Host

/-- The variables of the environment that matter, and what the system knows of the user.  Paths are
bytes. -/
structure Environment where
  /-- The home directory that is named. -/
  home : Option (List UInt8) := none
  /-- The home directory that the system knows of. -/
  userHome : Option (List UInt8) := none
  /-- Where the user keeps configuration, if that was chosen. -/
  configHome : Option (List UInt8) := none
  /-- Where the user keeps data, if that was chosen. -/
  dataHome : Option (List UInt8) := none
  /-- What names the file of the store. -/
  cacheFile : Option (List UInt8) := none
  deriving DecidableEq

namespace Environment

/-- The directory of the service inside the user's directories. -/
def serviceName : String := "beacon"

/-- The name of the configuration file of the store. -/
def configFile : String := "cache.json"

/-- The name of the file that messages are kept in by default. -/
def defaultStore : String := "cache.db"

/-- The home directory of the user.  Only where none is named, or the empty one, it is the one that
the system knows of. -/
def homeDirectory? (env : Environment) : Option (List UInt8) :=
  (env.home.filter (· ≠ [])).or env.userHome

/-- Where the service keeps something: in the directory that was chosen for it, which counts only if
its path is absolute, or in the usual one in the home directory. -/
def serviceDirectory? (env : Environment) (choice : Option (List UInt8)) (usual : String) :
    Option (List UInt8) :=
  ((choice.filter Path.isRooted).or
    (env.homeDirectory?.map (Path.join · (Text.encode usual)))).map
      (Path.join · (Text.encode serviceName))

/-- Where the service keeps configuration. -/
def configDirectory? (env : Environment) : Option (List UInt8) :=
  env.serviceDirectory? env.configHome ".config"

/-- The path of a configuration file. -/
def configPath? (env : Environment) (file : String) : Option (List UInt8) :=
  env.configDirectory?.map (Path.join · (Text.encode file))

/-- Where the service keeps data. -/
def dataDirectory? (env : Environment) : Option (List UInt8) :=
  env.serviceDirectory? env.dataHome ".local/share"

/-- The path of a data file. -/
def dataPath? (env : Environment) (file : String) : Option (List UInt8) :=
  env.dataDirectory?.map (Path.join · (Text.encode file))

/-- The path of the file that messages are kept in by default. -/
def defaultStorePath? (env : Environment) : Option (List UInt8) :=
  env.dataPath? defaultStore

/-- The configuration that the environment names, if it names one in UTF-8. -/
def config? (env : Environment) : Option Config := do
  let bytes ← env.cacheFile
  let name ← String.fromUTF8? ⟨bytes.toArray⟩
  return Config.ofFileName name

end Environment

/-- The value that the JSON text of a file stands for. -/
def readJson {α : Type} (reader : Json.Reader α) (files : FileTree) (path : List UInt8) :
    Except Error α := do
  let shown := Text.decodeLossy path
  let text ←
    during ("Failed to read config file: " ++ shown)
      ((files.readText path).mapError fun fault => .of (.file fault))
  during ("Failed to parse config file: " ++ shown)
    ((Json.whole reader text).mapError fun fault => .of (.json fault))

/-- The configuration that a JSON text stands for. -/
def parseConfig (text : String) : Except Error Config :=
  during "Failed to parse cache config JSON"
    ((Json.whole Config.read text).mapError fun fault => .of (.json fault))

/-- Whether there is a configuration file of the given name. -/
def hasConfig (env : Environment) (files : FileTree) (file : String) : Bool :=
  (env.configPath? file).any files.exists

/-- The value that the configuration file of the given name stands for. -/
def loadJson {α : Type} (reader : Json.Reader α) (env : Environment) (files : FileTree)
    (file : String) : Except Error α :=
  match env.configPath? file with
  | none => .error (.of .noConfigDirectory)
  | some path => readJson reader files path

/-- The configuration in force. -/
def loadConfig (env : Environment) (files : FileTree) : Except Error Config :=
  if hasConfig env files Environment.configFile then
    loadJson Config.read env files Environment.configFile
  else .ok (env.config?.getD Config.standard)

end MessageStore.Host
