import SchemaServer.Json.Basic
import SchemaServer.FileTree
import SchemaServer.Toml
import SchemaServer.Text.Quoted
import SchemaServer.Text.Parts

/-! Settings that a client sends, the configuration file of the user, and the choice of the formatter between
them. -/
namespace SchemaServer

structure Settings where
  /-- Path of the formatter; blank for none. -/
  formatterPath : Text := []
  deriving DecidableEq, Inhabited

namespace Settings

/-- Settings under this name are ours whatever they hold. -/
def section? (value : Json) : Option Json :=
  match value.member? "prismaLanguageServer" with
  | some inner => some inner
  | none => if (value.member? "prismaFmtBinPath").isSome then some value else none

/-- An object with an optional path, or a list of at most the path. -/
def ofSection? : Json → Option Settings
  | .object members =>
    match (Json.object members).member? "prismaFmtBinPath" with
    | none => some {}
    | some value => value.text?.map Settings.mk
  | .array [] => some {}
  | .array [value] => value.text?.map Settings.mk
  | _ => none

def ofJson? (value : Json) : Option Settings := (section? value).bind ofSection?

end Settings

structure Config where
  formatterPath : Option Text := none
  deriving DecidableEq, Inhabited

namespace Config

/-- Both names set the same path, so only one member may have one of them. -/
def keys : List Text := ["prisma_fmt_bin_path".toList, "prismaFmtBinPath".toList]

/-- The configuration of a TOML document; other members do not matter. -/
def ofText? (text : Text) : Option Config := do
  let members ← Toml.ofText? text
  match members.filter fun (key, _) => keys.contains key with
  | [] => some {}
  | [(_, .value (some path))] => some ⟨some path⟩
  | _ => none

end Config

structure ConfigVariables where
  configHome : Option Text := none
  home : Option Text := none

inductive ConfigError
  | missingDirectory
  | unreadable (path : Text) (cause : SystemError)
  | malformed (path : Text)
  deriving DecidableEq

namespace ConfigError

def message : ConfigError → Text
  | missingDirectory => "unable to determine configuration directory via XDG environment variables".toList
  | unreadable path cause =>
    "failed to read config file at ".toList ++ Text.quoted path ++ ": ".toList ++ cause.message
  | malformed path => "failed to parse config file at ".toList ++ Text.quoted path ++ ": ".toList

end ConfigError

namespace ConfigVariables

/-- A variable counts if it is set, even if it is empty. -/
def directory (vars : ConfigVariables) : Except ConfigError Text :=
  match vars.configHome, vars.home with
  | some dir, _ => .ok dir
  | none, some home => .ok (joinPath home ".config".toList)
  | none, none => .error .missingDirectory

def configPath (vars : ConfigVariables) : Except ConfigError Text :=
  vars.directory.map fun dir => joinPath (joinPath dir "prisma-lsp".toList) "prisma-lsp.toml".toList

end ConfigVariables

namespace Config

/-- The configuration file with its path; none if there is none. -/
def load (vars : ConfigVariables) (sys : System) : Except ConfigError (Option (Text × Config)) :=
  match vars.configPath with
  | .error _ => .ok none
  | .ok path =>
    if !sys.pathExists path then .ok none
    else match sys.readFile path with
      | .error cause => .error (.unreadable path cause)
      | .ok text =>
        match ofText? text with
        | some config => .ok (some (path, config))
        | none => .error (.malformed path)

/-- The configuration in force: none is as good as an unreadable one. -/
def loadOrDefault (vars : ConfigVariables) (sys : System) : Config :=
  match load vars sys with
  | .ok (some (_, config)) => config
  | _ => {}

end Config

structure FormatterChoice where
  path : Text
  warning : Option Text := none
  deriving DecidableEq

namespace FormatterChoice

def defaultPath : Text := "prisma-fmt".toList

/-- The path of the settings if it exists, else that of the configuration, else the default. -/
def make (settings : Settings) (config : Config) (sys : System) : FormatterChoice :=
  let configured := Text.trim settings.formatterPath
  let fallback := config.formatterPath.getD defaultPath
  if configured.isEmpty then ⟨fallback, none⟩
  else if sys.pathExists configured then ⟨configured, none⟩
  else ⟨fallback, some ("Path to prisma-fmt binary (".toList ++ configured ++
    ") does not exist. Using default prisma-fmt binary path instead.".toList)⟩

end FormatterChoice

end SchemaServer
