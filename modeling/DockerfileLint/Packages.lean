import DockerfileLint.Shell
import DockerfileLint.Text

/-!
# Package installers

What a `RUN` instruction installs with `apt-get`, `apk`, `pip` and `npm`, and which of the packages
name a version. An `Installer` is the data that tells the four apart; `Installer.packages` is the
one way of reading a command.
-/

namespace DockerfileLint

/-- How to recognise an install command, its options and a package with a fixed version. -/
structure Installer where
  /-- Whether the words hold an install command of this tool. -/
  installs : List String → Bool
  /-- Flags that are dropped with the word after them. -/
  valueFlags : List String
  /-- Whether a word of an install command is no package. -/
  isOption : String → Bool
  /-- Whether an install command takes its packages from elsewhere, which exempts the whole
  instruction. -/
  exempts : List String → Bool
  /-- Whether a package names its version. -/
  isPinned : String → Bool

namespace Installer

/-- The packages that the install commands among the segments name, or nothing when one of them is
exempt. -/
def packages (tool : Installer) (words : List String) : Option (List String) :=
  let found := (Shell.segments words).filter tool.installs
  if found.any tool.exempts then none
  else some ((found.flatMap (Shell.dropFlagged tool.valueFlags)).filter fun word =>
    !tool.isOption word)

/-- Whether every package that the words install names its version. -/
def allPinned (tool : Installer) (words : List String) : Bool :=
  match tool.packages words with
  | none => true
  | some found => found.all tool.isPinned

/-- The package manager of Debian. -/
def apt : Installer where
  installs words := occursIn ["apt-get", "install"] words
  valueFlags := []
  isOption word :=
    ["apt-get", "install", "-d", "-f", "-m", "-q", "-y", "-qq"].contains word ||
      Text.startsWith word "--"
  exempts _ := false
  isPinned package := Text.hasChar package '='

/-- The package manager of Alpine. The two words need not be adjacent. -/
def apk : Installer where
  installs words := words.contains "apk" && words.contains "add"
  valueFlags := ["-t", "--virtual"]
  isOption word :=
    ["apk", "add", "-q", "-p", "-v", "-f", "-t"].contains word || Text.startsWith word "--"
  exempts _ := false
  isPinned package := Text.hasChar package '='

/-- The package installer of Python. A requirements file exempts the instruction. -/
def pip : Installer where
  installs words := ["pip", "pip2", "pip3"].any fun program => occursIn [program, "install"] words
  valueFlags := []
  isOption word :=
    ["pip", "pip2", "pip3", "install", "--user", "--disable-pip-version-check",
      "--no-cache-dir"].contains word
  exempts segment := segment.contains "-r"
  isPinned package :=
    (["==", ">=", "<=", ">", "<", "!="].any fun symbol => Text.contains package symbol) ||
      (Text.contains package "git+http" && Text.hasChar package '@')

/-- The package without its scope: what follows the first slash of a name that starts with `@`. -/
def dropScope (package : String) : String :=
  if Text.startsWith package "@" then Text.after package '/' else package

/-- The package manager of Node. Packages from a Git address are pinned by a commit. -/
def npm : Installer where
  installs words := occursIn ["npm", "install"] words
  valueFlags := []
  isOption word := ["npm", "install", "--global"].contains word
  exempts _ := false
  isPinned package :=
    if ["git://", "git+ssh://", "git+http://", "git+https://"].any (Text.startsWith package) then
      Text.hasChar package '#'
    else Text.hasChar (dropScope package) '@'

end Installer

end DockerfileLint
