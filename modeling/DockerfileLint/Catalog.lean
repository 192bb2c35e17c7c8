import DockerfileLint.Packages
import DockerfileLint.Rule

/-!
# The rule catalog

The built-in rules, ordered by code. Most of them judge one kind of instruction and hold of every
other; `onRun`, `onCopy` and their like say which. Four rules judge the whole file.
-/

namespace DockerfileLint.Catalog

/-! ### Tests on one kind of instruction -/

/-- A test on the words of `RUN`. -/
def onRun (holds : List String → Bool) : Test :=
  .each fun
    | .run args => holds args
    | _ => true

/-- A test on the base image of `FROM`. -/
def onFrom (holds : BaseImage → Bool) : Test :=
  .each fun
    | .fromImage base => holds base
    | _ => true

/-- A test on the path of `WORKDIR`. -/
def onWorkdir (holds : String → Bool) : Test :=
  .each fun
    | .workdir path => holds path
    | _ => true

/-- A test on the user of `USER`. -/
def onUser (holds : String → Bool) : Test :=
  .each fun
    | .user name => holds name
    | _ => true

/-- A test on source and target of `COPY`. -/
def onCopy (holds : String → String → Bool) : Test :=
  .each fun
    | .copy source target => holds source target
    | _ => true

/-- A test on source and target of `ADD`. -/
def onAdd (holds : String → String → Bool) : Test :=
  .each fun
    | .add source target => holds source target
    | _ => true

/-- A test on the ports of `EXPOSE`. -/
def onExpose (holds : Ports → Bool) : Test :=
  .each fun
    | .expose ports => holds ports
    | _ => true

/-! ### What the tests ask -/

/-- Whether a user, given with or without a group, is the superuser. -/
def isRoot (user : String) : Bool :=
  let name := Text.before user ':'
  name == "root" || name == "0"

/-- The endings of archive files. -/
def archiveEndings : List String :=
  [".tar", ".Z", ".bz2", ".gz", ".lz", ".lzma", ".tZ", ".tb2", ".tbz", ".tbz2", ".tgz", ".tlz",
    ".tpz", ".txz", ".xz"]

/-- Whether a path names an archive. -/
def isArchive (path : String) : Bool := archiveEndings.any (Text.endsWith path)

/-- Whether a path is a web address. -/
def isUrl (path : String) : Bool := ["http://", "https://"].any (Text.startsWith path)

/-- Programs that make no sense in a container. -/
def misplacedPrograms : List String :=
  ["ssh", "vim", "shutdown", "service", "ps", "free", "top", "kill", "mount"]

/-- Whether the list of words, taken as one command, starts with no misplaced program. -/
def startsSensibly (args : List String) : Bool :=
  match args.head? with
  | some program => !misplacedPrograms.contains program
  | none => true

/-- Whether some command links the default shell. -/
def linksShell (args : List String) : Bool :=
  (Shell.segments args).any fun segment => segment.head? == some "ln" && segment.contains "/bin/sh"

/-- Whether the package lists are removed in the instruction that fetches them. -/
def removesLists (args : List String) : Bool :=
  !occursIn ["apt-get", "update"] args || occursIn ["rm", "-rf", "/var/lib/apt/lists/*"] args

/-- Whether a word answers the questions of `apt-get` in advance. -/
def assumesYes (word : String) : Bool :=
  ["-y", "--yes", "-qq"].contains word || Text.contains word "-y"

/-- Whether all given ports exist. -/
def portsInRange : Ports → Bool
  | .numbers ports => ports.all fun port => decide (port ≤ 65535)
  | .unparsed _ => true

/-- Whether a port is given. -/
def hasPorts : Ports → Bool
  | .numbers ports => !ports.isEmpty
  | .unparsed text => !Text.isBlankText text

/-- Whether an instruction is a `RUN` that invokes the program. -/
def runsProgram (program : String) : Instruction → Bool
  | .run args => Shell.invokes args program
  | _ => false

/-- Whether an instruction is `MAINTAINER`. -/
def isMaintainer : Instruction → Bool
  | .maintainer _ => true
  | _ => false

/-- Whether an instruction is `CMD`. -/
def isCmd : Instruction → Bool
  | .cmd _ => true
  | _ => false

/-- Whether an instruction is `ENTRYPOINT`. -/
def isEntrypoint : Instruction → Bool
  | .entrypoint _ => true
  | _ => false

/-! ### The rules -/

/-- A working directory is absolute or starts with a variable. -/
def absoluteWorkdir : Rule where
  name := "absolute-workdir"
  metadata := ⟨"DL3000", .error, "Use absolute WORKDIR"⟩
  test := onWorkdir fun path => Text.startsWith path "/" || Text.startsWith path "$"

/-- The first word of a command is no program that is misplaced in a container. -/
def invalidCmd : Rule where
  name := "invalid-cmd"
  metadata := ⟨"DL3001", .info,
    "For some bash commands it makes no sense running them in a Docker container like `ssh`, `vim`, `shutdown`, `service`, `ps`, `free`, `top`, `kill`, `mount`"⟩
  test := onRun startsSensibly

/-- The user is not the superuser. -/
def noRootUser : Rule where
  name := "no-root-user"
  metadata := ⟨"DL3002", .error, "Do not switch to root USER"⟩
  test := onUser fun name => !isRoot name

/-- No command starts with `cd`. -/
def noCd : Rule where
  name := "no-cd"
  metadata := ⟨"DL3003", .warning, "Use WORKDIR to switch to a directory"⟩
  test := onRun fun args => !Shell.invokes args "cd"

/-- No command starts with `sudo`. -/
def noSudo : Rule where
  name := "no-sudo"
  metadata := ⟨"DL3004", .error,
    "Do not use sudo as it leads to unpredictable behavior. Use a tool like gosu to enforce root"⟩
  test := onRun fun args => !Shell.invokes args "sudo"

/-- Debian packages are not upgraded as a whole. -/
def noAptUpgrade : Rule where
  name := "no-apt-upgrade"
  metadata := ⟨"DL3005", .error, "Do not use apt-get upgrade or dist-upgrade"⟩
  test := onRun fun args =>
    !occursIn ["apt-get", "upgrade"] args && !occursIn ["apt-get", "dist-upgrade"] args

/-- A base image has a tag or a digest; `scratch` has no versions. -/
def noUntagged : Rule where
  name := "no-untagged"
  metadata := ⟨"DL3006", .warning, "Always tag the version of an image explicitly"⟩
  test := onFrom fun base => !base.isUntagged || base.image == "scratch"

/-- The tag of a base image is not `latest`. -/
def noLatestTag : Rule where
  name := "no-latest-tag"
  metadata := ⟨"DL3007", .warning,
    "Using latest is prone to errors if the image will ever update. Pin the version explicitly to a release tag"⟩
  test := onFrom fun base => base.tag != some "latest"

/-- Debian packages name their versions. -/
def aptGetPinned : Rule where
  name := "apt-get-pinned"
  metadata := ⟨"DL3008", .warning,
    "Pin versions in apt get install. Instead of `apt-get install <package>` use `apt-get install <package>=<version>`"⟩
  test := onRun Installer.apt.allPinned

/-- The Debian package lists do not stay in the image. -/
def aptGetCleanup : Rule where
  name := "apt-get-cleanup"
  metadata := ⟨"DL3009", .info, "Delete the apt-get lists after installing something"⟩
  test := onRun removesLists

/-- Archives are not copied. -/
def useAddForArchives : Rule where
  name := "use-add-for-archives"
  metadata := ⟨"DL3010", .info, "Use ADD for extracting archives into an image"⟩
  test := onCopy fun source _ => !isArchive source

/-- Ports have sixteen bits. -/
def validPortRange : Rule where
  name := "valid-port-range"
  metadata := ⟨"DL3011", .error, "Valid UNIX ports range from 0 to 65535"⟩
  test := onExpose portsInRange

/-- A port is given. -/
def exposeMissingArgs : Rule where
  name := "expose-missing-args"
  metadata := ⟨"DL3012", .error, "EXPOSE requires at least one port"⟩
  test := onExpose hasPorts

/-- Python packages name their versions. -/
def pipPinned : Rule where
  name := "pip-pinned"
  metadata := ⟨"DL3013", .warning,
    "Pin versions in pip. Instead of `pip install <package>` use `pip install <package>==<version>`"⟩
  test := onRun Installer.pip.allPinned

/-- Installing Debian packages asks no questions. -/
def aptGetYes : Rule where
  name := "apt-get-yes"
  metadata := ⟨"DL3014", .warning,
    "Use the `-y` switch to avoid manual input `apt-get -y install <package>`"⟩
  test := onRun fun args => !Installer.apt.installs args || args.any assumesYes

/-- Installing Debian packages leaves out recommended ones. -/
def aptGetNoRecommends : Rule where
  name := "apt-get-no-recommends"
  metadata := ⟨"DL3015", .info, "Avoid additional packages by specifying `--no-install-recommends`"⟩
  test := onRun fun args => !Installer.apt.installs args || args.contains "--no-install-recommends"

/-- Node packages name their versions. -/
def npmPinned : Rule where
  name := "npm-pinned"
  metadata := ⟨"DL3016", .warning,
    "Pin versions in npm. Instead of `npm install <package>` use `npm install <package>@<version>`"⟩
  test := onRun Installer.npm.allPinned

/-- Alpine packages are not upgraded as a whole. -/
def noApkUpgrade : Rule where
  name := "no-apk-upgrade"
  metadata := ⟨"DL3017", .error, "Do not use apk upgrade"⟩
  test := onRun fun args => !occursIn ["apk", "upgrade"] args

/-- Alpine packages name their versions. -/
def apkAddPinned : Rule where
  name := "apk-add-pinned"
  metadata := ⟨"DL3018", .warning,
    "Pin versions in apk add. Instead of `apk add <package>` use `apk add <package>=<version>`"⟩
  test := onRun Installer.apk.allPinned

/-- Installing Alpine packages keeps no cache. -/
def apkAddNoCache : Rule where
  name := "apk-add-no-cache"
  metadata := ⟨"DL3019", .info,
    "Use the `--no-cache` switch to avoid the need to use `--update` and remove `/var/cache/apk/*` when done installing packages"⟩
  test := onRun fun args => !Installer.apk.installs args || args.contains "--no-cache"

/-- Only archives and web addresses are added. -/
def copyInsteadOfAdd : Rule where
  name := "copy-instead-of-add"
  metadata := ⟨"DL3020", .error, "Use COPY instead of ADD for files and folders"⟩
  test := onAdd fun source _ => isArchive source || isUrl source

/-- Source and target of a copy are given. -/
def copyMissingArgs : Rule where
  name := "copy-missing-args"
  metadata := ⟨"DL3021", .error, "COPY requires a source and a destination"⟩
  test := onCopy fun source target => !Text.isBlankText source && !Text.isBlankText target

/-- No top-level instruction is `MAINTAINER`. -/
def maintainerDeprecated : Rule where
  name := "maintainer-deprecated"
  metadata := ⟨"DL4000", .error, "MAINTAINER is deprecated"⟩
  test := .whole fun instructions => !instructions.any isMaintainer

/-- The file downloads with one program only. -/
def wgetOrCurl : Rule where
  name := "wget-or-curl"
  metadata := ⟨"DL4001", .warning, "Either use Wget or Curl but not both"⟩
  test := .whole fun instructions =>
    !(instructions.any (runsProgram "curl") && instructions.any (runsProgram "wget"))

/-- There is at most one `CMD`. -/
def multipleCmds : Rule where
  name := "multiple-cmds"
  metadata := ⟨"DL4003", .warning,
    "Multiple `CMD` instructions found. If you list more than one `CMD` then only the last `CMD` will take effect"⟩
  test := .whole fun instructions => decide (instructions.countP isCmd ≤ 1)

/-- There is at most one `ENTRYPOINT`. -/
def multipleEntrypoints : Rule where
  name := "multiple-entrypoints"
  metadata := ⟨"DL4004", .error,
    "Multiple `ENTRYPOINT` instructions found. If you list more than one `ENTRYPOINT` then only the last `ENTRYPOINT` will take effect"⟩
  test := .whole fun instructions => decide (instructions.countP isEntrypoint ≤ 1)

/-- The default shell is not changed by a link. -/
def useShell : Rule where
  name := "use-shell"
  metadata := ⟨"DL4005", .warning, "Use SHELL to change the default shell"⟩
  test := onRun fun args => !linksShell args

/-- Every built-in rule, ordered by code. -/
def all : List Rule :=
  [absoluteWorkdir, invalidCmd, noRootUser, noCd, noSudo, noAptUpgrade, noUntagged, noLatestTag,
    aptGetPinned, aptGetCleanup, useAddForArchives, validPortRange, exposeMissingArgs, pipPinned,
    aptGetYes, aptGetNoRecommends,
    npmPinned, noApkUpgrade, apkAddPinned, apkAddNoCache, copyInsteadOfAdd, copyMissingArgs,
    maintainerDeprecated,
    wgetOrCurl, multipleCmds, multipleEntrypoints, useShell]

/-- The built-in rule with a code or a name. -/
def find? (key : String) : Option Rule := all.find? fun rule => rule.answersTo key

end DockerfileLint.Catalog
