/-!
# Instructions

The instructions of a parsed Dockerfile. An `ONBUILD` instruction wraps another one;
`Instruction.effective` looks through any number of such layers. A script is a list of instructions
with the file and the line of each.
-/

namespace DockerfileLint

/-- The image that a build starts from. -/
structure BaseImage where
  image : String
  tag : Option String
  digest : Option String
  stage : Option String
  deriving DecidableEq, Repr

namespace BaseImage

/-- An image by its name alone. -/
def untagged (image : String) : BaseImage := ⟨image, none, none, none⟩

/-- An image with a tag. -/
def tagged (image tag : String) : BaseImage := { untagged image with tag := some tag }

/-- An image with a digest. -/
def digested (image digest : String) : BaseImage := { untagged image with digest := some digest }

/-- Whether neither a tag nor a digest fixes the version. -/
def isUntagged (base : BaseImage) : Bool := base.tag.isNone && base.digest.isNone

end BaseImage

/-- The ports of an `EXPOSE` instruction, or its text when they could not be told apart. -/
inductive Ports where
  | numbers (ports : List UInt32)
  | unparsed (text : String)
  deriving DecidableEq, Repr

/-- An instruction of a Dockerfile. -/
inductive Instruction where
  | fromImage (base : BaseImage)
  | run (args : List String)
  | cmd (args : List String)
  | entrypoint (args : List String)
  | shell (args : List String)
  | workdir (path : String)
  | user (name : String)
  | copy (source target : String)
  | add (source target : String)
  | expose (ports : Ports)
  | maintainer (name : String)
  | env (pairs : List (String × String))
  | label (pairs : List (String × String))
  | arg (text : String)
  | volume (text : String)
  | stopsignal (text : String)
  | healthcheck (args : List String)
  | onbuild (inner : Instruction)
  | comment (text : String)
  | other (text : String)
  deriving DecidableEq, Repr

namespace Instruction

/-- The instruction under all `ONBUILD` layers. -/
def effective : Instruction → Instruction
  | onbuild inner => inner.effective
  | i => i

/-- The words of a `RUN` instruction, also under `ONBUILD`. -/
def runArgs? (i : Instruction) : Option (List String) :=
  match i.effective with
  | run args => some args
  | _ => none

/-- Whether the base image has neither tag nor digest; nothing unless the effective instruction is
`FROM`. -/
def untagged? (i : Instruction) : Option Bool :=
  match i.effective with
  | fromImage base => some base.isUntagged
  | _ => none

end Instruction

/-- An instruction with its file and line. -/
structure Positioned where
  instruction : Instruction
  source : String
  line : Int64
  deriving DecidableEq, Repr

/-- A parsed Dockerfile. -/
abbrev Script := List Positioned

end DockerfileLint
