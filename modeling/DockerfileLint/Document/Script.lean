import DockerfileLint.Instruction
import DockerfileLint.Json.Decoder
import DockerfileLint.Json.Writer

/-!
# Scripts as JSON documents

A script is an array of positioned instructions. An instruction is an object with one member, from
its keyword to its payload; `ONBUILD` has an instruction for its payload.
-/

namespace DockerfileLint

open Json (Decoder)
open Json.Decoder (string list pair record required optional)

/-! ### Writing -/

/-- A member for a value that may be missing; a missing one is left out. -/
def Json.optionalMember (name : String) : Option String → List (String × Json)
  | some s => [(name, .str s)]
  | none => []

/-- The document of a base image. -/
def BaseImage.toJson (base : BaseImage) : Json :=
  .obj ([("image", .str base.image)] ++ Json.optionalMember "tag" base.tag ++
    Json.optionalMember "digest" base.digest ++ Json.optionalMember "alias" base.stage)

/-- The document of ports. -/
def Ports.toJson : Ports → Json
  | .numbers ports => .array (ports.map fun port => .nat port.toNat)
  | .unparsed text => .str text

/-- The document of key and value pairs. -/
def Json.pairs (pairs : List (String × String)) : Json :=
  .array (pairs.map fun p => .array [.str p.1, .str p.2])

/-- The document of the two paths of a copy. -/
def Json.paths (source target : String) : Json :=
  .obj [("source", .str source), ("target", .str target)]

/-- The document of an instruction. -/
def Instruction.toJson : Instruction → Json
  | fromImage base => .obj [("FROM", base.toJson)]
  | run args => .obj [("RUN", .strs args)]
  | cmd args => .obj [("CMD", .strs args)]
  | entrypoint args => .obj [("ENTRYPOINT", .strs args)]
  | shell args => .obj [("SHELL", .strs args)]
  | workdir path => .obj [("WORKDIR", .str path)]
  | user name => .obj [("USER", .str name)]
  | copy source target => .obj [("COPY", .paths source target)]
  | add source target => .obj [("ADD", .paths source target)]
  | expose ports => .obj [("EXPOSE", ports.toJson)]
  | maintainer name => .obj [("MAINTAINER", .str name)]
  | env pairs => .obj [("ENV", .pairs pairs)]
  | label pairs => .obj [("LABEL", .pairs pairs)]
  | arg text => .obj [("ARG", .str text)]
  | volume text => .obj [("VOLUME", .str text)]
  | stopsignal text => .obj [("STOPSIGNAL", .str text)]
  | healthcheck args => .obj [("HEALTHCHECK", .strs args)]
  | onbuild inner => .obj [("ONBUILD", inner.toJson)]
  | comment text => .obj [("COMMENT", .str text)]
  | other text => .obj [("OTHER", .str text)]

/-- The document of an instruction with its place. -/
def Positioned.toJson (p : Positioned) : Json :=
  .obj [("instruction", p.instruction.toJson), ("source", .str p.source),
    ("line", .integer p.line.toInt)]

/-- The document of a script. -/
def Script.toJson (script : Script) : Json := .array (script.map Positioned.toJson)

/-! ### Reading -/

/-- Reads a base image; tag, digest and stage name may be missing or null. -/
def BaseImage.decoder : Decoder BaseImage :=
  record ["image", "tag", "digest", "alias"] fun room fields =>
    match fields with
    | [image, tag, digest, stage] => do
      pure ⟨← required string room image, ← optional string room tag, ← optional string room digest,
        ← optional string room stage⟩
    | _ => none

/-- Reads ports: an array of numbers or a text. -/
def Ports.decoder : Decoder Ports
  | _, .text (some s) => some (.unparsed s)
  | room, v => (list Decoder.uint32 room v).map .numbers

/-- Reads the two paths of a copy. -/
def Json.pathsDecoder : Decoder (String × String) :=
  record ["source", "target"] fun room fields =>
    match fields with
    | [source, target] => do pure (← required string room source, ← required string room target)
    | _ => none

/-- Reads the payload of an instruction other than `ONBUILD`. -/
def Instruction.payload (keyword : String) : Decoder Instruction := fun room v =>
  match keyword with
  | "FROM" => (BaseImage.decoder room v).map fromImage
  | "RUN" => (list string room v).map run
  | "CMD" => (list string room v).map cmd
  | "ENTRYPOINT" => (list string room v).map entrypoint
  | "SHELL" => (list string room v).map shell
  | "WORKDIR" => (string room v).map workdir
  | "USER" => (string room v).map user
  | "COPY" => (Json.pathsDecoder room v).map fun p => copy p.1 p.2
  | "ADD" => (Json.pathsDecoder room v).map fun p => add p.1 p.2
  | "EXPOSE" => (Ports.decoder room v).map expose
  | "MAINTAINER" => (string room v).map maintainer
  | "ENV" => (list pair room v).map env
  | "LABEL" => (list pair room v).map label
  | "ARG" => (string room v).map arg
  | "VOLUME" => (string room v).map volume
  | "STOPSIGNAL" => (string room v).map stopsignal
  | "HEALTHCHECK" => (list string room v).map healthcheck
  | "COMMENT" => (string room v).map comment
  | "OTHER" => (string room v).map other
  | _ => none

/-- Reads an instruction: an object with one member, whose key is the keyword. -/
def Instruction.decoder : Decoder Instruction
  | room + 1, .object [(some keyword, v)] =>
    if keyword = "ONBUILD" then (decoder room v).map onbuild else payload keyword room v
  | _, _ => none

/-- Reads an instruction with its place. -/
def Positioned.decoder : Decoder Positioned :=
  record ["instruction", "source", "line"] fun room fields =>
    match fields with
    | [instruction, source, line] => do
      pure ⟨← required Instruction.decoder room instruction, ← required string room source,
        ← required Decoder.int64 room line⟩
    | _ => none

/-- Reads a script. -/
def Script.decoder : Decoder Script := list Positioned.decoder

/-- The script that a JSON text holds. -/
def Script.parse? (text : String) : Option Script := Script.decoder.parse? text

end DockerfileLint
