import DockerfileLint.Document.Result
import DockerfileLint.Proofs.Json.Decoding

/-!
# Reading back scripts and results

The document of a script or of a result is read as that script or result, and so is its text
(`parse?_compact_toJson`). A result nests four levels. A script nests as deep as its `ONBUILD`
instructions do (`Instruction.depth_toJson_repeat_onbuild`), and its text is refused beyond the
nesting limit.
-/

namespace DockerfileLint

open Json (Decoder)
open Json.Decoder (string list pair required reads_string reads_int64 reads_uint32 reads_uint64
  reads_list reads_pair reads_of_leaf reads_record_of_leaves reads_record_of_nested)

/-! ### Payloads -/

theorem BaseImage.reads (base : BaseImage) : BaseImage.decoder.Reads base.toJson base := by
  rcases base with ⟨image, tag, digest, stage⟩
  refine reads_record_of_leaves ?keys ?leaves fun room => ?build
  case keys => cases tag <;> cases digest <;> cases stage <;> simp [Json.optionalMember]
  case leaves => cases tag <;> cases digest <;> cases stage <;> simp [Json.optionalMember]
  case build => cases tag <;> cases digest <;> cases stage <;> rfl

theorem Ports.reads (ports : Ports) : Ports.decoder.Reads ports.toJson ports := by
  cases ports with
  | numbers ports =>
    -- an array is no text, which is what the decoder looks for first
    have h := (reads_list fun n (_ : n ∈ ports) => reads_uint32 n).map numbers
    exact ⟨h.exact, h.decode⟩
  | unparsed text => exact ⟨.text _, fun room => (if_pos (Nat.zero_le room)).symm⟩

theorem reads_strs (args : List String) : (list string).Reads (.strs args) args :=
  reads_list fun s _ => reads_string s

theorem reads_pairs (pairs : List (String × String)) : (list pair).Reads (.pairs pairs) pairs :=
  reads_list fun p _ => reads_pair p

theorem reads_paths (source target : String) :
    Json.pathsDecoder.Reads (.paths source target) (source, target) :=
  reads_record_of_leaves (by simp) (by simp) fun _ => rfl

/-! ### Instructions -/

namespace Instruction

/-- An instruction is read from the payload under its keyword. -/
theorem reads_of_payload {keyword : String} {d : Decoder Instruction} {v : Json} {i : Instruction}
    (h : d.Reads v i) (hpayload : ∀ room, decoder (room + 1) (.obj [(keyword, v)]) = d room v) :
    decoder.Reads (.obj [(keyword, v)]) i where
  exact := .obj (List.forall_mem_singleton.2 h.exact)
  decode
    | 0 => (if_neg (Json.not_depth_obj_le_zero _)).symm
    | room + 1 => by
      rw [hpayload, h.decode]
      simp only [Json.depth_obj_le, List.forall_mem_singleton]

/-- An instruction is read back, however many `ONBUILD` instructions it stands under. -/
protected theorem reads (i : Instruction) : decoder.Reads i.toJson i := by
  induction i with
  | fromImage base => exact reads_of_payload (base.reads.map fromImage) fun _ => rfl
  | run args => exact reads_of_payload ((reads_strs args).map run) fun _ => rfl
  | cmd args => exact reads_of_payload ((reads_strs args).map cmd) fun _ => rfl
  | entrypoint args => exact reads_of_payload ((reads_strs args).map entrypoint) fun _ => rfl
  | shell args => exact reads_of_payload ((reads_strs args).map shell) fun _ => rfl
  | workdir path => exact reads_of_payload ((reads_string path).map workdir) fun _ => rfl
  | user name => exact reads_of_payload ((reads_string name).map user) fun _ => rfl
  | copy source target =>
    exact reads_of_payload ((reads_paths source target).map fun p => copy p.1 p.2) fun _ => rfl
  | add source target =>
    exact reads_of_payload ((reads_paths source target).map fun p => add p.1 p.2) fun _ => rfl
  | expose ports => exact reads_of_payload (ports.reads.map expose) fun _ => rfl
  | maintainer name => exact reads_of_payload ((reads_string name).map maintainer) fun _ => rfl
  | env pairs => exact reads_of_payload ((reads_pairs pairs).map env) fun _ => rfl
  | label pairs => exact reads_of_payload ((reads_pairs pairs).map label) fun _ => rfl
  | arg text => exact reads_of_payload ((reads_string text).map arg) fun _ => rfl
  | volume text => exact reads_of_payload ((reads_string text).map volume) fun _ => rfl
  | stopsignal text => exact reads_of_payload ((reads_string text).map stopsignal) fun _ => rfl
  | healthcheck args => exact reads_of_payload ((reads_strs args).map healthcheck) fun _ => rfl
  | onbuild inner ih => exact reads_of_payload (ih.map onbuild) fun _ => rfl
  | comment text => exact reads_of_payload ((reads_string text).map comment) fun _ => rfl
  | other text => exact reads_of_payload ((reads_string text).map other) fun _ => rfl

/-- Every `ONBUILD` layer nests one level deeper. -/
theorem depth_toJson_repeat_onbuild (i : Instruction) (layers : Nat) :
    (Nat.repeat onbuild layers i).toJson.depth = i.toJson.depth + layers := by
  induction layers with
  | zero => rfl
  | succ layers ih =>
    show max (Nat.repeat onbuild layers i).toJson.depth 0 + 1 = _
    rw [Nat.max_zero, ih]
    rfl

end Instruction

/-! ### Scripts -/

theorem Positioned.reads (p : Positioned) : Positioned.decoder.Reads p.toJson p := by
  have hinstruction := p.instruction.reads
  refine reads_record_of_nested (f := fun i => Positioned.mk i p.source p.line) hinstruction ?_ ?_
    fun room => ?_
  · simp
  · simp
  · have hline := (reads_int64 p.line).decode_leaf (by simp) room
    show (Instruction.decoder room p.instruction.toJson).bind (fun i =>
      (Decoder.int64 room (.integer p.line.toInt)).bind fun line =>
        some (Positioned.mk i p.source line)) = _
    rw [hline]
    exact Option.map_eq_bind.symm

theorem Script.reads (script : Script) : Script.decoder.Reads (Script.toJson script) script :=
  reads_list fun p _ => p.reads

/-! ### Results -/

theorem Severity.reads (s : Severity) : Severity.decoder.Reads s.toJson s :=
  reads_of_leaf (Json.isLeaf_str _) fun _ => s.ofName?_name

theorem Metadata.reads (m : Metadata) : Metadata.decoder.Reads m.toJson m := by
  refine reads_record_of_leaves (by simp) (by simp [Severity.toJson]) fun room => ?_
  show (Severity.decoder room m.severity.toJson).bind
    (fun s => some (Metadata.mk m.code s m.message)) = _
  rw [m.severity.reads.decode_leaf (Json.isLeaf_str _)]
  rfl

theorem Check.reads (c : Check) : Check.decoder.Reads c.toJson c := by
  have hmetadata := c.metadata.reads
  refine reads_record_of_nested (f := fun m => Check.mk m c.filename c.line c.success) hmetadata ?_
    ?_ fun room => ?_
  · simp
  · simp
  · have hline := (reads_int64 c.line).decode_leaf (by simp) room
    show (Metadata.decoder room c.metadata.toJson).bind (fun m =>
      (Decoder.int64 room (.integer c.line.toInt)).bind fun line =>
        some (Check.mk m c.filename line c.success)) = _
    rw [hline]
    exact Option.map_eq_bind.symm

theorem LintResult.reads (r : LintResult) : LintResult.decoder.Reads r.toJson r := by
  have hfindings := reads_list fun c (_ : c ∈ r.findings) => c.reads
  refine reads_record_of_nested (f := fun cs => LintResult.mk cs r.scriptsChecked) hfindings ?_ ?_
    fun room => ?_
  · simp
  · simp
  · have hscripts := (reads_uint64 r.scriptsChecked).decode_leaf (by simp) room
    show (list Check.decoder room (.array (r.findings.map Check.toJson))).bind (fun cs =>
      (required Decoder.uint64 room (some (.nat r.scriptsChecked.toNat))).bind fun n =>
        some (LintResult.mk cs n)) = _
    rw [required, hscripts]
    exact Option.map_eq_bind.symm

/-- A result nests four levels at most: the result, its findings, a finding and the metadata of the
finding. -/
theorem LintResult.depth_toJson_le (r : LintResult) : r.toJson.depth ≤ 4 := by
  simp [LintResult.toJson, Check.toJson, Metadata.toJson, Severity.toJson, Json.IsLeaf.depth_eq]

/-! ### Texts -/

/-- Decoding undoes encoding. The compact text of a script is JSON, and it is decoded to that script
if its arrays and objects nest at most 127 levels and refused if they nest deeper. The compact text
of a result is always decoded to that result. -/
theorem parse?_compact_toJson :
    (∀ script : Script,
      let text := String.ofList (Script.toJson script).compact
      Json.parse? text = some (Script.toJson script) ∧
      Script.parse? text = if (Script.toJson script).depth ≤ 127 then some script else none) ∧
    ∀ r : LintResult, LintResult.parse? (String.ofList r.toJson.compact) = some r := by
  refine ⟨fun script => ⟨Json.parse?_compact (Script.reads script).exact, ?_⟩, fun r => ?_⟩
  · exact (Script.reads script).parse?_compact
  · have hdepth : r.toJson.depth ≤ Json.nestingLimit := Nat.le_trans r.depth_toJson_le (by decide)
    rw [LintResult.parse?, r.reads.parse?_compact, if_pos hdepth]

end DockerfileLint
