import DockerfileLint.Proofs.Document.RoundTrip
import DockerfileLint.Proofs.Json.Representation

/-!
# The documents that stand for a script

A script may be written in many ways: the fields of a record in any order and between other members,
or as an array, and what is missing left out or given as null. `Script.RepresentedBy` says which
documents stand for a script. `decode?_eq_some_iff_representedBy` says that these are the documents
that are decoded to it, as long as they nest within the limit.
-/

namespace DockerfileLint

open Json (Decoder Field IsRecord)
open Json.Decoder (string list pair decides_string decides_int64 decides_uint32 decides_pair
  decides_record decides_record_of_leaves required_eq_some_iff optional_eq_some_iff)

/-! ### Representations -/

/-- The fields of a base image; all but the first may be missing or null. -/
def BaseImage.fields (base : BaseImage) : List Field :=
  [.required "image" (· = .str base.image), .optionalText "tag" base.tag,
    .optionalText "digest" base.digest, .optionalText "alias" base.stage]

/-- The fields of a copy. -/
def Json.pathFields (source target : String) : List Field :=
  [.required "source" (· = .str source), .required "target" (· = .str target)]

/-- Ports are an array of numbers or a text. -/
def Ports.RepresentedBy : Ports → Json → Prop
  | .numbers ports, v => v = .array (ports.map fun port => .nat port.toNat)
  | .unparsed s, v => v = .str s

namespace Instruction

/-- The keyword of an instruction. -/
def keyword : Instruction → String
  | fromImage _ => "FROM"
  | run _ => "RUN"
  | cmd _ => "CMD"
  | entrypoint _ => "ENTRYPOINT"
  | shell _ => "SHELL"
  | workdir _ => "WORKDIR"
  | user _ => "USER"
  | copy _ _ => "COPY"
  | add _ _ => "ADD"
  | expose _ => "EXPOSE"
  | maintainer _ => "MAINTAINER"
  | env _ => "ENV"
  | label _ => "LABEL"
  | arg _ => "ARG"
  | volume _ => "VOLUME"
  | stopsignal _ => "STOPSIGNAL"
  | healthcheck _ => "HEALTHCHECK"
  | onbuild _ => "ONBUILD"
  | comment _ => "COMMENT"
  | other _ => "OTHER"

/-- The documents that stand for the payload of an instruction. -/
def IsPayload : Instruction → Json → Prop
  | fromImage base, v => IsRecord base.fields v
  | run args, v | cmd args, v | entrypoint args, v | shell args, v | healthcheck args, v =>
    v = .array (args.map .str)
  | workdir s, v | user s, v | maintainer s, v | arg s, v | volume s, v | stopsignal s, v
  | comment s, v | other s, v =>
    v = .str s
  | copy source target, v | add source target, v => IsRecord (Json.pathFields source target) v
  | expose ports, v => ports.RepresentedBy v
  | env pairs, v | label pairs, v => v = .array (pairs.map fun p => .array [.str p.1, .str p.2])
  | onbuild inner, v => ∃ w, v = .obj [(inner.keyword, w)] ∧ inner.IsPayload w

/-- An instruction is an object with one member, from its keyword to its payload. -/
def RepresentedBy (i : Instruction) (v : Json) : Prop :=
  ∃ w, v = .obj [(i.keyword, w)] ∧ i.IsPayload w

end Instruction

/-- The fields of an instruction with its place. -/
def Positioned.fields (p : Positioned) : List Field :=
  [.required "instruction" p.instruction.RepresentedBy, .required "source" (· = .str p.source),
    .required "line" (· = .integer p.line.toInt)]

/-- A script is the array of its instructions with their places. -/
def Script.RepresentedBy (script : Script) (v : Json) : Prop :=
  ∃ items, v = .array items ∧
    List.Forall₂ (fun (p : Positioned) w => IsRecord p.fields w) script items

/-! ### Payloads -/

theorem BaseImage.decides :
    BaseImage.decoder.Decides (fun base v => IsRecord base.fields v) BaseImage.toJson := by
  refine decides_record_of_leaves (fun _ => rfl) (fun base => ?leaves)
    fun room given base => ⟨fun h => ?left, fun h => ?right⟩
  case leaves =>
    rcases base with ⟨image, tag, digest, stage⟩
    cases tag <;> cases digest <;> cases stage <;> simp [Json.optionalMember]
  case left =>
    split at h
    · obtain ⟨image, himage, h⟩ := Option.bind_eq_some_iff.1 h
      obtain ⟨tag, htag, h⟩ := Option.bind_eq_some_iff.1 h
      obtain ⟨digest, hdigest, h⟩ := Option.bind_eq_some_iff.1 h
      obtain ⟨stage, hstage, h⟩ := Option.bind_eq_some_iff.1 h
      cases h
      exact .cons ((required_eq_some_iff decides_string "image" room).1 himage).1 <|
        .cons ((optional_eq_some_iff "tag" room).1 htag) <|
          .cons ((optional_eq_some_iff "digest" room).1 hdigest) <|
        .cons ((optional_eq_some_iff "alias" room).1 hstage) .nil
    · cases h
  case right =>
    unfold fields at h
    rcases h with _ | ⟨himage, _ | ⟨htag, _ | ⟨hdigest, _ | ⟨hstage, _ | _⟩⟩⟩⟩
    have himage := (required_eq_some_iff decides_string "image" room).2
      ⟨himage, (Json.isLeaf_str _).depth_le room⟩
    have htag := (optional_eq_some_iff "tag" room).2 htag
    have hdigest := (optional_eq_some_iff "digest" room).2 hdigest
    have hstage := (optional_eq_some_iff "alias" room).2 hstage
    simp [himage, htag, hdigest, hstage]

theorem decides_paths : Json.pathsDecoder.Decides (fun p v => IsRecord (Json.pathFields p.1 p.2) v)
    (fun p => .paths p.1 p.2) := by
  refine decides_record_of_leaves (fun _ => rfl) (fun _ => by simp)
    fun room given p => ⟨fun h => ?left, fun h => ?right⟩
  case left =>
    split at h
    · obtain ⟨source, hsource, h⟩ := Option.bind_eq_some_iff.1 h
      obtain ⟨target, htarget, h⟩ := Option.bind_eq_some_iff.1 h
      cases h
      exact .cons ((required_eq_some_iff decides_string "source" room).1 hsource).1 <|
        .cons ((required_eq_some_iff decides_string "target" room).1 htarget).1 .nil
    · cases h
  case right =>
    unfold Json.pathFields at h
    rcases h with _ | ⟨hsource, _ | ⟨htarget, _ | _⟩⟩
    have hsource := (required_eq_some_iff decides_string "source" room).2
      ⟨hsource, (Json.isLeaf_str _).depth_le room⟩
    have htarget := (required_eq_some_iff decides_string "target" room).2
      ⟨htarget, (Json.isLeaf_str _).depth_le room⟩
    simp [hsource, htarget]

theorem Ports.decides : Ports.decoder.Decides Ports.RepresentedBy Ports.toJson := by
  have hnumbers := decides_uint32.list_of_unique
  intro room v ports
  constructor
  · intro h
    unfold decoder at h
    split at h
    · cases h
      exact ⟨rfl, (Json.isLeaf_str _).depth_le room⟩
    · obtain ⟨ns, hns, rfl⟩ := Option.map_eq_some_iff.1 h
      exact (hnumbers room v ns).1 hns
  · intro h
    cases ports with
    | numbers ns =>
      have hns := (hnumbers room v ns).2 h
      obtain ⟨rfl, -⟩ := h
      show (list Decoder.uint32 room _).map numbers = _
      rw [hns, Option.map_some]
    | unparsed s =>
      obtain ⟨rfl, -⟩ := h
      rfl

/-! ### Instructions -/

namespace Instruction

/-- The keyword under which a payload is read is that of the instruction. -/
theorem keyword_of_payload {key : String} {room : Nat} {v : Json} {i : Instruction}
    (h : payload key room v = some i) : key = i.keyword := by
  unfold payload at h
  split at h
  case h_20 => cases h
  all_goals
    obtain ⟨x, -, rfl⟩ := Option.map_eq_some_iff.1 h
    rfl

/-- A payload that a decoder reads and a constructor wraps. -/
theorem map_eq_some_iff_of_decoded {α : Type} {x : Option α} {a : α} {stands : Prop}
    {written : Json} {room : Nat} (h : x = some a ↔ stands ∧ written.depth ≤ room)
    {f : α → Instruction} (hf : Function.Injective f) (key : String) :
    x.map f = some (f a) ↔ stands ∧ (Json.obj [(key, written)]).depth ≤ room + 1 := by
  rw [Option.map_eq_some_iff, Json.depth_obj_le, List.forall_mem_singleton]
  simp only [hf.eq_iff, exists_eq_right]
  exact h

/-- The payload of an instruction other than `ONBUILD` is read under its keyword. -/
theorem payload_eq_some_iff {i : Instruction} (hi : i.keyword ≠ "ONBUILD") (room : Nat) (v : Json) :
    payload i.keyword room v = some i ↔ i.IsPayload v ∧ i.toJson.depth ≤ room + 1 := by
  have hstr := decides_string room v
  have hstrs := decides_string.list_of_unique room v
  have hpairs := decides_pair.list_of_unique room v
  have hpaths := decides_paths room v
  cases i with
  | fromImage base =>
    exact map_eq_some_iff_of_decoded (BaseImage.decides room v base)
      (fun _ _ => fromImage.inj) "FROM"
  | run args => exact map_eq_some_iff_of_decoded (hstrs args) (fun _ _ => run.inj) "RUN"
  | cmd args => exact map_eq_some_iff_of_decoded (hstrs args) (fun _ _ => cmd.inj) "CMD"
  | entrypoint args =>
    exact map_eq_some_iff_of_decoded (hstrs args) (fun _ _ => entrypoint.inj) "ENTRYPOINT"
  | shell args => exact map_eq_some_iff_of_decoded (hstrs args) (fun _ _ => shell.inj) "SHELL"
  | workdir path => exact map_eq_some_iff_of_decoded (hstr path) (fun _ _ => workdir.inj) "WORKDIR"
  | user name => exact map_eq_some_iff_of_decoded (hstr name) (fun _ _ => user.inj) "USER"
  | copy source target =>
    exact map_eq_some_iff_of_decoded (f := fun p => copy p.1 p.2) (hpaths (source, target))
      (fun p q h => Prod.ext (copy.inj h).1 (copy.inj h).2) "COPY"
  | add source target =>
    exact map_eq_some_iff_of_decoded (f := fun p => add p.1 p.2) (hpaths (source, target))
      (fun p q h => Prod.ext (add.inj h).1 (add.inj h).2) "ADD"
  | expose ports =>
    exact map_eq_some_iff_of_decoded (Ports.decides room v ports) (fun _ _ => expose.inj) "EXPOSE"
  | maintainer name =>
    exact map_eq_some_iff_of_decoded (hstr name) (fun _ _ => maintainer.inj) "MAINTAINER"
  | env pairs => exact map_eq_some_iff_of_decoded (hpairs pairs) (fun _ _ => env.inj) "ENV"
  | label pairs => exact map_eq_some_iff_of_decoded (hpairs pairs) (fun _ _ => label.inj) "LABEL"
  | arg text => exact map_eq_some_iff_of_decoded (hstr text) (fun _ _ => arg.inj) "ARG"
  | volume text => exact map_eq_some_iff_of_decoded (hstr text) (fun _ _ => volume.inj) "VOLUME"
  | stopsignal text =>
    exact map_eq_some_iff_of_decoded (hstr text) (fun _ _ => stopsignal.inj) "STOPSIGNAL"
  | healthcheck args =>
    exact map_eq_some_iff_of_decoded (hstrs args) (fun _ _ => healthcheck.inj) "HEALTHCHECK"
  | onbuild inner => exact absurd rfl hi
  | comment text => exact map_eq_some_iff_of_decoded (hstr text) (fun _ _ => comment.inj) "COMMENT"
  | other text => exact map_eq_some_iff_of_decoded (hstr text) (fun _ _ => other.inj) "OTHER"

/-- Reads the value of the one member of an instruction. -/
def valueDecoder (key : String) : Decoder Instruction := fun room w =>
  if key = "ONBUILD" then (decoder room w).map onbuild else payload key room w

theorem decoder_eq_some_iff {room : Nat} {v : Json} {i : Instruction} :
    decoder room v = some i ↔
      ∃ below key w, room = below + 1 ∧ v = .obj [(key, w)] ∧
        valueDecoder key below w = some i := by
  constructor
  · intro h
    unfold decoder at h
    split at h
    · exact ⟨_, _, _, rfl, rfl, h⟩
    · cases h
  · rintro ⟨below, key, w, rfl, rfl, h⟩
    exact h

theorem exists_toJson_eq (i : Instruction) : ∃ w, i.toJson = .obj [(i.keyword, w)] := by
  cases i <;> exact ⟨_, rfl⟩

/-- An instruction is read from the documents that stand for it if its payload is. -/
theorem decoder_eq_some_iff_of_value {i : Instruction}
    (hvalue : ∀ key below w, valueDecoder key below w = some i ↔
      key = i.keyword ∧ i.IsPayload w ∧ i.toJson.depth ≤ below + 1) (room : Nat) (v : Json) :
    decoder room v = some i ↔ i.RepresentedBy v ∧ i.toJson.depth ≤ room := by
  rw [decoder_eq_some_iff]
  constructor
  · rintro ⟨below, key, w, rfl, rfl, h⟩
    obtain ⟨rfl, hpayload, hdepth⟩ := (hvalue key below w).1 h
    exact ⟨⟨w, rfl, hpayload⟩, hdepth⟩
  · rintro ⟨⟨w, rfl, hpayload⟩, hdepth⟩
    cases room with
    | zero =>
      obtain ⟨w, hw⟩ := i.exists_toJson_eq
      rw [hw] at hdepth
      exact absurd hdepth (Json.not_depth_obj_le_zero _)
    | succ below => exact ⟨below, i.keyword, w, rfl, rfl, (hvalue _ _ _).2 ⟨rfl, hpayload, hdepth⟩⟩

theorem valueDecoder_eq_some_iff {i : Instruction} (hi : i.keyword ≠ "ONBUILD") (key : String)
    (below : Nat) (w : Json) :
    valueDecoder key below w = some i ↔
      key = i.keyword ∧ i.IsPayload w ∧ i.toJson.depth ≤ below + 1 := by
  unfold valueDecoder
  rw [← payload_eq_some_iff hi below w]
  split_ifs with hkey
  · refine iff_of_false (fun h => ?_) fun h => hi (h.1 ▸ hkey)
    obtain ⟨inner, -, rfl⟩ := Option.map_eq_some_iff.1 h
    exact hi rfl
  · constructor
    · intro h
      obtain rfl := keyword_of_payload h
      exact ⟨rfl, h⟩
    · rintro ⟨rfl, h⟩
      exact h

theorem valueDecoder_onbuild_eq_some_iff {inner : Instruction}
    (h : ∀ room v, decoder room v = some inner ↔ inner.RepresentedBy v ∧ inner.toJson.depth ≤ room)
    (key : String) (below : Nat) (w : Json) :
    valueDecoder key below w = some (onbuild inner) ↔
      key = "ONBUILD" ∧ (onbuild inner).IsPayload w ∧ (onbuild inner).toJson.depth ≤ below + 1 := by
  unfold valueDecoder
  split_ifs with hkey
  · rw [and_iff_right hkey]
    exact map_eq_some_iff_of_decoded (h below w) (fun _ _ => onbuild.inj) "ONBUILD"
  · exact iff_of_false (fun h => hkey (keyword_of_payload h)) fun h => hkey h.1

/-- An instruction is read exactly from the documents that stand for it, however many `ONBUILD`
instructions it stands under. -/
protected theorem decides : decoder.Decides RepresentedBy toJson := by
  intro room v i
  induction i generalizing room v with
  | onbuild inner ih =>
    exact decoder_eq_some_iff_of_value (valueDecoder_onbuild_eq_some_iff ih) room v
  | _ => exact decoder_eq_some_iff_of_value (valueDecoder_eq_some_iff (by simp [keyword])) room v

end Instruction

/-! ### Scripts -/

theorem Positioned.decides :
    Positioned.decoder.Decides (fun p v => IsRecord p.fields v) Positioned.toJson := by
  refine decides_record (fun _ => rfl) fun room given p => ⟨fun h => ?left, fun h => ?right⟩
  case left =>
    split at h
    · obtain ⟨instruction, hinstruction, h⟩ := Option.bind_eq_some_iff.1 h
      obtain ⟨source, hsource, h⟩ := Option.bind_eq_some_iff.1 h
      obtain ⟨line, hline, h⟩ := Option.bind_eq_some_iff.1 h
      cases h
      obtain ⟨hinstruction, hdepth⟩ :=
        (required_eq_some_iff Instruction.decides "instruction" room).1 hinstruction
      refine ⟨.cons hinstruction <|
        .cons ((required_eq_some_iff decides_string "source" room).1 hsource).1 <|
          .cons ((required_eq_some_iff decides_int64 "line" room).1 hline).1 .nil, ?_⟩
      simp [hdepth, Json.IsLeaf.depth_eq]
    · cases h
  case right =>
    unfold fields at h
    rcases h with ⟨_ | ⟨hinstruction, _ | ⟨hsource, _ | ⟨hline, _ | _⟩⟩⟩, hdepth⟩
    have hinstruction := (required_eq_some_iff Instruction.decides "instruction" room).2
      ⟨hinstruction, hdepth _ (List.mem_cons_self ..)⟩
    have hsource := (required_eq_some_iff decides_string "source" room).2
      ⟨hsource, (Json.isLeaf_str _).depth_le room⟩
    have hline := (required_eq_some_iff decides_int64 "line" room).2
      ⟨hline, (Json.isLeaf_integer _).depth_le room⟩
    simp [hinstruction, hsource, hline]

theorem Script.decides : Script.decoder.Decides Script.RepresentedBy Script.toJson :=
  Positioned.decides.list

/-! ### Nesting -/

/-- A base image nests one level. -/
theorem BaseImage.depth_toJson_le (base : BaseImage) : base.toJson.depth ≤ 1 := by
  rcases base with ⟨image, tag, digest, stage⟩
  cases tag <;> cases digest <;> cases stage <;>
    simp [toJson, Json.optionalMember, Json.IsLeaf.depth_eq]

namespace Instruction

/-- No document for a payload nests less deep than the one that is written. -/
theorem depth_toJson_le_of_isPayload {i : Instruction} {w : Json} (h : i.IsPayload w) :
    i.toJson.depth ≤ w.depth + 1 := by
  induction i generalizing w with
  | fromImage base =>
    have hpos := Json.IsRecord.depth_pos h
    rw [toJson, Json.depth_obj_le, List.forall_mem_singleton]
    exact Nat.le_trans base.depth_toJson_le hpos
  | copy source target | add source target =>
    have hpos := Json.IsRecord.depth_pos h
    have hpaths : (Json.paths source target).depth ≤ 1 := by simp [Json.paths, Json.IsLeaf.depth_eq]
    rw [toJson, Json.depth_obj_le, List.forall_mem_singleton]
    exact Nat.le_trans hpaths hpos
  | expose ports =>
    rw [toJson, Json.depth_obj_le, List.forall_mem_singleton]
    cases ports <;> exact Nat.le_of_eq (congrArg Json.depth h.symm)
  | onbuild inner ih =>
    obtain ⟨w, rfl, hw⟩ := h
    rw [toJson, Json.depth_obj_le, List.forall_mem_singleton]
    exact Nat.le_trans (ih hw)
      (Json.depth_lt_of_mem_members (List.mem_singleton_self (inner.keyword, w)))
  | _ =>
    rw [toJson, Json.depth_obj_le, List.forall_mem_singleton]
    exact Nat.le_of_eq (congrArg Json.depth h.symm)

theorem RepresentedBy.depth_toJson_le {i : Instruction} {v : Json} (h : i.RepresentedBy v) :
    i.toJson.depth ≤ v.depth := by
  obtain ⟨w, rfl, hw⟩ := h
  have hlt := Json.depth_lt_of_mem_members (List.mem_singleton_self (i.keyword, w))
  exact Nat.le_trans (depth_toJson_le_of_isPayload hw) hlt

end Instruction

theorem Positioned.depth_toJson_le {p : Positioned} {v : Json} (h : IsRecord p.fields v) :
    p.toJson.depth ≤ v.depth := by
  obtain ⟨given, ⟨w, rfl, hw⟩, hdepth⟩ := h.exists_accepts (List.mem_cons_self ..)
  obtain ⟨n, hn⟩ := Nat.exists_eq_succ_of_ne_zero (Nat.ne_of_gt h.depth_pos)
  have hinstruction : p.instruction.toJson.depth ≤ n := by
    have hle := hw.depth_toJson_le
    have hlt := hdepth w rfl
    omega
  rw [hn, toJson, Json.depth_obj_le]
  simp [hinstruction, Json.IsLeaf.depth_eq]

theorem Script.RepresentedBy.depth_toJson_le {script : Script} {v : Json}
    (h : script.RepresentedBy v) :
    (Script.toJson script).depth ≤ v.depth := by
  obtain ⟨items, rfl, hitems⟩ := h
  have hdepth : Json.itemsDepth (script.map Positioned.toJson) ≤ Json.itemsDepth items := by
    induction hitems with
    | nil => exact Nat.le_refl _
    | cons hp _ ih =>
      have hle := Positioned.depth_toJson_le hp
      rw [List.map_cons, Json.itemsDepth, Json.itemsDepth]
      omega
  exact Nat.succ_le_succ hdepth

/-- Decoding accepts exactly the documents that stand for a script. A document is decoded to a
script if and only if it stands for the script and the script nests within the limit. So if no more
than 127 arrays and objects of the document are inside one another, it is decoded to a script if and
only if it stands for it. -/
theorem decode?_eq_some_iff_representedBy (v : Json) (script : Script) :
    (Script.decoder.decode? v = some script ↔
      script.RepresentedBy v ∧ (Script.toJson script).depth ≤ 127) ∧
    (v.depth ≤ 127 → (Script.decoder.decode? v = some script ↔ script.RepresentedBy v)) := by
  have hdecides := Script.decides Json.nestingLimit v script
  refine ⟨hdecides, fun hdepth => hdecides.trans (and_iff_left_of_imp fun h => ?_)⟩
  exact Nat.le_trans h.depth_toJson_le hdepth

/-- A base image as an array without its last field, under `ONBUILD`, in an object with the fields
out of order, a null among the fields and a repeated member that is skipped. -/
theorem decode?_onbuild_from :
    let script : Script :=
      [⟨.onbuild (.fromImage ⟨"ubuntu", none, some "sha256:0", none⟩), "Dockerfile", -7⟩]
    let v : Json :=
      .array [.obj [("line", .integer (-7)), ("note", .decimal ['1', '.', '0']),
        ("source", .str "Dockerfile"),
        ("instruction",
          .obj [("ONBUILD", .obj [("FROM", .array [.str "ubuntu", .null, .str "sha256:0"])])]),
        ("note", .text none)]]
    v.depth ≤ 127 ∧ script.RepresentedBy v ∧ Script.decoder.decode? v = some script := by
  intro script v
  have hdepth : v.depth ≤ 127 := by decide
  have hbase : IsRecord (BaseImage.fields ⟨"ubuntu", none, some "sha256:0", none⟩)
      (.array [.str "ubuntu", .null, .str "sha256:0"]) :=
    .array <| .cons ⟨_, rfl, rfl⟩ <| .cons (.inl ⟨rfl, .inr rfl⟩) <| .cons (.inr ⟨_, rfl, rfl⟩) <|
      .missing (.inl ⟨rfl, .inl rfl⟩) .nil
  have hstands : script.RepresentedBy v := by
    refine ⟨_, rfl,
      .cons (.object (List.forall_mem_cons.2 ⟨?_, List.forall_mem_cons.2 ⟨?_, ?_⟩⟩)) .nil⟩
    · exact ⟨some _, rfl, _, rfl, _, rfl, _, rfl, hbase⟩
    · exact ⟨some _, rfl, _, rfl, rfl⟩
    · exact List.forall_mem_singleton.2 ⟨some _, rfl, _, rfl, rfl⟩
  exact ⟨hdepth, hstands, ((decode?_eq_some_iff_representedBy v script).2 hdepth).2 hstands⟩

end DockerfileLint
