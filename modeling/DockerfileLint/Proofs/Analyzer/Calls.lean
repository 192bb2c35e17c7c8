import DockerfileLint.Proofs.Commands
import DockerfileLint.Proofs.Linting
import DockerfileLint.Proofs.Onbuild

/-!
# What the analyzer is asked and what becomes of its answers

The analyzer gets the commands of a script in order, up to the first that it fails on.
`Script.HasCommands` says which commands these are, and a recorder beside the analyzer
(`Analyzer.recorded`) shows what it was given. Its answers become findings, one for each distinct
remark on a command (`ShellCommand.findings_eq_map_eraseDups`). Only equal remarks give equal
findings, since a numeral determines its number (`Diagnostic.metadata_injective`).
-/

namespace DockerfileLint

/-! ### Remarks -/

theorem Diagnostic.metadata_injective : Function.Injective Diagnostic.metadata := by
  rintro ⟨code, severity, message⟩ ⟨code', severity', message'⟩ h
  simp only [metadata, Metadata.mk.injEq, String.append_right_inj] at h
  obtain ⟨hcode, rfl, rfl⟩ := h
  have hdigits : Decimal.digits code.toNat = Decimal.digits code'.toNat :=
    String.ofList_injective hcode
  have hnat : code.toNat = code'.toNat := by
    rw [← Decimal.value_digits code.toNat, hdigits, Decimal.value_digits]
  rw [UInt32.toNat_inj.1 hnat]

section Distinct

variable {α β : Type} [DecidableEq α] [DecidableEq β]

theorem distinct_filter (p : α → Bool) (xs : List α) :
    distinct (xs.filter p) = (distinct xs).filter p := by
  induction xs with
  | nil => rfl
  | cons x xs ih =>
    by_cases hx : p x = true
    · rw [List.filter_cons_of_pos hx, distinct, distinct, List.filter_cons_of_pos hx, ih,
        List.filter_comm]
    · -- what differs from `x` is all that `p` could keep
      rw [List.filter_cons_of_neg hx, distinct, List.filter_cons_of_neg hx, ih, List.filter_filter]
      refine List.filter_congr fun y _ => ?_
      by_cases hy : p y = true
      · have hne : y ≠ x := by
          rintro rfl
          exact hx hy
        simp [hy, hne]
      · simp [hy]

theorem distinct_map {f : α → β} (hf : Function.Injective f) (xs : List α) :
    distinct (xs.map f) = (distinct xs).map f := by
  induction xs with
  | nil => rfl
  | cons x xs ih =>
    rw [List.map_cons, distinct, distinct, List.map_cons, ih, List.filter_map]
    congr 2
    refine List.filter_congr fun y _ => ?_
    simp [hf.eq_iff]

theorem distinct_eq_eraseDups (xs : List α) : distinct xs = xs.eraseDups := by
  match xs with
  | [] => rfl
  | x :: xs =>
    have hfilter : (distinct xs).filter (fun y => y ≠ x) =
        distinct (xs.filter fun y => !y == x) := by
      rw [distinct_filter]
      refine List.filter_congr fun y _ => ?_
      by_cases hy : y = x <;> simp [hy]
    rw [distinct, List.eraseDups_cons, hfilter, distinct_eq_eraseDups]
termination_by xs.length
decreasing_by exact Nat.lt_succ_of_le (List.length_filter_le ..)

end Distinct

namespace ShellCommand

/-- The finding that a remark on a command becomes. -/
def finding (cmd : ShellCommand) (d : Diagnostic) : Check :=
  ⟨⟨"SC" ++ toString d.code.toNat, d.severity, d.message⟩, cmd.source, cmd.line, false⟩

/-- Of equal remarks the first counts, and remarks are equal if code, severity and message are. -/
theorem findings_eq_map_eraseDups (cmd : ShellCommand) (ds : List Diagnostic) :
    cmd.findings ds = ds.eraseDups.map cmd.finding := by
  rw [findings, distinct_map Diagnostic.metadata_injective, distinct_eq_eraseDups, List.map_map]
  refine List.map_congr_left fun d _ => ?_
  simp only [Function.comp_apply, Diagnostic.metadata, Decimal.text_natCast, finding]

end ShellCommand

/-! ### Commands -/

/-- The commands of a script: its instructions that are `RUN`, under any number of `ONBUILD` layers,
each with its place and its words with single blanks between them. -/
inductive Script.HasCommands : Script → List ShellCommand → Prop
  | nil : HasCommands [] []
  | run {p : Positioned} {args : List String} {script : Script} {cmds : List ShellCommand}
      (h : p.instruction.Runs args) (hrest : HasCommands script cmds) :
      HasCommands (p :: script) (⟨p.source, p.line, " ".intercalate args⟩ :: cmds)
  | other {p : Positioned} {script : Script} {cmds : List ShellCommand}
      (h : ∀ args, ¬p.instruction.Runs args) (hrest : HasCommands script cmds) :
      HasCommands (p :: script) cmds

theorem shellCommands_cons (p : Positioned) (script : Script) :
    shellCommands (p :: script) =
      (p.instruction.runArgs?.map fun args => ⟨p.source, p.line, " ".intercalate args⟩).toList ++
        shellCommands script := by
  rw [shellCommands, List.filterMap_cons]
  cases p.instruction.runArgs? <;> rfl

theorem Script.hasCommands_iff {script : Script} {cmds : List ShellCommand} :
    script.HasCommands cmds ↔ cmds = shellCommands script := by
  constructor
  · intro h
    induction h with
    | nil => rfl
    | run h _ ih =>
      rw [shellCommands_cons, Instruction.runArgs?_eq_some_iff.2 h, ih]
      rfl
    | @other p _ _ h _ ih =>
      have hnone : p.instruction.runArgs? = none :=
        Option.eq_none_iff_forall_ne_some.2 fun args hargs =>
          h args (Instruction.runArgs?_eq_some_iff.1 hargs)
      rw [shellCommands_cons, hnone, ih]
      rfl
  · rintro rfl
    induction script with
    | nil => exact .nil
    | cons p script ih =>
      rw [shellCommands_cons]
      cases hargs : p.instruction.runArgs? with
      | none =>
        refine .other (fun args h => ?_) ih
        rw [Instruction.runArgs?_eq_some_iff.2 h] at hargs
        cases hargs
      | some args => exact .run (Instruction.runArgs?_eq_some_iff.1 hargs) ih

/-! ### Runs of an analyzer that is a function -/

namespace Analyzer

variable {A : String → Except AnalyzerError (List Diagnostic)}

/-- A command is given before its answer is looked at; a failure ends the run there. -/
theorem run_recorded_cons (cmd : ShellCommand) (rest : List ShellCommand) (calls : List String) :
    ((silent (m := Id) A).recorded.findings (cmd :: rest)).run calls =
      match A cmd.text with
      | .error cause => (.error ⟨cmd.source, cmd.line, cause⟩, calls ++ [cmd.text])
      | .ok ds =>
        (((silent (m := Id) A).recorded.findings rest).run (calls ++ [cmd.text])).map
          (Except.map (cmd.findings ds ++ ·)) id := by
  have hcall : ((silent (m := Id) A).recorded.analyze cmd.text).run
      (((silent (m := Id) A).recorded.announce cmd).run calls).2 =
        (A cmd.text, calls ++ [cmd.text]) := rfl
  rw [run_findings_cons, hcall]
  cases A cmd.text <;> rfl

/-- Commands with answers are all given, and what the run finds at them goes before what it finds at
the others. -/
theorem run_recorded_append {answers : String → List Diagnostic} {before : List ShellCommand}
    (h : ∀ cmd ∈ before, A cmd.text = .ok (answers cmd.text)) (rest : List ShellCommand)
    (calls : List String) :
    ((silent (m := Id) A).recorded.findings (before ++ rest)).run calls =
      (((silent (m := Id) A).recorded.findings rest).run
        (calls ++ before.map ShellCommand.text)).map
        (Except.map ((before.flatMap fun cmd => cmd.findings (answers cmd.text)) ++ ·)) id := by
  induction before generalizing calls with
  | nil =>
    rw [List.map_nil, List.append_nil, List.nil_append]
    rcases ((silent (m := Id) A).recorded.findings rest).run calls with ⟨e | found, calls'⟩ <;> rfl
  | cons cmd before ih =>
    rw [List.cons_append, run_recorded_cons, h cmd List.mem_cons_self,
      ih fun c hc => h c (List.mem_cons_of_mem _ hc), List.map_cons, List.append_assoc,
      List.singleton_append]
    rcases ((silent (m := Id) A).recorded.findings rest).run
      (calls ++ cmd.text :: before.map ShellCommand.text) with ⟨e | found, calls'⟩
    · rfl
    · simp [Prod.map, Except.map]

theorem findings_silent_cons (cmd : ShellCommand) (rest : List ShellCommand) :
    (silent (m := Id) A).findings (cmd :: rest) =
      match A cmd.text with
      | .error cause => Except.error ⟨cmd.source, cmd.line, cause⟩
      | .ok ds => Except.map (cmd.findings ds ++ ·) ((silent (m := Id) A).findings rest) := by
  rw [findings]
  show (match A cmd.text with | .error cause => _ | .ok ds => _) = _
  cases A cmd.text with
  | error cause => rfl
  | ok ds => rcases h : (silent (m := Id) A).findings rest with e | found <;> rfl

/-- The recorder changes no answer. -/
theorem fst_run_recorded (cmds : List ShellCommand) (calls : List String) :
    (((silent (m := Id) A).recorded.findings cmds).run calls).1 =
      (silent (m := Id) A).findings cmds := by
  induction cmds generalizing calls with
  | nil => rfl
  | cons cmd cmds ih =>
    rw [run_recorded_cons, findings_silent_cons]
    cases A cmd.text with
    | error cause => rfl
    | ok ds =>
      rw [← ih (calls ++ [cmd.text])]
      rfl

theorem remarks_silent_of_ok {text : String} {ds : List Diagnostic} (h : A text = .ok ds) :
    (silent (m := Id) A).remarks text = ds := by
  have hanalyze : (silent (m := Id) A).analyze text = Except.ok ds := h
  rw [remarks, hanalyze]

/-- For every analyzer that is a function of the command, and every script: the commands are the
words of its `RUN` instructions. If all are answered, the analyzer gets them in order, and each
distinct remark on a command gives one finding there. If the first that is not answered is `cmd`,
the analyzer gets those up to `cmd`, and the result is its failure at the place of `cmd`. -/
theorem checks_of_function (A : String → Except AnalyzerError (List Diagnostic)) (script : Script) :
    (∀ cmds, script.HasCommands cmds ↔ cmds = shellCommands script) ∧
    (silent (m := Id) A).checks script = (((silent (m := Id) A).recorded.checks script).run []).1 ∧
    (∀ answers : String → List Diagnostic,
      (∀ cmd ∈ shellCommands script, A cmd.text = .ok (answers cmd.text)) →
      ((silent (m := Id) A).recorded.checks script).run [] =
        (.ok ((shellCommands script).flatMap fun cmd => (answers cmd.text).eraseDups.map fun d =>
            ⟨⟨"SC" ++ toString d.code.toNat, d.severity, d.message⟩, cmd.source, cmd.line, false⟩),
          (shellCommands script).map ShellCommand.text)) ∧
    ∀ before cmd after cause, shellCommands script = before ++ cmd :: after →
      (∀ c ∈ before, ∃ ds, A c.text = .ok ds) → A cmd.text = .error cause →
      ((silent (m := Id) A).recorded.checks script).run [] =
        (.error ⟨cmd.source, cmd.line, cause⟩, before.map ShellCommand.text ++ [cmd.text]) := by
  refine ⟨fun cmds => Script.hasCommands_iff, (fst_run_recorded ..).symm, fun answers h => ?_,
    fun before cmd after cause hsplit hok herror => ?_⟩
  · have hrun := run_recorded_append h [] []
    rw [List.append_nil, List.nil_append] at hrun
    rw [checks, hrun]
    simp only [ShellCommand.findings_eq_map_eraseDups, findings]
    show (Except.ok (_ ++ []), _) = _
    rw [List.append_nil]
    rfl
  · have hanswers : ∀ c ∈ before, A c.text = .ok ((silent (m := Id) A).remarks c.text) := by
      intro c hc
      obtain ⟨ds, hds⟩ := hok c hc
      rw [remarks_silent_of_ok hds, hds]
    rw [checks, hsplit, run_recorded_append hanswers, run_recorded_cons, herror]
    rfl

/-- A remark is made twice on each of two commands, one of them under two layers; a third command is
not answered. -/
theorem checks_of_function_repeated :
    let A : String → Except AnalyzerError (List Diagnostic) := fun command =>
      if command = "false" then .error (.io "gone")
      else .ok [⟨2164, .warning, "m"⟩, ⟨7, .style, "n"⟩, ⟨2164, .warning, "m"⟩]
    let script : Script :=
      [⟨.onbuild (.onbuild (.run ["cd", "/tmp"])), "Dockerfile", 1⟩, ⟨.cmd ["a"], "Dockerfile", 2⟩,
        ⟨.run ["ls"], "Dockerfile", 3⟩]
    let failing : Script :=
      script ++ [⟨.run ["false"], "Dockerfile", 4⟩, ⟨.run ["ls"], "Dockerfile", 5⟩]
    ((silent (m := Id) A).recorded.checks script).run [] =
      (.ok [⟨⟨"SC2164", .warning, "m"⟩, "Dockerfile", 1, false⟩,
        ⟨⟨"SC7", .style, "n"⟩, "Dockerfile", 1, false⟩,
        ⟨⟨"SC2164", .warning, "m"⟩, "Dockerfile", 3, false⟩,
        ⟨⟨"SC7", .style, "n"⟩, "Dockerfile", 3, false⟩],
        ["cd /tmp", "ls"]) ∧
    ((silent (m := Id) A).recorded.checks failing).run [] =
      (.error ⟨"Dockerfile", 4, .io "gone"⟩, ["cd /tmp", "ls", "false"]) := by
  intro A script failing
  obtain ⟨-, -, hok, -⟩ := checks_of_function A script
  obtain ⟨-, -, -, herror⟩ := checks_of_function A failing
  constructor
  · rw [hok (fun _ => [⟨2164, .warning, "m"⟩, ⟨7, .style, "n"⟩, ⟨2164, .warning, "m"⟩]) (by decide)]
    rfl
  · exact herror [⟨"Dockerfile", 1, "cd /tmp"⟩, ⟨"Dockerfile", 3, "ls"⟩] ⟨"Dockerfile", 4, "false"⟩
      [⟨"Dockerfile", 5, "ls"⟩] (.io "gone") (by decide) (by simp [A]) rfl

end Analyzer

end DockerfileLint
