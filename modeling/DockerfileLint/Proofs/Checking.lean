import DockerfileLint.Program
import DockerfileLint.Proofs.Linting
import DockerfileLint.Proofs.Machine
import DockerfileLint.Proofs.Report.Printed

/-!
# Checking files

`check` goes through its files in order and prints one report at the end, or nothing. Which of the
two happens is decided by the first file that cannot be read, decoded or linted: it ends the run,
nothing is asked of the machine after it, and what was found before it is dropped
(`check_all_or_nothing`).

The files before that one form a pass, the relation `Linted`, which keeps account of scripts,
results and requests. What a check does is read off it by induction: its outcome
(`Linted.run_checkFiles`), the files it reads (`Linted.filesRead_eq`) and the commands it has judged
(`Linted.programInputs_eq`).
-/

namespace DockerfileLint

/-! ### The analyzer on a machine -/

namespace AnalyzerCommand

variable (c : AnalyzerCommand) (w : Machine)

/-- The call that has a command judged. -/
def call (command : String) : Call := ⟨c.program, c.arguments, command⟩

/-- The analyzer whose program is run by a machine. -/
def on : Analyzer (StateM (List Request)) := c.analyzer w.host.run (Program.announce w.host)

/-- A call that cannot be tried fails and asks for nothing. -/
theorem run_analyze_of_refusal {outcome : Outcome} (h : c.refusal? = some outcome)
    (command : String) (asked : List Request) :
    ∃ cause, ((c.on w).analyze command).run asked = (.error cause, asked) := by
  have hjudge : ∃ cause, c.judge outcome = .error cause := by
    unfold refusal? at h
    split at h
    · cases h
      exact ⟨_, rfl⟩
    · cases h
  obtain ⟨cause, hcause⟩ := hjudge
  refine ⟨cause, ?_⟩
  rw [← hcause]
  simp only [on, analyzer, h]
  rfl

/-- Any other call is run once. -/
theorem run_analyze (h : c.refusal? = none) (command : String) (asked : List Request) :
    ((c.on w).analyze command).run asked =
      (c.judge (w.run asked (c.call command)), asked ++ [.run (c.call command)]) := by
  simp only [on, analyzer, h]
  rfl

/-- The calls of the analyzer are for a front part of the commands, and for all of them unless it
fails. -/
theorem requests_findings (cmds : List ShellCommand) (asked : List Request) :
    ∃ sent, sent <+: cmds.map ShellCommand.text ∧
      (((c.on w).findings cmds).run asked).2 = asked ++ (sent.map c.call).map .run ∧
      ∀ found, (((c.on w).findings cmds).run asked).1 = .ok found →
        sent = cmds.map ShellCommand.text := by
  induction cmds generalizing asked with
  | nil => exact ⟨[], List.prefix_refl _, (List.append_nil _).symm, fun _ _ => rfl⟩
  | cons cmd cmds ih =>
    have hannounce : (((c.on w).announce cmd).run asked).2 = asked := rfl
    rw [Analyzer.run_findings_cons, hannounce]
    cases hrefusal : c.refusal? with
    | some outcome =>
      obtain ⟨cause, hcause⟩ := c.run_analyze_of_refusal w hrefusal cmd.text asked
      rw [hcause]
      exact ⟨[], List.nil_prefix, (List.append_nil _).symm, fun found h => by cases h⟩
    | none =>
      rw [c.run_analyze w hrefusal]
      cases c.judge (w.run asked (c.call cmd.text)) with
      | error cause =>
        exact ⟨[cmd.text], List.prefix_append [cmd.text] _, rfl, fun found h => by cases h⟩
      | ok ds =>
        obtain ⟨sent, hsent, hasked, hall⟩ := ih (asked ++ [.run (c.call cmd.text)])
        refine ⟨cmd.text :: sent, List.prefix_cons_inj cmd.text |>.2 hsent, ?_, fun found h => ?_⟩
        · show (((c.on w).findings cmds).run (asked ++ [.run (c.call cmd.text)])).2 = _
          rw [hasked, List.append_assoc]
          rfl
        · change (((c.on w).findings cmds).run (asked ++ [.run (c.call cmd.text)])).1.map _ =
            .ok found at h
          cases hmore : (((c.on w).findings cmds).run (asked ++ [.run (c.call cmd.text)])).1 with
          | error e =>
            rw [hmore] at h
            cases h
          | ok more => rw [hall more hmore, List.map_cons]

end AnalyzerCommand

/-- The commands of a script that the analyzer has to judge under a configuration. -/
def Config.analyzed (config : Config) (script : Script) : List String :=
  if config.shellcheck.enabled then (shellCommands script).map ShellCommand.text else []

namespace Program

open CommandLine (CheckOptions)

/-! ### Hosts without a log -/

section Silent

variable {m : Type → Type} [Monad m] [LawfulMonad m] {host : Host m}
  (hsilent : ∀ level text, host.log level text = pure ())

include hsilent in
theorem warnUnknown_of_silent (keys : List String) : warnUnknown host keys = pure () := by
  induction keys with
  | nil => rfl
  | cons key keys ih =>
    rw [warnUnknown, Host.debug, Host.warn, hsilent, hsilent, pure_bind, pure_bind, ih]

include hsilent in
theorem noteSkipped_of_silent (rules : List Rule) : noteSkipped host rules = pure () := by
  induction rules with
  | nil => rfl
  | cons rule rules ih => rw [noteSkipped, Host.debug, hsilent, pure_bind, ih]

include hsilent in
theorem noteSetup_of_silent (config : Config) (rules : List Rule) :
    noteSetup host config rules = pure () := by
  unfold noteSetup
  rw [noteSkipped_of_silent hsilent]
  split <;> rw [Host.debug, hsilent, pure_bind]

include hsilent in
theorem lintScript_of_silent (linter : Linter m) (script : Script) :
    lintScript host linter script = linter.lint script := by
  unfold lintScript
  rw [Host.info, hsilent, pure_bind]
  refine Eq.trans ?_ (bind_pure (linter.lint script))
  congr 1
  funext outcome
  cases outcome with
  | error e => rfl
  | ok result =>
    show (host.info _ >>= fun _ => pure (Except.ok result)) = pure (Except.ok result)
    rw [Host.info, hsilent, pure_bind]

include hsilent in
/-- A check is the reply to what came of its files. -/
theorem check_of_silent (files : List String) (options : CheckOptions) (config : Config) :
    check host files options config =
      reply options.format <$>
        checkFiles host (linterOf host (withOptions options config) (chosenRules options.rules))
          .empty files := by
  unfold check
  rw [warnUnknown_of_silent hsilent, pure_bind, noteSetup_of_silent hsilent, pure_bind]
  show (host.info _ >>= fun _ => _) = _
  rw [Host.info, hsilent, pure_bind, map_eq_pure_bind]

end Silent

/-! ### What linting asks of a machine -/

section Requests

variable (w : Machine) (config : Config) (rules : List Rule)

/-- Linting has the commands of the script judged, up to a failure, and asks for nothing else. -/
theorem requests_lint (script : Script) (asked : List Request) :
    ∃ sent, sent <+: config.analyzed script ∧
      (((linterOf w.host config rules).lint script).run asked).2 =
        asked ++ (sent.map (AnalyzerCommand.ofSettings config.shellcheck).call).map .run ∧
      ∀ r, (((linterOf w.host config rules).lint script).run asked).1 = .ok r →
        sent = config.analyzed script := by
  have hanalyzer : (linterOf w.host config rules).analyzer =
      if config.shellcheck.enabled then some ((AnalyzerCommand.ofSettings config.shellcheck).on w)
        else none := rfl
  rw [Linter.run_lint_snd]
  unfold Config.analyzed
  cases henabled : config.shellcheck.enabled with
  | false =>
    rw [henabled] at hanalyzer
    rw [Linter.evaluate_of_analyzer_none hanalyzer]
    exact ⟨[], List.prefix_refl _, (List.append_nil _).symm, fun _ _ => rfl⟩
  | true =>
    rw [henabled] at hanalyzer
    obtain ⟨sent, hsent, hasked, hall⟩ :=
      (AnalyzerCommand.ofSettings config.shellcheck).requests_findings w
        (shellCommands script) asked
    rw [Linter.evaluate_of_analyzer_some hanalyzer]
    refine ⟨sent, hsent, hasked, fun r hr => ?_⟩
    obtain ⟨checks, hchecks, -⟩ := Linter.exists_of_run_lint hr
    obtain ⟨found, -, ⟨hnone, -⟩ | ⟨a, ha, hfound⟩⟩ := Linter.evaluate_eq_append_checks hchecks
    · rw [hanalyzer] at hnone
      cases hnone
    · rw [hanalyzer] at ha
      cases ha
      exact hall found hfound

theorem filesRead_lint (script : Script) (asked : List Request) :
    filesRead (((linterOf w.host config rules).lint script).run asked).2 = filesRead asked := by
  obtain ⟨sent, -, hasked, -⟩ := requests_lint w config rules script asked
  rw [hasked, filesRead_append, filesRead_map_run, List.append_nil]

theorem programInputs_lint (script : Script) (asked : List Request) :
    ∃ sent, sent <+: config.analyzed script ∧
      programInputs (((linterOf w.host config rules).lint script).run asked).2 =
        programInputs asked ++ sent ∧
      ∀ r, (((linterOf w.host config rules).lint script).run asked).1 = .ok r →
        sent = config.analyzed script := by
  obtain ⟨sent, hsent, hasked, hall⟩ := requests_lint w config rules script asked
  refine ⟨sent, hsent, ?_, hall⟩
  rw [hasked, programInputs_append, programInputs_map_run, List.map_map]
  exact congrArg _ (List.map_id sent)

end Requests

/-! ### Reading a script -/

/-- What the contents of a file come to: a script, or why there is none. -/
def decoded (file : String) : Except FileError String → Except Failure Script
  | .error cause => .error (.scriptUnreadable file cause)
  | .ok text =>
    match Script.parse? text with
    | some script => .ok script
    | none => .error (.scriptMalformed file)

theorem readScript_eq_map {m : Type → Type} [Monad m] [LawfulMonad m] (host : Host m)
    (file : String) :
    readScript host file = decoded file <$> host.readFile file := by
  rw [readScript, map_eq_pure_bind]
  congr 1
  funext content
  cases content with
  | error cause => rfl
  | ok text =>
    dsimp only [decoded]
    cases Script.parse? text <;> rfl

theorem run_readScript (w : Machine) (file : String) (asked : List Request) :
    (readScript w.host file).run asked =
      (decoded file (w.readFile asked file), asked ++ [.readFile file]) := by
  rw [readScript_eq_map]
  rfl

/-! ### Passing through files -/

/-- Files are read and linted in turn without a failure: `Linted w linter asked files done last`
leads from the requests `asked` to the requests `last`, and `done` has the script and the result of
every file. -/
inductive Linted (w : Machine) (linter : Linter (StateM (List Request))) :
    List Request → List String → List (Script × LintResult) → List Request → Prop
  | nil (asked : List Request) : Linted w linter asked [] [] asked
  | cons {asked linted last : List Request} {file : String} {files : List String} {script : Script}
      {result : LintResult} {done : List (Script × LintResult)}
      (hread : decoded file (w.readFile asked file) = .ok script)
      (hlint : (linter.lint script).run (asked ++ [.readFile file]) = (.ok result, linted))
      (hrest : Linted w linter linted files done last) :
      Linted w linter asked (file :: files) ((script, result) :: done) last

/-- Reading a file after the requests `asked`, or linting what it holds, fails. -/
def FailsOn (w : Machine) (linter : Linter (StateM (List Request))) (asked : List Request)
    (file : String) : Prop :=
  (∃ cause, decoded file (w.readFile asked file) = .error cause) ∨
  ∃ script e last, decoded file (w.readFile asked file) = .ok script ∧
    (linter.lint script).run (asked ++ [.readFile file]) = (.error e, last)

section Passing

variable {w : Machine} {linter : Linter (StateM (List Request))} {asked last : List Request}
  {files : List String} {done : List (Script × LintResult)}

/-- Either all files pass, or there is a first one that fails. -/
theorem linted_or_failsOn (files : List String) (asked : List Request) :
    (∃ done last, Linted w linter asked files done last) ∨
      ∃ pre k post done mid,
        files = pre ++ k :: post ∧ Linted w linter asked pre done mid ∧ FailsOn w linter mid k := by
  induction files generalizing asked with
  | nil => exact .inl ⟨[], asked, .nil asked⟩
  | cons file files ih =>
    cases hread : decoded file (w.readFile asked file) with
    | error cause => exact .inr ⟨[], file, files, [], asked, rfl, .nil asked, .inl ⟨cause, hread⟩⟩
    | ok script =>
      rcases hlint : (linter.lint script).run (asked ++ [.readFile file]) with ⟨e | result, linted⟩
      · exact .inr ⟨[], file, files, [], asked, rfl, .nil asked,
          .inr ⟨script, e, linted, hread, hlint⟩⟩
      · rcases ih linted with ⟨done, last, hrest⟩ | ⟨pre, k, post, done, mid, rfl, hpre, hfails⟩
        · exact .inl ⟨(script, result) :: done, last, .cons hread hlint hrest⟩
        · exact .inr ⟨file :: pre, k, post, (script, result) :: done, mid, rfl,
            .cons hread hlint hpre, hfails⟩

/-- One step of a check: the file is read and linted, and the first failure ends it. -/
theorem run_checkFiles_cons (found : LintResult) (file : String) (files : List String)
    (asked : List Request) :
    (checkFiles w.host linter found (file :: files)).run asked =
      match decoded file (w.readFile asked file) with
      | .error cause => (.error (.failure cause), asked ++ [.readFile file])
      | .ok script =>
        match (linter.lint script).run (asked ++ [.readFile file]) with
        | (.error e, last) => (.error (.lintFailure e), last)
        | (.ok result, linted) =>
          (checkFiles w.host linter (found.extend result) files).run linted := by
  rw [checkFiles, StateT.run_bind, run_readScript]
  cases decoded file (w.readFile asked file) with
  | error cause => rfl
  | ok script =>
    show (lintScript w.host linter script >>= _).run (asked ++ [.readFile file]) = _
    rw [lintScript_of_silent (fun _ _ => rfl), StateT.run_bind]
    dsimp only
    generalize (linter.lint script).run (asked ++ [.readFile file]) = outcome
    rcases outcome with ⟨e | result, linted⟩ <;> rfl

/-- The result of files that passed, joined to what was found before. -/
def joined (found : LintResult) (done : List (Script × LintResult)) : LintResult :=
  ⟨found.findings ++ done.flatMap fun d => d.2.findings, found.scriptsChecked + .ofNat done.length⟩

theorem joined_extend (found : LintResult) {result : LintResult} (hone : result.scriptsChecked = 1)
    (script : Script) (done : List (Script × LintResult)) :
    joined (found.extend result) done = joined found ((script, result) :: done) := by
  have hcount : found.scriptsChecked + 1 + .ofNat done.length =
      found.scriptsChecked + .ofNat (done.length + 1) := by
    rw [UInt64.ofNat_add, UInt64.add_assoc, UInt64.add_comm 1]
    rfl
  unfold joined LintResult.extend
  rw [hone, List.flatMap_cons, List.append_assoc, List.length_cons, hcount]

/-- A check goes through files that pass and joins their results. -/
theorem Linted.run_checkFiles (h : Linted w linter asked files done last) (found : LintResult)
    (rest : List String) :
    (checkFiles w.host linter found (files ++ rest)).run asked =
      (checkFiles w.host linter (joined found done) rest).run last := by
  induction h generalizing found with
  | nil asked =>
    have hjoined : joined found [] = found := by simp [joined]
    rw [hjoined, List.nil_append]
  | @cons asked linted last file files script result done hread hlint hrest ih =>
    have hone : result.scriptsChecked = 1 := by
      obtain ⟨checks, -, hresult⟩ := Linter.exists_of_run_lint (congrArg Prod.fst hlint)
      rw [hresult]
      rfl
    rw [List.cons_append, run_checkFiles_cons, hread]
    dsimp only
    rw [hlint]
    dsimp only
    rw [ih, joined_extend found hone script]

/-- A file that cannot be read or decoded ends a check. -/
theorem Linted.run_checkFiles_unread (h : Linted w linter asked files done last) {k : String}
    {cause : Failure} (hread : decoded k (w.readFile last k) = .error cause) (found : LintResult)
    (rest : List String) :
    (checkFiles w.host linter found (files ++ k :: rest)).run asked =
      (.error (.failure cause), last ++ [.readFile k]) := by
  rw [h.run_checkFiles, run_checkFiles_cons, hread]

/-- A script that cannot be linted ends a check. -/
theorem Linted.run_checkFiles_unlinted (h : Linted w linter asked files done last) {k : String}
    {script : Script} {e : LintError} {final : List Request}
    (hread : decoded k (w.readFile last k) = .ok script)
    (hlint : (linter.lint script).run (last ++ [.readFile k]) = (.error e, final))
    (found : LintResult) (rest : List String) :
    (checkFiles w.host linter found (files ++ k :: rest)).run asked =
      (.error (.lintFailure e), final) := by
  rw [h.run_checkFiles, run_checkFiles_cons, hread]
  dsimp only
  rw [hlint]

theorem Linted.length_eq (h : Linted w linter asked files done last) :
    done.length = files.length := by
  induction h with
  | nil asked => rfl
  | cons hread hlint hrest ih => rw [List.length_cons, List.length_cons, ih]

theorem Linted.joined_empty (h : Linted w linter asked files done last) :
    joined .empty done = ⟨done.flatMap fun d => d.2.findings, .ofNat files.length⟩ := by
  simp [joined, LintResult.empty, h.length_eq]

end Passing

section Requests

variable {w : Machine} {config : Config} {rules : List Rule} {asked last : List Request}
  {files : List String} {done : List (Script × LintResult)}
  (h : Linted w (linterOf w.host config rules) asked files done last)

include h in
/-- Files that pass are read once each. -/
theorem Linted.filesRead_eq : filesRead last = filesRead asked ++ files := by
  induction h with
  | nil asked => rw [List.append_nil]
  | @cons asked linted last file files script result done hread hlint hrest ih =>
    have hlinted :
        linted = (((linterOf w.host config rules).lint script).run (asked ++ [.readFile file])).2 :=
      (congrArg Prod.snd hlint).symm
    rw [ih, hlinted, filesRead_lint, filesRead_append, filesRead_readFile, List.append_assoc,
      List.singleton_append]

include h in
/-- All commands of files that pass are judged. -/
theorem Linted.programInputs_eq :
    programInputs last = programInputs asked ++ done.flatMap fun d => config.analyzed d.1 := by
  induction h with
  | nil asked => rw [List.flatMap_nil, List.append_nil]
  | @cons asked linted last file files script result done hread hlint hrest ih =>
    obtain ⟨sent, -, hsent, hall⟩ :=
      programInputs_lint w config rules script (asked ++ [.readFile file])
    rw [hlint] at hsent hall
    rw [ih, hsent, hall result rfl, programInputs_append, programInputs_readFile, List.append_nil,
      List.flatMap_cons, List.append_assoc]

include h in
/-- Reading one more file is one more reading and no call. -/
theorem Linted.requests_unread (k : String) :
    filesRead (last ++ [.readFile k]) = filesRead asked ++ (files ++ [k]) ∧
    programInputs (last ++ [.readFile k]) =
      programInputs asked ++ done.flatMap fun d => config.analyzed d.1 := by
  rw [filesRead_append, programInputs_append, h.filesRead_eq, h.programInputs_eq]
  simp

include h in
/-- Linting one more file, with success or not, is calls for some of its commands. -/
theorem Linted.requests_unlinted {k : String} {script : Script}
    {outcome : Except LintError LintResult} {final : List Request}
    (hlint : ((linterOf w.host config rules).lint script).run (last ++ [.readFile k]) =
      (outcome, final)) :
    filesRead final = filesRead asked ++ (files ++ [k]) ∧
    programInputs final <+:
      programInputs asked ++ ((done.flatMap fun d => config.analyzed d.1) ++
        config.analyzed script) := by
  obtain ⟨hfiles, hinputs⟩ := h.requests_unread k
  have hread := filesRead_lint w config rules script (last ++ [.readFile k])
  obtain ⟨sent, hsent, hsome, -⟩ := programInputs_lint w config rules script (last ++ [.readFile k])
  rw [hlint] at hread hsome
  refine ⟨hread.trans hfiles, ?_⟩
  rw [hsome, hinputs, List.append_assoc]
  exact (List.prefix_append_right_inj _).2 ((List.prefix_append_right_inj _).2 hsent)

end Requests

/-- The reply to a check, from what came of its files. -/
theorem run_check_of_run {w : Machine} {files : List String} {options : CheckOptions}
    {config : Config} {outcome : Except Ending LintResult} {asked last : List Request}
    (h : (checkFiles w.host (linterOf w.host (withOptions options config)
      (chosenRules options.rules)) .empty
      files).run asked = (outcome, last)) :
    (check w.host files options config).run asked = (reply options.format outcome, last) := by
  rw [check_of_silent (fun _ _ => rfl), StateT.run_map, h]
  rfl

theorem reply_ok (format : ReportFormat) (found : LintResult) :
    reply format (.ok found) =
      ⟨found.printed format, if found.findings = [] then .clean else .findings⟩ := by
  rw [reply, LintResult.hasFindings, LintResult.render_eq_printed]
  cases found.findings <;> rfl

/-- A check is all or nothing, and the first file that fails decides. It holds on every machine,
whatever its files hold and its programs answer, and for all files, options and configurations.

* When all files pass, what is printed is the report, in the form that was asked for, of their
  findings, in the order of the files, and of the number of files. As JSON it is a JSON text of the
  document of that result and a line break. The exit code tells whether there is a finding.
* When `k` is the first file that fails, nothing is printed, and nothing is asked of the machine
  after that failure: no later file is read, and the analyzer gets commands of `k` and of earlier
  files only. A file that cannot be read or decoded is an error, and a script that cannot be linted
  gives exit code 2.
* One of the two is the case. -/
theorem check_all_or_nothing (w : Machine) (files : List String) (options : CheckOptions)
    (config : Config) :
    let active := withOptions options config
    let linter := linterOf w.host active (chosenRules options.rules)
    let run := (check w.host files options config).run []
    (∀ done asked, Linted w linter [] files done asked →
      let result : LintResult := ⟨done.flatMap fun d => d.2.findings, .ofNat files.length⟩
      run = (⟨result.printed options.format, if result.findings = [] then .clean else .findings⟩,
        asked) ∧
      (options.format = .json →
        ∃ text, run.1.stdout = text ++ "\n" ∧ result.document.IsJsonText text.toList) ∧
      run.1.ending.exitCode = (if result.findings = [] then 0 else 1) ∧
      filesRead asked = files ∧ programInputs asked = done.flatMap fun d => active.analyzed d.1) ∧
    (∀ pre k post done mid, files = pre ++ k :: post → Linted w linter [] pre done mid →
      (∀ cause, decoded k (w.readFile mid k) = .error cause →
        run = (⟨"", .failure cause⟩, mid ++ [.readFile k]) ∧
        filesRead run.2 = pre ++ [k] ∧
        programInputs run.2 = done.flatMap fun d => active.analyzed d.1) ∧
      ∀ script e asked, decoded k (w.readFile mid k) = .ok script →
        (linter.lint script).run (mid ++ [.readFile k]) = (.error e, asked) →
        run = (⟨"", .lintFailure e⟩, asked) ∧ run.1.ending.exitCode = 2 ∧
        filesRead asked = pre ++ [k] ∧
        programInputs asked <+: (done.flatMap fun d => active.analyzed d.1) ++
          active.analyzed script) ∧
    ((∃ done asked, Linted w linter [] files done asked) ∨
      ∃ pre k post done mid, files = pre ++ k :: post ∧ Linted w linter [] pre done mid ∧
        FailsOn w linter mid k) := by
  intro active linter run
  refine ⟨fun done asked hfiles => ?_, fun pre k post done mid hsplit hpre =>
    ⟨fun cause hread => ?_,
    fun script e asked hread hlint => ?_⟩, linted_or_failsOn files []⟩
  · have hchecked := hfiles.run_checkFiles .empty []
    rw [List.append_nil, hfiles.joined_empty] at hchecked
    have hrun : run = (reply options.format (.ok _), asked) := run_check_of_run hchecked
    rw [reply_ok] at hrun
    refine ⟨hrun, fun hjson => ?_, ?_, hfiles.filesRead_eq, hfiles.programInputs_eq⟩
    · rw [hrun, hjson]
      exact LintResult.printed_json _
    · rw [hrun]
      exact apply_ite Ending.exitCode _ _ _
  · subst hsplit
    have hrun : run = (⟨"", .failure cause⟩, mid ++ [.readFile k]) :=
      run_check_of_run (hpre.run_checkFiles_unread hread .empty post)
    rw [hrun]
    exact ⟨rfl, hpre.requests_unread k⟩
  · subst hsplit
    have hrun : run = (⟨"", .lintFailure e⟩, asked) :=
      run_check_of_run (hpre.run_checkFiles_unlinted hread hlint .empty post)
    rw [hrun]
    exact ⟨rfl, rfl, hpre.requests_unlinted hlint⟩

/-- The analyzer cannot be started for the second file. The first one has a finding, which is
printed if it is checked alone, and the third could not be read. -/
theorem check_all_or_nothing_spawn :
    let contents : String → Except FileError String := fun path =>
      if path = "a.json" then .ok "[[\x7b\"WORKDIR\":\"app\"\x7d,\"A\",1]]"
      else if path = "b.json" then .ok "[[\x7b\"RUN\":[\"ls\"]\x7d,\"B\",2]]"
      else .error .notFound
    let w : Machine :=
      { readFile := fun _ => contents, isFile := fun _ _ => false, occupied := fun _ _ => false,
        writeFile := fun _ _ _ => .ok (), run := fun _ _ => .notStarted "gone" }
    let run := (check w.host ["a.json", "b.json", "c.json"] {} {}).run []
    run.1 = ⟨"", .lintFailure ⟨"B", 2, .spawn "shellcheck" "gone"⟩⟩ ∧ run.1.ending.exitCode = 2 ∧
    filesRead run.2 = ["a.json", "b.json"] ∧
    ((check w.host ["a.json"] { format := .compact } {}).run []).1 =
      ⟨"A:1: error [DL3000] Use absolute WORKDIR\n", .findings⟩ := by
  intro contents w run
  have hfirst : Script.parse? "[[\x7b\"WORKDIR\":\"app\"\x7d,\"A\",1]]" =
      some [⟨.workdir "app", "A", 1⟩] := by
    decide +kernel
  have hsecond : Script.parse? "[[\x7b\"RUN\":[\"ls\"]\x7d,\"B\",2]]" =
      some [⟨.run ["ls"], "B", 2⟩] := by
    decide +kernel
  have hread : decoded "a.json" (contents "a.json") = .ok [⟨.workdir "app", "A", 1⟩] := by
    simp [contents, decoded, hfirst]
  have hread' : decoded "b.json" (contents "b.json") = .ok [⟨.run ["ls"], "B", 2⟩] := by
    simp [contents, decoded, hsecond]
  obtain ⟨hrun, hcode, hfiles, -⟩ :=
    ((check_all_or_nothing w ["a.json", "b.json", "c.json"] {} {}).2.1 ["a.json"] "b.json"
      ["c.json"] _ _ rfl (.cons hread rfl (.nil _))).2 _ _ _ hread' rfl
  have hpass :=
    ((check_all_or_nothing w ["a.json"] { format := .compact } {}).1
      _ _ (.cons hread rfl (.nil _))).1
  exact ⟨congrArg Prod.fst hrun, hcode,
    (congrArg (fun outcome => filesRead outcome.2) hrun).trans hfiles,
    (congrArg Prod.fst hpass).trans (by decide +kernel)⟩

end Program

end DockerfileLint
