import DockerfileLint.Proofs.Checking

/-!
# What the exit code of a check tells

A check ends in one of four ways (`Ends`), and the program ends it in that way
(`ending_eq_iff_ends`). Findings on the one hand and a configuration or a file that cannot be read
on the other share the exit code 1, so that this code stands for findings only as long as no such
failure happens (`exitCode_check`). A script that cannot be linted has an exit code of its own.
-/

namespace DockerfileLint

/-- A machine keeps no log, whatever records are wanted. -/
theorem Machine.verbose_host (w : Machine) (wanted : Bool) : w.host.verbose wanted = w.host := by
  cases wanted with
  | true => rfl
  | false =>
    have hlog : (fun level text => if level = Level.debug then pure () else w.host.log level text) =
        w.host.log := by
      funext level text
      split <;> rfl
    unfold Host.verbose
    rw [if_neg (by decide), hlog]

namespace Program

open CommandLine (CheckOptions Invocation)

/-! ### Exit codes -/

theorem Ending.exitCode_eq_zero_iff {ending : Ending} : ending.exitCode = 0 ↔ ending = .clean := by
  cases ending <;> simp [exitCode]

theorem Ending.exitCode_eq_one_iff {ending : Ending} :
    ending.exitCode = 1 ↔ ending = .findings ∨ ∃ cause, ending = .failure cause := by
  cases ending <;> simp [exitCode]

theorem Ending.exitCode_eq_two_iff {ending : Ending} :
    ending.exitCode = 2 ↔ (∃ cause, ending = .lintFailure cause) ∨ ending = .usage := by
  cases ending <;> simp [exitCode]

/-! ### How a check goes -/

section Going

variable (w : Machine) (e : Environment) (named : Option String) (files : List String)
  (options : CheckOptions)

/-- Loading the configuration, as the first thing that is asked of the machine. -/
def loading : Except Failure Config × List Request :=
  (loadConfig w.host e.cwd named e.globalDir).run []

/-- The linter of a check under a loaded configuration. -/
def linterFor (config : Config) : Linter (StateM (List Request)) :=
  linterOf w.host (withOptions options config) (chosenRules options.rules)

/-- The configuration is loaded, every file is read, decoded and linted, and `found` are the
findings that remain. -/
def Passes (found : List Check) : Prop :=
  ∃ config asked done last, loading w e named = (.ok config, asked) ∧
    Linted w (linterFor w options config) asked files done last ∧
    found = done.flatMap fun d => d.2.findings

/-- The configuration is loaded and the files before `k` pass, which leads to the requests `mid`. -/
def Reaches (config : Config) (k : String) (mid : List Request) : Prop :=
  ∃ asked pre post done, loading w e named = (.ok config, asked) ∧ files = pre ++ k :: post ∧
    Linted w (linterFor w options config) asked pre done mid

/-- The configuration cannot be loaded, or a file that is reached cannot be read or decoded. -/
def FailsToRead (cause : Failure) : Prop :=
  (loading w e named).1 = .error cause ∨
  ∃ config k mid, Reaches w e named files options config k mid ∧
    decoded k (w.readFile mid k) = .error cause

/-- The script of a file that is reached cannot be linted. -/
def FailsToLint (cause : LintError) : Prop :=
  ∃ config k mid script last, Reaches w e named files options config k mid ∧
    decoded k (w.readFile mid k) = .ok script ∧
    ((linterFor w options config).lint script).run (mid ++ [.readFile k]) = (.error cause, last)

/-- How a check ends, by what the machine answers. -/
inductive Ends : Ending → Prop
  | clean (h : Passes w e named files options []) : Ends .clean
  | findings {found : List Check} (hsome : found ≠ []) (h : Passes w e named files options found) :
      Ends .findings
  | failure {cause : Failure} (h : FailsToRead w e named files options cause) :
      Ends (.failure cause)
  | lintFailure {cause : LintError} (h : FailsToLint w e named files options cause) :
      Ends (.lintFailure cause)

theorem exists_ends : ∃ ending, Ends w e named files options ending := by
  rcases hload : loading w e named with ⟨cause | config, asked⟩
  · exact ⟨_, .failure (.inl (congrArg Prod.fst hload))⟩
  · rcases @linted_or_failsOn w (linterFor w options config) files asked with
      ⟨done, last, hfiles⟩ | ⟨pre, k, post, done, mid, hsplit, hpre, hfails⟩
    · have hpasses : Passes w e named files options _ :=
        ⟨config, asked, done, last, hload, hfiles, rfl⟩
      by_cases hnone : (done.flatMap fun d => d.2.findings) = []
      · rw [hnone] at hpasses
        exact ⟨_, .clean hpasses⟩
      · exact ⟨_, .findings hnone hpasses⟩
    · have hreaches : Reaches w e named files options config k mid :=
        ⟨asked, pre, post, done, hload, hsplit, hpre⟩
      rcases hfails with ⟨cause, hread⟩ | ⟨script, cause, last, hread, hlint⟩
      · exact ⟨_, .failure (.inr ⟨config, k, mid, hreaches, hread⟩)⟩
      · exact ⟨_, .lintFailure ⟨config, k, mid, script, last, hreaches, hread, hlint⟩⟩

end Going

/-! ### The program on a check -/

section Running

variable {w : Machine} {e : Environment} {words : List String} {call : Invocation}
  {files : List String} {options : CheckOptions}
  (hparse : CommandLine.parse e.config words = .ok call)
  (hcheck : call.command = .check files options)

include hparse hcheck

/-- A check loads the configuration and, if that succeeds, goes through the files. -/
theorem run_check :
    (run w.host e words).run [] =
      match loading w e call.config with
      | (.ok config, asked) => (check w.host files options config).run asked
      | (.error cause, asked) => (⟨"", .failure cause⟩, asked) := by
  unfold run perform
  rw [hparse]
  dsimp only
  rw [w.verbose_host, hcheck, StateT.run_bind]
  unfold loading
  generalize (loadConfig w.host e.cwd call.config e.globalDir).run [] = outcome
  rcases outcome with ⟨cause | config, asked⟩ <;> rfl

theorem ending_of_loading {config : Config} {asked last : List Request}
    {outcome : Except Ending LintResult} (hload : loading w e call.config = (.ok config, asked))
    (hrun : (checkFiles w.host (linterFor w options config) .empty files).run asked =
      (outcome, last)) :
    ((run w.host e words).run []).1.ending = (reply options.format outcome).ending := by
  rw [run_check hparse hcheck, hload]
  exact congrArg (fun outcome => outcome.1.ending) (run_check_of_run hrun)

theorem ending_of_passes {found : List Check} (h : Passes w e call.config files options found) :
    ((run w.host e words).run []).1.ending = if found = [] then .clean else .findings := by
  obtain ⟨config, asked, done, last, hload, hfiles, rfl⟩ := h
  have hrun := hfiles.run_checkFiles .empty []
  rw [List.append_nil, hfiles.joined_empty] at hrun
  rw [ending_of_loading hparse hcheck hload hrun, reply_ok]

theorem ending_of_failsToRead {cause : Failure}
    (h : FailsToRead w e call.config files options cause) :
    ((run w.host e words).run []).1.ending = .failure cause := by
  rcases h with hload | ⟨config, k, mid, ⟨asked, pre, post, done, hload, rfl, hpre⟩, hread⟩
  · rw [run_check hparse hcheck]
    rcases hfull : loading w e call.config with ⟨outcome, asked⟩
    rw [hfull] at hload
    cases hload
    rfl
  · exact ending_of_loading hparse hcheck hload (hpre.run_checkFiles_unread hread .empty post)

theorem ending_of_failsToLint {cause : LintError}
    (h : FailsToLint w e call.config files options cause) :
    ((run w.host e words).run []).1.ending = .lintFailure cause := by
  obtain ⟨config, k, mid, script, last, ⟨asked, pre, post, done, hload, rfl, hpre⟩, hread, hlint⟩ :=
    h
  exact ending_of_loading hparse hcheck hload (hpre.run_checkFiles_unlinted hread hlint .empty post)

/-- The program ends a check as the machine answers. -/
theorem ending_eq_iff_ends {ending : Ending} :
    ((run w.host e words).run []).1.ending = ending ↔
      Ends w e call.config files options ending := by
  have hends : ∀ {ending}, Ends w e call.config files options ending →
      ((run w.host e words).run []).1.ending = ending := by
    intro ending h
    cases h with
    | clean h => rw [ending_of_passes hparse hcheck h, if_pos rfl]
    | findings hsome h => rw [ending_of_passes hparse hcheck h, if_neg hsome]
    | failure h => exact ending_of_failsToRead hparse hcheck h
    | lintFailure h => exact ending_of_failsToLint hparse hcheck h
  constructor
  · rintro rfl
    obtain ⟨ending, h⟩ := exists_ends w e call.config files options
    rwa [hends h]
  · exact hends

end Running

/-- What the exit code of a check tells, on every machine and for every well-formed call.

* It is 1 when all files were read, decoded and linted and a finding remains, and also when the
  configuration cannot be loaded or a file cannot be read or decoded. It stands for findings exactly
  as long as no such failure happens.
* It is 2 when a script cannot be linted.
* It is 0 when all files were read, decoded and linted and no finding remains. -/
theorem exitCode_check {w : Machine} {e : Environment} {words : List String} {call : Invocation}
    {files : List String} {options : CheckOptions}
    (hparse : CommandLine.parse e.config words = .ok call)
    (hcheck : call.command = .check files options) :
    let status := ((run w.host e words).run []).1.ending.exitCode
    let remains := ∃ found, found ≠ [] ∧ Passes w e call.config files options found
    let failsToRead := ∃ cause, FailsToRead w e call.config files options cause
    (status = 1 ↔ remains ∨ failsToRead) ∧
    ((status = 1 ↔ remains) ↔ ¬failsToRead) ∧
    (status = 2 ↔ ∃ cause, FailsToLint w e call.config files options cause) ∧
    (status = 0 ↔ Passes w e call.config files options []) := by
  intro status remains failsToRead
  have hending :=
    fun ending => @ending_eq_iff_ends w e words call files options hparse hcheck ending
  have hremains : Ends w e call.config files options .findings ↔ remains :=
    ⟨fun | .findings hsome h => ⟨_, hsome, h⟩, fun ⟨_, hsome, h⟩ => .findings hsome h⟩
  have hfails : (∃ cause, Ends w e call.config files options (.failure cause)) ↔ failsToRead :=
    exists_congr fun cause => ⟨fun | .failure h => h, .failure⟩
  have hone : status = 1 ↔ remains ∨ failsToRead := by
    simp only [status, Ending.exitCode_eq_one_iff, hending, hremains, hfails]
  -- no run ends in two ways
  have hexclusive : ¬(remains ∧ failsToRead) := by
    rw [← hremains, ← hfails, ← hending]
    rintro ⟨hfindings, cause, hfailure⟩
    rw [← hending, hfindings] at hfailure
    cases hfailure
  refine ⟨hone, ?_, ?_, ?_⟩
  · rw [hone]
    exact ⟨fun h hfail => hexclusive ⟨h.1 (.inr hfail), hfail⟩, or_iff_left⟩
  · have husage : ¬Ends w e call.config files options .usage := fun h => by cases h
    simp only [status, Ending.exitCode_eq_two_iff, hending, husage, or_false]
    exact exists_congr fun cause => ⟨fun | .lintFailure h => h, .lintFailure⟩
  · rw [Ending.exitCode_eq_zero_iff, hending]
    exact ⟨fun | .clean h => h, .clean⟩

/-! ### Two checks -/

/-- A machine with the given files and no configuration, on which no program can be started. -/
def machineOf (contents : String → Except FileError String) : Machine where
  readFile _ := contents
  isFile _ _ := false
  occupied _ _ := false
  writeFile _ _ _ := .ok ()
  run _ _ := .notStarted "gone"

/-- A script with a finding: the exit code is 1, and it stands for the finding. -/
theorem exitCode_check_workdir :
    let w := machineOf fun path =>
      if path = "a.json" then .ok "[[\x7b\"WORKDIR\":\"app\"\x7d,\"A\",1]]" else .error .notFound
    let e : Environment := { cwd := "/work" }
    ((run w.host e ["check", "a.json"]).run []).1.ending.exitCode = 1 ∧
    ∃ found, found ≠ [] ∧ Passes w e none ["a.json"] {} found := by
  intro w e
  have hscript : Script.parse? "[[\x7b\"WORKDIR\":\"app\"\x7d,\"A\",1]]" =
      some [⟨.workdir "app", "A", 1⟩] := by
    decide +kernel
  have hread : ∀ asked, decoded "a.json" (w.readFile asked "a.json") =
      .ok [⟨.workdir "app", "A", 1⟩] := by
    intro asked
    simp [w, machineOf, decoded, hscript]
  have hpasses : Passes w e none ["a.json"] {} _ :=
    ⟨_, _, _, _, rfl, .cons (hread _) rfl (.nil _), rfl⟩
  have hremains : ∃ found, found ≠ [] ∧ Passes w e none ["a.json"] {} found :=
    ⟨_, by decide +kernel, hpasses⟩
  have hparse : CommandLine.parse e.config ["check", "a.json"] =
      .ok ⟨false, none, .check ["a.json"] {}⟩ := rfl
  exact ⟨(exitCode_check hparse rfl).1.2 (.inl hremains), hremains⟩

/-- A script that is not there: the exit code is 1, and no file was linted. -/
theorem exitCode_missing_script :
    let w := machineOf fun _ => .error .notFound
    let e : Environment := { cwd := "/work" }
    ((run w.host e ["check", "missing.json"]).run []).1.ending.exitCode = 1 ∧
    ¬∃ found, Passes w e none ["missing.json"] {} found := by
  intro w e
  have hending : ((run w.host e ["check", "missing.json"]).run []).1.ending =
      .failure (.scriptUnreadable "missing.json" .notFound) := rfl
  refine ⟨by rw [hending]; rfl, ?_⟩
  rintro ⟨found, hpasses⟩
  have hparse : CommandLine.parse e.config ["check", "missing.json"] =
      .ok ⟨false, none, .check ["missing.json"] {}⟩ := rfl
  rw [ending_of_passes hparse rfl hpasses] at hending
  split at hending <;> cases hending

end Program

end DockerfileLint
