import AsmLexer.Proofs.Run
import Mathlib.Logic.Function.Iterate

/-!
# The stages of a run

A run goes from stage to stage: it parses the command line, loads the configuration, settles the
options, reads the input, pulls its tokens one by one, and publishes the report in the end. Each
step finds the files as the steps before it have left them. What a stage has found is therefore
what there was at the launch, as long as no step has changed a file, and none does before the last
one (`follows_iterate`). The run ends after some steps with the outcome that `run` gives at once
(`exists_iterate_eq_final`).

Notes to standard error are not followed here.
-/

set_option autoImplicit false

namespace AsmLexer

/-! ## Failures on the way -/

/-- How a run ends for which there are no options. -/
def OptionError.ending (e : OptionError) : Ending :=
  if e.breaksOff then .broken (.options e) else .status 2

/-- How a run ends whose input cannot be read. -/
def FileError.ending (e : FileError) (input : Path) : Ending :=
  if e = .nullInPath then .broken (.input input e) else .status 2

section

variable {files : FileTree} {arguments : List String} {args : Arguments} {options : Options}

/-- A request for help prints it and does nothing else. -/
theorem run_of_help (h : CommandLine.parse arguments = .error .help) :
    run files arguments = ⟨.status 0, CommandLine.help, "", files⟩ := by
  rw [run, h]

/-- A command line that cannot be understood is refused. -/
theorem run_of_usage {e : UsageError}
    (h : CommandLine.parse arguments = .error (.usage e)) :
    run files arguments = .refused files (.status 2) (CommandLine.complaint e) := by
  rw [run, h]

variable (hargs : CommandLine.parse arguments = .ok args)

include hargs

/-- Without options the run is refused. -/
theorem run_of_option_error {e : OptionError} (h : Options.resolve files args = .error e) :
    ∃ notes, run files arguments = .refused files e.ending notes := by
  rw [run, hargs]
  dsimp only
  rw [h, OptionError.ending]
  dsimp only
  split
  · exact ⟨_, rfl⟩
  · exact ⟨_, rfl⟩

/-- An input that cannot be read is refused. -/
theorem run_of_read_error {e : FileError} (hoptions : Options.resolve files args = .ok options)
    (h : files.read options.input = .error e) :
    ∃ notes, run files arguments = .refused files (e.ending options.input) notes := by
  rw [run, hargs]
  dsimp only
  rw [hoptions]
  dsimp only
  rw [runWith, h, FileError.ending]
  dsimp only
  split
  · exact ⟨_, rfl⟩
  · exact ⟨_, rfl⟩

end

/-! ## Stages and steps -/

/-- How far a run has come, with what it has found for the stages ahead. -/
inductive Stage where
  | launched (arguments : List String)
  | parsed (args : Arguments)
  | configured (args : Arguments) (config : Toml.Table)
  | settled (options : Options)
  /-- These tokens of the source are pulled, and the scanner stands behind them. -/
  | scanning (options : Options) (source : List UInt8) (scanner : Scanner) (tokens : List Token)
  /-- The whole scan is done, whether it came to the end of the source or to the error limit. -/
  | scanned (options : Options) (report : Report)
  | ended (ending : Ending)

/-- A run on its way: the files as they are now, what is printed so far, and the stage. -/
structure RunState where
  files : FileTree
  stdout : String
  stage : Stage

/-- The stage behind the next token. -/
def Stage.pull (options : Options) (source : List UInt8) (scanner : Scanner)
    (tokens : List Token) : Stage :=
  let token := scanner.pull.1
  let pulled := tokens ++ [token]
  if token.kind = .endOfFile then .scanned options ⟨source, pulled, none⟩
  else if token.kind = .error ∧ reachesLimit options.limit (errorsOf pulled).length then
    .scanned options ⟨source, pulled, some scanner.pull.2.start.pos⟩
  else .scanning options source scanner.pull.2 pulled

namespace RunState

/-- A run that has done nothing yet. -/
def launch (files : FileTree) (arguments : List String) : RunState :=
  ⟨files, "", .launched arguments⟩

/-- A run that has ended with this outcome. -/
def final (o : Outcome) : RunState :=
  ⟨o.files, o.stdout, .ended o.ending⟩

/-- The run at another stage, with nothing else changed. -/
def goto (s : RunState) (stage : Stage) : RunState :=
  { s with stage := stage }

/-- What a run does at its stage. -/
def step (s : RunState) : RunState :=
  match s.stage with
  | .launched arguments =>
    match CommandLine.parse arguments with
    | .error .help => ⟨s.files, s.stdout ++ CommandLine.help, .ended (.status 0)⟩
    | .error (.usage _) => s.goto (.ended (.status 2))
    | .ok args => s.goto (.parsed args)
  | .parsed args =>
    match loadConfig s.files args with
    | .error e => s.goto (.ended e.ending)
    | .ok config => s.goto (.configured args config)
  | .configured args config =>
    match Options.merge config args with
    | .error e => s.goto (.ended e.ending)
    | .ok options => s.goto (.settled options)
  | .settled options =>
    match s.files.read options.input with
    | .error e => s.goto (.ended (e.ending options.input))
    | .ok source => s.goto (.scanning options source (.ofSource source) [])
  | .scanning options source scanner tokens => s.goto (.pull options source scanner tokens)
  | .scanned options report =>
    let o := report.publish options s.files
    ⟨o.files, s.stdout ++ o.stdout, .ended o.ending⟩
  | .ended _ => s

end RunState

/-! ## What the stages have found -/

/-- What is pulled and what the scanner still has make up the report of the source. -/
def Scanner.Completes (scanner : Scanner) (options : Options) (source : List UInt8)
    (tokens : List Token) : Prop :=
  options.report source = ⟨source,
    tokens ++ (scanner.drainUpTo options.limit (errorsOf tokens).length).1,
    (scanner.drainUpTo options.limit (errorsOf tokens).length).2⟩

/-- What an unfinished stage has found is what the command line and these files say. -/
inductive Stage.Finds (files : FileTree) (arguments : List String) : Stage → Prop where
  | launched : Finds files arguments (.launched arguments)
  | parsed {args : Arguments} : CommandLine.parse arguments = .ok args →
    Finds files arguments (.parsed args)
  | configured {args : Arguments} {config : Toml.Table} :
    CommandLine.parse arguments = .ok args → loadConfig files args = .ok config →
    Finds files arguments (.configured args config)
  | settled {args : Arguments} {options : Options} : CommandLine.parse arguments = .ok args →
    Options.resolve files args = .ok options → Finds files arguments (.settled options)
  | scanning {args : Arguments} {options : Options} {source : List UInt8} {scanner : Scanner}
    {tokens : List Token} : CommandLine.parse arguments = .ok args →
    Options.resolve files args = .ok options → files.read options.input = .ok source →
    scanner.Completes options source tokens →
    Finds files arguments (.scanning options source scanner tokens)
  | scanned {args : Arguments} {options : Options} {source : List UInt8} :
    CommandLine.parse arguments = .ok args → Options.resolve files args = .ok options →
    files.read options.input = .ok source →
    Finds files arguments (.scanned options (options.report source))

/-- A run that goes the way of a command line among these files: it has changed and printed nothing
yet, or it has ended as `run` says. -/
inductive RunState.Follows (files : FileTree) (arguments : List String) : RunState → Prop where
  | underway {stage : Stage} : stage.Finds files arguments →
    Follows files arguments ⟨files, "", stage⟩
  | ended : Follows files arguments (.final (run files arguments))

/-! ## Pulling -/

section

variable {options : Options} {source : List UInt8} {scanner : Scanner} {tokens : List Token}

/-- Before the first token the scanner has the whole report ahead of it. -/
theorem Scanner.completes_ofSource (options : Options) (source : List UInt8) :
    (ofSource source).Completes options source [] := by
  rfl

/-- One more token counts if it is an error. -/
theorem length_errorsOf_append (tokens : List Token) (t : Token) :
    (errorsOf (tokens ++ [t])).length =
      if t.kind = .error then (errorsOf tokens).length + 1 else (errorsOf tokens).length := by
  by_cases h : t.kind = .error <;> simp [errorsOf, h]

/-- Pulling a token goes on, or it is done and has the whole report. -/
theorem Stage.pull_cases (h : scanner.Completes options source tokens) :
    pull options source scanner tokens = .scanned options (options.report source) ∨
    pull options source scanner tokens =
        .scanning options source scanner.pull.2 (tokens ++ [scanner.pull.1]) ∧
      scanner.pull.2.Completes options source (tokens ++ [scanner.pull.1]) := by
  unfold Scanner.Completes at h ⊢
  unfold pull
  dsimp only
  by_cases hend : scanner.pull.1.kind = .endOfFile
  · rw [if_pos hend, h, Scanner.drainUpTo_of_end hend]
    exact .inl rfl
  · rw [if_neg hend, h, Scanner.drainUpTo_of_ne_end hend, length_errorsOf_append]
    dsimp only
    -- the same number of errors decides on both sides
    generalize (if scanner.pull.1.kind = .error then (errorsOf tokens).length + 1
      else (errorsOf tokens).length) = count
    by_cases hstop : scanner.pull.1.kind = .error ∧ reachesLimit options.limit count
    · simp only [if_pos hstop]
      exact .inl trivial
    · simp only [if_neg hstop, List.append_assoc]
      exact .inr ⟨trivial, rfl⟩

end

/-! ## Steps follow the run -/

namespace RunState

variable {files : FileTree} {arguments : List String}

/-- A run that changes and prints nothing ends where its last step has left it. -/
theorem follows_refused {ending : Ending} {notes : String}
    (h : run files arguments = .refused files ending notes) :
    Follows files arguments ⟨files, "", .ended ending⟩ := by
  have hend := @Follows.ended files arguments
  rw [h] at hend
  exact hend

/-- A step that goes the way of the run finds in the files as they are what `run` finds in the
files as they were. -/
theorem follows_step {s : RunState} (h : s.Follows files arguments) :
    s.step.Follows files arguments := by
  cases h with
  | ended => exact .ended
  | underway hfinds =>
    cases hfinds with
    | launched =>
      cases hparse : CommandLine.parse arguments with
      | error refusal =>
        cases refusal with
        | help =>
          have hend := @Follows.ended files arguments
          rw [run_of_help hparse] at hend
          simp only [step, hparse, String.empty_append]
          exact hend
        | usage e =>
          simp only [step, hparse]
          exact follows_refused (run_of_usage hparse)
      | ok args =>
        simp only [step, hparse]
        exact .underway (.parsed hparse)
    | @parsed args hargs =>
      cases hload : loadConfig files args with
      | error e =>
        obtain ⟨notes, hrun⟩ := run_of_option_error hargs (Options.resolve_of_load_error hload)
        simp only [step, hload]
        exact follows_refused hrun
      | ok config =>
        simp only [step, hload]
        exact .underway (.configured hargs hload)
    | @configured args config hargs hload =>
      have hresolve := Options.resolve_of_loaded hload
      cases hmerge : Options.merge config args with
      | error e =>
        obtain ⟨notes, hrun⟩ := run_of_option_error hargs (hresolve.trans hmerge)
        simp only [step, hmerge]
        exact follows_refused hrun
      | ok options =>
        simp only [step, hmerge]
        exact .underway (.settled hargs (hresolve.trans hmerge))
    | @settled args options hargs hoptions =>
      cases hread : files.read options.input with
      | error e =>
        obtain ⟨notes, hrun⟩ := run_of_read_error hargs hoptions hread
        simp only [step, hread]
        exact follows_refused hrun
      | ok source =>
        simp only [step, hread]
        exact .underway (.scanning hargs hoptions hread (Scanner.completes_ofSource options source))
    | scanning hargs hoptions hread hcompletes =>
      simp only [step, goto]
      -- the token was the last one of the report, or the scanner still completes it
      obtain hdone | ⟨hnext, hmore⟩ := Stage.pull_cases hcompletes
      · rw [hdone]
        exact .underway (.scanned hargs hoptions hread)
      · rw [hnext]
        exact .underway (.scanning hargs hoptions hread hmore)
    | scanned hargs hoptions hread =>
      have hend := @Follows.ended files arguments
      rw [run_eq_publish hargs hoptions hread] at hend
      simp only [step, String.empty_append]
      exact hend

/-- However many steps a run has made, it goes its way. -/
theorem follows_iterate (files : FileTree) (arguments : List String) (n : Nat) :
    (step^[n] (launch files arguments)).Follows files arguments := by
  induction n with
  | zero => exact .underway .launched
  | succ n ih =>
    rw [Function.iterate_succ_apply']
    exact follows_step ih

/-! ## Runs end -/

/-- Whether a run ends after some steps. -/
def Ends (s : RunState) : Prop :=
  ∃ n ending, (step^[n] s).stage = .ended ending

/-- A run ends if it does after one step. -/
theorem ends_of_step {s : RunState} (h : s.step.Ends) : s.Ends := by
  obtain ⟨n, ending, hended⟩ := h
  refine ⟨n + 1, ending, ?_⟩
  rwa [Function.iterate_succ_apply]

section

variable {stdout : String}

/-- A run that has ended ends. -/
theorem ends_ended (ending : Ending) : Ends ⟨files, stdout, .ended ending⟩ :=
  ⟨0, ending, rfl⟩

/-- Behind the scan there is one step left. -/
theorem ends_scanned (options : Options) (report : Report) :
    Ends ⟨files, stdout, .scanned options report⟩ := by
  apply ends_of_step
  exact ends_ended _

/-- The scanner has fewer symbols before it with every token, so the pulling comes to an end. -/
theorem ends_scanning (options : Options) (source : List UInt8) (scanner : Scanner)
    (tokens : List Token) : Ends ⟨files, stdout, .scanning options source scanner tokens⟩ := by
  induction scanner using Scanner.drain_induction generalizing tokens with
  | last scanner hend =>
    apply ends_of_step
    simp only [step, goto, Stage.pull, if_pos hend]
    exact ends_scanned _ _
  | more scanner hend ih =>
    apply ends_of_step
    simp only [step, goto, Stage.pull, if_neg hend]
    split
    · exact ends_scanned _ _
    · exact ih _

/-- With options, the run scans its input or refuses it. -/
theorem ends_settled (options : Options) : Ends ⟨files, stdout, .settled options⟩ := by
  apply ends_of_step
  simp only [step, goto]
  split
  · exact ends_ended _
  · exact ends_scanning _ _ _ _

/-- With a configuration, the run ends, whatever the options are. -/
theorem ends_configured (args : Arguments) (config : Toml.Table) :
    Ends ⟨files, stdout, .configured args config⟩ := by
  apply ends_of_step
  simp only [step, goto]
  split
  · exact ends_ended _
  · exact ends_settled _

/-- With arguments, the run ends, whatever the configuration is. -/
theorem ends_parsed (args : Arguments) : Ends ⟨files, stdout, .parsed args⟩ := by
  apply ends_of_step
  simp only [step, goto]
  split
  · exact ends_ended _
  · exact ends_configured _ _

/-- Every run ends. -/
theorem ends_launch (files : FileTree) (arguments : List String) :
    Ends (launch files arguments) := by
  apply ends_of_step
  simp only [step, launch, goto]
  split
  · exact ends_ended _
  · exact ends_ended _
  · exact ends_parsed _

end

/-- Step by step a run comes to what `run` gives at once. -/
theorem exists_iterate_eq_final (files : FileTree) (arguments : List String) :
    ∃ n, step^[n] (launch files arguments) = final (run files arguments) := by
  obtain ⟨n, ending, hended⟩ := ends_launch files arguments
  refine ⟨n, ?_⟩
  have hfollows := follows_iterate files arguments n
  generalize step^[n] (launch files arguments) = s at hended hfollows
  cases hfollows with
  | ended => rfl
  | underway hfinds =>
    -- an unfinished stage is no end
    simp only at hended
    subst hended
    cases hfinds

end RunState

end AsmLexer
