import AsmLexer.Proofs.Run.Stages

/-!
# What a run leaves alone

A run that scans nothing, or cannot write what it has listed, prints nothing to standard output and
changes no file. Any other run changes at most the file at the path given for the listing, and only
in the step behind the whole scan: the options and the source are then those of the files as they
were, even where the listing takes the place of the input or of the configuration (`run_spares`).
-/

set_option autoImplicit false

namespace AsmLexer

/-- Why nothing is scanned and the status is two. -/
inductive Rejected (files : FileTree) (arguments : List String) : Prop where
  | usage {e : UsageError} : CommandLine.parse arguments = .error (.usage e) →
    Rejected files arguments
  | malformedConfig {args : Arguments} : CommandLine.parse arguments = .ok args →
    Options.resolve files args = .error (.faultyConfig .malformed) → Rejected files arguments
  | unknownKind {args : Arguments} {name : String} : CommandLine.parse arguments = .ok args →
    Options.resolve files args = .error (.unknownKind name) → Rejected files arguments
  | negativeLimit {args : Arguments} {limit : Int} : CommandLine.parse arguments = .ok args →
    Options.resolve files args = .error (.negativeLimit limit) → Rejected files arguments
  | unreadableInput {args : Arguments} {options : Options} {e : FileError} :
    CommandLine.parse arguments = .ok args → Options.resolve files args = .ok options →
    files.read options.input = .error e → e ≠ .nullInPath → Rejected files arguments

/-- The listing of a whole scan is in the file at the path given for it, and all else is as before.
The options and the source are those of the files as they were. -/
structure Lists (files : FileTree) (arguments : List String) (options : Options)
    (source : List UInt8) (path : Path) (after : FileTree) : Prop where
  asked : ∃ args, CommandLine.parse arguments = .ok args ∧
    Options.resolve files args = .ok options ∧ args.check = false ∧
    givenPath args.output = some path
  read_eq : files.read options.input = .ok source
  gains : files.Gains after path
    (Utf8.encode (listing options.skip (options.report source).tokens).toList)

/-- An outcome that has what was there before, but for the listing of a whole scan. -/
structure Outcome.Spares (o : Outcome) (files : FileTree) (arguments : List String) : Prop where
  status_two_iff : o.ending = .status 2 ↔ Rejected files arguments
  /-- Status two and whatever breaks a run off. -/
  failed : o.ending ≠ .status 0 → o.ending ≠ .status 1 → o.stdout = "" ∧ o.files = files
  changed : o.files ≠ files → ∃ options source path,
    Lists files arguments options source path o.files
  listed : ∀ args path, CommandLine.parse arguments = .ok args → args.check = false →
    givenPath args.output = some path → o.ending = .status 0 ∨ o.ending = .status 1 →
    ∃ options source, Lists files arguments options source path o.files

/-- A state of a run in which nothing is changed or printed yet, unless the run has ended. The step
that changes a file comes behind the whole scan. -/
structure RunState.Spares (s : RunState) (files : FileTree) (arguments : List String) : Prop where
  kept : s = final (run files arguments) ∨ s.files = files ∧ s.stdout = ""
  writes : s.step.files ≠ s.files → ∃ options source path,
    s.stage = .scanned options (options.report source) ∧
    Lists files arguments options source path s.step.files

/-! ## Publishing -/

/-- What becomes of a report that is published. -/
inductive Report.Published (r : Report) (options : Options) (files : FileTree) :
    Outcome → Prop where
  | kept {stdout stderr : String} : options.check = true ∨ options.output = none →
    Published r options files ⟨.status r.status, stdout, stderr, files⟩
  | written {path : Path} {stderr : String} {after : FileTree} : options.check = false →
    options.output = some path →
    files.Gains after path (Utf8.encode (listing options.skip r.tokens).toList) →
    Published r options files ⟨.status r.status, "", stderr, after⟩
  | unwritable {path : Path} {e : FileError} {stderr : String} :
    Published r options files (.refused files (.broken (.output path e)) stderr)

/-- Publishing goes in one of three ways. -/
theorem Report.published_publish (r : Report) (options : Options) (files : FileTree) :
    r.Published options files (r.publish options files) := by
  cases hcheck : options.check with
  | true =>
    rw [publish_of_check r hcheck]
    exact .kept (.inl hcheck)
  | false =>
    cases houtput : options.output with
    | none =>
      rw [publish_of_stdout r hcheck houtput]
      exact .kept (.inr houtput)
    | some path =>
      cases hwrite : files.write path (Utf8.encode (listing options.skip r.tokens).toList) with
      | ok after =>
        rw [publish_of_file r hcheck houtput hwrite]
        exact .written hcheck houtput (FileTree.gains_of_write hwrite)
      | error e =>
        simp only [publish, hcheck, houtput, hwrite]
        exact .unwritable

namespace Report.Published

variable {r : Report} {options : Options} {files : FileTree} {o : Outcome}

/-- A report has a status of its own, unless its listing cannot be written. -/
theorem ending_cases (h : r.Published options files o) :
    (o.ending = .status 0 ∨ o.ending = .status 1) ∨
      ∃ cause notes, o = .refused files (.broken cause) notes := by
  have hstatus : Ending.status r.status = .status 0 ∨ Ending.status r.status = .status 1 := by
    unfold status
    split
    · exact .inl rfl
    · exact .inr rfl
  cases h with
  | kept => exact .inl hstatus
  | written => exact .inl hstatus
  | unwritable => exact .inr ⟨_, _, rfl⟩

/-- Only the output file changes, and it gains the listing. -/
theorem exists_gains (h : r.Published options files o) (hfiles : o.files ≠ files) :
    ∃ path, options.check = false ∧ options.output = some path ∧
      files.Gains o.files path (Utf8.encode (listing options.skip r.tokens).toList) := by
  cases h with
  | kept => exact absurd rfl hfiles
  | written hcheck houtput hgains => exact ⟨_, hcheck, houtput, hgains⟩
  | unwritable => exact absurd rfl hfiles

/-- Where an output file is asked for and the run ends well, the file gains the listing. -/
theorem gains {path : Path} (h : r.Published options files o) (hcheck : options.check = false)
    (houtput : options.output = some path)
    (hending : o.ending = .status 0 ∨ o.ending = .status 1) :
    files.Gains o.files path (Utf8.encode (listing options.skip r.tokens).toList) := by
  cases h with
  | kept hnone => simp [hcheck, houtput] at hnone
  | written _ hother hgains =>
    rw [houtput] at hother
    cases hother
    exact hgains
  | unwritable => simp [Outcome.refused] at hending

end Report.Published

/-! ## The ways that a run can go -/

/-- What comes of a command line among some files. -/
inductive Outcome.Comes (files : FileTree) (arguments : List String) : Outcome → Prop where
  | helped : CommandLine.parse arguments = .error .help →
    Comes files arguments ⟨.status 0, CommandLine.help, "", files⟩
  | rejected {notes : String} : Rejected files arguments →
    Comes files arguments (.refused files (.status 2) notes)
  | broken {cause : Breakdown} {notes : String} :
    Comes files arguments (.refused files (.broken cause) notes)
  | published {args : Arguments} {options : Options} {source : List UInt8} {o : Outcome} :
    CommandLine.parse arguments = .ok args → Options.resolve files args = .ok options →
    files.read options.input = .ok source → (options.report source).Published options files o →
    Comes files arguments o

section

variable {files : FileTree} {arguments : List String} {args : Arguments} {options : Options}

/-- The options that are missing are the reason why, or they break the run off. -/
theorem rejected_of_option_error (hargs : CommandLine.parse arguments = .ok args) {e : OptionError}
    (h : Options.resolve files args = .error e) (hbreaks : e.breaksOff = false) :
    Rejected files arguments := by
  cases e with
  | faultyConfig fault =>
    cases fault with
    | malformed => exact .malformedConfig hargs h
    | longNumber digits => cases hbreaks
    | tooDeep => cases hbreaks
  | unknownKind name => exact .unknownKind hargs h
  | negativeLimit limit => exact .negativeLimit hargs h
  | undecodableConfig => cases hbreaks
  | unreachableConfig path cause => cases hbreaks
  | unshownEntry fault => cases hbreaks
  | missingKind => cases hbreaks
  | missingLimit => cases hbreaks

/-- Every run goes in one of four ways. -/
theorem comes_run (files : FileTree) (arguments : List String) :
    (run files arguments).Comes files arguments := by
  cases hparse : CommandLine.parse arguments with
  | error refusal =>
    cases refusal with
    | help =>
      rw [run_of_help hparse]
      exact .helped hparse
    | usage e =>
      rw [run_of_usage hparse]
      exact .rejected (.usage hparse)
  | ok args =>
    cases hoptions : Options.resolve files args with
    | error e =>
      obtain ⟨notes, hrun⟩ := run_of_option_error hparse hoptions
      rw [hrun, OptionError.ending]
      cases hbreaks : e.breaksOff with
      | true => exact .broken
      | false => exact .rejected (rejected_of_option_error hparse hoptions hbreaks)
    | ok options =>
      cases hread : files.read options.input with
      | error e =>
        obtain ⟨notes, hrun⟩ := run_of_read_error hparse hoptions hread
        rw [hrun, FileError.ending]
        split
        · exact .broken
        · exact .rejected (.unreadableInput hparse hoptions hread ‹e ≠ .nullInPath›)
      | ok source =>
        rw [run_eq_publish hparse hoptions hread]
        exact .published hparse hoptions hread (Report.published_publish _ _ _)

/-- What is rejected ends with the status two. -/
theorem ending_of_rejected (h : Rejected files arguments) :
    (run files arguments).ending = .status 2 := by
  cases h with
  | usage hparse => rw [run_of_usage hparse, Outcome.refused]
  | malformedConfig hargs hoptions =>
    obtain ⟨notes, hrun⟩ := run_of_option_error hargs hoptions
    rw [hrun]
    rfl
  | unknownKind hargs hoptions =>
    obtain ⟨notes, hrun⟩ := run_of_option_error hargs hoptions
    rw [hrun]
    rfl
  | negativeLimit hargs hoptions =>
    obtain ⟨notes, hrun⟩ := run_of_option_error hargs hoptions
    rw [hrun]
    rfl
  | unreadableInput hargs hoptions hread hnull =>
    obtain ⟨notes, hrun⟩ := run_of_read_error hargs hoptions hread
    rw [hrun, Outcome.refused, FileError.ending, if_neg hnull]

/-! ## What is left alone -/

/-- What a published report adds to the files is the listing that was asked for. -/
theorem lists_of_gains {source : List UInt8} {path : Path} {after : FileTree}
    (hargs : CommandLine.parse arguments = .ok args)
    (hoptions : Options.resolve files args = .ok options)
    (hread : files.read options.input = .ok source) (hcheck : options.check = false)
    (houtput : options.output = some path) (hgains : files.Gains after path
      (Utf8.encode (listing options.skip (options.report source).tokens).toList)) :
    Lists files arguments options source path after := by
  have htake := Options.take_of_resolve hoptions
  rw [htake.check_eq] at hcheck
  rw [htake.output_eq] at houtput
  exact ⟨⟨args, hargs, hoptions, hcheck, houtput⟩, hread, hgains⟩

/-- A refusal leaves everything as it was. -/
theorem Outcome.spares_refused {ending : Ending} {notes : String}
    (htwo : ending = .status 2 ↔ Rejected files arguments) (hzero : ending ≠ .status 0)
    (hone : ending ≠ .status 1) : (refused files ending notes).Spares files arguments := by
  refine ⟨htwo, ?_, ?_, ?_⟩
  · intro _ _
    exact ⟨rfl, rfl⟩
  · intro hfiles
    exact absurd rfl hfiles
  · rintro args path - - - (hending | hending)
    · exact absurd hending hzero
    · exact absurd hending hone

/-- The ways that a run can go spare the files, if the run of a rejected command line is one that
is refused. -/
theorem Outcome.spares_of_comes {o : Outcome} (h : o.Comes files arguments)
    (hrejected : Rejected files arguments → o.ending = .status 2) : o.Spares files arguments := by
  cases h with
  | helped hparse =>
    refine ⟨⟨?_, hrejected⟩, ?_, ?_, ?_⟩
    · intro hending
      cases hending
    · intro hending _
      exact absurd rfl hending
    · intro hfiles
      exact absurd rfl hfiles
    · intro args path hargs
      rw [hparse] at hargs
      cases hargs
  | rejected hwhy => exact spares_refused ⟨fun _ => hwhy, hrejected⟩ (by simp) (by simp)
  | broken => exact spares_refused ⟨by simp, hrejected⟩ (by simp) (by simp)
  | @published args options source _ hargs hoptions hread hpublished =>
    have htake := Options.take_of_resolve hoptions
    refine ⟨⟨?_, hrejected⟩, ?_, ?_, ?_⟩
    · intro hending
      obtain (hzero | hone) | ⟨cause, notes, rfl⟩ := hpublished.ending_cases
      · simp [hzero] at hending
      · simp [hone] at hending
      · cases hending
    · intro hzero hone
      obtain (hstatus | hstatus) | ⟨cause, notes, rfl⟩ := hpublished.ending_cases
      · exact absurd hstatus hzero
      · exact absurd hstatus hone
      · exact ⟨rfl, rfl⟩
    · intro hfiles
      obtain ⟨path, hcheck, houtput, hgains⟩ := hpublished.exists_gains hfiles
      exact ⟨options, source, path, lists_of_gains hargs hoptions hread hcheck houtput hgains⟩
    · intro args' path hargs' hcheck houtput hending
      rw [hargs] at hargs'
      cases hargs'
      rw [← htake.check_eq] at hcheck
      rw [← htake.output_eq] at houtput
      have hgains := hpublished.gains hcheck houtput hending
      exact ⟨options, source, lists_of_gains hargs hoptions hread hcheck houtput hgains⟩

/-- The one step that can change a file is the one behind the whole scan. -/
theorem RunState.exists_scanned_of_files_step {s : RunState} (h : s.step.files ≠ s.files) :
    ∃ options report, s.stage = .scanned options report := by
  obtain ⟨files, stdout, stage⟩ := s
  cases stage with
  | scanned options report => exact ⟨options, report, rfl⟩
  | launched arguments =>
    simp only [step, goto] at h
    split at h
    · exact absurd rfl h
    · exact absurd rfl h
    · exact absurd rfl h
  | parsed args =>
    simp only [step, goto] at h
    split at h
    · exact absurd rfl h
    · exact absurd rfl h
  | configured args config =>
    simp only [step, goto] at h
    split at h
    · exact absurd rfl h
    · exact absurd rfl h
  | settled options =>
    simp only [step, goto] at h
    split at h
    · exact absurd rfl h
    · exact absurd rfl h
  | scanning options source scanner tokens => exact absurd rfl h
  | ended ending => exact absurd rfl h

/-- On the way of a run nothing is lost. -/
theorem RunState.spares_of_follows {s : RunState} (h : s.Follows files arguments) :
    s.Spares files arguments := by
  cases h with
  | ended =>
    refine ⟨.inl rfl, ?_⟩
    intro hfiles
    exact absurd rfl hfiles
  | @underway stage hfinds =>
    refine ⟨.inr ⟨rfl, rfl⟩, ?_⟩
    intro hfiles
    obtain ⟨options, report, hstage⟩ := exists_scanned_of_files_step hfiles
    dsimp only at hstage
    subst hstage
    cases hfinds with
    | @scanned args _ source hargs hoptions hread =>
      have hpublished := (options.report source).published_publish options files
      obtain ⟨path, hcheck, houtput, hgains⟩ := hpublished.exists_gains hfiles
      exact ⟨options, source, path, rfl,
        lists_of_gains hargs hoptions hread hcheck houtput hgains⟩

end

/-- A run leaves everything as it was, but for the listing that it was asked for. All it does before
the end of the scan is to read. -/
theorem run_spares (files : FileTree) (arguments : List String) :
    (run files arguments).Spares files arguments ∧
    (∃ n, RunState.step^[n] (.launch files arguments) = .final (run files arguments)) ∧
    ∀ n, (RunState.step^[n] (.launch files arguments)).Spares files arguments := by
  refine ⟨?_, ?_, ?_⟩
  · exact Outcome.spares_of_comes (comes_run files arguments) ending_of_rejected
  · exact RunState.exists_iterate_eq_final files arguments
  · intro n
    exact RunState.spares_of_follows (RunState.follows_iterate files arguments n)

end AsmLexer
