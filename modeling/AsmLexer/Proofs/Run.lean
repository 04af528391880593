import AsmLexer.Proofs.Files.Write
import AsmLexer.Proofs.Report
import AsmLexer.Run

/-!
# What a run leaves behind

Once there are options and a source, a run publishes one report (`run_eq_publish`). Its status is
that of the source, since a limit is reached by an error and leaves the first one in
(`Report.status_ofSource`). Its notes go to standard error in a fixed order (`Report.notes`), and
its listing to standard output, to the output file or nowhere, as the options say
(`publishes_publish`).
-/

set_option autoImplicit false

namespace AsmLexer

/-! ## Options -/

/-- Options that take what a command line says and no configuration changes. -/
structure Options.Take (options : Options) (args : Arguments) : Prop where
  input_eq : options.input = Path.ofString args.input
  output_eq : options.output = givenPath args.output
  check_eq : options.check = args.check
  debug_eq : options.debug = args.debug

/-- A result that was reached behind another one. -/
theorem exists_of_bind_eq_ok {ε α β : Type} {first : Except ε α} {next : α → Except ε β} {b : β}
    (h : first >>= next = .ok b) : ∃ a, first = .ok a ∧ next a = .ok b := by
  cases first with
  | error e => cases h
  | ok a => exact ⟨a, rfl, h⟩

/-- Merging takes over what only the command line says. -/
theorem Options.take_of_merge {config : Toml.Table} {args : Arguments} {options : Options}
    (h : merge config args = .ok options) : options.Take args := by
  unfold merge at h
  obtain ⟨configured, -, h⟩ := exists_of_bind_eq_ok h
  obtain ⟨given, -, h⟩ := exists_of_bind_eq_ok h
  obtain ⟨limit, -, h⟩ := exists_of_bind_eq_ok h
  split at h
  · cases h
  · cases h
    exact ⟨rfl, rfl, rfl, rfl⟩

/-- With a configuration, the options are what merging makes of it. -/
theorem Options.resolve_of_loaded {files : FileTree} {args : Arguments} {config : Toml.Table}
    (h : loadConfig files args = .ok config) : resolve files args = merge config args := by
  rw [resolve, h]
  rfl

/-- Without a configuration that can be read there are no options. -/
theorem Options.resolve_of_load_error {files : FileTree} {args : Arguments} {e : OptionError}
    (h : loadConfig files args = .error e) : resolve files args = .error e := by
  rw [resolve, h]
  rfl

/-- Options take over what only the command line says. -/
theorem Options.take_of_resolve {files : FileTree} {args : Arguments} {options : Options}
    (h : resolve files args = .ok options) : options.Take args := by
  obtain ⟨config, -, hmerge⟩ := exists_of_bind_eq_ok h
  exact take_of_merge hmerge

/-- The report of a source under the limit of some options. -/
def Options.report (options : Options) (source : List UInt8) : Report :=
  .ofSource options.limit source

/-! ## Standard error -/

namespace Report

/-- The notes of a report, in order: under `debug` the log, with a line for each error and one for
the stop at the limit, and all tokens; under `check` the diagnostics; the remark about the limit. -/
def notes (r : Report) (options : Options) : String :=
  (if options.debug then String.join (r.errors.map fun t =>
    "asmscan.scanner: " ++ "scan error at " ++ t.pos.text ++ ": " ++ t.message ++ "\n") else "") ++
  (if options.debug ∧ r.truncated then "asmscan.scanner: " ++
    "scanner closed before end of input at " ++ (r.stoppedAt.getD .origin).text ++ "\n" else "") ++
  (if options.debug then String.join (r.tokens.map fun t => t.line ++ "\n") else "") ++
  (if options.check then String.join (r.errors.map fun t =>
    (Diagnostic.mk t.message t.pos r.source).format options.input.text ++ "\n") else "") ++
  (if r.truncated then "error: too many errors\n" else "")

/-- What is noted during a run and at its end are all the notes. -/
theorem debugNotes_append_closingNotes (r : Report) (options : Options) :
    r.debugNotes options ++ r.closingNotes options = r.notes options := by
  have hremark : errorLine "too many errors" = "error: too many errors\n" := by decide
  rw [notes, debugNotes, closingNotes, log, hremark]
  cases hstop : r.stoppedAt with
  | none =>
    have htruncated : r.truncated = false := by rw [truncated, hstop, Option.isSome_none]
    cases options.debug <;>
      simp [htruncated, logName, dump, diagnostics, Diagnostic.format]
  | some pos =>
    have htruncated : r.truncated = true := by rw [truncated, hstop, Option.isSome_some]
    cases options.debug <;>
      simp [htruncated, logName, dump, diagnostics, Diagnostic.format, String.append_assoc]

/-! ## The status -/

/-- There are no errors if no token is one. -/
theorem errorsOf_eq_nil_iff {tokens : List Token} :
    errorsOf tokens = [] ↔ ∀ t ∈ tokens, t.kind ≠ .error := by
  simp [errorsOf]

/-- The status is one exactly if the source has an error, whatever the limit is. -/
theorem status_ofSource (limit : Nat) (source : List UInt8) :
    (ofSource limit source).status =
      if ∀ t ∈ tokenize source, t.kind ≠ .error then 0 else 1 := by
  have herrors := errors_ofSource_eq_nil_iff limit source
  rw [errorsOf_eq_nil_iff] at herrors
  rw [status]
  exact if_congr herrors rfl rfl

/-! ## Publishing -/

section

variable (r : Report) {options : Options} {files : FileTree}

/-- Under `check` only the status and the notes come out. -/
theorem publish_of_check (hcheck : options.check = true) :
    r.publish options files = ⟨.status r.status, "", r.notes options, files⟩ := by
  have hnotes := r.debugNotes_append_closingNotes options
  unfold publish
  dsimp only
  rw [if_pos hcheck, hnotes]

/-- Without an output file the listing is printed. -/
theorem publish_of_stdout (hcheck : options.check = false) (houtput : options.output = none) :
    r.publish options files =
      ⟨.status r.status, listing options.skip r.tokens, r.notes options, files⟩ := by
  have hnotes := r.debugNotes_append_closingNotes options
  unfold publish
  dsimp only
  rw [if_neg (by simp [hcheck]), houtput, hnotes]

/-- With an output file the listing is written there, and nothing is printed. -/
theorem publish_of_file {path : Path} {after : FileTree} (hcheck : options.check = false)
    (houtput : options.output = some path)
    (hwrite : files.write path (Utf8.encode (listing options.skip r.tokens).toList) = .ok after) :
    r.publish options files = ⟨.status r.status, "", r.notes options, after⟩ := by
  have hnotes := r.debugNotes_append_closingNotes options
  unfold publish
  dsimp only
  rw [if_neg (by simp [hcheck]), houtput, hnotes]
  dsimp only
  rw [hwrite]

end

end Report

/-! ## Runs -/

/-- What a run leaves behind that has published the report of a source. -/
structure Outcome.Publishes (o : Outcome) (files : FileTree) (options : Options)
    (source : List UInt8) : Prop where
  /-- The status says whether the source has an error, whatever the options are. -/
  failed_iff : o.ending = .status 1 ↔ ∃ t ∈ tokenize source, t.kind = .error
  passed_iff : o.ending = .status 0 ↔ ∀ t ∈ tokenize source, t.kind ≠ .error
  /-- Under `check` there is no listing. -/
  checked : options.check = true → o.stdout = "" ∧ o.files = files
  printed : options.check = false → options.output = none →
    o.stdout = listing options.skip (options.report source).tokens ∧ o.files = files
  /-- The output file gets what would have been printed. -/
  written : options.check = false → ∀ path ∈ options.output, o.stdout = "" ∧
    files.Gains o.files path
      (Utf8.encode (listing options.skip (options.report source).tokens).toList)
  stderr_eq : o.stderr = (options.report source).notes options

section

variable {files : FileTree} {arguments : List String} {args : Arguments} {options : Options}
  {source : List UInt8}

/-- A run whose input can be read publishes the report of that source. -/
theorem run_eq_publish (hargs : CommandLine.parse arguments = .ok args)
    (hoptions : Options.resolve files args = .ok options)
    (hread : files.read options.input = .ok source) :
    run files arguments = (options.report source).publish options files := by
  rw [run, hargs]
  dsimp only
  rw [hoptions]
  dsimp only
  rw [runWith, hread]
  rfl

/-- The status is the same wherever the listing goes, and so are the notes. -/
theorem Outcome.publishes_of {o : Outcome}
    (hending : o.ending = .status (options.report source).status)
    (hstderr : o.stderr = (options.report source).notes options)
    (checked : options.check = true → o.stdout = "" ∧ o.files = files)
    (printed : options.check = false → options.output = none →
      o.stdout = listing options.skip (options.report source).tokens ∧ o.files = files)
    (written : options.check = false → ∀ path ∈ options.output, o.stdout = "" ∧
      files.Gains o.files path
        (Utf8.encode (listing options.skip (options.report source).tokens).toList)) :
    o.Publishes files options source := by
  rw [Options.report, Report.status_ofSource] at hending
  refine ⟨?_, ?_, checked, printed, written, hstderr⟩
  · rw [hending]
    split
    · simpa using ‹∀ t ∈ tokenize source, t.kind ≠ .error›
    · simpa using ‹¬ ∀ t ∈ tokenize source, t.kind ≠ .error›
  · rw [hending]
    split
    · simpa using ‹∀ t ∈ tokenize source, t.kind ≠ .error›
    · simpa using ‹¬ ∀ t ∈ tokenize source, t.kind ≠ .error›

/-- Publishing leaves behind what it should, if the output file can be written. -/
theorem publishes_publish
    (hwritable : options.check = true ∨ ∀ path ∈ options.output, files.Writable path) :
    ((options.report source).publish options files).Publishes files options source := by
  cases hcheck : options.check with
  | true =>
    rw [Report.publish_of_check _ hcheck]
    exact Outcome.publishes_of rfl rfl (fun _ => ⟨rfl, rfl⟩) (by simp [hcheck]) (by simp [hcheck])
  | false =>
    rw [hcheck, or_iff_right (by simp)] at hwritable
    cases houtput : options.output with
    | none =>
      rw [Report.publish_of_stdout _ hcheck houtput]
      exact Outcome.publishes_of rfl rfl (by simp [hcheck]) (fun _ _ => ⟨rfl, rfl⟩)
        (by simp [houtput])
    | some path =>
      obtain ⟨after, hwrite, hgains⟩ := FileTree.write_of_writable (hwritable path houtput)
        (Utf8.encode (listing options.skip (options.report source).tokens).toList)
      rw [Report.publish_of_file _ hcheck houtput hwrite]
      refine Outcome.publishes_of rfl rfl (by simp [hcheck]) (by simp [houtput]) ?_
      intro _ other hother
      rw [houtput] at hother
      cases hother
      exact ⟨rfl, hgains⟩

end

/-- A run that has options and a source publishes the report of the source, under what the command
line says of the output and of the notes. -/
theorem run_publishes {files : FileTree} {arguments : List String} {args : Arguments}
    {options : Options} {source : List UInt8}
    (hargs : CommandLine.parse arguments = .ok args)
    (hoptions : Options.resolve files args = .ok options)
    (hread : files.read options.input = .ok source)
    (hwritable : options.check = true ∨ ∀ path ∈ options.output, files.Writable path) :
    options.Take args ∧ (run files arguments).Publishes files options source := by
  rw [run_eq_publish hargs hoptions hread]
  exact ⟨Options.take_of_resolve hoptions, publishes_publish hwritable⟩

/-- Two lines with an error each, under a configuration that stops at the first. The errors are left
out of the listing, which goes to a file. -/
theorem run_publishes_limited :
    let source : List UInt8 := [0x24, 0x0A, 0x24];
    let files : FileTree := ⟨["w"], [(["w"], .directory), (["w", "a.s"], .file source),
      (["w", "asmscan.toml"], .file (Utf8.encode "errors.max = 1".toList))]⟩;
    let arguments := ["a.s", "-o", "out", "--skip", "error", "--debug"];
    let args : Arguments :=
      { input := "a.s", output := some "out", skip := [some "error"], debug := true };
    let options : Options :=
      ⟨⟨"", ["a.s"]⟩, some ⟨"", ["out"]⟩, [.error], 1, false, true⟩;
    (CommandLine.parse arguments = .ok args ∧ Options.resolve files args = .ok options ∧
      files.read options.input = .ok source ∧
      (options.check = true ∨ ∀ path ∈ options.output, files.Writable path)) ∧
      options.Take args ∧ (run files arguments).Publishes files options source := by
  intro source files arguments args options
  have hargs : CommandLine.parse arguments = .ok args := rfl
  have hoptions : Options.resolve files args = .ok options := by
    dsimp only [files, args, options, source]
    decide +kernel
  have hread : files.read ⟨"", ["a.s"]⟩ = .ok source := FileTree.read_of_locate rfl rfl
  have hwritable : ∀ path ∈ options.output, files.Writable path := by
    rintro path ⟨⟩
    refine ⟨["w", "out"], rfl, ?_⟩
    intro entry hentry
    cases hentry
  exact ⟨⟨hargs, hoptions, hread, .inr hwritable⟩,
    run_publishes hargs hoptions hread (.inr hwritable)⟩

end AsmLexer
