import AsmLexer.Diagnostic

/-!
# Scanning under an error limit

A report holds the tokens of one source, up to the error that reaches the limit. A limit of zero is
no limit, and a negative one is reached by the first error. When the limit was reached, the report
also says where the scanner stood, since it was closed before the end of its source.
-/

set_option autoImplicit false

namespace AsmLexer

/-- The tokens of a source, and how scanning ended. -/
structure Report where
  source : List UInt8
  tokens : List Token
  /-- Where scanning stopped, if that was at the error limit. -/
  stoppedAt : Option Position

/-- Whether this many errors are enough to stop. -/
def reachesLimit (limit : Int) (errors : Nat) : Bool :=
  limit ≠ 0 && limit ≤ errors

/-- The tokens up to the error that reaches the limit or else to the end, and the place of the
stop, if there was one. The number of errors so far is passed along. -/
def Scanner.drainUpTo (limit : Int) (errors : Nat) (sc : Scanner) : List Token × Option Position :=
  match _h : sc.pull with
  | (token, sc') =>
    if _hkind : token.kind = .endOfFile then ([token], none)
    else
      let errors := if token.kind = .error then errors + 1 else errors
      if token.kind = .error ∧ reachesLimit limit errors then ([token], some sc'.start.pos)
      else
        let (tokens, stop) := sc'.drainUpTo limit errors
        (token :: tokens, stop)
termination_by sc.remaining
decreasing_by
  have := @Scanner.remaining_pull_lt sc
  simp_all

namespace Report

/-- Scans a source under an error limit. -/
def ofSource (limit : Int) (source : List UInt8) : Report :=
  let (tokens, stop) := (Scanner.ofSource source).drainUpTo limit 0
  ⟨source, tokens, stop⟩

/-- The error tokens. -/
def errors (r : Report) : List Token :=
  r.tokens.filter fun t => t.kind = .error

/-- Whether scanning stopped at the error limit. -/
def truncated (r : Report) : Bool :=
  r.stoppedAt.isSome

/-- The diagnostics of all errors, each followed by a newline. -/
def diagnostics (r : Report) (fileName : String) : String :=
  let shown := Diagnostic.shown r.source
  String.join (r.errors.map fun t =>
    (Diagnostic.mk t.message t.pos r.source).formatAmong shown fileName ++ "\n")

/-- The name under which the scanner writes its log. -/
def logName : String := "asmscan.scanner: "

/-- The log of the scanner: every error as it was met, and a stop before the end of the source. -/
def log (r : Report) : String :=
  String.join (r.errors.map fun t =>
      logName ++ "scan error at " ++ t.pos.text ++ ": " ++ t.message ++ "\n") ++
    match r.stoppedAt with
    | none => ""
    | some pos => logName ++ "scanner closed before end of input at " ++ pos.text ++ "\n"

end Report

end AsmLexer
