import AsmLexer.CommandLine.Arguments

/-!
# Usage and help

How the command is called, in short and in full.
-/

set_option autoImplicit false

namespace AsmLexer.CommandLine

/-- The name of the command. -/
def commandName : String := "asmscan"

/-- How the command is called. -/
def usage : String :=
  "usage: asmscan [-h] [-o OUTPUT] [--config FILE] [--skip KIND] [--max-errors N]\n" ++
  "               [--check] [--debug]\n" ++
  "               input\n"

/-- What the command does and what each flag means. -/
def help : String :=
  usage ++
  "\n" ++
  "Scan assembler source into tokens\n" ++
  "\n" ++
  "positional arguments:\n" ++
  "  input                 Input assembler file\n" ++
  "\n" ++
  "options:\n" ++
  "  -h, --help            show this help message and exit\n" ++
  "  -o OUTPUT, --output OUTPUT\n" ++
  "                        Output file (default: stdout)\n" ++
  "  --config FILE         Config file (default: auto-discover asmscan.toml)\n" ++
  "  --skip KIND           Token kind to leave out of the listing (repeatable)\n" ++
  "  --max-errors N        Stop after N errors, 0 for no limit (default: 0)\n" ++
  "  --check               Only report errors, no token listing\n" ++
  "  --debug               Dump tokens and debug log to stderr\n"

/-- What is printed about a refused command line. -/
def complaint (error : UsageError) : String :=
  usage ++ commandName ++ ": error: " ++ error.message ++ "\n"

end AsmLexer.CommandLine
