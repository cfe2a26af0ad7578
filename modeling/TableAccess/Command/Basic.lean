import TableAccess.Command.Samples

/-!
# The command line

Two commands with one argument each: one browses a database, the other writes samples.  All else
is answered with the usage.
-/

namespace TableAccess.Command

def usage : String :=
  "usage: dbrowser-demo browse <path|json> | dbrowser-demo samples <dir>"

/-- Carry out the command of the arguments. -/
def run (w : World) (arguments : List String)
    (wording : Descriptor.Wording := Descriptor.plainWording) : Ending :=
  match arguments with
  | ["browse", argument] => browse w argument wording
  | ["samples", directory] => samples w directory
  | _ => ⟨some ⟨usage, []⟩, ⟨[], w.files, []⟩⟩

namespace Ending

/-- The exit code. -/
def code (e : Ending) : Nat := if e.failure.isSome then 1 else 0

/-- The lines on standard output. -/
def output (e : Ending) : List String := e.progress.printed

/-- The lines on standard error. -/
def errorOutput (e : Ending) : List String :=
  match e.failure with
  | some f => f.report
  | none => []

end Ending

end TableAccess.Command
