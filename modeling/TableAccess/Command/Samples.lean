import TableAccess.Command.Browse
import TableAccess.Sample

/-!
# Writing the samples

The command writes one sample of each kind into a directory, which is made if it is missing.
-/

namespace TableAccess.Command

/-- Write a sample, then go on. -/
def writeSample (w : World) (sample : Sample) (path : String) (p : Progress)
    (next : Progress → Ending) : Ending :=
  match sample.save p.files w.today path with
  | .error e => ⟨some (.ofError ("cannot write " ++ path) e), p⟩
  | .ok files => next ({ p with files }.log [sample.createdEvent path])

/-- Take away what is in the place of a file, then go on. -/
def clearPlace (path : String) (p : Progress) (next : Progress → Ending) : Ending :=
  if p.files.exists? path then
    match p.files.removeFile path with
    | .error e => ⟨some ⟨"cannot replace " ++ path, [e.message]⟩, p⟩
    | .ok files => next { p with files }
  else next p

/-- Write all samples into a directory. -/
def samples (w : World) (directory : String) : Ending :=
  let (files, problem) := w.files.createDirectory directory
  let start : Progress := ⟨[], files, []⟩
  match problem with
  | some e => ⟨some ⟨"cannot create " ++ directory, [e.message]⟩, start⟩
  | none =>
    let storePath := Path.join directory "sample.db"
    writeSample w .document (Path.join directory "sample.mvo") start fun p =>
      writeSample w .dbase (Path.join directory "sample.dbf") p fun p =>
        clearPlace storePath p fun p =>
          writeSample w .sqlite storePath p fun p =>
            (p.print ["sample databases written to " ++ directory]).ended

end TableAccess.Command
