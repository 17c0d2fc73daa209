import GradientMerge.Job.Run

/-!
Contract: the command line, which runs the job of a configuration file.

Owns: the passage of files between the disk and a job, and what is printed.

Does not own: anything that happens within a job. All of its peers run within this process, so the
merge service can always be offered and reached.
-/

namespace GradientMerge

namespace CommandLine

/-- The files that are on the disk at these paths. -/
def gather (paths : List String) : IO Files :=
  paths.foldlM
    (fun (files : Files) (path : String) => do
      try
        let content ← IO.FS.readBinFile path
        return (files.store path content.toList).2
      catch _ =>
        return files)
    {}

/-- Writes a file to the disk and creates the directories on the way to it. -/
def keep (path : String) (content : List UInt8) : IO Unit := do
  let parent := Files.parentPath path
  unless parent.isEmpty do
    IO.FS.createDirAll parent
  IO.FS.writeBinFile path ⟨content.toArray⟩

/-- The surroundings of a job within this process. -/
def surroundings : IO JobEnvironment := do
  let bytes ← IO.getRandomBytes 8
  let base := bytes.toList.foldl (fun value byte => 256 * value + byte.toUInt64) 0
  return {
    bind := fun _ => .ok ()
    reach := fun _ => .ok ()
    freshSeed := fun index => base + UInt64.ofNat index }

/-- What a peer did, as it is printed. -/
def reportText (report : Report) : String :=
  "peer " ++ toString report.index ++ " (" ++ report.role.name ++ ") finished after " ++
    toString report.rounds ++ " rounds"

/-- Runs the job of a configuration file; the result is the exit code. -/
def runFile (path : String) : IO UInt32 := do
  match JobConfig.load (← gather [path]) path with
  | .error cause =>
    IO.eprintln (cause.message path)
    return 1
  | .ok config =>
    let files ← gather (config.modelPath :: config.inputPath.toList)
    let outcome := Job.run (← surroundings) files config
    for text in outcome.state.transitionTexts do
      IO.println text
    match outcome.result with
    | .error cause =>
      IO.eprintln cause.toIoError.text
      return 1
    | .ok reports =>
      for report in reports do
        IO.println (reportText report)
      if reports.any Report.persisted then
        if let .ok content := outcome.state.files.read config.modelPath then
          keep config.modelPath content
      return 0

end CommandLine

end GradientMerge

/-- The command line. -/
def main (arguments : List String) : IO UInt32 :=
  match arguments with
  | path :: _ => GradientMerge.CommandLine.runFile path
  | [] => do
    IO.eprintln "usage: node <config.json>"
    return 1
