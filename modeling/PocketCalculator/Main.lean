import PocketCalculator.CommandLine
import Std.Time.Zoned

/-! # The program

`main` carries the command out in the world: the environment and the clock are read, the file of
the history is read before the command and written behind it. Text goes to standard output, the
journal to standard error. A fault ends the program with exit code 1. -/

namespace PocketCalculator.Program

/-- The environment of the process, as far as it is looked up. -/
def environment : IO Environment := do
  let values ← Settings.names.mapM fun name => return (name, ← IO.getEnv name)
  return fun name => (values.lookup name).join

/-- The moment now, in the zone of the machine. -/
def now : IO Timestamp := do
  let t ← Std.Time.PlainDateTime.now
  let date := (t.year.toInt.toNat, t.month.val.toNat, t.day.val.toNat)
  let time : ClockText :=
    { hour := t.hour.val.toNat
      minute := t.minute.val.toNat
      second := t.second.val.toNat
      microsecond := t.nanosecond.val.toNat / 1000
      isComplete := true }
  match Timestamp.ofFields date time none with
  | .ok moment => return moment
  | .error cause => throw (IO.userError cause.message)

/-- The seconds that the calculation of a line takes. -/
def seconds (settings : Settings) (line : String) : IO Binary64 := do
  let before ← IO.monoNanosNow
  let _ ← IO.lazyPure fun _ => calculate settings line
  let behind ← IO.monoNanosNow
  return Decimal.toBinary64 ⟨false, behind - before, -9⟩

/-- The tree with what stands at a path: a file, a folder, or nothing. -/
def filesAt (path : Path) : IO FileTree := do
  match ← (IO.FS.readBinFile path.text).toBaseIO with
  | .ok content => return (FileTree.empty.write path content).1
  | .error (.noFileOrDirectory ..) => return .empty
  | .error (.inappropriateType ..) => return (FileTree.empty.makeFolders path).1
  | .error cause => throw cause

/-- The file at a path is written as it stands in the tree, if it does not stand so already. -/
def saveFile (path : Path) (before behind : FileTree) : IO Unit := do
  match before.read? path, behind.read? path with
  | .ok old, .ok (some content) =>
    if old.map ByteArray.toList ≠ some content.toList then
      IO.FS.createDirAll path.parent.text
      IO.FS.writeBinFile path.text content
  | _, _ => return

/-- The command on the files of the machine. -/
def perform (settings : Settings) (args : List String) : IO UInt32 := do
  let files ← filesAt settings.historyFile
  let begun ← now
  let elapsed ← seconds settings (CommandLine.expressionOf args)
  let clock : Readings := ⟨begun, ← now, ← now, ← now, ← now, elapsed⟩
  let desk : Desk :=
    { history := ⟨none, 1, []⟩
      files := files
      trace := .empty settings.traceLimit
      journal := .start .initial }
  let (result, desk) := CommandLine.run settings clock args desk
  saveFile settings.historyFile files desk.files
  for r in desk.journal.records do
    IO.eprintln r.line
  match result with
  | .ok done =>
    IO.print done.output
    return (done.exitCode.getD 0).toUInt32
  | .error fault =>
    IO.eprintln fault.message
    return 1

end PocketCalculator.Program

open PocketCalculator in
/-- The program: a command on the settings of the environment. -/
def main (args : List String) : IO UInt32 := do
  match Settings.ofEnvironment (← Program.environment) with
  | .ok settings => Program.perform settings args
  | .error cause =>
    IO.eprintln cause.message
    return 1
