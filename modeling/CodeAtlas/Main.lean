import CodeAtlas.Command.Basic

/-!
# The program

The command on the file system of the machine. Only here is anything read or printed.
-/
namespace CodeAtlas.Command

/-- The number of an error of the operating system, which may be reported negated. -/
def errorNumber (code : UInt32) : Nat := min code.toNat (0 - code).toNat

/-- The flaw that an operating system reports. -/
def flawOf (e : IO.Error) : FileFlaw :=
  match e with
  | .noFileOrDirectory .. => .notFound
  | .inappropriateType _ code _ =>
    if errorNumber code = 20 then .notDirectory else .isDirectory
  | .invalidArgument _ code _ =>
    if errorNumber code = 36 then .nameTooLong else .nulInPath
  | e => .reported (toString e)

/-- The text of a file. -/
def readText (path : String) : IO (Except FileFlaw String) := do
  match ← (IO.FS.readBinFile path).toBaseIO with
  | .ok bytes => return ((String.fromUTF8? bytes).map .ok).getD (.error .notText)
  | .error e => return .error (flawOf e)

/-- A place to list entries from. -/
def place (path : String) : IO.FS.DirEntry := { root := path, fileName := "" }

/-- The files at any depth below a folder. Links are not followed. -/
partial def filesBelow (path : String) : ExceptT FileFlaw IO (List (List String)) := do
  let entries ← match ← (place path).root.readDir.toBaseIO with
    | .ok entries => pure (entries.toList.mergeSort fun a b => a.fileName < b.fileName)
    | .error e => throw (.inFolder path (flawOf e))
  let mut found := []
  for entry in entries do
    let inner := Location.join path entry.fileName
    match ← entry.path.symlinkMetadata.toBaseIO with
    | .ok data =>
      match data.type with
      | .dir => found := found ++ (← filesBelow inner).map (entry.fileName :: ·)
      | .file => found := found ++ [[entry.fileName]]
      | _ => pure ()
    | .error e => throw (.inFolder inner (flawOf e))
  return found

/-- The file system of the machine. -/
def machine : FileSystem IO where
  read := readText
  below path := do
    if ← (place path).root.isDir then return some (← (filesBelow path).run) else return none

end CodeAtlas.Command

/-- Run the command on its arguments. -/
def main (arguments : List String) : IO UInt32 := do
  let outcome ← CodeAtlas.Command.run CodeAtlas.Command.machine arguments
  let out ← IO.getStdout
  out.putStr outcome.output
  out.flush
  return outcome.status.toUInt32
