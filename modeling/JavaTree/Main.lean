import JavaTree.CommandLine

/-! # The program

    The command line on the file system of the machine. -/

namespace JavaTree

/-- A failure of the operating system.  Its own words are kept where no case
    of ours fits. -/
def StorageError.ofIO : IO.Error → StorageError
  | .noFileOrDirectory .. => .notFound
  | .alreadyExists .. => .alreadyExists
  | .inappropriateType _ code details =>
    if code.toNat = 20 then .notDirectory else if code.toNat = 21 then .isDirectory
    else .other (details ++ " (os error " ++ toString code.toNat ++ ")")
  | e => .other (toString e)

/-- Run an action and catch its failure. -/
def attempt {α : Type} (action : IO α) : IO (Except StorageError α) := do
  try
    return .ok (← action)
  catch e =>
    return .error (.ofIO e)

/-- The text of a file of the machine. -/
def readText (path : String) : IO (Except StorageError String) := do
  match ← attempt (IO.FS.readBinFile path) with
  | .error e => return .error e
  | .ok contents =>
    match String.fromUTF8? contents with
    | some text => return .ok text
    | none => return .error .notText

/-- The file system of the machine as storage. -/
def machineStorage : Storage IO where
  isFile path := do
    match ← attempt (do return (← (← IO.FS.realPath path).metadata).type) with
    | .ok .file => return true
    | _ => return false
  isDirectory path := do
    match ← attempt (do return (← (← IO.FS.realPath path).metadata).type) with
    | .ok .dir => return true
    | _ => return false
  read := readText
  write path text := attempt (IO.FS.writeFile path text)
  makeDirectory path := attempt (IO.FS.createDir path)

end JavaTree

/-- Run the program. -/
def main (arguments : List String) : IO UInt32 := do
  let result ← JavaTree.CommandLine.run JavaTree.machineStorage arguments
  IO.print result.stdout
  IO.eprint result.stderr
  return UInt32.ofNat result.exitCode
