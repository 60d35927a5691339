import SheetFormula.CommandLine

/-!
# The program

Reads what an invocation needs from the file system and the standard input, and prints its outcome.
-/

namespace SheetFormula

/-- The number of a system error, which some calls report as its negative. -/
def systemCode (code : UInt32) : UInt32 :=
  if code < 0x80000000 then code else 0 - code

/-- What an error in reading a path says about it. -/
def entryOfError : IO.Error → FileEntry
  | .inappropriateType _ code _ =>
      if systemCode code = 20 then .absent .notDirectory else .directory
  | .invalidArgument _ code _ =>
      .absent (if systemCode code = 36 then .nameTooLong else .notFound)
  | _ => .absent .notFound

/-- What is found under a path. -/
def entryAt (path : List Char) : IO FileEntry := do
  let name := String.ofList path
  try
    return .contents (← IO.FS.readBinFile name)
  catch error =>
    return entryOfError error

/-- The settings file of the user, below the configuration directory. -/
def userSettingsPath : IO (Option (List Char)) := do
  let configured ← IO.getEnv "XDG_CONFIG_HOME"
  let home ← IO.getEnv "HOME"
  let directory := (configured.filter fun path => path.startsWith "/").or
    (home.map fun path => path ++ "/.config")
  return directory.map fun path => (path ++ "/cellfmt/cellfmt.toml").toList

/-- The standard input, if it is text. -/
def inputText : IO (Option (List Char)) := do
  let bytes ← (← IO.getStdin).readBinToEnd
  return (String.fromUTF8? bytes).map String.toList

/-- The surroundings of an invocation, with the files that it may read. -/
def surroundingsOf (invocation : Invocation) : IO Surroundings := do
  let userSettings ← userSettingsPath
  let entries ← (invocation.paths userSettings).mapM fun path => do return (path, ← entryAt path)
  let input ← if invocation.readsInput then inputText else pure (some [])
  return {
    userSettings, input
    files := fun path => (entries.lookup path).getD (.absent .notFound) }

/-- The surroundings of a command that reads nothing. -/
def noSurroundings : Surroundings :=
  { userSettings := none, files := fun _ => .absent .notFound, input := some [] }

end SheetFormula

open SheetFormula

/-- Run the command line. -/
def main (arguments : List String) : IO UInt32 := do
  let command := CommandLine.parse? (arguments.map String.toList)
  let surroundings ← match command with
    | some (.format invocation) => surroundingsOf invocation
    | _ => pure noSurroundings
  let outcome := CommandLine.run surroundings command
  for line in outcome.errors do
    IO.eprintln (String.ofList line)
  IO.print (String.ofList outcome.output)
  return outcome.code.toUInt32
