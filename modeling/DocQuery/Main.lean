import DocQuery.Shell.Launch
import Std.Time.DateTime.Timestamp

/-!
# The shell as a program

Reads the files and the variables that `DocQuery.Launch` asks for, then line after line, and prints.
-/

open DocQuery

/-- What a path leads to. -/
def readContent (path : String) : IO FileContent := do
  try
    return .text (← IO.FS.readFile path)
  catch
    | .noFileOrDirectory .. => return .missing
    | _ => return .unreadable

/-- A look-up among pairs. -/
def lookUpIn {α : Type} (pairs : List (String × α)) (name : String) : Option α :=
  (pairs.find? fun p => p.1 == name).map Prod.snd

/-- The variables of the environment with the given names. -/
def readVariables (names : List String) : IO (String → Option String) := do
  let pairs ← names.mapM fun name => do return (name, ← IO.getEnv name)
  return fun name => (lookUpIn pairs name).bind id

/-- Prints lines, of a command that began at a time of the steady clock. -/
def printLines (color : Bool) (start : Nat) (lines : List Line) : IO Unit := do
  let elapsed := (← IO.monoNanosNow) - start
  for line in lines do
    IO.println (line.print color elapsed)
  (← IO.getStdout).flush

/-- Nanoseconds since the beginning of 1970. -/
def currentTime : IO Nat := do
  let now ← Std.Time.Timestamp.now
  return now.toNanosecondsSinceUnixEpoch.val.toNat

/-- Handles line after line. -/
partial def serve (input : IO.FS.Stream) (s : Session) : IO Unit := do
  let line ← input.getLine
  let start ← IO.monoNanosNow
  let now ← currentTime
  match if line.isEmpty then none else (s.wait now).handle line with
  | none => printLines s.color start Session.farewell
  | some (s, lines) =>
    printLines s.color start lines
    serve input s

def main (arguments : List String) : IO UInt32 := do
  let start ← IO.monoNanosNow
  let environment ← readVariables (EngineConfig.variableNames ++ Style.variableNames)
  let color := Style.isWanted environment (← (← IO.getStdout).isTty)
  let files ← (Launch.files environment arguments).mapM fun path => do
    return (path, ← readContent path)
  let file := fun path => (lookUpIn files path).getD .missing
  match Launch.start ⟨file, environment, color, ← currentTime⟩ arguments with
  | .ended lines exitCode =>
    printLines color start lines
    return exitCode.toUInt32
  | .session lines s =>
    printLines color start lines
    serve (← IO.getStdin) s
    return 0
