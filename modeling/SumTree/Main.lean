import SumTree.CommandLine.Command
import SumTree.CommandLine.Help
import SumTree.Spawner.InProcess

/-!
# The program

Reads the files and the variables that a command line may need, performs the command and prints what
it prints. A worker is served on the standard streams: each line of the input is the body of a
request, and its answer is printed on one line.
-/

namespace SumTree

namespace Program

/-- The name of the program. -/
def name : String := "sumtree"

/-- The file of a name, if there is one. -/
def readFile? (name : String) : IO (Option (String × FileContent)) := do
  try
    let content ← IO.FS.readBinFile name
    return some (name, .file content.toList)
  catch e =>
    match e with
    | .noFileOrDirectory .. => return none
    | .inappropriateType .. => return some (name, .directory)
    | _ => return none

/-- The words of a command line that may name files: the words themselves, and what stands behind an
equals sign. -/
def fileNames (words : List String) : List String :=
  words ++ words.filterMap fun word =>
    match word.splitOn "=" with
    | _ :: rest@(_ :: _) => some ("=".intercalate rest)
    | _ => none

/-- The variables that a command may look up. -/
def variableNames : List String :=
  ["MERKLE_AGG_WORKER_IMAGE", "MERKLE_AGG_WORKER_PORT", "MERKLE_AGG_REQUEST_TIMEOUT",
    "MERKLE_AGG_GRACE_PERIOD"]

/-- The variables that are set. -/
def readEnvironment : IO Environment := do
  let found ← variableNames.mapM fun name => do
    return (← IO.getEnv name).map (name, ·)
  return found.filterMap id

/-- What is said about a file that cannot be opened, or whose content does not parse. -/
def complaint (path : String) : Option (List UInt8) → String
  | none => path ++ " cannot be opened"
  | some _ => path ++ " is no YAML document"

/-- Prints lines. -/
def printLines (lines : List String) : IO Unit :=
  lines.forM IO.println

/-- Answers the lines of the input as requests to a worker. -/
partial def serve (w : Worker) (input : IO.FS.Stream) : IO Unit := do
  let line ← input.getLine
  if line.isEmpty then return ()
  else
    let request : Request := ⟨"POST", "/", "application/json", line.toUTF8.toList⟩
    match w.answer request with
    | .ok response =>
      IO.println (toString response.status ++ " " ++ ((response.body?.map Json.wire).getD ""))
    | .error failure => IO.println ("500 " ++ failure.inFull)
    serve w input

/-- Performs a command line and gives the exit code. -/
def perform (words : List String) : IO UInt32 := do
  let files := (← (fileNames words).mapM readFile?).filterMap id
  let environment ← readEnvironment
  let surroundings : Surroundings :=
    ⟨files, environment, fun c hasher => InProcess.circumstances c hasher fun _ => 0,
      .outside ⟨.engine, "DockerException", "no container engine"⟩, complaint⟩
  match Command.perform surroundings words with
  | .ended code lines =>
    printLines lines
    return code.toUInt32
  | .misused fault =>
    IO.eprintln ("Error: " ++ fault.message)
    return 2
  | .serving host port policy =>
    IO.eprintln ("serving " ++ host ++ " " ++ Decimal.render port ++ " " ++ policy.name)
    serve ⟨.sha256, policy⟩ (← IO.getStdin)
    return 0
  | .helping command? asked =>
    printLines (Help.on name command?)
    return if asked then 0 else 2
  | .escaped failure =>
    IO.eprintln failure.inFull
    return 1

end Program

end SumTree

def main (words : List String) : IO UInt32 :=
  SumTree.Program.perform words
