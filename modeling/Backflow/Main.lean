import Backflow.Command.Run

namespace Backflow.Main

def fileError : IO.Error → FileError
  | .noFileOrDirectory .. => .missing
  | .alreadyExists .. => .occupied
  | .inappropriateType _ code _ =>
    if code = 21 then .isADirectory else .notADirectory
  | e => .other (toString e)

def attempt {α : Type} (act : IO α) : IO (Except FileError α) := do
  try
    return .ok (← act)
  catch e =>
    return .error (fileError e)

partial def readAll (input : IO.FS.Stream) (read : ByteArray) : IO ByteArray := do
  let more ← input.read 65536
  if more.isEmpty then return read else readAll input (read ++ more)

def readSource (name : String) : IO (Except FileError String) := do
  let bytes ←
    if name = "-" then attempt (readAll (← IO.getStdin) .empty)
    else attempt <| IO.FS.readBinFile name
  return bytes.bind decodeText

def writeMessage (m : Message) : IO Unit := IO.eprintln s!"{m.level.name.toUpper}: {m.text}"

def perform (limit : Option Level) : Action → IO Unit
  | .log m => if m.kept limit then writeMessage m else pure ()
  | .print text => IO.print text
  | .makeDirs path => if path = "" then pure () else IO.FS.createDirAll path
  | .write path text => IO.FS.writeFile path text

def performAll (limit : Option Level) (failure : Option Failure) :
    List Action → IO (Option Failure)
  | [] => return failure
  | a :: rest => do
    match ← attempt (perform limit a) with
    | .ok () => performAll limit failure rest
    | .error e => return some (.file e)

def limit : IO (Option Level) := do
  match ← IO.getEnv "BACKFLOW_LOG" with
  | some name => return Level.ofName? name
  | none => return some .info

def run (r : Request) : IO (Option Failure) := do
  let text ←
    if r.tool = .completions then pure (.ok "") else readSource r.settings.source
  let plan := r.tool.plan r.settings text
  performAll (r.settings.limit (← limit)) plan.failure plan.actions

end Backflow.Main

open Backflow in
def main (words : List String) : IO UInt32 := do
  match Request.ofWords words with
  | .error u =>
    IO.eprintln u.message
    return u.exit.toUInt32
  | .ok r =>
    let failure ← match r with
      | some r => Main.run r
      | none => pure (some .missingCommand)
    match failure with
    | none => return 0
    | some f =>
      IO.eprintln ("Error: " ++ f.text)
      return 1
